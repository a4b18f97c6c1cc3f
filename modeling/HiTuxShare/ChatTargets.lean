import HiTuxShare.ChatCommandParser
import HiTuxShare.ConnectionManager

namespace HiTuxShare
set_option autoImplicit true

open MuscleLibrary

/-- A typed name without one of these is no pattern. -/
def hasWildcard (text : String) : Bool := '*' ∈ text.toList || '?' ∈ text.toList

/-- A user somebody has named, with the place of their connection in the list. -/
structure ResolvedUser where
  connection : Nat
  sessionId : String
  displayName : String
  deriving DecidableEq

namespace UserRegistry
variable [MuscleLibrary]

/-- A session ID wins outright, and a name over a pattern. -/
def resolveToSessionIds (users : UserRegistry) (nameOrSessionId : String) : List String :=
  if nameOrSessionId = "" then []
  else if (users.get? nameOrSessionId).isSome then [nameOrSessionId]
  else
    let named := (users.entries.filter fun e => e.2.userName = nameOrSessionId).map Prod.fst
    if named ≠ [] then named
    else if hasWildcard nameOrSessionId = false then []
    else (users.entries.filter fun e => matchesPattern nameOrSessionId e.2.userName).map Prod.fst

end UserRegistry

namespace ConnectionManagerWorld

def isAnyConnected (m : ConnectionManagerWorld) : Bool :=
  m.connections.any fun c => c.world.isConnected

def sendChatToAll (m : ConnectionManagerWorld) (text : String) : ConnectionManagerWorld :=
  m.onAll fun c => if c.world.isConnected then c.world.sendChatText "*" text else c.world

def startQueryOnAll (m : ConnectionManagerWorld) (sessionExpression fileExpression : String) :
    ConnectionManagerWorld :=
  m.onAll fun c =>
    if c.world.isConnected then c.world.startQuery sessionExpression fileExpression else c.world

def stopQueryOnAll (m : ConnectionManagerWorld) : ConnectionManagerWorld :=
  m.onAll fun c => c.world.stopQuery

def getAt (m : ConnectionManagerWorld) (index : Nat) : Option ManagedConnection :=
  m.connections[index]?

/-- A call of one connection, by its place in the list. -/
def onConnection (m : ConnectionManagerWorld) (index : Nat)
    (call : ConnectionWorld → ConnectionWorld) : ConnectionManagerWorld :=
  { m with connections := m.connections.modify index fun c => { c with world := call c.world } }

theorem getAt_onConnection (m : ConnectionManagerWorld) (target index : Nat)
    (call : ConnectionWorld → ConnectionWorld) : (m.onConnection target call).getAt index =
      (m.getAt index).map fun c =>
        if target = index then { c with world := call c.world } else c := by
  rw [getAt, onConnection, List.getElem?_modify]
  rfl

variable [MuscleLibrary]

/-- One name may stand for different people on different servers. -/
def resolveToUsers (m : ConnectionManagerWorld) (nameOrSessionId : String) : List ResolvedUser :=
  m.connections.zipIdx.flatMap fun c =>
    (c.1.world.users.resolveToSessionIds nameOrSessionId).map fun sessionId =>
      ⟨c.2, sessionId, c.1.world.users.getDisplayNameForSession sessionId⟩

end ConnectionManagerWorld

theorem UserRegistry.getDisplayNameForSession_eq {users : UserRegistry}
    (h : users.get? sessionId = some user) :
    users.getDisplayNameForSession sessionId = user.displayName := by
  simp only [getDisplayNameForSession, h]

theorem mem_keys_filter {users : UserRegistry} {p : UserRecord → Bool} :
    sessionId ∈ (users.entries.filter fun e => p e.2).map Prod.fst ↔
      ∃ user, users.get? sessionId = some user ∧ p user = true := by
  simp only [List.mem_map, List.mem_filter, Hashtable.get?_eq_some_iff]
  constructor
  · rintro ⟨⟨key, user⟩, ⟨hm, hp⟩, rfl⟩
    exact ⟨user, hm, hp⟩
  · rintro ⟨user, hm, hp⟩
    exact ⟨_, ⟨hm, hp⟩, rfl⟩

/-- Nobody on the server is called so. -/
def UserRegistry.Unnamed (users : UserRegistry) (typed : String) : Prop :=
  ∀ sessionId user, users.get? sessionId = some user → user.userName ≠ typed

section
variable [MuscleLibrary]

/-- Whom a typed name stands for among the users of one server. -/
inductive StandsFor (users : UserRegistry) (typed : String) : String → UserRecord → Prop
  | byId : users.get? typed = some user → StandsFor users typed typed user
  | byName : users.get? typed = none → users.get? sessionId = some user →
      user.userName = typed → StandsFor users typed sessionId user
  | byPattern : users.get? typed = none → users.Unnamed typed → hasWildcard typed = true →
      users.get? sessionId = some user → matchesPattern typed user.userName = true →
      StandsFor users typed sessionId user

theorem StandsFor.isUser (h : StandsFor users typed sessionId user) :
    users.get? sessionId = some user := by
  cases h with
  | byId hget => exact hget
  | byName _ hget _ => exact hget
  | byPattern _ _ _ hget _ => exact hget

theorem standsFor_of_id (hid : users.get? typed = some owner) :
    (∃ user, StandsFor users typed sessionId user) ↔ sessionId = typed := by
  constructor
  · rintro ⟨user, h⟩
    cases h with
    | byId _ => rfl
    | byName hnone _ _ => exact absurd (hid.symm.trans hnone) (Option.some_ne_none owner)
    | byPattern hnone _ _ _ _ => exact absurd (hid.symm.trans hnone) (Option.some_ne_none owner)
  · rintro rfl
    exact ⟨owner, .byId hid⟩

theorem standsFor_of_name (hid : users.get? typed = none) (hnamed : ¬users.Unnamed typed) :
    (∃ user, StandsFor users typed sessionId user) ↔
      ∃ user, users.get? sessionId = some user ∧ user.userName = typed := by
  constructor
  · rintro ⟨user, h⟩
    cases h with
    | byId hget => exact absurd (hget.symm.trans hid) (Option.some_ne_none user)
    | byName _ hget hname => exact ⟨user, hget, hname⟩
    | byPattern _ hnobody _ _ _ => exact absurd hnobody hnamed
  · rintro ⟨user, hget, hname⟩
    exact ⟨user, .byName hid hget hname⟩

theorem standsFor_of_pattern (hid : users.get? typed = none) (hnobody : users.Unnamed typed) :
    (∃ user, StandsFor users typed sessionId user) ↔ hasWildcard typed = true ∧
      ∃ user, users.get? sessionId = some user ∧ matchesPattern typed user.userName = true := by
  constructor
  · rintro ⟨user, h⟩
    cases h with
    | byId hget => exact absurd (hget.symm.trans hid) (Option.some_ne_none user)
    | byName _ hget hname => exact absurd hname (hnobody _ _ hget)
    | byPattern _ _ hwild hget hmatch => exact ⟨hwild, user, hget, hmatch⟩
  · rintro ⟨hwild, user, hget, hmatch⟩
    exact ⟨user, .byPattern hid hnobody hwild hget hmatch⟩

theorem mem_resolveToSessionIds {users : UserRegistry} (htyped : typed ≠ "") :
    sessionId ∈ users.resolveToSessionIds typed ↔ ∃ user, StandsFor users typed sessionId user := by
  rw [UserRegistry.resolveToSessionIds, if_neg htyped]
  cases hid : users.get? typed with
  | some owner =>
    rw [standsFor_of_id hid, Option.isSome_some, if_pos rfl, List.mem_singleton]
  | none =>
    rw [Option.isSome_none, if_neg Bool.false_ne_true]
    have hnamed {sessionId : String} : sessionId ∈
        (users.entries.filter fun e => e.2.userName = typed).map Prod.fst ↔
          ∃ user, users.get? sessionId = some user ∧ user.userName = typed := by
      simp only [mem_keys_filter (p := fun user => user.userName = typed), decide_eq_true_eq]
    by_cases hany : (users.entries.filter fun e => e.2.userName = typed).map Prod.fst = []
    · have hnobody : users.Unnamed typed := by
        intro key user hget hname
        have hm := hnamed.mpr ⟨user, hget, hname⟩
        rw [hany] at hm
        cases hm
      simp only [hany, ne_eq, not_true_eq_false, if_false]
      rw [standsFor_of_pattern hid hnobody]
      cases hwild : hasWildcard typed with
      | false => simp
      | true => simp [mem_keys_filter (p := fun user => matchesPattern typed user.userName)]
    · have hsomebody : ¬users.Unnamed typed := by
        intro hnobody
        obtain ⟨key, hm⟩ := List.exists_mem_of_ne_nil _ hany
        obtain ⟨owner, hget, hname⟩ := hnamed.mp hm
        exact hnobody _ _ hget hname
      simp only [ne_eq, hany, not_false_eq_true, if_true]
      rw [hnamed, standsFor_of_name hid hsomebody]

theorem mem_resolveToUsers {m : ConnectionManagerWorld} (htyped : typed ≠ "")
    {target : ResolvedUser} :
    target ∈ m.resolveToUsers typed ↔ ∃ c user, m.connections[target.connection]? = some c ∧
      StandsFor c.world.users typed target.sessionId user ∧
        target.displayName = user.displayName := by
  simp only [ConnectionManagerWorld.resolveToUsers, List.mem_flatMap, List.mem_map]
  constructor
  · rintro ⟨⟨c, index⟩, hc, sessionId, hm, rfl⟩
    obtain ⟨user, hstands⟩ := (mem_resolveToSessionIds htyped).mp hm
    exact ⟨c, user, List.mem_zipIdx_iff_getElem?.mp hc, hstands,
      UserRegistry.getDisplayNameForSession_eq hstands.isUser⟩
  · obtain ⟨index, sessionId, displayName⟩ := target
    rintro ⟨c, user, hc, hstands, rfl⟩
    refine ⟨(c, index), List.mem_zipIdx_iff_getElem?.mpr hc, sessionId,
      (mem_resolveToSessionIds htyped).mpr ⟨user, hstands⟩, ?_⟩
    rw [UserRegistry.getDisplayNameForSession_eq hstands.isUser]

end

end HiTuxShare
