import HiTuxShare.PrivateMessages

namespace HiTuxShare
set_option autoImplicit true

namespace UserRegistry

/-- The user of that session has exactly the typed session ID or name. -/
def IsExactly (users : UserRegistry) (typed sessionId : String) : Prop :=
  ∃ user, users.get? sessionId = some user ∧ (sessionId = typed ∨ user.userName = typed)

def KnowsExactly (users : UserRegistry) (typed : String) : Prop :=
  ∃ sessionId, users.IsExactly typed sessionId

variable [MuscleLibrary]

/-- As a pattern the typed text stands for nobody on the server. -/
def NoPatternMatch (users : UserRegistry) (typed : String) : Prop :=
  hasWildcard typed = true → ∀ sessionId user, users.get? sessionId = some user →
    MuscleLibrary.matchesPattern typed user.userName = false

theorem standsFor_exactly_iff (users : UserRegistry) (typed : String) :
    (∀ sessionId user, StandsFor users typed sessionId user → users.IsExactly typed sessionId) ↔
      (¬users.KnowsExactly typed → users.NoPatternMatch typed) := by
  constructor
  · intro h hunknown hwild sessionId user hget
    by_contra hmatch
    have hid : users.get? typed = none := by
      by_contra hsome
      obtain ⟨owner, howner⟩ := Option.ne_none_iff_exists'.mp hsome
      exact hunknown ⟨typed, owner, howner, .inl rfl⟩
    have hnobody : users.Unnamed typed := fun key owner howner hname =>
      hunknown ⟨key, owner, howner, .inr hname⟩
    exact hunknown ⟨sessionId, h sessionId user
      (.byPattern hid hnobody hwild hget (Bool.eq_true_of_not_eq_false hmatch))⟩
  · intro h sessionId user hstands
    cases hstands with
    | byId hget => exact ⟨user, hget, .inl rfl⟩
    | byName _ hget hname => exact ⟨user, hget, .inr hname⟩
    | byPattern hid hnobody hwild hget hmatch =>
      have hunknown : ¬users.KnowsExactly typed := by
        rintro ⟨key, owner, howner, rfl | hname⟩
        · exact absurd (howner.symm.trans hid) (Option.some_ne_none owner)
        · exact hnobody key owner howner hname
      exact absurd (hmatch.symm.trans (h hunknown hwild sessionId user hget))
        Bool.true_eq_false_eq_False

end UserRegistry

section
variable [MuscleLibrary]

theorem resolveToUsers_empty (m : ConnectionManagerWorld) : m.resolveToUsers "" = [] := by
  rw [ConnectionManagerWorld.resolveToUsers, List.flatMap_eq_nil_iff]
  rintro c -
  rfl

variable [QtWidgets] [MuscleText] [QtLibrary]

/-- The typed text stands for users that are called exactly so, and nobody else is sent what is
meant for them. -/
structure ReachesExactOnly (m : ConnectionManagerWorld) (typed : String) : Prop where
  resolved : ∀ target ∈ m.resolveToUsers typed, ∃ c, m.connections[target.connection]? = some c ∧
    c.world.users.IsExactly typed target.sessionId
  sent : ∀ w : ChatWindowWorld, w.connections = m → ∀ a text, text ≠ "" →
    ∀ o ∈ m.occurrencesSince (w.sendPrivateMessage a typed text).connections,
      ∀ message, o.2 = .sent message → message.what = .newChatText →
        ∃ sessionId, o.1.world.users.IsExactly typed sessionId ∧
          message = chatLine o.1.world.localSessionId sessionId text

theorem reachesExactOnly_iff (m : ConnectionManagerWorld) (typed : String) :
    ReachesExactOnly m typed ↔ ∀ c ∈ m.connections,
      ¬c.world.users.KnowsExactly typed → c.world.users.NoPatternMatch typed := by
  by_cases htyped : typed = ""
  · subst htyped
    constructor
    · intro _ c _ _ hwild
      exact absurd hwild (by decide)
    · intro _
      constructor
      · intro target hm
        rw [resolveToUsers_empty] at hm
        cases hm
      · rintro w rfl a text - ⟨c, o⟩ hm message rfl hchat
        have hsent := ChatWindowWorld.mem_chatsSince.mpr ⟨hchat, c, hm⟩
        rw [ChatWindowWorld.sendPrivateMessage_silent a text (.inr (resolveToUsers_empty _))]
          at hsent
        cases hsent
  · constructor
    · intro h c hc
      apply (c.world.users.standsFor_exactly_iff typed).mp
      intro sessionId user hstands
      obtain ⟨index, hindex⟩ := List.mem_iff_getElem?.mp hc
      have hm : (⟨index, sessionId, user.displayName⟩ : ResolvedUser) ∈ m.resolveToUsers typed :=
        (mem_resolveToUsers htyped).mpr ⟨c, user, hindex, hstands, rfl⟩
      obtain ⟨c', hc', hexact⟩ := h.resolved _ hm
      cases hindex.symm.trans hc'
      exact hexact
    · intro h
      have hexact {c : ManagedConnection} (hc : c ∈ m.connections) :=
        (c.world.users.standsFor_exactly_iff typed).mpr (h c hc)
      constructor
      · intro target hm
        obtain ⟨c, user, hc, hstands, -⟩ := (mem_resolveToUsers htyped).mp hm
        exact ⟨c, hc, hexact (List.mem_of_getElem? hc) _ _ hstands⟩
      · rintro w rfl a text htext ⟨c', o⟩ hm message rfl hchat
        have hsent := List.ne_nil_of_mem (ChatWindowWorld.mem_chatsSince.mpr ⟨hchat, c', hm⟩)
        obtain ⟨c, hc, -, hsame, sessionId, user, hstands, ho⟩ :=
          ChatWindowWorld.of_mem_sendPrivateMessage htyped htext hsent hm
        refine ⟨sessionId, ?_, ?_⟩
        · rw [hsame]
          exact hexact hc _ _ hstands
        · rw [hsame]
          exact ConnectionOccurrence.sent.inj ho

/-- An exact name wins over a pattern on all servers exactly if the typed text is no pattern that
stands for somebody on a server where nobody is called so. -/
theorem exact_names_win_iff (m : ConnectionManagerWorld) (typed : String) :
    ((∃ c ∈ m.connections, c.world.users.KnowsExactly typed) → ReachesExactOnly m typed) ↔
      ((∃ c ∈ m.connections, c.world.users.KnowsExactly typed) → ∀ c ∈ m.connections,
        ¬c.world.users.KnowsExactly typed → c.world.users.NoPatternMatch typed) := by
  rw [reachesExactOnly_iff]

end

section
attribute [local instance] plainWidgets asciiText plainQt plainLibrary

/-- On one server somebody is called "*", and on the other one there is somebody else. -/
def starServers : ConnectionManagerWorld where
  connections := [
    { serial := 0
      born := 0
      world := {
        serverAddress := "a"
        users := Hashtable.empty.put "7" { sessionId := "7", userName := "*" } } },
    { serial := 1
      born := 1
      world := {
        serverAddress := "b"
        users := Hashtable.empty.put "9" { sessionId := "9", userName := "ann" } } }]

/-- What is meant for "*" goes to "ann" as well. -/
theorem star_is_taken_for_a_pattern :
    ¬∀ (m : ConnectionManagerWorld) (typed : String),
      (∃ c ∈ m.connections, c.world.users.KnowsExactly typed) → ReachesExactOnly m typed := by
  intro h
  have hknown : ∃ c ∈ starServers.connections, c.world.users.KnowsExactly "*" := by
    refine ⟨_, List.mem_cons_self, "7", { sessionId := "7", userName := "*" }, ?_, .inr rfl⟩
    decide
  have hresolved : (⟨1, "9", "ann"⟩ : ResolvedUser) ∈ starServers.resolveToUsers "*" := by decide
  obtain ⟨c, hc, user, hget, hexact⟩ := (h starServers "*" hknown).resolved _ hresolved
  cases hc
  cases hget
  exact absurd hexact (by decide)

end

end HiTuxShare
