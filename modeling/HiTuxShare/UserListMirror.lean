import HiTuxShare.HeardUsers
import HiTuxShare.ListWindow
import Mathlib.Logic.Function.Basic

namespace HiTuxShare
set_option autoImplicit true

/-- The connection and the session that a row is about. -/
def UserListEntry.origin (entry : UserListEntry) : Nat × String :=
  (entry.connection, entry.user.sessionId)

/-- The user of a session on a connection. -/
def findUser (registry : Nat → UserRegistry) (origin : Nat × String) : Option UserRecord :=
  (registry origin.1).findUser origin.2

theorem findUser_update (registry : Nat → UserRegistry) (connection : Nat) (users : UserRegistry)
    (origin : Nat × String) : findUser (Function.update registry connection users) origin =
      if origin.1 = connection then users.findUser origin.2 else findUser registry origin := by
  rw [findUser, Function.update_apply]
  split <;> rfl

theorem findUser_update_at {registry : Nat → UserRegistry} {connection : Nat}
    {users : UserRegistry} {known : Option UserRecord}
    (h : ∀ sessionId', users.findUser sessionId' =
      if sessionId = sessionId' then known else (registry connection).findUser sessionId')
    (origin : Nat × String) : findUser (Function.update registry connection users) origin =
      if origin = (connection, sessionId) then known else findUser registry origin := by
  rw [findUser_update, h]
  by_cases hc : origin.1 = connection
  · subst hc
    rw [if_pos rfl]
    apply if_congr _ rfl rfl
    rw [Prod.ext_iff, eq_self, true_and, eq_comm]
  · rw [if_neg hc, if_neg fun heq => hc (congrArg Prod.fst heq)]

section
variable [QtLibrary]

namespace UserListModel

def originKey (origin : Nat × String) : String := makeKey origin.1 (toQString origin.2)

theorem entryKey_eq (entry : UserListEntry) : entryKey entry = originKey entry.origin := rfl

theorem originKey_inj {origin origin' : Nat × String} (h : isUtf8 origin.2 = true)
    (h' : isUtf8 origin'.2 = true) : originKey origin = originKey origin' ↔ origin = origin' := by
  rw [originKey, originKey, makeKey, makeKey, connectionKey_inj, toQString_inj h h', Prod.ext_iff]

/-- The rows are the users of all registries, and the index is right. -/
structure IsMirror (m : UserListModel) (registry : Nat → UserRegistry) : Prop where
  indexed : m.Indexed entryKey
  valid : ∀ entry ∈ m.rows, isUtf8 entry.origin.2 = true
  listed : ∀ origin user, findUser registry origin = some user ↔
    ∃ entry ∈ m.rows, entry.origin = origin ∧ entry.user = user

variable {m : UserListModel} {registry : Nat → UserRegistry}

/-- No user has two rows. -/
theorem IsMirror.once (h : IsMirror m registry) : (m.rows.map UserListEntry.origin).Nodup :=
  IndexedRows.Indexed.nodup_names originKey h.indexed

theorem IsMirror.key_ne_iff (h : IsMirror m registry) (hm : entry ∈ m.rows)
    (origin : Nat × String) (hvalid : isUtf8 origin.2 = true) :
    entryKey entry ≠ originKey origin ↔ entry.origin ≠ origin := by
  rw [ne_eq, entryKey_eq, originKey_inj (h.valid entry hm) hvalid]

theorem IsMirror.updateUser (h : IsMirror m registry) (connection : Nat) (serverName : String)
    {user : UserRecord} (hvalid : isUtf8 user.sessionId = true) :
    IsMirror (updateUser m connection serverName user)
      (Function.update registry connection ((registry connection).put user.sessionId user)) := by
  let entry : UserListEntry := ⟨user, connection, serverName⟩
  have hrows (row : UserListEntry) : row ∈ (m.put entryKey entry).rows ↔
      row = entry ∨ row ∈ m.rows ∧ row.origin ≠ entry.origin := by
    rw [h.indexed.mem_put, entryKey_eq entry]
    exact or_congr_right (and_congr_right fun hm => h.key_ne_iff hm entry.origin hvalid)
  have hfind (origin : Nat × String) : findUser (Function.update registry connection
      ((registry connection).put user.sessionId user)) origin =
        if origin = entry.origin then some user else findUser registry origin :=
    findUser_update_at (fun sessionId => UserRegistry.findUser_put _ _ sessionId user) origin
  refine ⟨h.indexed.put entry, fun row hm => ?_, fun origin known => ?_⟩
  · rcases (hrows row).mp hm with rfl | ⟨hm, -⟩
    · exact hvalid
    · exact h.valid row hm
  · rw [hfind]
    split
    · next heq =>
      subst heq
      constructor
      · rintro ⟨⟩
        exact ⟨entry, (hrows entry).mpr (.inl rfl), rfl, rfl⟩
      · rintro ⟨row, hm, horigin, rfl⟩
        rcases (hrows row).mp hm with rfl | ⟨-, hne⟩
        · rfl
        · exact absurd horigin hne
    · next hne =>
      rw [h.listed]
      constructor
      · rintro ⟨row, hm, rfl, rfl⟩
        exact ⟨row, (hrows row).mpr (.inr ⟨hm, hne⟩), rfl, rfl⟩
      · rintro ⟨row, hm, rfl, rfl⟩
        rcases (hrows row).mp hm with rfl | ⟨hm, -⟩
        · exact absurd rfl hne
        · exact ⟨row, hm, rfl, rfl⟩

theorem IsMirror.removes (h : IsMirror m registry) {m' : UserListModel}
    {registry' : Nat → UserRegistry} (gone : Nat × String → Prop) [DecidablePred gone]
    (hindexed : m'.Indexed entryKey)
    (hrows : ∀ row, row ∈ m'.rows ↔ row ∈ m.rows ∧ ¬gone row.origin)
    (hfind : ∀ origin, findUser registry' origin =
      if gone origin then none else findUser registry origin) : IsMirror m' registry' := by
  refine ⟨hindexed, fun row hm => h.valid row ((hrows row).mp hm).1, fun origin known => ?_⟩
  rw [hfind]
  constructor
  · intro hknown
    split at hknown
    · cases hknown
    · next hstays =>
      obtain ⟨row, hm, rfl, rfl⟩ := (h.listed origin known).mp hknown
      exact ⟨row, (hrows row).mpr ⟨hm, hstays⟩, rfl, rfl⟩
  · rintro ⟨row, hm, rfl, rfl⟩
    obtain ⟨hm, hstays⟩ := (hrows row).mp hm
    rw [if_neg hstays]
    exact (h.listed _ _).mpr ⟨row, hm, rfl, rfl⟩

theorem IsMirror.removeUser (h : IsMirror m registry) (connection : Nat) {sessionId : String}
    (hvalid : isUtf8 sessionId = true) : IsMirror (removeUser m connection sessionId)
      (Function.update registry connection ((registry connection).remove sessionId)) := by
  apply h.removes (· = (connection, sessionId)) (h.indexed.erase _)
  · intro row
    refine (h.indexed.mem_erase _ row).trans (and_congr_right fun hm => ?_)
    exact h.key_ne_iff hm (connection, sessionId) hvalid
  · exact findUser_update_at (UserRegistry.findUser_remove _ sessionId)

theorem IsMirror.removeUsersForConnection (h : IsMirror m registry) (connection : Nat) :
    IsMirror (removeUsersForConnection m connection)
      (Function.update registry connection .empty) := by
  apply h.removes (fun origin => origin.1 = connection) (h.indexed.keep _)
  · intro row
    rw [IndexedRows.keep_rows, List.mem_filter, decide_eq_true_iff]
    rfl
  · exact findUser_update registry connection .empty

end UserListModel

open UserListModel ConnectionOccurrence

namespace ListWindow

@[simp] theorem flushPendingResults_userListModel (w : ListWindow) (registries : Registries) :
    (w.flushPendingResults registries).userListModel = w.userListModel := by
  simp only [flushPendingResults]
  split <;> split <;> rfl

theorem querySweepStateChanged_userListModel (w : ListWindow) (registries : Registries)
    (isSweeping : Bool) :
    (w.querySweepStateChanged registries isSweeping).userListModel = w.userListModel := by
  cases isSweeping with
  | true => rfl
  | false => exact w.flushPendingResults_userListModel registries

variable {w : ListWindow} {registry : Nat → UserRegistry}

theorem callback_isMirror (h : IsMirror w.userListModel registry) (connection : Nat)
    (serverAddress : String) (registries : Registries) {o : ConnectionOccurrence}
    (ho : o.IsAbout (isUtf8 · = true)) :
    IsMirror (w.callback connection serverAddress registries o).userListModel
      (Function.update registry connection ((registry connection).heard o)) := by
  by_cases hsilent : o.isSilent = true
  · rw [heard_of_silent hsilent, Function.update_eq_self]
    cases o with
    | querySweepStateChanged isSweeping =>
      exact (w.querySweepStateChanged_userListModel registries isSweeping).symm ▸ h
    | userUpdated user isNewUser | userLeft user | connectionStateChanged state => cases hsilent
    | _ => exact h
  · cases o with
    | userUpdated user isNewUser =>
      have hrow := h.updateUser connection (toQString serverAddress) ho
      cases isNewUser <;> exact hrow
    | userLeft user => exact h.removeUser connection ho
    | connectionStateChanged state =>
      cases state with
      | disconnected => exact h.removeUsersForConnection connection
      | _ => exact (Function.update_eq_self connection registry).symm ▸ h
    | _ => exact absurd rfl hsilent

theorem foldl_callback_isMirror (h : IsMirror w.userListModel registry) (connection : Nat)
    (serverAddress : String) (registries : Registries) {later : List ConnectionOccurrence}
    (habout : ∀ o ∈ later, o.IsAbout (isUtf8 · = true)) :
    IsMirror (later.foldl (·.callback connection serverAddress registries ·) w).userListModel
      (Function.update registry connection
        (later.foldl UserRegistry.heard (registry connection))) := by
  induction later generalizing w registry with
  | nil => exact (Function.update_eq_self connection registry).symm ▸ h
  | cons o later ih =>
    obtain ⟨ho, hlater⟩ := List.forall_mem_cons.mp habout
    have hrest := ih (callback_isMirror h connection serverAddress registries ho) hlater
    rwa [Function.update_idem, Function.update_self] at hrest

end ListWindow

/-- The window with the connections whose listener it is; a connection is known by its number. -/
structure UserListWorld where
  connections : List ConnectionWorld := []
  window : ListWindow := {}

inductive UserListEvent where
  | newConnection
  | connection (number : Nat) (e : ServerConnectionEvent)
  | flushPendingResults

namespace UserListWorld

def registry (w : UserListWorld) (number : Nat) : UserRegistry :=
  match w.connections[number]? with
  | some connection => connection.users
  | none => .empty

def registries (w : UserListWorld) : Registries :=
  w.connections.zipIdx.map fun connection => (connection.2, connection.1.users)

/-- No event that makes the window look at the registries changes them. -/
def handle [MuscleLibrary] (w : UserListWorld) : UserListEvent → UserListWorld
  | .newConnection => { w with connections := w.connections ++ [.new] }
  | .connection number e =>
    match w.connections[number]? with
    | some connection =>
      let connection' := connection.handle e
      { connections := w.connections.set number connection'
        window := (connection'.history.drop connection.history.length).foldl
          (·.callback number connection'.serverAddress w.registries ·) w.window }
    | none => w
  | .flushPendingResults => { w with window := w.window.flushPendingResults w.registries }

def machine [MuscleLibrary] : EventMachine UserListWorld UserListEvent := ⟨handle⟩

/-- A message comes while its connection is up, and is about sessions with valid names. -/
def Admits [MuscleLibrary] (w : UserListWorld) : UserListEvent → Prop
  | .connection number e =>
    ∀ connection ∈ w.connections[number]?, connection.HearsWhileConnected e ∧
      ∀ message ∈ e.received, ∀ nodePath ∈ message.nodePaths,
        isUtf8 (extractSessionId nodePath) = true
  | _ => True

instance [MuscleLibrary] (w : UserListWorld) : DecidablePred w.Admits
  | .connection number e => inferInstanceAs (Decidable (∀ connection ∈ w.connections[number]?,
      connection.HearsWhileConnected e ∧ ∀ message ∈ e.received, ∀ nodePath ∈ message.nodePaths,
        isUtf8 (extractSessionId nodePath) = true))
  | .newConnection | .flushPendingResults => inferInstanceAs (Decidable True)

/-- There is one row for each user in the registry of a connection, with an equal record; the index
leads to it; and within a login the window hears of comings and goings of a session in turn. -/
structure Mirrors (w : UserListWorld) : Prop where
  indexed : w.window.userListModel.Indexed entryKey
  once : (w.window.userListModel.rows.map UserListEntry.origin).Nodup
  listed : ∀ number sessionId user, (w.registry number).findUser sessionId = some user ↔
    ∃ entry ∈ w.window.userListModel.rows, entry.origin = (number, sessionId) ∧ entry.user = user
  alternates : ∀ connection ∈ w.connections, ∀ sessionId,
    Alternates (comings connection.history sessionId)

/-- What the mirror rests on. -/
structure IsTracked (w : UserListWorld) : Prop where
  tracked : ∀ connection ∈ w.connections, connection.UsersAreTracked
  mirror : IsMirror w.window.userListModel w.registry

theorem isTracked_new : IsTracked {} where
  tracked connection hm := by cases hm
  mirror := by
    refine ⟨IndexedRows.indexed_empty _, nofun, fun origin user => ?_⟩
    constructor
    · intro hu
      cases hu
    · rintro ⟨entry, hm, -⟩
      cases hm

theorem IsTracked.mirrors {w : UserListWorld} (h : IsTracked w) : Mirrors w where
  indexed := h.mirror.indexed
  once := h.mirror.once
  listed number sessionId user := h.mirror.listed (number, sessionId) user
  alternates connection hm := (h.tracked connection hm).alternates

theorem registry_newConnection [MuscleLibrary] (w : UserListWorld) :
    (w.handle .newConnection).registry = w.registry := by
  funext number
  rw [registry, registry, handle, List.getElem?_append]
  by_cases hbound : number < w.connections.length
  · rw [if_pos hbound]
  · rw [if_neg hbound, List.getElem?_eq_none (Nat.le_of_not_lt hbound)]
    cases number - w.connections.length <;> rfl

omit [QtLibrary] in
theorem registry_set {w : UserListWorld} (h : w.connections[number]? = some connection)
    (connection' : ConnectionWorld) (window : ListWindow) :
    registry { connections := w.connections.set number connection', window } =
      Function.update w.registry number connection'.users := by
  obtain ⟨hbound, -⟩ := List.getElem?_eq_some_iff.mp h
  funext number'
  rw [Function.update_apply, registry, registry, List.getElem?_set]
  by_cases hn : number' = number
  · subst hn
    simp only [↓reduceIte, hbound]
  · rw [if_neg hn, if_neg (Ne.symm hn)]

theorem handle_isTracked [MuscleLibrary] {w : UserListWorld} (e : UserListEvent)
    (h : IsTracked w) (ha : w.Admits e) : IsTracked (w.handle e) := by
  cases e with
  | newConnection =>
    refine ⟨?_, w.registry_newConnection ▸ h.mirror⟩
    exact List.forall_mem_append.mpr
      ⟨h.tracked, List.forall_mem_singleton.mpr ConnectionWorld.usersAreTracked_new⟩
  | flushPendingResults =>
    refine ⟨h.tracked, ?_⟩
    exact (w.window.flushPendingResults_userListModel w.registries).symm ▸ h.mirror
  | connection number e =>
    cases hnumber : w.connections[number]? with
    | none =>
      simp only [handle, hnumber]
      exact h
    | some connection =>
      obtain ⟨hconnected, hvalid⟩ := ha connection hnumber
      obtain ⟨htracked, later, hlater, habout, hheard⟩ := ConnectionWorld.handle_tracked e
        (h.tracked connection (List.mem_of_getElem? hnumber)) hconnected
        (P := (isUtf8 · = true)) hvalid
      simp only [handle, hnumber]
      constructor
      · intro connection' hm
        rcases List.mem_or_eq_of_mem_set hm with hm | rfl
        · exact h.tracked connection' hm
        · exact htracked
      · have husers : w.registry number = connection.users := by rw [registry, hnumber]
        rw [registry_set hnumber, ← hheard, hlater, List.drop_left, ← husers]
        exact ListWindow.foldl_callback_isMirror h.mirror number _ w.registries habout

end UserListWorld

end

/-- In a run whose messages come while connected and are about valid session IDs, the list of users
is at every point the one of the registries. -/
theorem user_list_mirrors_registries [MuscleLibrary] [QtLibrary] (es : List UserListEvent)
    (h : UserListWorld.machine.EveryStep UserListWorld.Admits {} es) :
    UserListWorld.machine.EveryState UserListWorld.Mirrors {} es :=
  (EventMachine.everyState_of_invariant (fun _ e => UserListWorld.handle_isTracked e)
    UserListWorld.isTracked_new h).imp fun _ => UserListWorld.IsTracked.mirrors

/-- The name node of a user. -/
def namedItems (nodePath name : String) : ServerConnectionEvent where
  call := .messageReceived {
    what := .resultDataItems
    fields := []
    nodes := [(nodePath, (Message.ofWhat ()).addString fieldName name)] }

/-- Two servers with a user each, of the same session ID, and the first server is lost. -/
theorem two_servers_are_mirrored :
    let _ : MuscleLibrary := plainLibrary
    let _ : QtLibrary := plainQt
    let es : List UserListEvent :=
      [.newConnection, .connection 0 { call := .connectToServer "server" 2960 },
        .connection 0 { call := .sessionConnected "server" },
        .connection 0 (namedItems "/host/5/beshare/name" "binky"),
        .newConnection, .connection 1 { call := .connectToServer "other" 2960 },
        .connection 1 { call := .sessionConnected "other" },
        .connection 1 (namedItems "/peer/5/beshare/name" "ann"),
        .connection 0 { call := .sessionDisconnected }]
    UserListWorld.machine.EveryState UserListWorld.Mirrors {} es ∧
      (UserListWorld.machine.run {} es).window.userListModel.rows.map
        (fun entry => (entry.origin, entry.user.userName)) = [((1, "5"), "ann")] := by
  intro library qt es
  exact ⟨user_list_mirrors_registries es (by decide), by decide⟩

end HiTuxShare
