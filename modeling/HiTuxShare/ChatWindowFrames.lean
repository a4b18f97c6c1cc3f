import HiTuxShare.ChatWindowCommands
import HiTuxShare.SessionSteps

namespace HiTuxShare
set_option autoImplicit true

/-- A line of chat that goes out. -/
def ConnectionOccurrence.isChat : ConnectionOccurrence → Bool
  | .sent message => message.what = .newChatText
  | _ => false

/-- Everything else, by far the most. -/
def ConnectionOccurrence.NoChat (o : ConnectionOccurrence) : Prop := o.isChat = false

theorem ConnectionOccurrence.noChat_of_isQuiet {o : ConnectionOccurrence} (h : o.IsQuiet) :
    o.NoChat := by
  cases o with
  | sent message =>
    apply decide_eq_false
    intro hchat
    have hrelayed : (!message.what.isRelayed) = true := h
    rw [hchat] at hrelayed
    cases hrelayed
  | _ => rfl

theorem ConnectionOccurrence.noChat_of_isOffline {o : ConnectionOccurrence} (h : o.IsOffline) :
    o.NoChat := by
  rcases h with h | ⟨state, -, rfl⟩
  · exact noChat_of_isQuiet h
  · rfl

namespace ConnectionWorld

theorem disconnectFromServer_noChat (w : ConnectionWorld) :
    DoesOnly ConnectionOccurrence.NoChat w w.disconnectFromServer := by
  obtain ⟨later, hlater, honly, -⟩ := w.disconnectFromServer_disconnects
  exact ⟨later, hlater, fun o hm => ConnectionOccurrence.noChat_of_isOffline (honly o hm)⟩

theorem connectToServer_noChat (w : ConnectionWorld) (network : NetworkAnswer) (hostName : String)
    (port : UInt16) :
    DoesOnly ConnectionOccurrence.NoChat w (w.connectToServer network hostName port).1 := by
  obtain ⟨later, hlater, honly, -⟩ := w.connectToServer_disconnects network hostName port
  exact ⟨later, hlater, fun o hm => ConnectionOccurrence.noChat_of_isOffline (honly o hm)⟩

theorem applyIdentity_noChat [MuscleLibrary] (w : ConnectionWorld) (change : IdentityChange) :
    DoesOnly ConnectionOccurrence.NoChat w (w.applyIdentity change) := by
  have hquiet : DoesOnly ConnectionOccurrence.IsQuiet w (w.applyIdentity change) := by
    cases change with
    | installId installId => exact (w.handle_publication ⟨.setInstallId installId, {}, 0⟩ rfl).2
    | userName name => exact (w.handle_publication ⟨.setLocalUserName name, {}, 0⟩ rfl).2
    | userStatus status => exact (w.handle_publication ⟨.setLocalUserStatus status, {}, 0⟩ rfl).2
    | advertisedPort port => exact (w.handle_publication ⟨.setAdvertisedPort port, {}, 0⟩ rfl).2
  exact hquiet.imp fun _ => ConnectionOccurrence.noChat_of_isQuiet

theorem sendPing_noChat (w : ConnectionWorld) (now : UInt64) (targetSessionId : String) :
    DoesOnly ConnectionOccurrence.NoChat w (w.sendPing now targetSessionId) := by
  rw [sendPing]
  split
  · exact .refl _ w
  · exact .one rfl rfl

end ConnectionWorld

namespace ConnectionManagerWorld

/-- Connections may be added, and whatever they do is allowed by `P`. -/
structure Grows (P : ConnectionOccurrence → Prop) (m m' : ConnectionManagerWorld) : Prop where
  length_le : m.connections.length ≤ m'.connections.length
  history : ∀ index c', m'.connections[index]? = some c' →
    ∃ later, c'.world.history = m.historyAt index ++ later ∧ ∀ o ∈ later, P o

theorem historyAt_eq {m : ConnectionManagerWorld} (h : m.connections[index]? = some c) :
    m.historyAt index = c.world.history := by
  rw [historyAt, h]
  rfl

theorem historyAt_of_length_le {m : ConnectionManagerWorld} (h : m.connections.length ≤ index) :
    m.historyAt index = [] := by
  rw [historyAt, List.getElem?_eq_none h]
  rfl

theorem Grows.of_doesOnly {P : ConnectionOccurrence → Prop} {m m' : ConnectionManagerWorld}
    (hlength : m'.connections.length = m.connections.length)
    (h : ∀ (index : Nat) c c', m.connections[index]? = some c → m'.connections[index]? = some c' →
      DoesOnly P c.world c'.world) : Grows P m m' := by
  refine ⟨hlength.ge, fun index c' hc' => ?_⟩
  have hlt : index < m.connections.length :=
    hlength ▸ (List.getElem?_eq_some_iff.mp hc').1
  have hc : m.connections[index]? = some m.connections[index] := List.getElem?_eq_getElem hlt
  rw [historyAt_eq hc]
  exact h index _ c' hc hc'

theorem Grows.refl (P : ConnectionOccurrence → Prop) (m : ConnectionManagerWorld) :
    Grows P m m := by
  apply Grows.of_doesOnly rfl
  intro index c c' hc hc'
  cases hc.symm.trans hc'
  exact .refl P c.world

theorem Grows.trans {P : ConnectionOccurrence → Prop} {m m' m'' : ConnectionManagerWorld}
    (h : Grows P m m') (h' : Grows P m' m'') : Grows P m m'' := by
  refine ⟨h.length_le.trans h'.length_le, fun index c'' hc'' => ?_⟩
  obtain ⟨later', hlater', hP'⟩ := h'.history index c'' hc''
  cases hc' : m'.connections[index]? with
  | none =>
    have hnew := List.getElem?_eq_none_iff.mp hc'
    rw [historyAt_of_length_le hnew] at hlater'
    refine ⟨later', ?_, hP'⟩
    rw [hlater', historyAt_of_length_le (h.length_le.trans hnew)]
  | some c' =>
    obtain ⟨later, hlater, hP⟩ := h.history index c' hc'
    refine ⟨later ++ later', ?_, fun o hm => ?_⟩
    · rw [hlater', historyAt_eq hc', hlater, List.append_assoc]
    · exact (List.mem_append.mp hm).elim (hP o) (hP' o)

theorem onAll_grows {P : ConnectionOccurrence → Prop} (m : ConnectionManagerWorld)
    (call : ManagedConnection → ConnectionWorld) (h : ∀ c, DoesOnly P c.world (call c)) :
    Grows P m (m.onAll call) := by
  apply Grows.of_doesOnly (List.length_map ..)
  intro index c c' hc hc'
  have hcalled : (m.onAll call).connections[index]? = some { c with world := call c } := by
    rw [onAll, List.getElem?_map, hc]
    rfl
  cases hcalled.symm.trans hc'
  exact h c

theorem onConnection_grows {P : ConnectionOccurrence → Prop} (m : ConnectionManagerWorld)
    (target : Nat) (call : ConnectionWorld → ConnectionWorld)
    (h : ∀ world, DoesOnly P world (call world)) : Grows P m (m.onConnection target call) := by
  apply Grows.of_doesOnly (List.length_modify ..)
  intro index c c' hc hc'
  rw [onConnection, List.getElem?_modify, hc] at hc'
  cases hc'
  by_cases ht : target = index
  · simp only [ht, if_true]
    exact h c.world
  · simp only [ht, if_false]
    exact .refl P c.world

theorem announce_grows [MuscleLibrary] (m : ConnectionManagerWorld) (change : IdentityChange) :
    Grows ConnectionOccurrence.NoChat m (m.announce change) := by
  obtain ⟨hlength, hhistory⟩ :=
    m.onAll_grows _ fun c => c.world.applyIdentity_noChat change
  exact ⟨hlength, hhistory⟩

theorem addConnection_grows {P : ConnectionOccurrence → Prop} (m : ConnectionManagerWorld)
    (network : NetworkAnswer) (serverAddress : String) (port : UInt16)
    (h : DoesOnly P {} (ConnectionWorld.connectToServer {} network serverAddress port).1) :
    Grows P m (m.addConnection network serverAddress port).1 := by
  rcases m.addConnection_cases network serverAddress port with he | ⟨-, he⟩
  · rw [he]
    exact .refl _ m
  · rw [he]
    refine ⟨?_, fun index c' hc' => ?_⟩
    · rw [List.length_append]
      exact Nat.le_add_right _ _
    · by_cases hold : index < m.connections.length
      · rw [List.getElem?_append_left hold] at hc'
        exact (Grows.refl _ m).history index c' hc'
      · have hle := Nat.le_of_not_lt hold
        rw [List.getElem?_append_right hle] at hc'
        have hnew := List.mem_singleton.mp (List.mem_of_getElem? hc')
        obtain ⟨later, hlater, hP⟩ := h
        refine ⟨later, ?_, hP⟩
        rw [historyAt_of_length_le hle, hnew]
        exact hlater

open ConnectionOccurrence in
theorem disconnectAll_grows (m : ConnectionManagerWorld) : Grows NoChat m m.disconnectAll := by
  rw [disconnectAll]
  exact m.onAll_grows _ fun c => c.world.disconnectFromServer_noChat

open ConnectionOccurrence in
theorem stopQueryOnAll_grows (m : ConnectionManagerWorld) : Grows NoChat m m.stopQueryOnAll := by
  rw [stopQueryOnAll]
  exact m.onAll_grows _ fun c => c.world.stopQuery_quiet.imp fun _ => noChat_of_isQuiet

open ConnectionOccurrence in
theorem startQueryOnAll_grows (m : ConnectionManagerWorld)
    (sessionExpression fileExpression : String) :
    Grows NoChat m (m.startQueryOnAll sessionExpression fileExpression) := by
  rw [startQueryOnAll]
  apply m.onAll_grows
  intro c
  split
  · exact (c.world.startQuery_quiet _ _).imp fun _ => noChat_of_isQuiet
  · exact .refl _ _

theorem mem_occurrencesSince {m m' : ConnectionManagerWorld} :
    (c', o) ∈ m.occurrencesSince m' ↔ ∃ index, m'.connections[index]? = some c' ∧
      o ∈ c'.world.history.drop (m.historyAt index).length := by
  simp only [occurrencesSince, List.mem_flatMap, List.mem_map, Prod.exists, Prod.mk.injEq,
    List.mem_zipIdx_iff_getElem?]
  constructor
  · rintro ⟨c, index, hc, o', ho, rfl, rfl⟩
    exact ⟨index, hc, ho⟩
  · rintro ⟨index, hc, ho⟩
    exact ⟨c', index, hc, o, ho, rfl, rfl⟩

/-- Who asks what has been done since finds nothing that `P` does not allow. -/
theorem Grows.occurrencesSince {P : ConnectionOccurrence → Prop} {m m' : ConnectionManagerWorld}
    (h : Grows P m m') : ∀ o ∈ m.occurrencesSince m', P o.2 := by
  intro o hm
  obtain ⟨⟨c, index⟩, hc, hsince⟩ := List.mem_flatMap.mp hm
  obtain ⟨occurrence, hlate, rfl⟩ := List.mem_map.mp hsince
  obtain ⟨later, hlater, hP⟩ := h.history index c (List.mem_zipIdx_iff_getElem?.mp hc)
  rw [hlater, List.drop_left] at hlate
  exact hP occurrence hlate

end ConnectionManagerWorld

namespace ChatWindowWorld

section
variable [QtWidgets] [MuscleText]

@[simp] theorem echo_connections (w : ChatWindowWorld) (a : WindowAnswers)
    (message : ChatMessage) : (w.echo a message).connections = w.connections := rfl

@[simp] theorem echo_chatLogView (w : ChatWindowWorld) (a : WindowAnswers)
    (message : ChatMessage) : (w.echo a message).chatLogView = w.chatLogView ++ [message] := rfl

end

section
variable [QtWidgets]

@[simp] theorem appendLocalLine_connections (w : ChatWindowWorld) (type : LogMessageType)
    (text : String) : (w.appendLocalLine type text).connections = w.connections := rfl

@[simp] theorem populateServerList_connections (w : ChatWindowWorld) :
    w.populateServerList.connections = w.connections := by
  rw [populateServerList]
  split <;> rfl

@[simp] theorem setFilter_connections (w : ChatWindowWorld) (filter : UserFilterSet)
    (kind : FilterCommand) : (w.setFilter filter kind).connections = w.connections := by
  cases kind <;> rfl

theorem setServerAddressBox_connections (w : ChatWindowWorld) (text : String) :
    (w.setServerAddressBox text).connections = w.connections := rfl

theorem setQueryField_connections (w : ChatWindowWorld) (text : String) :
    (w.setQueryField text).connections = w.connections := rfl

theorem saveAliases_connections (w : ChatWindowWorld) :
    w.saveAliases.connections = w.connections := rfl

theorem setUserStatus_connections (w : ChatWindowWorld) (status : String) :
    (w.setUserStatus status).connections = w.connections.setLocalUserStatus status := rfl

theorem handleNickCommand_connections (w : ChatWindowWorld) (h : userName ≠ "") :
    (w.handleNickCommand userName).connections = w.connections.setLocalUserName userName := by
  rw [handleNickCommand, if_neg h]
  rfl

end

section
variable [QtWidgets] [MuscleLibrary]

open ConnectionManagerWorld ConnectionOccurrence in
theorem pingUser_grows (w : ChatWindowWorld) (a : WindowAnswers) (target : String) :
    Grows NoChat w.connections (w.pingUser a target).connections := by
  apply pingUser_induct (P := fun w' => Grows NoChat w.connections w'.connections)
  · exact fun _ => .refl _ _
  · exact .refl _ _
  · intro w' user h
    exact h.trans (onConnection_grows _ _ _ fun world => world.sendPing_noChat a.now _)

end

section
variable [QtWidgets] [MuscleText]

theorem handleFilterCommand_connections (w : ChatWindowWorld) (kind : FilterCommand)
    (argument : String) : (w.handleFilterCommand kind argument).connections = w.connections := by
  simp only [handleFilterCommand]
  split
  · rfl
  · split <;> exact w.setFilter_connections _ kind

theorem handleUnaliasCommand_connections (w : ChatWindowWorld) (argument : String) :
    (w.handleUnaliasCommand argument).connections = w.connections := by
  simp only [handleUnaliasCommand]
  split <;> rfl

theorem handleAliasCommand_connections (w : ChatWindowWorld) (target argument : String) :
    (w.handleAliasCommand target argument).connections = w.connections := by
  rw [handleAliasCommand, listAliases]
  split
  · split
    · rfl
    · apply List.foldlRecOn (motive := fun w' : ChatWindowWorld => w'.connections = w.connections)
      · rfl
      · exact fun w' h _ _ => h
  · split
    · rfl
    · rw [saveAliases_connections, appendLocalLine_connections]

variable [QtLibrary] [MuscleLibrary] [CaseInsensitivePatterns]

theorem callback_connections (w : ChatWindowWorld) (a : WindowAnswers) (serverAddress : String)
    (o : ConnectionOccurrence) :
    (w.callback a serverAddress o).connections = w.connections := by
  cases o with
  | localSessionIdAssigned sessionId hostName =>
    rw [callback, localSessionIdAssigned, appendLocalLine_connections,
      populateServerList_connections]
  | userUpdated user isNewUser => cases isNewUser <;> rfl
  | chatMessageReceived type text details =>
    simp only [callback, chatMessageReceived]
    split <;> rfl
  | _ => rfl

@[simp] theorem hear_connections (w : ChatWindowWorld) (a : WindowAnswers)
    (m : ConnectionManagerWorld) : (w.hear a m).connections = m := by
  apply List.foldlRecOn (motive := fun w' : ChatWindowWorld => w'.connections = m)
  · rfl
  · intro w' h o _
    rw [callback_connections, h]

open ConnectionManagerWorld ConnectionOccurrence in
theorem connectToConfiguredServer_grows (w : ChatWindowWorld) (a : WindowAnswers) :
    Grows NoChat w.connections (w.connectToConfiguredServer a).connections := by
  simp only [connectToConfiguredServer]
  split
  · exact .refl _ _
  · split
    · exact .refl _ _
    · rw [hear_connections]
      apply (announce_grows _ _).trans
      apply addConnection_grows
      exact ConnectionWorld.connectToServer_noChat ..

open ConnectionManagerWorld ConnectionOccurrence in
theorem startQuery_grows (w : ChatWindowWorld) (a : WindowAnswers) :
    Grows NoChat w.connections (w.startQuery a).connections := by
  rw [startQuery]
  split
  · exact .refl _ _
  · rw [hear_connections]
    exact startQueryOnAll_grows ..

open ConnectionManagerWorld ConnectionOccurrence in
theorem handleCommand_grows (w : ChatWindowWorld) (a : WindowAnswers) (command : ChatCommand)
    (hnone : command.type ≠ .none) (haction : command.type ≠ .action)
    (hmessage : command.type ≠ .message) :
    Grows NoChat w.connections (w.handleCommand a command).connections := by
  rw [handleCommand]
  split
  · next h => exact absurd h hnone
  · next h => exact absurd h haction
  · by_cases hname : command.argument = ""
    · rw [handleNickCommand, if_pos hname]
      exact .refl _ _
    · rw [handleNickCommand_connections w hname]
      exact announce_grows ..
  · rw [setUserStatus_connections]
    exact announce_grows ..
  · rw [setUserStatus_connections]
    exact announce_grows ..
  · next h => exact absurd h hmessage
  · split
    · exact .refl _ _
    · exact w.pingUser_grows a _
  · split
    · rw [← setServerAddressBox_connections w command.argument]
      exact connectToConfiguredServer_grows _ a
    · exact w.connectToConfiguredServer_grows a
  · rw [hear_connections]
    exact disconnectAll_grows w.connections
  · split
    · rw [← setQueryField_connections w command.argument]
      exact startQuery_grows _ a
    · exact w.startQuery_grows a
  · rw [hear_connections]
    exact stopQueryOnAll_grows w.connections
  · rw [handleFilterCommand_connections]
    exact .refl _ _
  · rw [handleFilterCommand_connections]
    exact .refl _ _
  · rw [handleFilterCommand_connections]
    exact .refl _ _
  · rw [handleAliasCommand_connections]
    exact .refl _ _
  · rw [handleUnaliasCommand_connections]
    exact .refl _ _
  · exact .refl _ _
  · exact .refl _ _
  · exact .refl _ _
  · exact .refl _ _
  · exact .refl _ _
  · exact .refl _ _

end

end ChatWindowWorld

end HiTuxShare
