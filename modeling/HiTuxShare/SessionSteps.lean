import HiTuxShare.ConnectionEvents

namespace HiTuxShare
set_option autoImplicit true

namespace ServerMessage

@[simp] theorem strings_replace_self (message : ServerMessage) (name value : String) :
    (message.replace name (.string value)).strings name = [value] := by
  simp only [replace, Message.strings, Message.items_add_self, Message.items_removeName_self,
    Message.asString, Option.toList_some, List.nil_append]

theorem strings_replace_of_ne (message : ServerMessage) (value : FieldValue) (h : name' ≠ name) :
    (message.replace name' value).strings name = message.strings name := by
  simp only [replace, Message.strings, Message.items_add_of_ne _ _ _ h,
    Message.items_removeName_of_ne _ _ h]

end ServerMessage

namespace ConnectionWorld

/-- The network layer reports the loss of a connection. A session that is detached once we are
disconnected is nothing to lose. -/
def Loses (w : ConnectionWorld) (e : ServerConnectionEvent) : Prop :=
  w.internalThreadRunning = true ∧
    match e.call with
    | .sessionDisconnected => True
    | .sessionDetached => w.connectionState ≠ .disconnected
    | _ => False

/-- The session ID that an event tells us, if it is the server's answer about our session. -/
def assignedSessionId (w : ConnectionWorld) (e : ServerConnectionEvent) : Option String :=
  match e.call with
  | .messageReceived message =>
    if w.internalThreadRunning = true ∧ message.what = .resultParameters then
      (message.sessionRoot.bind parseSessionRoot).map Prod.fst
    else none
  | _ => none

/-- The event makes us say something to other clients. -/
def Speaks (w : ConnectionWorld) (e : ServerConnectionEvent) : Prop :=
  match e.call with
  | .sendChatText _ text => w.isConnected = true ∧ text ≠ ""
  | .sendPing _ => w.isConnected = true
  | .messageReceived message =>
    w.internalThreadRunning = true ∧ message.what = .clientPing ∧
      (message.findString fieldSession).isSome
  | _ => False

/-- A message to other clients with our session ID on it, whatever that may be. -/
def Signs (w : ConnectionWorld) (message : ServerMessage) : Prop :=
  message.what.isRelayed = true ∧ message.strings fieldSession = [w.localSessionId]

end ConnectionWorld

namespace ConnectionOccurrence

/-- Part of the end of a connection, or of dialling one. -/
def IsOffline (o : ConnectionOccurrence) : Prop :=
  o.IsQuiet ∨ ∃ state, state ≠ .connected ∧ o = .connectionStateChanged state

/-- Part of a login; the listener hears of the state only if it changes. -/
def IsLogin (state : ConnectionState) (o : ConnectionOccurrence) : Prop :=
  o.IsQuiet ∨ state ≠ .connected ∧ o = .connectionStateChanged .connected

end ConnectionOccurrence

open ConnectionOccurrence

namespace ConnectionWorld

/-- The listener hears of the end of a connection that has not been disconnected yet. -/
def Disconnects (w w' : ConnectionWorld) : Prop :=
  ∃ later, w'.history = w.history ++ later ∧ (∀ o ∈ later, o.IsOffline) ∧
    (w.connectionState ≠ .disconnected → .connectionStateChanged .disconnected ∈ later)

/-- The listener hears of a login unless we are connected already. -/
def LogsIn (w w' : ConnectionWorld) : Prop :=
  ∃ later, w'.history = w.history ++ later ∧ (∀ o ∈ later, o.IsLogin w.connectionState) ∧
    (w.connectionState ≠ .connected → .connectionStateChanged .connected ∈ later)

end ConnectionWorld

open ConnectionWorld

/-- All that an event can do to a session, and what the listener hears of it. -/
inductive SessionStep [MuscleLibrary] (w : ConnectionWorld) (e : ServerConnectionEvent) :
    ConnectionWorld → Prop
  | keeps (hs : w'.session = w.session) (hq : DoesOnly IsQuiet w w') :
      SessionStep w e w'
  | speaks (h : Speaks w e) (hm : Signs w message) : SessionStep w e (w.sendToServer message)
  | closes (h : state ≠ .connected) (hs : w'.session = .noSession state)
      (hq : Disconnects w w') : SessionStep w e w'
  | loses (h : Loses w e) (hs : w'.session = w.session.lost) (hq : Disconnects w w') :
      SessionStep w e w'
  | connects
      (hs : w'.session = { w.session with loginTime := now, connectionState := .connected })
      (hq : LogsIn w w') : SessionStep w e w'
  | queries (h : active = true → w.connectionState = .connected)
      (hs : w'.session = { w.session with queryActive := active })
      (hq : DoesOnly IsQuiet w w') : SessionStep w e w'
  | identifies (h : w.assignedSessionId e = some localSessionId)
      (hs : w'.session = { w.session with localSessionId, hasPublishedIdentity := true })
      (hq : DoesOnly IsQuiet w w') : SessionStep w e w'
  | readsNodes (h : e.call = .messageReceived message) : SessionStep w e (w.handleDataItems message)

namespace ConnectionWorld

theorem shutdownInternalThread_quiet (w : ConnectionWorld) :
    DoesOnly IsQuiet w w.shutdownInternalThread := by
  rw [shutdownInternalThread]
  split
  · exact .one rfl rfl
  · exact .refl _ w

theorem setConnectionState_changes (w : ConnectionWorld) (state : ConnectionState) :
    ∃ later, (w.setConnectionState state).history = w.history ++ later ∧
      (∀ o ∈ later, w.connectionState ≠ state ∧ o = .connectionStateChanged state) ∧
      (w.connectionState ≠ state → .connectionStateChanged state ∈ later) := by
  refine ⟨_, setConnectionState_history .., fun o hm => ?_, fun hne => ?_⟩
  · split at hm
    · cases hm
    · next hne => exact ⟨Ne.symm hne, List.mem_singleton.mp hm⟩
  · rw [if_neg (Ne.symm hne)]
    exact List.mem_cons_self

theorem Disconnects.of_quiet {w w' : ConnectionWorld} (h : DoesOnly IsQuiet w w')
    (hdown : w.connectionState = .disconnected) : Disconnects w w' := by
  obtain ⟨later, hlater, hq⟩ := h
  exact ⟨later, hlater, fun o hm => .inl (hq o hm), fun hup => absurd hdown hup⟩

theorem setConnectionState_disconnects {w w' : ConnectionWorld}
    (hstate : w'.connectionState = w.connectionState) (h : DoesOnly IsQuiet w w') :
    Disconnects w (w'.setConnectionState .disconnected) := by
  obtain ⟨later, hlater, hq⟩ := h
  obtain ⟨changes, hchanges, honly, htold⟩ := w'.setConnectionState_changes .disconnected
  have hother : ConnectionState.disconnected ≠ .connected := by decide
  refine ⟨later ++ changes, ?_, fun o hm => ?_, fun hup => ?_⟩
  · rw [hchanges, hlater, List.append_assoc]
  · rcases List.mem_append.mp hm with hm | hm
    · exact .inl (hq o hm)
    · exact .inr ⟨.disconnected, hother, (honly o hm).2⟩
  · exact List.mem_append_right later (htold (hstate ▸ hup))

theorem disconnectFromServer_disconnects (w : ConnectionWorld) :
    Disconnects w w.disconnectFromServer := by
  let w' : ConnectionWorld := { w.shutdownInternalThread with
    users := .empty
    localSessionId := ""
    hasPublishedIdentity := false
    loginTime := 0
    queryActive := false }
  have hcleared : DoesOnly IsQuiet w (w'.note .queryResultsCleared) := by
    have hforgotten : DoesOnly IsQuiet w w' :=
      (shutdownInternalThread_quiet w).trans (.of_history_eq _ rfl)
    exact hforgotten.note rfl
  have hstate : w'.connectionState = w.connectionState := by
    change w.shutdownInternalThread.connectionState = _
    rw [shutdownInternalThread_toServerConnection]
  rw [disconnectFromServer]
  split
  · exact setConnectionState_disconnects hstate (hcleared.note rfl)
  · next hdown => exact .of_quiet hcleared (not_not.mp hdown)

theorem Disconnects.trans {w w' w'' : ConnectionWorld} (h : Disconnects w w')
    (h' : DoesOnly IsOffline w' w'') : Disconnects w w'' := by
  obtain ⟨later, hlater, hq, hup⟩ := h
  obtain ⟨later', hlater', hq'⟩ := h'
  refine ⟨later ++ later', ?_, fun o hm => ?_, fun hne => List.mem_append_left _ (hup hne)⟩
  · rw [hlater', hlater, List.append_assoc]
  · exact (List.mem_append.mp hm).elim (hq o) (hq' o)

theorem setConnectionState_offline (w : ConnectionWorld) (h : state ≠ .connected) :
    DoesOnly IsOffline w (w.setConnectionState state) := by
  rw [setConnectionState]
  split
  · exact .refl _ w
  · exact .one rfl (.inr ⟨state, h, rfl⟩)

theorem dial_offline (w : ConnectionWorld) (network : NetworkAnswer) :
    DoesOnly IsOffline w (w.dial network).1 := by
  have hquiet : DoesOnly IsQuiet w { w with internalThreadRunning := true } := .of_history_eq _ rfl
  simp only [dial]
  cases network.startInternalThread with
  | some text => exact .one rfl (.inl rfl)
  | none =>
    have hstarted := hquiet.note (rfl : IsQuiet .threadStarted)
    cases network.addNewConnectSession with
    | some text =>
      have hstopped := hstarted.trans (shutdownInternalThread_quiet _)
      refine (DoesOnly.note hstopped ?_).imp fun o ho => .inl ho
      exact rfl
    | none =>
      have hadded := hstarted.note
        (rfl : IsQuiet (.connectSessionAdded w.serverAddress w.serverPort))
      have hstate : ConnectionState.connecting ≠ .connected := by decide
      have hdialling := (hadded.imp fun o ho => .inl ho).trans (setConnectionState_offline _ hstate)
      exact hdialling.note (.inl rfl)

theorem connectToServer_disconnects (w : ConnectionWorld) (network : NetworkAnswer)
    (hostName : String) (port : UInt16) :
    Disconnects w (w.connectToServer network hostName port).1 := by
  simp only [connectToServer]
  split
  · exact w.disconnectFromServer_disconnects
  · have hset : DoesOnly IsOffline w.disconnectFromServer { w.disconnectFromServer with
        serverAddress := hostName
        serverPort := if 0 < port then port else defaultServerPort } := .of_history_eq _ rfl
    exact w.disconnectFromServer_disconnects.trans (hset.trans (dial_offline _ network))

theorem LogsIn.note {w w' : ConnectionWorld} (h : LogsIn w w') (ho : IsQuiet o) :
    LogsIn w (w'.note o) := by
  obtain ⟨later, hlater, hlogin, hconnected⟩ := h
  refine ⟨later ++ [o], ?_, fun o' hm => ?_, fun hne => List.mem_append_left _ (hconnected hne)⟩
  · change w'.history ++ [o] = _
    rw [hlater, List.append_assoc]
  · rcases List.mem_append.mp hm with hm | hm
    · exact hlogin o' hm
    · exact .inl (List.mem_singleton.mp hm ▸ ho)

theorem sessionConnected_login (w : ConnectionWorld) (now : UInt64) (connectedTo : String) :
    LogsIn w (w.sessionConnected now connectedTo) := by
  have hstate : LogsIn w (setConnectionState { w with loginTime := now } .connected) := by
    obtain ⟨later, hlater, honly, htold⟩ :=
      setConnectionState_changes { w with loginTime := now } .connected
    exact ⟨later, hlater, fun o hm => .inr (honly o hm), htold⟩
  refine .note (.note (.note (.note (.note hstate ?_) ?_) ?_) ?_) ?_ <;> exact rfl

theorem stopQuery_quiet (w : ConnectionWorld) : DoesOnly IsQuiet w w.stopQuery := by
  have hstopped : DoesOnly IsQuiet w { w with queryActive := false } := .of_history_eq _ rfl
  simp only [stopQuery]
  split
  · exact .refl _ w
  · split
    · refine .note (.note (.note (.note hstopped ?_) ?_) ?_) ?_ <;> exact rfl
    · refine .note (.note hstopped ?_) ?_ <;> exact rfl

theorem startQuery_quiet (w : ConnectionWorld) (sessionExpression fileExpression : String) :
    DoesOnly IsQuiet w (w.startQuery sessionExpression fileExpression) := by
  simp only [startQuery]
  split
  · exact .refl _ w
  · refine .trans (.note (.note w.stopQuery_quiet ?_) ?_) (.one rfl ?_) <;> exact rfl

theorem pongFor_signs (w : ConnectionWorld) (now : UInt64) (message : ServerMessage)
    (replyToSessionId : String) : Signs w (w.pongFor now message replyToSessionId) := by
  refine ⟨rfl, ?_⟩
  have hversion : fieldLegacyVersion ≠ fieldSession := by decide
  have huptime : fieldUptime ≠ fieldSession := by decide
  have honline : fieldOnlineTime ≠ fieldSession := by decide
  simp only [pongFor, ServerMessage.strings_replace_of_ne _ _ hversion,
    ServerMessage.strings_replace_of_ne _ _ huptime,
    ServerMessage.strings_replace_of_ne _ _ honline, ServerMessage.strings_replace_self]

variable [MuscleLibrary]

theorem messageReceived_step (w : ConnectionWorld) (network : NetworkAnswer) (now : UInt64)
    (message : ServerMessage) (hrun : w.internalThreadRunning = true) :
    SessionStep w { call := .messageReceived message, network, now }
      (w.messageReceived now message) := by
  have hnoted {o : ConnectionOccurrence} (ho : o.IsQuiet) :
      SessionStep w { call := .messageReceived message, network, now } (w.note o) :=
    .keeps rfl (.one rfl ho)
  have hnothing : SessionStep w { call := .messageReceived message, network, now } w :=
    .keeps rfl (.refl _ w)
  rw [messageReceived]
  split
  · exact .readsNodes rfl
  · next hwhat =>
    rw [handleParameters]
    split
    · next localSessionId serverHostName hroot =>
      have hassigned : w.assignedSessionId { call := .messageReceived message, network, now } =
          some localSessionId := by
        simp only [assignedSessionId, hrun, hwhat, and_self, ↓reduceIte, hroot, Option.map_some]
      exact .identifies hassigned rfl (.one rfl rfl)
    · exact hnothing
  · rw [handleResultPong]
    split
    · split
      · exact hnoted rfl
      · exact hnothing
    · exact hnothing
  · rw [handleChatText]
    split
    · split
      · exact hnothing
      · exact hnoted rfl
    · exact hnothing
  · next hwhat =>
    rw [handlePing]
    split
    · next replyToSessionId hsession =>
      refine .speaks ⟨hrun, hwhat, ?_⟩ (w.pongFor_signs now message replyToSessionId)
      rw [hsession]
      rfl
    · exact hnothing
  · rw [handlePong]
    split
    · exact hnoted rfl
    · exact hnothing
  · exact hnothing

theorem sendChatText_step (w : ConnectionWorld) (network : NetworkAnswer) (now : UInt64)
    (targetSessionId text : String) :
    SessionStep w { call := .sendChatText targetSessionId text, network, now }
      (w.sendChatText targetSessionId text) := by
  rw [sendChatText]
  split
  · exact .keeps rfl (.refl _ w)
  · next hsends =>
    rw [not_or] at hsends
    refine .speaks ⟨Bool.eq_true_of_not_eq_false hsends.1, hsends.2⟩ ?_
    dsimp only
    split <;> exact ⟨rfl, rfl⟩

theorem sendPing_step (w : ConnectionWorld) (network : NetworkAnswer) (now : UInt64)
    (targetSessionId : String) :
    SessionStep w { call := .sendPing targetSessionId, network, now }
      (w.sendPing now targetSessionId) := by
  rw [sendPing]
  split
  · exact .keeps rfl (.refl _ w)
  · next hsends => exact .speaks (Bool.eq_true_of_not_eq_false hsends) ⟨rfl, rfl⟩

/-- A callback that comes after its thread has been shut down comes to nothing. -/
theorem deliver_step {w : ConnectionWorld} {callback : ConnectionWorld → ConnectionWorld}
    (h : w.internalThreadRunning = true → SessionStep w e (callback w)) :
    SessionStep w e (w.deliver callback) := by
  rw [deliver]
  split
  · next hrun => exact h hrun
  · exact .keeps rfl (.refl _ w)

theorem handle_step (w : ConnectionWorld) (e : ServerConnectionEvent) :
    SessionStep w e (w.handle e) := by
  by_cases hp : e.call.isPublication = true
  · obtain ⟨hs, hq⟩ := w.handle_publication e hp
    exact .keeps hs hq
  obtain ⟨call, network, now⟩ := e
  cases call with
  | connectToServer hostName port =>
    obtain ⟨state, hstate, hs⟩ := w.connectToServer_session network hostName port
    exact .closes hstate hs (w.connectToServer_disconnects network hostName port)
  | disconnectFromServer =>
    have hstate : ConnectionState.disconnected ≠ .connected := nofun
    exact .closes hstate w.disconnectFromServer_session w.disconnectFromServer_disconnects
  | sendChatText targetSessionId text => exact w.sendChatText_step network now targetSessionId text
  | sendPing targetSessionId => exact w.sendPing_step network now targetSessionId
  | startQuery sessionExpression fileExpression =>
    have hs := w.startQuery_session sessionExpression fileExpression
    have hq := w.startQuery_quiet sessionExpression fileExpression
    split at hs
    · exact .keeps hs hq
    · next hc =>
      exact .queries (fun _ => of_decide_eq_true (Bool.eq_true_of_not_eq_false hc)) hs hq
  | stopQuery =>
    have hactive : false = true → w.connectionState = .connected := nofun
    exact .queries hactive w.stopQuery_session w.stopQuery_quiet
  | sessionConnected connectedTo =>
    apply deliver_step
    intro _
    exact .connects (w.sessionConnected_session now connectedTo)
      (w.sessionConnected_login now connectedTo)
  | sessionDisconnected =>
    apply deliver_step
    intro hrun
    refine .loses ⟨hrun, trivial⟩ w.sessionDisconnected_session ?_
    exact setConnectionState_disconnects rfl (.one rfl rfl)
  | sessionDetached =>
    apply deliver_step
    intro hrun
    by_cases hup : w.connectionState = .disconnected
    · rw [sessionDetached_of_down w hup]
      exact .keeps rfl (.refl _ w)
    · refine .loses ⟨hrun, hup⟩ (w.sessionDetached_session hup) ?_
      rw [sessionDetached, if_pos hup]
      exact setConnectionState_disconnects rfl (.of_history_eq _ rfl)
  | messageReceived message =>
    apply deliver_step
    exact w.messageReceived_step network now message
  | _ => exact absurd rfl hp

end ConnectionWorld

end HiTuxShare
