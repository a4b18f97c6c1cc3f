import HiTuxShare.ConnectionEvents

namespace HiTuxShare
set_option autoImplicit true

/-- Shared files are published under either of two paths. -/
def isFileNode (nodePath : String) : Bool :=
  nodeFilesPath.toList.isPrefixOf nodePath.toList ||
    nodeFirewalledPath.toList.isPrefixOf nodePath.toList

/-- The message sets or removes nodes of shared files. -/
def ServerMessage.touchesFiles (message : ServerMessage) : Bool :=
  match message.what with
  | .setData => message.nodes.any fun node => isFileNode node.1
  | .removeData => true
  | _ => false

def ConnectionOccurrence.touchesFiles : ConnectionOccurrence → Bool
  | .sent message => message.touchesFiles
  | _ => false

/-- A message that only sets nodes. -/
def ConnectionOccurrence.IsSetData (o : ConnectionOccurrence) : Prop :=
  ∃ message, o = .sent message ∧ message.what = .setData

/-- About neither our shared files nor the results of a query. -/
def ConnectionOccurrence.isRoutine : ConnectionOccurrence → Bool
  | .sent message => !message.touchesFiles && message.what ≠ .ping
  | .queryResultAdded .. => false
  | _ => true

/-- What only the calls about files and queries change. -/
structure FilesAndQuery where
  firewalled : Bool
  publishedFileCount : UInt32
  pingCount : Int32
  sessionMatcher : String
  fileNameMatcher : String

def ServerConnection.filesAndQuery (c : ServerConnection) : FilesAndQuery :=
  ⟨c.firewalled, c.publishedFileCount, c.pingCount, c.sessionMatcher, c.fileNameMatcher⟩

/-- The session before the event, if there is one, is at its end. -/
def ServerConnection.endsSession (c : ServerConnection) (e : ServerConnectionEvent) : Bool :=
  match e.call with
  | .connectToServer .. | .disconnectFromServer => true
  | .sessionConnected _ | .sessionDisconnected | .sessionDetached => c.internalThreadRunning
  | _ => false

/-- Neither about files nor a new query, and no message of the server. -/
def ServerConnectionCall.isRoutine : ServerConnectionCall → Bool
  | .startQuery .. | .setFirewalled _ | .publishSharedFiles _ | .unpublishAllSharedFiles
  | .messageReceived _ => false
  | _ => true

namespace ConnectionWorld

/-- Our files and our query stay as they are, unless the query comes to its end. -/
structure Spares (w w' : ConnectionWorld) : Prop where
  kept : w'.filesAndQuery = w.filesAndQuery
  queryActive : w'.queryActive = true → w.queryActive = true
  only : DoesOnly (·.isRoutine = true) w w'

theorem Spares.refl (w : ConnectionWorld) : Spares w w := ⟨rfl, id, .refl _ w⟩

theorem Spares.trans (h : Spares w w') (h' : Spares w' w'') : Spares w w'' :=
  ⟨h'.kept.trans h.kept, fun ha => h.queryActive (h'.queryActive ha), h.only.trans h'.only⟩

theorem Spares.note (h : Spares w w') (ho : o.isRoutine = true) : Spares w (w'.note o) :=
  h.trans ⟨rfl, id, .one rfl ho⟩

theorem Spares.of_eq (hf : w'.filesAndQuery = w.filesAndQuery)
    (hq : w'.queryActive = w.queryActive) (hh : w'.history = w.history) : Spares w w' :=
  ⟨hf, fun ha => hq ▸ ha, .of_history_eq _ hh⟩

theorem setConnectionState_spares (w : ConnectionWorld) (state : ConnectionState) :
    Spares w (w.setConnectionState state) := by
  rw [setConnectionState]
  split
  · exact .refl w
  · exact ⟨rfl, id, .one rfl rfl⟩

theorem reportToUser_spares (w : ConnectionWorld) (type : LogMessageType) (text : String) :
    Spares w (w.reportToUser type text) := ⟨rfl, id, .one rfl rfl⟩

theorem setDataNodeValue_spares (w : ConnectionWorld) (h : isFileNode nodePath = false)
    (value : NodeMessage) : Spares w (w.setDataNodeValue nodePath value) := by
  refine ⟨rfl, id, .one rfl ?_⟩
  change (!([(nodePath, value)].any fun node => isFileNode node.1) && true) = true
  rw [List.any_cons, h]
  rfl

theorem publishLocalUserName_spares (w : ConnectionWorld) : Spares w w.publishLocalUserName :=
  w.setDataNodeValue_spares (by decide) _

theorem publishLocalUserStatus_spares (w : ConnectionWorld) : Spares w w.publishLocalUserStatus :=
  w.setDataNodeValue_spares (by decide) _

theorem shutdownInternalThread_spares (w : ConnectionWorld) :
    Spares w w.shutdownInternalThread := by
  rw [shutdownInternalThread]
  split
  · exact ⟨rfl, id, .one rfl rfl⟩
  · exact .refl w

theorem disconnectFromServer_spares (w : ConnectionWorld) : Spares w w.disconnectFromServer := by
  have hcleared : Spares w ({ w.shutdownInternalThread with
      users := .empty
      localSessionId := ""
      hasPublishedIdentity := false
      loginTime := 0
      queryActive := false }.note .queryResultsCleared) := by
    apply w.shutdownInternalThread_spares.trans
    exact ⟨rfl, fun ha => absurd ha Bool.false_ne_true, .one rfl rfl⟩
  rw [disconnectFromServer]
  split
  · exact (hcleared.note rfl).trans (setConnectionState_spares ..)
  · exact hcleared

theorem dial_spares (w : ConnectionWorld) (network : NetworkAnswer) :
    Spares w (w.dial network).1 := by
  simp only [dial]
  cases network.startInternalThread with
  | some text => exact ⟨rfl, id, .one rfl rfl⟩
  | none =>
    have hstarted : Spares w ({ w with internalThreadRunning := true }.note .threadStarted) :=
      ⟨rfl, id, .one rfl rfl⟩
    cases network.addNewConnectSession with
    | some text => exact (hstarted.trans (shutdownInternalThread_spares _)).note rfl
    | none => exact ((hstarted.note rfl).trans (setConnectionState_spares ..)).note rfl

theorem connectToServer_spares (w : ConnectionWorld) (network : NetworkAnswer)
    (hostName : String) (port : UInt16) :
    Spares w (w.connectToServer network hostName port).1 := by
  simp only [connectToServer]
  split
  · exact w.disconnectFromServer_spares
  · apply w.disconnectFromServer_spares.trans
    apply Spares.trans _ (dial_spares _ network)
    exact .of_eq rfl rfl rfl

theorem stopQuery_spares (w : ConnectionWorld) : Spares w w.stopQuery := by
  have hstopped : Spares w { w with queryActive := false } :=
    ⟨rfl, fun ha => absurd ha Bool.false_ne_true, .of_history_eq _ rfl⟩
  simp only [stopQuery]
  split
  · exact .refl w
  · split
    · exact (((hstopped.note rfl).note rfl).note rfl).note rfl
    · exact (hstopped.note rfl).note rfl

theorem sessionConnected_spares (w : ConnectionWorld) (now : UInt64) (connectedTo : String) :
    Spares w (w.sessionConnected now connectedTo) := by
  have hstate : Spares w (setConnectionState { w with loginTime := now } .connected) := by
    apply Spares.trans _ (setConnectionState_spares ..)
    exact .of_eq rfl rfl rfl
  have hreported := hstate.trans
    (reportToUser_spares _ .informationMessage ("Connected to " ++ connectedTo ++ "."))
  have hnamed := hreported.trans (publishLocalUserName_spares _)
  exact ((hnamed.trans (publishLocalUserStatus_spares _)).note rfl).note rfl

theorem sessionDisconnected_spares (w : ConnectionWorld) : Spares w w.sessionDisconnected := by
  have hforgotten : Spares w w.forgetSession := .of_eq rfl rfl rfl
  exact (hforgotten.trans (reportToUser_spares ..)).trans (setConnectionState_spares ..)

theorem sessionDetached_spares (w : ConnectionWorld) : Spares w w.sessionDetached := by
  rw [sessionDetached]
  split
  · apply Spares.trans _ (setConnectionState_spares ..)
    exact .of_eq rfl rfl rfl
  · exact .refl w

theorem deliver_spares (w : ConnectionWorld) (callback : ConnectionWorld → ConnectionWorld)
    (h : Spares w (callback w)) : Spares w (w.deliver callback) := by
  rw [deliver]
  split
  · exact h
  · exact .refl w

theorem deliver_off {w : ConnectionWorld} (h : w.internalThreadRunning = false)
    (callback : ConnectionWorld → ConnectionWorld) : w.deliver callback = w := by
  rw [deliver, h, if_neg Bool.false_ne_true]

theorem publishBatches_setData (w : ConnectionWorld) (batch : List (String × NodeMessage))
    (files : List SharedFile) :
    DoesOnly ConnectionOccurrence.IsSetData w (w.publishBatches batch files) := by
  induction files generalizing w batch with
  | nil =>
    rw [publishBatches]
    split
    · exact .refl _ w
    · exact .one rfl ⟨_, rfl, rfl⟩
  | cons file files ih =>
    rw [publishBatches]
    split
    · apply DoesOnly.trans _ (ih _ _)
      exact .one rfl ⟨_, rfl, rfl⟩
    · apply DoesOnly.trans _ (ih _ _)
      exact .of_history_eq _ rfl

theorem unpublishAllSharedFiles_history (w : ConnectionWorld) :
    w.unpublishAllSharedFiles.history = w.history ++
      if w.isConnected then
        [.sent { toMessage := .ofWhat .removeData, keys := [allFileNodes] }]
      else [] := by
  simp only [unpublishAllSharedFiles]
  change (if w.isConnected = true then _ else _ : ConnectionWorld).history = _
  split
  · rfl
  · exact (List.append_nil _).symm

section
variable [MuscleLibrary]

theorem messageReceived_spares (w : ConnectionWorld) (now : UInt64) {message : ServerMessage}
    (h : message.what ≠ .resultDataItems) : Spares w (w.messageReceived now message) := by
  rw [messageReceived]
  split
  · next hwhat => exact absurd hwhat h
  · rw [handleParameters]
    split
    · exact ⟨rfl, id, .one rfl rfl⟩
    · exact .refl w
  · rw [handleResultPong]
    split
    · split
      · exact ⟨rfl, id, .one rfl rfl⟩
      · exact .refl w
    · exact .refl w
  · rw [handleChatText]
    split
    · split
      · exact .refl w
      · exact ⟨rfl, id, .one rfl rfl⟩
    · exact .refl w
  · rw [handlePing]
    split
    · exact ⟨rfl, id, .one rfl rfl⟩
    · exact .refl w
  · rw [handlePong]
    split
    · exact ⟨rfl, id, .one rfl rfl⟩
    · exact .refl w
  · exact .refl w

theorem handle_spares (w : ConnectionWorld) (e : ServerConnectionEvent)
    (h : e.call.isRoutine = true) : Spares w (w.handle e) := by
  obtain ⟨call, network, now⟩ := e
  cases call with
  | connectToServer hostName port => exact w.connectToServer_spares network hostName port
  | disconnectFromServer => exact w.disconnectFromServer_spares
  | setInstallId => exact .of_eq rfl rfl rfl
  | setLocalUserName name =>
    simp only [handle, setLocalUserName]
    split
    · exact .refl w
    · split
      · exact .refl w
      · split
        · apply Spares.trans _ (publishLocalUserName_spares _)
          exact .of_eq rfl rfl rfl
        · exact .of_eq rfl rfl rfl
  | setLocalUserStatus status =>
    simp only [handle, setLocalUserStatus]
    split
    · exact .refl w
    · split
      · apply Spares.trans _ (publishLocalUserStatus_spares _)
        exact .of_eq rfl rfl rfl
      · exact .of_eq rfl rfl rfl
  | sendChatText targetSessionId text =>
    simp only [handle, sendChatText]
    split
    · exact .refl w
    · apply Spares.note (.refl w)
      split <;> rfl
  | sendPing targetSessionId =>
    simp only [handle, sendPing]
    split
    · exact .refl w
    · exact Spares.note (.refl w) rfl
  | stopQuery => exact w.stopQuery_spares
  | setAdvertisedPort port =>
    simp only [handle, setAdvertisedPort]
    split
    · exact .refl w
    · split
      · apply Spares.trans _ (publishLocalUserName_spares _)
        exact .of_eq rfl rfl rfl
      · exact .of_eq rfl rfl rfl
  | publishSharedFileCount fileCount =>
    simp only [handle, publishSharedFileCount]
    split
    · exact w.setDataNodeValue_spares (by decide) _
    · exact .refl w
  | performIdleTasks idle =>
    simp only [handle, performIdleTasks]
    split
    · exact .refl w
    · split
      · exact Spares.note (.refl w) rfl
      · exact .refl w
  | sessionConnected connectedTo =>
    apply w.deliver_spares
    exact w.sessionConnected_spares now connectedTo
  | sessionDisconnected => exact w.deliver_spares _ w.sessionDisconnected_spares
  | sessionDetached => exact w.deliver_spares _ w.sessionDetached_spares
  | _ => cases h

/-- Whether we are connected is decided where a session ends or begins. -/
theorem isConnected_handle {w : ConnectionWorld} (h : w.endsSession e = false) :
    (w.handle e).isConnected = w.isConnected := by
  apply congrArg (decide <| · = ConnectionState.connected)
  by_cases hp : e.call.isPublication = true
  · exact congrArg SessionState.connectionState (w.handle_publication e hp).1
  obtain ⟨call, network, now⟩ := e
  cases call with
  | connectToServer => cases h
  | disconnectFromServer => cases h
  | sendChatText targetSessionId text =>
    simp only [handle, sendChatText]
    split <;> rfl
  | sendPing targetSessionId =>
    simp only [handle, sendPing]
    split <;> rfl
  | startQuery sessionExpression fileExpression =>
    have hs := w.startQuery_session sessionExpression fileExpression
    split at hs <;> exact congrArg SessionState.connectionState hs
  | stopQuery => exact congrArg SessionState.connectionState w.stopQuery_session
  | sessionConnected => exact congrArg (·.connectionState) (deliver_off h _)
  | sessionDisconnected => exact congrArg (·.connectionState) (deliver_off h _)
  | sessionDetached => exact congrArg (·.connectionState) (deliver_off h _)
  | messageReceived message =>
    simp only [handle, deliver]
    split
    · rw [messageReceived]
      split
      · exact congrArg SessionState.connectionState (w.handleDataItems_session message)
      · rw [handleParameters]; split <;> rfl
      · rw [handleResultPong]; split <;> first | rfl | (split <;> rfl)
      · rw [handleChatText]; split <;> first | rfl | (split <;> rfl)
      · rw [handlePing]; split <;> rfl
      · rw [handlePong]; split <;> rfl
      · rfl
    · rfl
  | _ => exact absurd rfl hp

theorem isConnected_of_endsSession {w : ConnectionWorld} (h : w.endsSession e = true)
    (he : ∀ connectedTo, e.call ≠ .sessionConnected connectedTo) :
    (w.handle e).isConnected = false := by
  obtain ⟨call, network, now⟩ := e
  apply decide_eq_false
  cases call with
  | connectToServer hostName port =>
    obtain ⟨state, hstate, hs⟩ := w.connectToServer_session network hostName port
    have hnow := congrArg SessionState.connectionState hs
    exact fun hc => hstate (hnow.symm.trans hc)
  | disconnectFromServer =>
    have hnow : _ = ConnectionState.disconnected :=
      congrArg SessionState.connectionState w.disconnectFromServer_session
    exact fun hc => absurd (hnow.symm.trans hc) (by decide)
  | sessionConnected connectedTo => exact absurd rfl (he connectedTo)
  | sessionDisconnected =>
    have hrunning : w.internalThreadRunning = true := h
    have hnow : _ = ConnectionState.disconnected :=
      congrArg SessionState.connectionState w.sessionDisconnected_session
    simp only [handle, deliver, hrunning, if_true]
    exact fun hc => absurd (hnow.symm.trans hc) (by decide)
  | sessionDetached =>
    have hrunning : w.internalThreadRunning = true := h
    simp only [handle, deliver, hrunning, if_true]
    by_cases hd : w.connectionState = .disconnected
    · rw [sessionDetached, if_neg (not_not.mpr hd), hd]
      decide
    · have hnow : _ = ConnectionState.disconnected :=
        congrArg SessionState.connectionState (w.sessionDetached_session hd)
      exact fun hc => absurd (hnow.symm.trans hc) (by decide)
  | _ => cases h

theorem isConnected_of_sessionConnected {w : ConnectionWorld}
    (he : e.call = .sessionConnected connectedTo) (h : w.internalThreadRunning = true) :
    (w.handle e).isConnected = true := by
  have hnow := congrArg SessionState.connectionState (w.sessionConnected_session e.now connectedTo)
  apply decide_eq_true
  simp only [handle, he, deliver, h, if_true]
  exact hnow

end

end ConnectionWorld

end HiTuxShare
