import HiTuxShare.EventMachine
import HiTuxShare.UserNodes

namespace HiTuxShare
set_option autoImplicit true

/-- Everything a connection can be told, by its owner or by the network. -/
inductive ServerConnectionCall where
  | connectToServer (hostName : String) (port : UInt16)
  | disconnectFromServer
  | setInstallId (installId : UInt64)
  | setLocalUserName (name : String)
  | setLocalUserStatus (status : String)
  | sendChatText (targetSessionId text : String)
  | sendPing (targetSessionId : String)
  | startQuery (sessionExpression fileExpression : String)
  | stopQuery
  | setFirewalled (firewalled : Bool)
  | setAdvertisedPort (port : Int32)
  | publishSharedFiles (files : List SharedFile)
  | unpublishAllSharedFiles
  | publishSharedFileCount (fileCount : UInt32)
  | performIdleTasks (idle : Bool)
  | sessionConnected (connectedTo : String)
  | sessionDisconnected
  | sessionDetached
  | messageReceived (message : ServerMessage)

structure ServerConnectionEvent where
  call : ServerConnectionCall
  network : NetworkAnswer := {}
  now : UInt64 := 0

namespace ConnectionWorld

/-- What the internal thread has queued is dropped when it is shut down. -/
def deliver (w : ConnectionWorld) (callback : ConnectionWorld → ConnectionWorld) :
    ConnectionWorld := if w.internalThreadRunning then callback w else w

def handle [MuscleLibrary] (w : ConnectionWorld) (e : ServerConnectionEvent) : ConnectionWorld :=
  match e.call with
  | .connectToServer hostName port => (w.connectToServer e.network hostName port).1
  | .disconnectFromServer => w.disconnectFromServer
  | .setInstallId installId => w.setInstallId installId
  | .setLocalUserName name => w.setLocalUserName name
  | .setLocalUserStatus status => w.setLocalUserStatus status
  | .sendChatText targetSessionId text => w.sendChatText targetSessionId text
  | .sendPing targetSessionId => w.sendPing e.now targetSessionId
  | .startQuery sessionExpression fileExpression => w.startQuery sessionExpression fileExpression
  | .stopQuery => w.stopQuery
  | .setFirewalled firewalled => w.setFirewalled firewalled
  | .setAdvertisedPort port => w.setAdvertisedPort port
  | .publishSharedFiles files => w.publishSharedFiles files
  | .unpublishAllSharedFiles => w.unpublishAllSharedFiles
  | .publishSharedFileCount fileCount => w.publishSharedFileCount fileCount
  | .performIdleTasks idle => w.performIdleTasks idle
  | .sessionConnected connectedTo => w.deliver fun w => w.sessionConnected e.now connectedTo
  | .sessionDisconnected => w.deliver sessionDisconnected
  | .sessionDetached => w.deliver sessionDetached
  | .messageReceived message => w.deliver fun w => w.messageReceived e.now message

def machine [MuscleLibrary] : EventMachine ConnectionWorld ServerConnectionEvent := ⟨handle⟩

/-- A connection as the constructor leaves it. -/
def new : ConnectionWorld := {}

end ConnectionWorld

/-- What a connection knows of its session. -/
structure SessionState where
  connectionState : ConnectionState
  localSessionId : String
  hasPublishedIdentity : Bool
  loginTime : UInt64
  queryActive : Bool
  users : UserRegistry

def ServerConnection.session (c : ServerConnection) : SessionState :=
  ⟨c.connectionState, c.localSessionId, c.hasPublishedIdentity, c.loginTime, c.queryActive,
    c.users⟩

namespace SessionState

/-- What `DisconnectFromServer` leaves; a connection may be dialled from there. -/
def noSession (connectionState : ConnectionState) : SessionState :=
  ⟨connectionState, "", false, 0, false, .empty⟩

/-- What is left when the network layer reports the loss of a connection. -/
def lost (s : SessionState) : SessionState :=
  { s with
    connectionState := .disconnected
    localSessionId := ""
    hasPublishedIdentity := false
    users := .empty }

end SessionState

/-- The codes the server does not read itself. -/
def ServerCommand.isRelayed : ServerCommand → Bool
  | .newChatText | .clientPing | .clientPong => true
  | _ => false

namespace ConnectionOccurrence

def isQuiet : ConnectionOccurrence → Bool
  | .sent message => !message.what.isRelayed
  | .userUpdated .. | .userLeft _ | .connectionStateChanged _ => false
  | _ => true

/-- Neither about the list of users nor about the state of the connection, and not meant for other
clients. -/
def IsQuiet (o : ConnectionOccurrence) : Prop := o.isQuiet = true

end ConnectionOccurrence

/-- Who we are, what we share, and that we are still there. -/
def ServerConnectionCall.isPublication : ServerConnectionCall → Bool
  | .setInstallId _ | .setLocalUserName _ | .setLocalUserStatus _ | .setFirewalled _
  | .setAdvertisedPort _ | .publishSharedFiles _ | .unpublishAllSharedFiles
  | .publishSharedFileCount _ | .performIdleTasks _ => true
  | _ => false

namespace ConnectionWorld

theorem sendToServer_quiet (w : ConnectionWorld) {message : ServerMessage}
    (h : message.what.isRelayed = false) :
    DoesOnly ConnectionOccurrence.IsQuiet w (w.sendToServer message) := by
  apply DoesOnly.one rfl
  rw [ConnectionOccurrence.IsQuiet, ConnectionOccurrence.isQuiet, h]
  rfl

theorem ite_sendToServer_quiet (p : Prop) [Decidable p] (w : ConnectionWorld)
    {message : ServerMessage} (h : message.what.isRelayed = false) :
    DoesOnly ConnectionOccurrence.IsQuiet w (if p then w.sendToServer message else w) := by
  split
  · exact w.sendToServer_quiet h
  · exact .refl _ w

theorem publishBatches_quiet (w : ConnectionWorld) (batch : List (String × NodeMessage))
    (files : List SharedFile) :
    DoesOnly ConnectionOccurrence.IsQuiet w (w.publishBatches batch files) := by
  induction files generalizing w batch with
  | nil =>
    rw [publishBatches]
    split
    · exact .refl _ w
    · exact w.sendToServer_quiet rfl
  | cons file files ih =>
    rw [publishBatches]
    split
    · refine DoesOnly.trans ?_ (ih _ _)
      exact .one rfl rfl
    · refine DoesOnly.trans ?_ (ih _ _)
      exact .of_history_eq _ rfl

theorem unpublishAllSharedFiles_quiet (w : ConnectionWorld) :
    DoesOnly ConnectionOccurrence.IsQuiet w w.unpublishAllSharedFiles := by
  simp only [unpublishAllSharedFiles]
  split
  · exact .one rfl rfl
  · exact .of_history_eq _ rfl

/-- What is published is kept first, and sent if we are connected. -/
theorem ite_change_quiet {p q : Prop} [Decidable p] [Decidable q] {w w' w'' : ConnectionWorld}
    (hkept : w'.history = w.history) (hsent : DoesOnly ConnectionOccurrence.IsQuiet w' w'') :
    DoesOnly ConnectionOccurrence.IsQuiet w (if p then w else if q then w'' else w') := by
  split
  · exact .refl _ w
  · split
    · exact (DoesOnly.of_history_eq _ hkept).trans hsent
    · exact .of_history_eq _ hkept

theorem session_eq {w : ConnectionWorld} (h : w.toServerConnection = c) (hs : c.session = s) :
    w.session = s := by
  rw [h, hs]

theorem handle_publication [MuscleLibrary] (w : ConnectionWorld) (e : ServerConnectionEvent)
    (h : e.call.isPublication = true) : (w.handle e).session = w.session ∧
      DoesOnly ConnectionOccurrence.IsQuiet w (w.handle e) := by
  obtain ⟨call, network, now⟩ := e
  cases call with
  | setInstallId installId => exact ⟨rfl, .of_history_eq _ rfl⟩
  | setLocalUserName name =>
    simp only [handle, setLocalUserName]
    split
    · exact ⟨rfl, .refl _ w⟩
    · split
      · exact ⟨rfl, .refl _ w⟩
      · split
        · exact ⟨rfl, .one rfl rfl⟩
        · exact ⟨rfl, .of_history_eq _ rfl⟩
  | setLocalUserStatus status =>
    refine ⟨session_eq (w.setLocalUserStatus_toServerConnection status) rfl, ?_⟩
    exact ite_change_quiet rfl (.one rfl rfl)
  | setFirewalled firewalled =>
    refine ⟨session_eq (w.setFirewalled_toServerConnection firewalled) rfl, ?_⟩
    exact ite_change_quiet rfl (unpublishAllSharedFiles_quiet _)
  | setAdvertisedPort port =>
    refine ⟨session_eq (w.setAdvertisedPort_toServerConnection port) rfl, ?_⟩
    exact ite_change_quiet rfl (.one rfl rfl)
  | publishSharedFiles files =>
    refine ⟨session_eq (w.publishSharedFiles_toServerConnection files) rfl, ?_⟩
    simp only [handle, publishSharedFiles]
    split
    · exact w.publishBatches_quiet [] files
    · exact .refl _ w
  | unpublishAllSharedFiles =>
    exact ⟨session_eq w.unpublishAllSharedFiles_toServerConnection rfl,
      w.unpublishAllSharedFiles_quiet⟩
  | publishSharedFileCount fileCount =>
    refine ⟨session_eq (w.publishSharedFileCount_toServerConnection fileCount) rfl, ?_⟩
    exact ite_sendToServer_quiet _ w rfl
  | performIdleTasks idle =>
    simp only [handle, performIdleTasks]
    split
    · exact ⟨rfl, .refl _ w⟩
    · split
      · exact ⟨rfl, w.sendToServer_quiet rfl⟩
      · exact ⟨rfl, .refl _ w⟩
  | _ => cases h

theorem disconnectFromServer_session (w : ConnectionWorld) :
    w.disconnectFromServer.session = .noSession .disconnected :=
  session_eq w.disconnectFromServer_toServerConnection rfl

theorem connectToServer_session (w : ConnectionWorld) (network : NetworkAnswer)
    (hostName : String) (port : UInt16) : ∃ state, state ≠ .connected ∧
      (w.connectToServer network hostName port).1.session = .noSession state := by
  by_cases hn : hostName = ""
  · subst hn
    exact ⟨.disconnected, nofun, session_eq (w.connectToServer_empty network port) rfl⟩
  · by_cases ha : network.accepts
    · exact ⟨.connecting, nofun, session_eq (w.connectToServer_accepted ha hn port) rfl⟩
    · exact ⟨.disconnected, nofun, session_eq (w.connectToServer_refused ha hn port) rfl⟩

theorem stopQuery_session (w : ConnectionWorld) :
    w.stopQuery.session = { w.session with queryActive := false } := by
  rw [stopQuery]
  split
  · next hq =>
    rw [← hq]
    rfl
  · dsimp only
    split <;> rfl

theorem startQuery_session (w : ConnectionWorld) (sessionExpression fileExpression : String) :
    (w.startQuery sessionExpression fileExpression).session =
      if w.isConnected = false then w.session else { w.session with queryActive := true } := by
  rw [startQuery]
  split
  · rfl
  · exact congrArg (fun s : SessionState => { s with queryActive := true }) w.stopQuery_session

theorem sessionConnected_session (w : ConnectionWorld) (now : UInt64) (connectedTo : String) :
    (w.sessionConnected now connectedTo).session =
      { w.session with loginTime := now, connectionState := .connected } :=
  session_eq (w.sessionConnected_toServerConnection now connectedTo) rfl

theorem sessionDisconnected_session (w : ConnectionWorld) :
    w.sessionDisconnected.session = w.session.lost :=
  session_eq w.sessionDisconnected_toServerConnection rfl

theorem sessionDetached_session (w : ConnectionWorld) (h : w.connectionState ≠ .disconnected) :
    w.sessionDetached.session = w.session.lost :=
  session_eq (w.sessionDetached_of_up h) rfl

theorem handleDataItems_session [MuscleLibrary] (w : ConnectionWorld) (message : ServerMessage) :
    (w.handleDataItems message).session =
      { w.session with users := (w.handleDataItems message).users } := by
  apply handleDataItems_of_effect (I := fun w' =>
    w'.session = { w.session with users := w'.users }) _ rfl
  intro nodePath _ w₁ w₂ heffect h
  rw [session_eq heffect.toServerConnection rfl]
  exact congrArg (fun s : SessionState => { s with users := w₂.users }) h

end ConnectionWorld

end HiTuxShare
