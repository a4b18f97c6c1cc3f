import HiTuxShare.Download
import HiTuxShare.UploadServer
import HiTuxShare.UserRegistry

namespace HiTuxShare
set_option autoImplicit true

def defaultServerPort : UInt16 := 2960

/-- Shared-file nodes in one message at most. -/
def sharedFileBatchSize : Nat := 50

def nodeName : String := "beshare/name"
def nodeUserStatus : String := "beshare/userstatus"
def nodeFileCount : String := "beshare/filecount"
def nodeFilesPath : String := "beshare/files/"
def nodeFirewalledPath : String := "beshare/fires/"
def subscribeAll : String := "SUBSCRIBE:beshare/*"

/-- The key that removes the nodes of both paths. -/
def allFileNodes : String := "beshare/fi*es"

def fieldName : String := "name"
def fieldPort : String := "port"
def fieldInstallId : String := "installid"
def fieldVersionName : String := "version_name"
def fieldVersionNumber : String := "version_num"
def fieldUserStatus : String := "userstatus"
def fieldFileCount : String := "filecount"
def fieldModificationTime : String := "beshare:Modification Time"

def fieldLegacyVersion : String := "version"
def fieldBot : String := "bot"
def fieldSupportsPartialHashing : String := "supports_partial_hashing"
def fieldSupportsSsl : String := "supports_ssl"
def fieldSupportsRanges : String := "supports_ranges"
def fieldBandwidthLabel : String := "label"
def fieldBandwidthBits : String := "bps"
def fieldUploadsCurrent : String := "cur"
def fieldUploadsMax : String := "max"

def fieldSession : String := "session"
def fieldText : String := "text"
def fieldPrivate : String := "private"
def fieldWhen : String := "when"
def fieldUptime : String := "uptime"
def fieldOnlineTime : String := "onlinetime"
def fieldCount : String := "count"

def hituxShareName : String := "HiTuxShare"
def hituxShareVersionString : String := "0.1.0"

inductive ConnectionState where
  | disconnected
  | connecting
  | connected
  deriving DecidableEq

/-- The command codes between a connection and its server: the commands it is given, its answers,
and the clients' own codes, which it relays. -/
inductive ServerCommand where
  | setParameters
  | getParameters
  | setData
  | removeData
  | removeParameters
  | jettisonResults
  | ping
  | noop
  | resultDataItems
  | resultParameters
  | resultPong
  | newChatText
  | clientPing
  | clientPong
  | other (what : UInt32)
  deriving DecidableEq

/-- What one of our nodes holds. -/
abbrev NodeMessage := Message Unit

/-- A message to the server or from it. `keys`, `removedDataItems` and `sessionRoot` are the items
of the fields of that name; nodes are sub-messages under their paths. -/
structure ServerMessage extends Message ServerCommand where
  keys : List String := []
  nodes : List (String × NodeMessage) := []
  removedDataItems : List String := []
  sessionRoot : Option String := none
  deriving DecidableEq

/-- One client connection to one server. A matcher is its pattern. `internalThreadRunning` belongs
to the base class. -/
structure ServerConnection where
  connectionState : ConnectionState := .disconnected
  localUserName : String := "binky"
  localUserStatus : String := "here"
  localSessionId : String := ""
  serverAddress : String := ""
  serverPort : UInt16 := defaultServerPort
  installId : UInt64 := 0
  queryActive : Bool := false
  sessionMatcher : String := ""
  fileNameMatcher : String := ""
  pingCount : Int32 := 0
  firewalled : Bool := false
  advertisedPort : Int32 := 0
  publishedFileCount : UInt32 := 0
  loginTime : UInt64 := 0
  hasPublishedIdentity : Bool := false
  users : UserRegistry := .empty
  internalThreadRunning : Bool := false

/-- What a `ChatMessage` has besides its type and its text. -/
structure ChatDetails where
  senderSessionId : String := ""
  senderName : String := ""
  isPrivate : Bool := false
  isAction : Bool := false
  deriving DecidableEq

/-- What a connection does to the outside: to its thread, to the server and to its listener. With a
query result goes the name the sharer has then. -/
inductive ConnectionOccurrence where
  | threadStarted
  | threadShutDown
  | connectSessionAdded (hostName : String) (port : UInt16)
  | sent (message : ServerMessage)
  | connectionStateChanged (state : ConnectionState)
  | chatMessageReceived (type : LogMessageType) (text : String) (details : ChatDetails := {})
  | queryResultsCleared
  | localSessionIdAssigned (sessionId hostName : String)
  | userUpdated (user : UserRecord) (isNewUser : Bool)
  | userLeft (user : UserRecord)
  | queryResultAdded (result : FileResult) (sharerName : String)
  | queryResultRemoved (sessionId fileName : String)
  | querySweepStateChanged (isSweeping : Bool)
  | pingReplyReceived (user : UserRecord) (roundTrip : UInt64) (peerVersion : String)
  deriving DecidableEq

/-- A connection with the history of what it did. -/
structure ConnectionWorld extends ServerConnection where
  history : List ConnectionOccurrence := []

/-- What the network layer answers to one attempt to connect; a failure comes with its text. -/
structure NetworkAnswer where
  startInternalThread : Option String := none
  addNewConnectSession : Option String := none

def NetworkAnswer.accepts (network : NetworkAnswer) : Prop :=
  network.startInternalThread = none ∧ network.addNewConnectSession = none

namespace ServerConnection

def isConnected (c : ServerConnection) : Bool := c.connectionState = .connected

/-- Zero is what a peer reads as "do not try to connect to me". -/
def nameNode (c : ServerConnection) : NodeMessage :=
  (Message.ofWhat ())
    |>.addString fieldName c.localUserName
    |>.addInt32 fieldPort c.advertisedPort
    |>.addInt64 fieldInstallId c.installId.toInt64.toInt
    |>.addString fieldVersionName hituxShareName
    |>.addString fieldVersionNumber hituxShareVersionString

def userStatusNode (c : ServerConnection) : NodeMessage :=
  (Message.ofWhat ()).addString fieldUserStatus c.localUserStatus

def filesNodePath (c : ServerConnection) : String :=
  if c.firewalled then nodeFirewalledPath else nodeFilesPath

end ServerConnection

def fileNode (file : SharedFile) : NodeMessage :=
  let fileInfo := (Message.ofWhat ())
    |>.addInt64 fieldFileSize file.fileSize
    |>.addInt32 fieldModificationTime file.modificationTime
    |>.addString fieldPath file.relativePath
  if file.kind ≠ "" then fileInfo.addString fieldKind file.kind else fileInfo

def fileCountNode (fileCount : UInt32) : NodeMessage :=
  (Message.ofWhat ()).addInt32 fieldFileCount fileCount.toInt32

namespace ConnectionWorld

def note (w : ConnectionWorld) (o : ConnectionOccurrence) : ConnectionWorld :=
  { w with history := w.history ++ [o] }

def sendToServer (w : ConnectionWorld) (message : ServerMessage) : ConnectionWorld :=
  w.note (.sent message)

def setConnectionState (w : ConnectionWorld) (state : ConnectionState) : ConnectionWorld :=
  if state = w.connectionState then w
  else { w with connectionState := state }.note (.connectionStateChanged state)

def reportToUser (w : ConnectionWorld) (type : LogMessageType) (text : String) : ConnectionWorld :=
  w.note (.chatMessageReceived type text)

def setDataNodes (w : ConnectionWorld) (nodes : List (String × NodeMessage)) : ConnectionWorld :=
  w.sendToServer { what := .setData, fields := [], nodes }

def setDataNodeValue (w : ConnectionWorld) (nodePath : String) (value : NodeMessage) :
    ConnectionWorld := w.setDataNodes [(nodePath, value)]

def publishLocalUserName (w : ConnectionWorld) : ConnectionWorld :=
  w.setDataNodeValue nodeName w.nameNode

def publishLocalUserStatus (w : ConnectionWorld) : ConnectionWorld :=
  w.setDataNodeValue nodeUserStatus w.userStatusNode

def subscribeToUsers (w : ConnectionWorld) : ConnectionWorld :=
  w.sendToServer { toMessage := (Message.ofWhat .setParameters).addBool subscribeAll true }

def requestSessionParameters (w : ConnectionWorld) : ConnectionWorld :=
  w.sendToServer { toMessage := .ofWhat .getParameters }

def shutdownInternalThread (w : ConnectionWorld) : ConnectionWorld :=
  if w.internalThreadRunning then { w with internalThreadRunning := false }.note .threadShutDown
  else w

def disconnectFromServer (w : ConnectionWorld) : ConnectionWorld :=
  let w' := { w.shutdownInternalThread with
    users := .empty
    localSessionId := ""
    hasPublishedIdentity := false
    loginTime := 0
    queryActive := false }.note .queryResultsCleared
  if w.connectionState ≠ .disconnected then
    (w'.reportToUser .informationMessage "Disconnected from server.").setConnectionState
      .disconnected
  else w'

/-- The part of `ConnectToServer` that talks to the network layer. -/
def dial (w : ConnectionWorld) (network : NetworkAnswer) : ConnectionWorld × Status :=
  match network.startInternalThread with
  | some text =>
    (w.reportToUser .errorMessage ("Could not start the network thread: " ++ text), .failure text)
  | none =>
    let w := { w with internalThreadRunning := true }.note .threadStarted
    match network.addNewConnectSession with
    | some text =>
      (w.shutdownInternalThread.reportToUser .errorMessage
        ("Could not connect to " ++ w.serverAddress ++ ": " ++ text), .failure text)
    | none =>
      (((w.note (.connectSessionAdded w.serverAddress w.serverPort)).setConnectionState
        .connecting).reportToUser .informationMessage
          ("Connecting to " ++ w.serverAddress ++ "..."), .noError)

def connectToServer (w : ConnectionWorld) (network : NetworkAnswer) (hostName : String)
    (port : UInt16) : ConnectionWorld × Status :=
  let w := w.disconnectFromServer
  if hostName = "" then (w, .badArgument)
  else
    { w with
      serverAddress := hostName
      serverPort := if 0 < port then port else defaultServerPort }.dial network

def setInstallId (w : ConnectionWorld) (installId : UInt64) : ConnectionWorld :=
  { w with installId }

/-- An empty name is refused: nobody could address us. -/
def setLocalUserName (w : ConnectionWorld) (name : String) : ConnectionWorld :=
  if name = "" then w
  else if name = w.localUserName then w
  else
    let w := { w with localUserName := name }
    if w.isConnected then w.publishLocalUserName else w

def setLocalUserStatus (w : ConnectionWorld) (status : String) : ConnectionWorld :=
  if status = w.localUserStatus then w
  else
    let w := { w with localUserStatus := status }
    if w.isConnected then w.publishLocalUserStatus else w

def unpublishAllSharedFiles (w : ConnectionWorld) : ConnectionWorld :=
  let w := { w with publishedFileCount := 0 }
  if w.isConnected then
    w.sendToServer { toMessage := .ofWhat .removeData, keys := [allFileNodes] }
  else w

/-- The path of our file nodes changes with the flag. -/
def setFirewalled (w : ConnectionWorld) (firewalled : Bool) : ConnectionWorld :=
  if firewalled = w.firewalled then w
  else
    let w := { w with firewalled }
    if w.isConnected ∧ 0 < w.publishedFileCount then w.unpublishAllSharedFiles else w

def setAdvertisedPort (w : ConnectionWorld) (port : Int32) : ConnectionWorld :=
  if port = w.advertisedPort then w
  else
    let w := { w with advertisedPort := port }
    if w.isConnected then w.publishLocalUserName else w

/-- The loop of `PublishSharedFiles`, with the batch it is filling. -/
def publishBatches (w : ConnectionWorld) (batch : List (String × NodeMessage)) :
    List SharedFile → ConnectionWorld
  | [] => if batch = [] then w else w.setDataNodes batch
  | file :: files =>
    let batch := batch ++ [(w.filesNodePath ++ file.fileName, fileNode file)]
    let w := { w with publishedFileCount := w.publishedFileCount + 1 }
    if sharedFileBatchSize ≤ batch.length then (w.setDataNodes batch).publishBatches [] files
    else w.publishBatches batch files

def publishSharedFiles (w : ConnectionWorld) (files : List SharedFile) : ConnectionWorld :=
  if w.isConnected then w.publishBatches [] files else w

def publishSharedFileCount (w : ConnectionWorld) (fileCount : UInt32) : ConnectionWorld :=
  if w.isConnected then w.setDataNodeValue nodeFileCount (fileCountNode fileCount) else w

/-- The name has to be there before others see us, so it is published before we subscribe. -/
def sessionConnected (w : ConnectionWorld) (now : UInt64) (connectedTo : String) :
    ConnectionWorld :=
  let w := { w with loginTime := now }.setConnectionState .connected
  let w := w.reportToUser .informationMessage ("Connected to " ++ connectedTo ++ ".")
  w.publishLocalUserName.publishLocalUserStatus.subscribeToUsers.requestSessionParameters

def forgetSession (w : ConnectionWorld) : ConnectionWorld :=
  { w with users := .empty, localSessionId := "", hasPublishedIdentity := false }

def sessionDisconnected (w : ConnectionWorld) : ConnectionWorld :=
  (w.forgetSession.reportToUser .errorMessage "Connection to server lost.").setConnectionState
    .disconnected

def sessionDetached (w : ConnectionWorld) : ConnectionWorld :=
  if w.connectionState ≠ .disconnected then w.forgetSession.setConnectionState .disconnected
  else w

@[simp] theorem setConnectionState_toServerConnection (w : ConnectionWorld)
    (state : ConnectionState) : (w.setConnectionState state).toServerConnection =
      { w.toServerConnection with connectionState := state } := by
  rw [setConnectionState]
  split
  · next he =>
    rw [he]
  · rfl

@[simp] theorem shutdownInternalThread_toServerConnection (w : ConnectionWorld) :
    w.shutdownInternalThread.toServerConnection =
      { w.toServerConnection with internalThreadRunning := false } := by
  rw [shutdownInternalThread]
  split
  · rfl
  · next hr =>
    rw [← Bool.eq_false_of_not_eq_true hr]

end ConnectionWorld

/-- What `DisconnectFromServer` leaves of a connection. -/
def ServerConnection.hungUp (c : ServerConnection) : ServerConnection :=
  { c with
    connectionState := .disconnected
    users := .empty
    localSessionId := ""
    hasPublishedIdentity := false
    loginTime := 0
    queryActive := false
    internalThreadRunning := false }

namespace ConnectionWorld

@[simp] theorem disconnectFromServer_toServerConnection (w : ConnectionWorld) :
    w.disconnectFromServer.toServerConnection = w.toServerConnection.hungUp := by
  have hforgotten := congrArg (fun c : ServerConnection => { c with
    users := .empty
    localSessionId := ""
    hasPublishedIdentity := false
    loginTime := 0
    queryActive := false }) (shutdownInternalThread_toServerConnection w)
  simp only [disconnectFromServer]
  split
  · exact (setConnectionState_toServerConnection ..).trans (congrArg
      (fun c : ServerConnection => { c with connectionState := .disconnected }) hforgotten)
  · next hd =>
    refine hforgotten.trans ?_
    rw [ServerConnection.hungUp, ← not_not.mp hd]

theorem dial_accepted (w : ConnectionWorld) (h : network.accepts) :
    (w.dial network).1.toServerConnection =
      { w.toServerConnection with
        connectionState := .connecting
        internalThreadRunning := true } := by
  simp only [dial, h.1, h.2]
  exact setConnectionState_toServerConnection ..

/-- Whatever the attempt has started is taken back. -/
theorem dial_refused (w : ConnectionWorld) (hw : w.internalThreadRunning = false)
    (h : ¬network.accepts) : (w.dial network).1.toServerConnection = w.toServerConnection := by
  simp only [dial]
  cases hs : network.startInternalThread with
  | some text => rfl
  | none =>
    cases ha : network.addNewConnectSession with
    | none => exact absurd ⟨hs, ha⟩ h
    | some text =>
      refine (shutdownInternalThread_toServerConnection _).trans ?_
      rw [← hw]
      rfl

theorem connectToServer_empty (w : ConnectionWorld) (network : NetworkAnswer) (port : UInt16) :
    (w.connectToServer network "" port).1.toServerConnection = w.toServerConnection.hungUp :=
  disconnectFromServer_toServerConnection w

theorem connectToServer_accepted (w : ConnectionWorld) (h : network.accepts) (hn : hostName ≠ "")
    (port : UInt16) : (w.connectToServer network hostName port).1.toServerConnection =
      { w.toServerConnection.hungUp with
        serverAddress := hostName
        serverPort := if 0 < port then port else defaultServerPort
        connectionState := .connecting
        internalThreadRunning := true } := by
  simp only [connectToServer, if_neg hn]
  rw [dial_accepted _ h, disconnectFromServer_toServerConnection]

theorem connectToServer_refused (w : ConnectionWorld) (h : ¬network.accepts) (hn : hostName ≠ "")
    (port : UInt16) : (w.connectToServer network hostName port).1.toServerConnection =
      { w.toServerConnection.hungUp with
        serverAddress := hostName
        serverPort := if 0 < port then port else defaultServerPort } := by
  have hoff : w.disconnectFromServer.internalThreadRunning = false := by
    rw [disconnectFromServer_toServerConnection]
    rfl
  simp only [connectToServer, if_neg hn]
  refine (dial_refused _ ?_ h).trans ?_
  · exact hoff
  · rw [disconnectFromServer_toServerConnection]

theorem setLocalUserName_toServerConnection (w : ConnectionWorld) (hn : name ≠ "") :
    (w.setLocalUserName name).toServerConnection =
      { w.toServerConnection with localUserName := name } := by
  simp only [setLocalUserName, if_neg hn]
  split
  · next he => rw [he]
  · split <;> rfl

theorem setLocalUserStatus_toServerConnection (w : ConnectionWorld) (status : String) :
    (w.setLocalUserStatus status).toServerConnection =
      { w.toServerConnection with localUserStatus := status } := by
  simp only [setLocalUserStatus]
  split
  · next he => rw [he]
  · split <;> rfl

theorem setAdvertisedPort_toServerConnection (w : ConnectionWorld) (port : Int32) :
    (w.setAdvertisedPort port).toServerConnection =
      { w.toServerConnection with advertisedPort := port } := by
  simp only [setAdvertisedPort]
  split
  · next he => rw [he]
  · split <;> rfl

theorem unpublishAllSharedFiles_toServerConnection (w : ConnectionWorld) :
    w.unpublishAllSharedFiles.toServerConnection =
      { w.toServerConnection with publishedFileCount := 0 } := by
  simp only [unpublishAllSharedFiles]
  split <;> rfl

theorem setFirewalled_toServerConnection (w : ConnectionWorld) (firewalled : Bool) :
    (w.setFirewalled firewalled).toServerConnection =
      { w.toServerConnection with
        firewalled
        publishedFileCount := (w.setFirewalled firewalled).publishedFileCount } := by
  simp only [setFirewalled]
  split
  · next he => rw [he]
  · split
    · rw [unpublishAllSharedFiles_toServerConnection]
    · rfl

theorem publishBatches_toServerConnection (w : ConnectionWorld)
    (batch : List (String × NodeMessage)) (files : List SharedFile) :
    (w.publishBatches batch files).toServerConnection =
      { w.toServerConnection with
        publishedFileCount := w.publishedFileCount + UInt32.ofNat files.length } := by
  induction files generalizing w batch with
  | nil =>
    rw [publishBatches, List.length_nil, show UInt32.ofNat 0 = 0 from rfl, UInt32.add_zero]
    split <;> rfl
  | cons file files ih =>
    rw [publishBatches, List.length_cons, Nat.add_comm files.length, UInt32.ofNat_add,
      ← UInt32.add_assoc]
    split
    · exact ih ..
    · exact ih ..

theorem publishSharedFiles_toServerConnection (w : ConnectionWorld) (files : List SharedFile) :
    (w.publishSharedFiles files).toServerConnection =
      { w.toServerConnection with
        publishedFileCount := (w.publishSharedFiles files).publishedFileCount } := by
  rw [publishSharedFiles]
  split
  · rw [publishBatches_toServerConnection]
  · rfl

theorem publishSharedFileCount_toServerConnection (w : ConnectionWorld) (fileCount : UInt32) :
    (w.publishSharedFileCount fileCount).toServerConnection = w.toServerConnection := by
  rw [publishSharedFileCount]
  split <;> rfl

theorem sessionConnected_toServerConnection (w : ConnectionWorld) (now : UInt64)
    (connectedTo : String) : (w.sessionConnected now connectedTo).toServerConnection =
      { w.toServerConnection with loginTime := now, connectionState := .connected } :=
  setConnectionState_toServerConnection { w with loginTime := now } .connected

theorem sessionDisconnected_toServerConnection (w : ConnectionWorld) :
    w.sessionDisconnected.toServerConnection =
      { w.forgetSession.toServerConnection with connectionState := .disconnected } :=
  setConnectionState_toServerConnection ..

theorem sessionDetached_of_up (w : ConnectionWorld) (h : w.connectionState ≠ .disconnected) :
    w.sessionDetached.toServerConnection =
      { w.forgetSession.toServerConnection with connectionState := .disconnected } := by
  rw [sessionDetached, if_pos h]
  exact setConnectionState_toServerConnection ..

theorem sessionDetached_of_down (w : ConnectionWorld) (h : w.connectionState = .disconnected) :
    w.sessionDetached = w := by
  rw [sessionDetached, if_neg (not_not.mpr h)]

theorem setConnectionState_history (w : ConnectionWorld) (state : ConnectionState) :
    (w.setConnectionState state).history = w.history ++
      if state = w.connectionState then [] else [.connectionStateChanged state] := by
  rw [setConnectionState]
  split
  · exact (List.append_nil _).symm
  · rfl

theorem shutdownInternalThread_history (w : ConnectionWorld) :
    w.shutdownInternalThread.history = w.history ++
      if w.internalThreadRunning then [.threadShutDown] else [] := by
  rw [shutdownInternalThread]
  split
  · rfl
  · exact (List.append_nil _).symm

theorem disconnectFromServer_history (w : ConnectionWorld) :
    w.disconnectFromServer.history = w.history ++
      ((if w.internalThreadRunning then [.threadShutDown] else []) ++ [.queryResultsCleared] ++
        if w.connectionState = .disconnected then []
        else
          [.chatMessageReceived .informationMessage "Disconnected from server.",
            .connectionStateChanged .disconnected]) := by
  simp only [disconnectFromServer]
  by_cases hd : w.connectionState = .disconnected
  · rw [if_neg (not_not.mpr hd), if_pos hd, List.append_nil, ← List.append_assoc,
      ← shutdownInternalThread_history]
    rfl
  · rw [if_pos hd, if_neg hd, setConnectionState_history, if_neg, ← List.append_assoc,
      ← List.append_assoc, ← shutdownInternalThread_history]
    · exact List.append_assoc _ [_] [_]
    · change .disconnected ≠ w.shutdownInternalThread.connectionState
      rw [shutdownInternalThread_toServerConnection]
      exact Ne.symm hd

end ConnectionWorld

/-- Between the two states nothing has been done but what `P` allows. -/
def DoesOnly (P : ConnectionOccurrence → Prop) (w w' : ConnectionWorld) : Prop :=
  ∃ later, w'.history = w.history ++ later ∧ ∀ o ∈ later, P o

namespace DoesOnly

theorem refl (P : ConnectionOccurrence → Prop) (w : ConnectionWorld) : DoesOnly P w w := by
  refine ⟨[], (List.append_nil _).symm, fun o hm => ?_⟩
  cases hm

theorem trans (h : DoesOnly P w w') (h' : DoesOnly P w' w'') : DoesOnly P w w'' := by
  obtain ⟨later, hlater, hP⟩ := h
  obtain ⟨later', hlater', hP'⟩ := h'
  refine ⟨later ++ later', ?_, fun o hm => ?_⟩
  · rw [hlater', hlater, List.append_assoc]
  · exact (List.mem_append.mp hm).elim (hP o) (hP' o)

theorem one (h : w'.history = w.history ++ [o]) (ho : P o) : DoesOnly P w w' := by
  refine ⟨[o], h, fun o' hm => ?_⟩
  rw [List.mem_singleton.mp hm]
  exact ho

theorem note (h : DoesOnly P w w') (ho : P o) : DoesOnly P w (w'.note o) := h.trans (.one rfl ho)

theorem of_history_eq (P : ConnectionOccurrence → Prop) (h : w'.history = w.history) :
    DoesOnly P w w' := by
  refine ⟨[], h.trans (List.append_nil _).symm, fun o hm => ?_⟩
  cases hm

theorem imp (h : DoesOnly P w w') (hPQ : ∀ o, P o → Q o) : DoesOnly Q w w' := by
  obtain ⟨later, hlater, hP⟩ := h
  exact ⟨later, hlater, fun o hm => hPQ o (hP o hm)⟩

theorem drop (h : DoesOnly P w w') : ∀ o ∈ w'.history.drop w.history.length, P o := by
  obtain ⟨later, hlater, hP⟩ := h
  rwa [hlater, List.drop_left]

end DoesOnly

def ConnectionOccurrence.nodesSet : ConnectionOccurrence → List (String × NodeMessage)
  | .sent message => message.nodes
  | _ => []

/-- The nodes set by the messages a connection has sent since. -/
def nodesSetSince (w w' : ConnectionWorld) : List (String × NodeMessage) :=
  (w'.history.drop w.history.length).flatMap ConnectionOccurrence.nodesSet

theorem nodesSetSince_append {w w' : ConnectionWorld} (h : w'.history = w.history ++ later) :
    nodesSetSince w w' = later.flatMap ConnectionOccurrence.nodesSet := by
  rw [nodesSetSince, h, List.drop_left]

end HiTuxShare
