import HiTuxShare.EventMachine
import HiTuxShare.UploadServer

namespace HiTuxShare
set_option autoImplicit true

namespace PeerUpload

/-- The name the log and the peer list show. -/
def who (peer : PeerUpload) : String :=
  if peer.remoteUserName ≠ "" then peer.remoteUserName else peer.peerAddress

/-- `FindString` into the two identity fields leaves them alone when the message has none. -/
def identify (message : TransferMessage) (peer : PeerUpload) : PeerUpload :=
  { peer with
    remoteSessionId := (message.findString fieldFromSession).getD peer.remoteSessionId
    remoteUserName := (message.findString fieldFromUserName).getD peer.remoteUserName }

/-- The files a list names that the share offers, in request order. -/
def resolve (sharedFiles : Hashtable String SharedFile) (message : TransferMessage) :
    List SharedFile :=
  (message.strings fieldFileListNames).filterMap sharedFiles.get?

def unknownCount (sharedFiles : Hashtable String SharedFile) (message : TransferMessage) : Nat :=
  (message.strings fieldFileListNames).countP fun name => (sharedFiles.get? name).isNone

/-- The first half of `_HandleFileList`: what it stores in the peer's record. -/
def acceptFileList (sharedFiles : Hashtable String SharedFile) (message : TransferMessage)
    (peer : PeerUpload) : PeerUpload :=
  { peer.identify message with
    mungeMode := if message.findInt32 fieldMungeMode = some mungeModeXor then mungeModeXor
      else peer.mungeMode
    requestedFiles := resolve sharedFiles message
    nextFileIndex := 0 }

end PeerUpload

namespace UploadWorld

def fileListReport (peer : PeerUpload) (unknownCount : Nat) : UploadAction :=
  if peer.requestedFiles.isEmpty then
    .uploadReport .warningMessage
      (peer.who ++ " asked for " ++ toString unknownCount ++ " file(s) we do not share.")
  else
    .uploadReport .uploadEventMessage
      (peer.who ++ " is downloading " ++ toString peer.requestedFiles.length ++
        " file(s) from us.")

/-- The server once the list is stored and reported, before it decides to hold or to serve. -/
def storeFileList (w : UploadWorld) (sessionId : String) (peer : PeerUpload)
    (message : TransferMessage) : UploadWorld :=
  let peer := peer.acceptFileList w.sharedFiles message
  (w.setPeer sessionId peer).act
    (fileListReport peer (PeerUpload.unknownCount w.sharedFiles message))

/-- The branch of `_HandleFileList` for a full server. -/
def holdPeer (w : UploadWorld) (sessionId : String) (peer : PeerUpload) : UploadWorld :=
  ((w.setPeer sessionId { peer with isQueued := true }).sendToPeer sessionId
    (Message.ofWhat .notifyQueued)).act .uploadsChanged

/-- `if (_BeginNextFile(..)) _SendNextChunk(..)`, as two of the handlers end. -/
def beginAndSend (w : UploadWorld) (sessionId : String) : UploadWorld :=
  if (w.beginNextFile sessionId).2 then
    (w.beginNextFile sessionId).1.sendNextChunk sessionId
  else
    (w.beginNextFile sessionId).1

def handleFileList (w : UploadWorld) (sessionId : String) (message : TransferMessage) :
    UploadWorld :=
  match w.peers.get? sessionId with
  | none => w
  | some peer =>
    let peer' := peer.acceptFileList w.sharedFiles message
    let w' := w.storeFileList sessionId peer message
    if w'.maxSimultaneousUploads ≤ w'.countActiveUploads then w'.holdPeer sessionId peer'
    else (w'.unqueue sessionId peer').beginAndSend sessionId

def messageReceived (w : UploadWorld) (sessionId : String) (message : TransferMessage) :
    UploadWorld :=
  match w.peers.get? sessionId with
  | none => w
  | some peer =>
    match message.what with
    | .peerId => (w.setPeer sessionId (peer.identify message)).act .uploadsChanged
    | .fileList => w.handleFileList sessionId message
    | _ => w

def sessionAccepted (w : UploadWorld) (sessionId peerAddress : String) : UploadWorld :=
  (w.setPeer sessionId { peerAddress }).act .uploadsChanged

def sessionDetached (w : UploadWorld) (sessionId : String) : UploadWorld :=
  ({ w with peers := w.peers.remove sessionId } : UploadWorld).startNextQueuedPeer.act
    .uploadsChanged

def outputQueuesDrained (w : UploadWorld) (sessionId : String) : UploadWorld :=
  match w.peers.get? sessionId with
  | none => w
  | some peer =>
    if peer.currentFile.isSome then w.sendNextChunk sessionId else w.beginAndSend sessionId

def setSharedFiles (w : UploadWorld) (files : Hashtable String SharedFile) : UploadWorld :=
  { w with sharedFiles := files }

end UploadWorld

/-- What can happen to a listening server. The disk may change at any moment between two
callbacks. -/
inductive UploadEvent where
  | sessionAccepted (sessionId peerAddress : String)
  | sessionDetached (sessionId : String)
  | messageReceived (sessionId : String) (message : TransferMessage)
  | outputQueuesDrained (sessionId : String)
  | setSharedFiles (files : Hashtable String SharedFile)
  | diskChanged (disk : Disk)

namespace UploadWorld

def handle (w : UploadWorld) : UploadEvent → UploadWorld
  | .sessionAccepted sessionId peerAddress => w.sessionAccepted sessionId peerAddress
  | .sessionDetached sessionId => w.sessionDetached sessionId
  | .messageReceived sessionId message => w.messageReceived sessionId message
  | .outputQueuesDrained sessionId => w.outputQueuesDrained sessionId
  | .setSharedFiles files => w.setSharedFiles files
  | .diskChanged disk => { w with disk }

def machine : EventMachine UploadWorld UploadEvent := ⟨handle⟩

/-- A listening server nobody has connected to, with the cap `SetMaxSimultaneousUploads` keeps. -/
def listening (sharedFiles : Hashtable String SharedFile) (localSessionId : String)
    (maxSimultaneousUploads : Nat) (disk : Disk) : UploadWorld where
  sharedFiles
  peers := .empty
  localSessionId
  maxSimultaneousUploads := max maxSimultaneousUploads 1
  disk
  actions := []

end UploadWorld

end HiTuxShare
