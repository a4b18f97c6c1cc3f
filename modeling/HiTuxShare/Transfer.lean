import HiTuxShare.DownloadMessages
import HiTuxShare.DownloadStream
import HiTuxShare.UploadStreamRuns

namespace HiTuxShare
set_option autoImplicit true

open DownloadWorld (requestedNames)

/-- A download and the server it downloads from, over a reliable connection: what one side has
sent is what the other one gets, in the same order. -/
structure Transfer where
  sessionId : String
  server : UploadWorld
  download : DownloadWorld
  /-- How many messages of the download the server has got. -/
  uploaded : Nat := 0
  /-- How many messages of the server the download has got. -/
  delivered : Nat := 0
  /-- How many of the drain notifications it asked for the server has got. -/
  drained : Nat := 0

inductive TransferEvent where
  | serverReceives
  | downloadReceives (os : OperatingSystem)
  | queueDrained
  /-- Something another peer of the server does. -/
  | elsewhere (event : UploadEvent)

namespace Transfer

/-- The moment the connection stands: the server has accepted the session, and the download has
sent its identity and its list, in either of the two munge modes. -/
def begun (server : UploadWorld) (sessionId peerAddress : String) (request : DownloadRequest)
    (os : OperatingSystem) (mungeMode : Int32) : Transfer where
  sessionId
  server := server.sessionAccepted sessionId peerAddress
  download := (request.started os).requestFiles mungeMode

variable [MuscleText]

def handle (t : Transfer) : TransferEvent → Transfer
  | .serverReceives =>
    match t.download.sentMessages[t.uploaded]? with
    | some message =>
      { t with
        server := t.server.messageReceived t.sessionId message
        uploaded := t.uploaded + 1 }
    | none => t
  | .downloadReceives os =>
    match (t.server.sentTo t.sessionId)[t.delivered]? with
    | some message =>
      { t with
        download := t.download.messageReceived os message
        delivered := t.delivered + 1 }
    | none => t
  | .queueDrained =>
    if t.drained < t.server.drainsFor t.sessionId then
      { t with
        server := t.server.outputQueuesDrained t.sessionId
        drained := t.drained + 1 }
    else t
  | .elsewhere event =>
    if event.session?.any (· ≠ t.sessionId) then { t with server := t.server.handle event } else t

def machine : EventMachine Transfer TransferEvent := ⟨handle⟩

end Transfer

/-- The table is keyed by the file names, and the sizes are still those of the files. -/
def UploadWorld.AsScanned (w : UploadWorld) : Prop :=
  ∀ name file, w.sharedFiles.get? name = some file → file.fileName = name ∧
    ∀ whole, contents w.disk file = some whole → (whole.length : Int) = file.fileSize

/-- Nothing has gone out to the session yet. -/
def UploadWorld.IsNewSession (w : UploadWorld) (sessionId : String) : Prop :=
  w.sentTo sessionId = [] ∧ w.drainsFor sessionId = 0

/-- The files the server finds for a list of names. -/
def UploadWorld.offered (w : UploadWorld) (names : List String) : List SharedFile :=
  names.filterMap w.sharedFiles.get?

namespace Transfer

variable [MuscleText]

/-- Until the list has arrived, nothing is to be streamed. -/
def Stage (t : Transfer) (mungeMode : Int32) (requested : List SharedFile) (streamed : Int32) :
    Prop :=
  t.uploaded ≤ 1 ∧ requested = [] ∧ streamed = mungeModeNone ∨
    2 ≤ t.uploaded ∧ requested = t.server.offered (requestedNames t.download.toFileDownload) ∧
      streamed = mungeMode

/-- Both ends agree on the stream: the server is somewhere in it, the download behind. -/
structure Underway (t : Transfer) (mungeMode : Int32) : Prop where
  asScanned : t.server.AsScanned
  greeting : ∃ identity list : FileDownload, t.download.sentMessages =
    [DownloadWorld.peerIdentity identity, DownloadWorld.fileList mungeMode list] ∧
    requestedNames list = requestedNames t.download.toFileDownload
  received : ∀ message, .received message ∈ t.download.history →
    message ∈ t.server.sentTo t.sessionId
  stream : ∃ requested streamed consumed, t.Stage mungeMode requested streamed ∧
    UploadWorld.Streaming t.sessionId requested streamed consumed t.server ∧
    consumed.length = t.delivered ∧ t.download.Consumes t.server.disk consumed

end Transfer

end HiTuxShare
