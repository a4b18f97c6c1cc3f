import HiTuxShare.DownloadEvents
import HiTuxShare.UserRegistry

namespace HiTuxShare
set_option autoImplicit true

/-- Everything needed to start a download that is waiting for a slot. The download is known by
its address only. -/
structure QueuedStart where
  download : Nat
  hostName : String
  port : UInt16
  remoteSessionId : String
  localSessionId : String
  localUserName : String
  deriving DecidableEq

/-- A `FileDownload` and where it lives. `serial` is a history variable: how many downloads had
been made before it. -/
structure DownloadObject where
  address : Nat
  serial : Nat
  world : DownloadWorld

/-- Where `new` puts an object when it is the nth one: nowhere another one lives. -/
structure Allocator where
  place : List Nat → Nat → Nat
  place_fresh : ∀ live n, place live n ∉ live

/-- What the manager tells its listener. `aborted` and `started` are history variables, for the
calls of `Abort` and of `Start`; the latter with the running downloads and the cap at that
moment. -/
inductive ManagerAction where
  | downloadListChanged
  | downloadChanged (index : Nat)
  | downloadReport (type : LogMessageType) (text : String)
  | aborted (serial : Nat)
  | started (serial : Nat) (queued : QueuedStart) (running cap : Nat)
  deriving DecidableEq

structure DownloadManager where
  downloadDirectory : String := ""
  retainFilePaths : Bool := false
  downloads : List DownloadObject := []
  queuedStarts : List QueuedStart := []
  maxSimultaneousDownloads : Nat := 3
  rateLimit : Nat := 0
  autoClearFinished : Bool := false

/-- The manager with its history: the starts recorded so far, in the order of the downloads'
serial numbers, and the actions. -/
structure ManagerWorld extends DownloadManager where
  recorded : List QueuedStart := []
  actions : List ManagerAction := []

def DownloadObject.isRunning (download : DownloadObject) : Bool :=
  download.world.state ≠ .idle && !download.world.isFinished

/-- The files of the selection by who shares them. -/
def groupBySharer (results : List FileResult) : Hashtable String (List FileResult) :=
  results.foldl
    (fun bySharer result => bySharer.put result.sessionId
      ((bySharer.get? result.sessionId).getD [] ++ [result])) .empty

/-- The sharer of a group, if downloading from them is possible at all. -/
def dialled (users : UserRegistry) (sessionId : String) : Option UserRecord :=
  (users.findUser sessionId).filter fun sharer => !sharer.isFirewalled && decide (0 < sharer.port)

namespace ManagerWorld

def act (m : ManagerWorld) (action : ManagerAction) : ManagerWorld :=
  { m with actions := m.actions ++ [action] }

def findDownload (m : ManagerWorld) (address : Nat) : Option DownloadObject :=
  m.downloads.find? fun download => download.address = address

def findIndexOf (m : ManagerWorld) (address : Nat) : Option Nat :=
  m.downloads.findIdx? fun download => download.address = address

def countRunningDownloads (m : ManagerWorld) : Nat := m.downloads.countP DownloadObject.isRunning

def setDownload (m : ManagerWorld) (address : Nat) (world : DownloadWorld) : ManagerWorld :=
  { m with downloads := m.downloads.map fun download =>
      if download.address = address then { download with world } else download }

def downloadProgress (m : ManagerWorld) (address : Nat) : ManagerWorld :=
  match m.findIndexOf address with
  | none => m
  | some index => m.act (.downloadChanged index)

def downloadFileCompleted (m : ManagerWorld) (address : Nat) (localPath : String) : ManagerWorld :=
  (m.downloadProgress address).act
    (.downloadReport .informationMessage ("Finished downloading " ++ localPath))

/-- The line of the chat log about a download that failed. -/
def failureReport (download : FileDownload) : ManagerAction :=
  .downloadReport .errorMessage ("Download from " ++
    (if download.remoteUserName ≠ "" then download.remoteUserName else download.remoteSessionId) ++
    " failed: " ++ download.errorText)

/-- `DownloadStateChanged`, given what starts the next waiting downloads. -/
def downloadStateChanged (startNext : ManagerWorld → ManagerWorld) (m : ManagerWorld)
    (address : Nat) : ManagerWorld :=
  match m.findIndexOf address, m.findDownload address with
  | some index, some download =>
    let m :=
      if download.world.state = .failed then
        m.act (failureReport download.world.toFileDownload)
      else m
    let m := m.act (.downloadChanged index)
    -- A finished or failed download frees a slot for whatever is waiting.
    if download.world.isFinished then startNext m else m
  | _, _ => m

/-- The listener call a download makes at one moment of its history. -/
def notify (startNext : ManagerWorld → ManagerWorld) (address : Nat) (m : ManagerWorld) :
    Occurrence → ManagerWorld
  | .downloadStateChanged _ => m.downloadStateChanged startNext address
  | .downloadProgress => m.downloadProgress address
  | .downloadFileCompleted localPath => m.downloadFileCompleted address localPath
  | _ => m

/-- A call into a download, which calls back before it returns. -/
def callDownload (startNext : ManagerWorld → ManagerWorld) (m : ManagerWorld)
    (download : DownloadObject) (world : DownloadWorld) : ManagerWorld :=
  (world.history.drop download.world.history.length).foldl
    (notify startNext download.address) (m.setDownload download.address world)

/-- What the log says about a `Start` that failed. -/
def reportStart (m : ManagerWorld) (address : Nat) : Status → ManagerWorld
  | .noError => m
  | _ => m.act (.downloadReport .errorMessage ("Could not reach that peer: " ++
      ((m.findDownload address).map fun download => download.world.errorText).getD ""))

/-- The loop of `_StartNextQueuedDownload`. `fuel` bounds the starts that can still be waiting;
`startOs` answers to the start made when so many others are left. -/
def startNext (startOs : Nat → OperatingSystem) : Nat → ManagerWorld → ManagerWorld
  | 0, m => m
  | fuel + 1, m =>
    match m.queuedStarts with
    | [] => m
    | queued :: waiting =>
      if m.countRunningDownloads < m.maxSimultaneousDownloads then
        match m.findDownload queued.download with
        -- It may have been cancelled while waiting.
        | none => startNext startOs fuel { m with queuedStarts := waiting }
        | some download =>
          let m := { m with queuedStarts := waiting }.act (.started download.serial queued
            m.countRunningDownloads m.maxSimultaneousDownloads)
          let (world, status) := download.world.start (startOs waiting.length) queued.hostName
            queued.port.toNat queued.remoteSessionId queued.localSessionId queued.localUserName
          startNext startOs fuel
            ((m.callDownload (startNext startOs fuel) download world).reportStart queued.download
              status)
      else m

def startNextQueuedDownload (startOs : Nat → OperatingSystem) (m : ManagerWorld) : ManagerWorld :=
  m.startNext startOs m.queuedStarts.length

/-- A new download, visible at once and waiting for its start. -/
def addDownload (m : ManagerWorld) (allocator : Allocator) (sharer : UserRecord)
    (sessionId localSessionId localUserName : String) (group : List FileResult) : ManagerWorld :=
  let address := allocator.place (m.downloads.map DownloadObject.address) m.recorded.length
  let request : DownloadRequest :=
    { downloadDirectory := m.downloadDirectory
      retainFilePaths := m.retainFilePaths
      rateLimit := m.rateLimit
      remoteUserName := sharer.displayName
      requestedFiles := group.map fun result => ⟨result.fileName, result.path, result.fileSize⟩
      hostName := sharer.hostName
      port := sharer.port.toUInt32.toUInt16.toNat }
  let queued : QueuedStart :=
    { download := address
      hostName := sharer.hostName
      port := sharer.port.toUInt32.toUInt16
      remoteSessionId := sessionId
      localSessionId
      localUserName }
  { m with
    downloads := m.downloads ++ [DownloadObject.mk address m.recorded.length
      { request.newDownload with history := [] }]
    queuedStarts := m.queuedStarts ++ [queued]
    recorded := m.recorded ++ [queued] }.act (.downloadReport .informationMessage
      ("Asking " ++ sharer.displayName ++ " for " ++ toString group.length ++ " file(s)."))

/-- One turn of the loop over the sharers. -/
def addGroup (allocator : Allocator) (users : UserRegistry) (localSessionId localUserName : String)
    (m : ManagerWorld) (entry : String × List FileResult) : ManagerWorld :=
  match users.findUser entry.1 with
  | none => m.act (.downloadReport .errorMessage
      "That user has left, so their files are gone too.")
  | some sharer =>
    match dialled users entry.1 with
    | none => m.act (.downloadReport .warningMessage (sharer.displayName ++
        " is behind a firewall. Downloading from firewalled peers needs connect-back, which is" ++
        " not implemented yet."))
    | some _ => m.addDownload allocator sharer entry.1 localSessionId localUserName entry.2

def startDownloads (startOs : Nat → OperatingSystem) (m : ManagerWorld) (results : List FileResult)
    (users : UserRegistry) (localSessionId localUserName : String) (allocator : Allocator) :
    ManagerWorld :=
  if results.isEmpty then m
  else
    let groups := (groupBySharer results).entries
    let m := groups.foldl (addGroup allocator users localSessionId localUserName) m
    let listChanged := groups.any fun entry => (dialled users entry.1).isSome
    let m := if listChanged then m.act .downloadListChanged else m
    m.startNextQueuedDownload startOs

/-- A call of `Abort` from outside. -/
def abortAt (os : OperatingSystem) (startOs : Nat → OperatingSystem) (reason : String)
    (m : ManagerWorld) (index : Nat) : ManagerWorld :=
  match m.downloads[index]? with
  | none => m
  | some download =>
    (m.act (.aborted download.serial)).callDownload (startNextQueuedDownload startOs) download
      (download.world.abort os reason)

def abortDownload (os : OperatingSystem) (startOs : Nat → OperatingSystem) (m : ManagerWorld)
    (index : Nat) : ManagerWorld := m.abortAt os startOs "Cancelled" index

def abortAll (os : OperatingSystem) (startOs : Nat → OperatingSystem) (m : ManagerWorld) :
    ManagerWorld :=
  (List.range m.downloads.length).foldl (abortAt os startOs "Shutting down") m

def clearFinishedDownloads (m : ManagerWorld) : ManagerWorld :=
  let kept := m.downloads.filter fun download => !download.world.isFinished
  if kept.length = m.downloads.length then m
  else { m with downloads := kept }.act .downloadListChanged

def performIdleTasks (m : ManagerWorld) : ManagerWorld :=
  if m.autoClearFinished then m.clearFinishedDownloads else m

end ManagerWorld

namespace DownloadWorld

/-- The hang-up of a peer between two files, up to the notification of the listener. -/
def hangUp (w : DownloadWorld) : DownloadWorld :=
  w.closeOutputFile.setState (if 0 < w.completedFileCount then .finished else .failed)

/-- The rest of it. -/
def explainHangUp (w : DownloadWorld) : DownloadWorld :=
  if w.completedFileCount = 0 ∧ w.errorText = "" then
    { w with errorText := "Peer disconnected without sending anything" }
  else w

/-- The branch of `SessionDisconnected` that does something after the notification. -/
def hangsUp (w : DownloadWorld) : DownloadCallback → Bool
  | .sessionDisconnected => !w.isFinished && w.outputFile.isNone
  | _ => false

end DownloadWorld

namespace ManagerWorld

def explainHangUp (m : ManagerWorld) (address : Nat) : ManagerWorld :=
  { m with downloads := m.downloads.map fun download =>
      if download.address = address then
        { download with world := download.world.explainHangUp }
      else download }

/-- A callback from the transceiver of a download, which has one once its thread was started. -/
def deliver [MuscleText] (os : OperatingSystem) (startOs : Nat → OperatingSystem)
    (m : ManagerWorld) (address : Nat) (callback : DownloadCallback) : ManagerWorld :=
  match m.findDownload address with
  | none => m
  | some download =>
    if .threadStarted ∈ download.world.history then
      if download.world.hangsUp callback then
        (m.callDownload (startNextQueuedDownload startOs) download
          download.world.hangUp).explainHangUp address
      else
        m.callDownload (startNextQueuedDownload startOs) download
          (download.world.handle ⟨callback, os⟩)
    else m

end ManagerWorld

inductive ManagerCall where
  | startDownloads (results : List FileResult) (users : UserRegistry)
      (localSessionId localUserName : String) (allocator : Allocator)
  | abortDownload (index : Nat)
  | abortAll
  | clearFinishedDownloads
  | performIdleTasks
  | setDownloadDirectory (downloadDirectory : String)
  | setRetainFilePaths (retainFilePaths : Bool)
  | setMaxSimultaneousDownloads (maxSimultaneousDownloads : Nat)
  | setRateLimit (bytesPerSecond : Nat)
  | setAutoClearFinished (autoClear : Bool)
  | sessionConnected (download : Nat)
  | sessionDisconnected (download : Nat)
  | messageReceived (download : Nat) (message : TransferMessage)

/-- A call, with what the surroundings answer during it: to the call itself, and to each start. -/
structure ManagerEvent where
  call : ManagerCall
  os : OperatingSystem := {}
  startOs : Nat → OperatingSystem := fun _ => {}

namespace ManagerWorld

def handle [MuscleText] (m : ManagerWorld) (e : ManagerEvent) : ManagerWorld :=
  match e.call with
  | .startDownloads results users localSessionId localUserName allocator =>
    m.startDownloads e.startOs results users localSessionId localUserName allocator
  | .abortDownload index => m.abortDownload e.os e.startOs index
  | .abortAll => m.abortAll e.os e.startOs
  | .clearFinishedDownloads => m.clearFinishedDownloads
  | .performIdleTasks => m.performIdleTasks
  | .setDownloadDirectory downloadDirectory => { m with downloadDirectory }
  | .setRetainFilePaths retainFilePaths => { m with retainFilePaths }
  | .setMaxSimultaneousDownloads maxSimultaneousDownloads =>
    { m with maxSimultaneousDownloads := max maxSimultaneousDownloads 1 }
  | .setRateLimit bytesPerSecond => { m with rateLimit := bytesPerSecond }
  | .setAutoClearFinished autoClear => { m with autoClearFinished := autoClear }
  | .sessionConnected download => m.deliver e.os e.startOs download .sessionConnected
  | .sessionDisconnected download => m.deliver e.os e.startOs download .sessionDisconnected
  | .messageReceived download message =>
    m.deliver e.os e.startOs download (.messageReceived message)

def machine [MuscleText] : EventMachine ManagerWorld ManagerEvent := ⟨handle⟩

/-- The manager as the constructor leaves it. -/
def new : ManagerWorld := {}

end ManagerWorld

end HiTuxShare
