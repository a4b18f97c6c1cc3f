import HiTuxShare.DownloadLedger
import HiTuxShare.DownloadPaths
import HiTuxShare.EventMachine

namespace HiTuxShare
set_option autoImplicit true

open MuscleText

def maximumTransferSamples : Nat := 32

def rateWindowMicroseconds : UInt64 := 5 * 1000000

structure RequestedFile where
  fileName : String
  path : String
  expectedSize : Int
  deriving DecidableEq

structure TransferSample where
  when : UInt64
  byteCount : Nat
  deriving DecidableEq

/-- What `Start` returns; a failed call into the messaging library comes with its text. -/
inductive Status where
  | noError
  | badArgument
  | failure (text : String)
  deriving DecidableEq

/-- What the surroundings answer during one callback. `fileExists` is about files that are not
the download's own. -/
structure OperatingSystem where
  mkdirFails : String → Bool := fun _ => false
  fileExists : String → Bool := fun _ => false
  fopenFails : String → Bool := fun _ => false
  /-- How many bytes `fwrite` takes at most. -/
  fwriteLimit : Option Nat := none
  removeFails : String → Bool := fun _ => false
  /-- The readings of the clock, in order. -/
  getRunTime64 : Nat → UInt64 := fun _ => 0
  startInternalThread : Option String := none
  addNewConnectSession : Option String := none

/-- The bytes that reach the file. -/
def OperatingSystem.fwrite (os : OperatingSystem) (bytes : List UInt8) : List UInt8 :=
  match os.fwriteLimit with
  | some limit => bytes.take limit
  | none => bytes

/-- One connection to one peer. The output file is known by the path it was opened under. -/
structure FileDownload where
  downloadDirectory : String
  retainFilePaths : Bool := false
  rateLimit : Nat := 0
  remoteSessionId : String := ""
  remoteUserName : String := ""
  localSessionId : String := ""
  localUserName : String := ""
  errorText : String := ""
  requestedFiles : List RequestedFile := []
  state : DownloadState := .idle
  outputFile : Option String := none
  outputPath : String := ""
  currentFileName : String := ""
  currentFileSize : Int := 0
  currentFileBytesDone : Int := 0
  totalBytesDone : Int := 0
  totalBytesExpected : Int := 0
  completedFileCount : UInt32 := 0
  transferSamples : List TransferSample := []
  deriving DecidableEq

/-- A download, its listener's notifications included, with everything that has happened. -/
structure DownloadWorld extends FileDownload where
  history : List Occurrence

def FileDownload.isFinished (download : FileDownload) : Bool :=
  download.state = .finished || download.state = .failed

/-- The test `_FinishCurrentFile` judges a file by. -/
def FileDownload.isComplete (download : FileDownload) : Bool :=
  download.currentFileSize ≤ 0 || download.currentFileSize ≤ download.currentFileBytesDone

def FileDownload.addRequestedFile (download : FileDownload) (requested : RequestedFile) :
    FileDownload :=
  { download with
    requestedFiles := download.requestedFiles ++ [requested]
    totalBytesExpected := if requested.expectedSize > 0
      then download.totalBytesExpected + requested.expectedSize
      else download.totalBytesExpected }

def FileDownload.outputDirectory [MuscleText] (download : FileDownload) (relativePath : String) :
    String :=
  if download.retainFilePaths then retainedDirectory download.downloadDirectory relativePath
  else download.downloadDirectory

def calculateReceivedChecksum (data : List UInt8) : UInt32 := checksumFrom 0 0 data

/-- The test of `chk`, which covers the bytes as they came over the wire. -/
def passesChecksum (message : TransferMessage) (data : List UInt8) : Bool :=
  match message.findInt32 fieldChecksum with
  | some expected => calculateReceivedChecksum data = expected.toUInt32
  | none => true

/-- The bytes that go to the disk, if the encoding is one of the two known ones. -/
def unmunge (message : TransferMessage) (data : List UInt8) : Option (List UInt8) :=
  let mungeMode := (message.findInt32 fieldMungeMode).getD mungeModeNone
  if mungeMode = mungeModeXor then some (xorBytes data)
  else if mungeMode = mungeModeNone then some data
  else none

/-- The loop that keeps the window of samples short; `reading` counts the looks at the clock. -/
def dropOldSamples (getRunTime64 : Nat → UInt64) (reading : Nat) :
    List TransferSample → List TransferSample
  | [] => []
  | sample :: samples =>
    if maximumTransferSamples < samples.length + 1 then
      dropOldSamples getRunTime64 reading samples
    else if 1 < samples.length + 1 ∧
        rateWindowMicroseconds < getRunTime64 reading - sample.when then
      dropOldSamples getRunTime64 (reading + 1) samples
    else sample :: samples

namespace DownloadWorld

def note (w : DownloadWorld) (occurrence : Occurrence) : DownloadWorld :=
  { w with history := w.history ++ [occurrence] }

def ledger (w : DownloadWorld) : Ledger := .replay w.history

def setState (w : DownloadWorld) (state : DownloadState) : DownloadWorld :=
  if state = w.state then w else { w with state }.note (.downloadStateChanged state)

def closeOutputFile (w : DownloadWorld) : DownloadWorld := { w with outputFile := none }

def remove (os : OperatingSystem) (w : DownloadWorld) (path : String) : DownloadWorld :=
  if os.removeFails path then w else w.note (.removed path)

/-- A part-written file is not a download. -/
def discardOutputFile (os : OperatingSystem) (w : DownloadWorld) : DownloadWorld :=
  if w.outputPath ≠ "" then w.remove os w.outputPath else w

def fail (w : DownloadWorld) (reason : String) : DownloadWorld :=
  { w with errorText := reason }.setState .failed

def abort (os : OperatingSystem) (w : DownloadWorld) (reason : String) : DownloadWorld :=
  if w.isFinished then w
  else ((w.note .threadShutDown).closeOutputFile.discardOutputFile os).fail reason

def reportCompleted (w : DownloadWorld) : DownloadWorld :=
  { w with completedFileCount := w.completedFileCount + 1 }.note
    (.downloadFileCompleted w.outputPath)

def forgetCurrentFile (w : DownloadWorld) : DownloadWorld :=
  { w with outputPath := "", currentFileBytesDone := 0, currentFileSize := 0 }

def finishCurrentFile (os : OperatingSystem) (w : DownloadWorld) : DownloadWorld :=
  match w.outputFile with
  | none => w
  | some _ =>
    if w.isComplete then w.closeOutputFile.reportCompleted.forgetCurrentFile
    else (w.closeOutputFile.remove os w.outputPath).forgetCurrentFile

/-- `stat`: what the download itself has on the disk exists, whatever else may. -/
def pathExists (os : OperatingSystem) (w : DownloadWorld) (path : String) : Bool :=
  (w.ledger.disk.get? path).isSome || os.fileExists path

/-- The path `_OpenOutputFile` hands to `fopen`, unless it gives up before. -/
def outputPathFor [MuscleText] (os : OperatingSystem) (w : DownloadWorld)
    (fileName relativePath : String) : Option String :=
  if sanitizePathComponent fileName = "" then none
  else if createDirectoryTree os.mkdirFails (w.outputDirectory relativePath) then
    unusedPath (w.pathExists os) (w.outputDirectory relativePath) (sanitizePathComponent fileName)
  else none

def openOutputFile [MuscleText] (os : OperatingSystem) (w : DownloadWorld)
    (fileName relativePath : String) : DownloadWorld × Bool :=
  match w.outputPathFor os fileName relativePath with
  | none => (w, false)
  | some candidate =>
    if os.fopenFails candidate then (w, false)
    else ({ w with outputFile := some candidate, outputPath := candidate }.note
      (.opened candidate), true)

/-- The fields `_HandleFileHeader` fills before it opens anything. -/
def announce (w : DownloadWorld) (header : FileHeader) (message : TransferMessage) :
    DownloadWorld :=
  { w with
    remoteSessionId := (message.findString fieldFromSession).getD w.remoteSessionId
    currentFileName := header.fileName
    currentFileSize := header.fileSize
    currentFileBytesDone := 0 }

def handleFileHeader [MuscleText] (os : OperatingSystem) (w : DownloadWorld)
    (message : TransferMessage) : DownloadWorld :=
  -- A header while a file is open: the peer moved on.
  let w := w.finishCurrentFile os
  match readFileHeader message with
  | none => w.abort os "Peer sent a malformed file header"
  | some header =>
    match (w.announce header message).openOutputFile os header.fileName
        ((message.findString fieldPath).getD "") with
    | (w, true) => w.setState .transferring
    | (w, false) => w.abort os ("Could not create a file for " ++ header.fileName)

/-- The bookkeeping after a chunk is on the disk. -/
def countBytes (os : OperatingSystem) (w : DownloadWorld) (byteCount : Nat) : DownloadWorld :=
  { w with
    currentFileBytesDone := w.currentFileBytesDone + byteCount
    totalBytesDone := w.totalBytesDone + byteCount
    transferSamples := dropOldSamples os.getRunTime64 1 (w.transferSamples ++
      [TransferSample.mk (os.getRunTime64 0) byteCount]) }.note .downloadProgress

/-- The part of `_HandleFileData` from `fwrite` on. -/
def writeChunk (os : OperatingSystem) (w : DownloadWorld) (path : String) (bytes : List UInt8) :
    DownloadWorld :=
  let w := w.note (.wrote path (os.fwrite bytes))
  if (os.fwrite bytes).length ≠ bytes.length then w.abort os "Could not write to disk"
  else
    let w := w.countBytes os bytes.length
    if 0 ≤ w.currentFileSize ∧ w.currentFileSize ≤ w.currentFileBytesDone then
      w.finishCurrentFile os
    else w

def handleFileData (os : OperatingSystem) (w : DownloadWorld) (message : TransferMessage) :
    DownloadWorld :=
  match w.outputFile with
  | none => w
  | some path =>
    match message.findData fieldData with
    | none => w.finishCurrentFile os
    | some data =>
      if passesChecksum message data then
        match unmunge message data with
        | some bytes => w.writeChunk os path bytes
        | none => w.abort os "Peer used a data encoding we do not understand"
      else w.abort os "Checksum mismatch -- the data arrived corrupted"

def rejectionReason (message : TransferMessage) : String :=
  match message.findInt64 fieldTimeLeft with
  | some secondsLeft =>
    if secondsLeft > 0 then
      "The peer refused the request" ++ " (banned for " ++ toString (secondsLeft / 60) ++
        " more minutes)"
    else "The peer refused the request"
  | none => "The peer refused the request"

/-- Only a name that says something replaces the one we show. -/
def peerIdentified (w : DownloadWorld) (message : TransferMessage) : DownloadWorld :=
  match message.findString fieldFromUserName with
  | some announcedName => if announcedName ≠ "" then { w with remoteUserName := announcedName }
    else w
  | none => w

def messageReceived [MuscleText] (os : OperatingSystem) (w : DownloadWorld)
    (message : TransferMessage) : DownloadWorld :=
  let w := w.note (.received message)
  match message.what with
  | .fileHeader => w.handleFileHeader os message
  | .fileData => w.handleFileData os message
  | .peerId => w.peerIdentified message
  | .notifyQueued => w.setState .queuedRemotely
  | .rejected => w.abort os (rejectionReason message)
  | _ => w

def peerIdentity (download : FileDownload) : TransferMessage :=
  (Message.ofWhat TransferCommand.peerId)
    |>.addString fieldFromSession download.localSessionId
    |>.addString fieldFromUserName download.localUserName

/-- The four per-file fields of a request, which are read by index. -/
def addFileToList (request : TransferMessage) (requested : RequestedFile) : TransferMessage :=
  request
    |>.addString fieldFileListNames requested.fileName
    |>.addInt64 fieldFileListOffsets 0
    |>.addString fieldPath requested.path
    |>.addData fieldFileListMd5 [0]

def fileList (mungeMode : Int32) (download : FileDownload) : TransferMessage :=
  download.requestedFiles.foldl addFileToList
    ((Message.ofWhat TransferCommand.fileList)
      |>.addString fieldFromSession download.localSessionId
      |>.addString fieldFromUserName download.localUserName
      |>.addInt32 fieldMungeMode mungeMode)

/-- The greeting of a peer, with the munge mode as a parameter. -/
def requestFiles (mungeMode : Int32) (w : DownloadWorld) : DownloadWorld :=
  let w := w.setState .requesting
  (w.note (.sent (peerIdentity w.toFileDownload))).note
    (.sent (fileList mungeMode w.toFileDownload))

def sessionConnected (w : DownloadWorld) : DownloadWorld := w.requestFiles mungeModeXor

def sessionDisconnected (os : OperatingSystem) (w : DownloadWorld) : DownloadWorld :=
  if w.isFinished then w
  else if w.outputFile ≠ none then w.abort os "Peer disconnected during transfer"
  else
    let w := w.closeOutputFile.setState
      (if 0 < w.completedFileCount then .finished else .failed)
    if w.completedFileCount = 0 ∧ w.errorText = "" then
      { w with errorText := "Peer disconnected without sending anything" }
    else w

def setRatePolicy (w : DownloadWorld) : DownloadWorld :=
  if 0 < w.rateLimit then w.note (.inputPolicySet w.rateLimit) else w

/-- The second half of `Start`: the thread, the rate limit and the connection, in this order. -/
def connect (os : OperatingSystem) (w : DownloadWorld) (hostName : String) (port : Nat) :
    DownloadWorld × Status :=
  match os.startInternalThread with
  | some text => (w.fail text, .failure text)
  | none =>
    let w := (w.note .threadStarted).setRatePolicy
    match os.addNewConnectSession with
    | some text => ((w.note .threadShutDown).fail text, .failure text)
    | none => ((w.note (.connectSessionAdded hostName port)).setState .connecting, .noError)

def start (os : OperatingSystem) (w : DownloadWorld) (hostName : String) (port : Nat)
    (remoteSessionId localSessionId localUserName : String) : DownloadWorld × Status :=
  if w.requestedFiles = [] then (w, .badArgument)
  else if hostName = "" ∨ port = 0 then
    (w.fail "Peer is not accepting connections", .badArgument)
  else connect os { w with remoteSessionId, localSessionId, localUserName } hostName port

end DownloadWorld

end HiTuxShare
