import HiTuxShare.ConnectionManager
import HiTuxShare.ShareScanner
import HiTuxShare.UploadListening

namespace HiTuxShare
set_option autoImplicit true

def defaultTransferPort : UInt16 := 7000
def transferPortRange : UInt16 := 50

/-- The part of the main window that has to do with sharing, the settings it reads included. -/
structure MainWindow where
  fileSharingEnabled : Bool := false
  shareDirectory : String := ""
  sharedFiles : Hashtable String SharedFile := .empty
  sharedFileCount : UInt32 := 0
  shareScanner : ShareScanner := {}
  uploadServer : ListeningServer
  connections : ConnectionManagerWorld := {}

inductive SharingOccurrence where
  | sharedFilesSet (files : Hashtable String SharedFile)
  | localLine (type : LogMessageType) (text : String)
  deriving DecidableEq

/-- The window with its history, and with the share folder that was set when `_StartSharing` was
called last. -/
structure SharingWorld extends MainWindow where
  history : List SharingOccurrence := []
  givenDirectory : Option String := none

/-- The line of the chat log at the end of a scan. -/
def sharingMessage (fileCount duplicates : UInt32) : String :=
  let message := "Sharing " ++ toString fileCount.toInt32.toInt ++ " file(s)."
  if 0 < duplicates then
    message ++ " " ++ toString duplicates.toInt32.toInt ++ " file(s) were skipped because" ++
      " another file already had that name -- the protocol identifies a shared file by its name" ++
      " alone."
  else message

namespace SharingWorld

def note (w : SharingWorld) (o : SharingOccurrence) : SharingWorld :=
  { w with history := w.history ++ [o] }

def appendLocalLine (w : SharingWorld) (type : LogMessageType) (text : String) : SharingWorld :=
  w.note (.localLine type text)

/-- We listen before we publish: a peer may connect as soon as it has read our file list. -/
def listen (w : SharingWorld) (answer : ListenAnswer) : SharingWorld :=
  let (uploadServer, listenPort) :=
    w.uploadServer.startListening answer defaultTransferPort transferPortRange
  if listenPort = 0 then
    { w with uploadServer }.appendLocalLine .errorMessage
      "Could not listen on any port, so nobody can download from us."
  else
    let localSessionId := match w.connections.getPrimary with
      | some primary => primary.world.localSessionId
      | none => ""
    { w with
      uploadServer := uploadServer.setLocalIdentity localSessionId
      connections := w.connections.setAdvertisedPort listenPort.toUInt32.toInt32 }.appendLocalLine
        .informationMessage ("Accepting downloads on port " ++ toString listenPort ++ ".")

def scan (w : SharingWorld) (fs : FileSystem) (created : Bool) : SharingWorld :=
  { w with
    sharedFiles := .empty
    sharedFileCount := 0
    shareScanner := { w.shareScanner with shareDirectory := w.shareDirectory }.startScan fs
      created }.appendLocalLine .informationMessage ("Scanning " ++ w.shareDirectory ++ "...")

def startSharing (w : SharingWorld) (answer : ListenAnswer) (fs : FileSystem) (created : Bool) :
    SharingWorld :=
  let w := { w with givenDirectory := some w.shareDirectory }
  if w.fileSharingEnabled = false then w
  else if w.shareDirectory = "" then
    w.appendLocalLine .warningMessage "Choose a folder to share first (File menu)."
  else (w.listen answer).scan fs created

/-- Publishing needs a session, so sharing waits for one. -/
def localSessionIdAssigned (w : SharingWorld) (sessionId : String) (answer : ListenAnswer)
    (fs : FileSystem) (created : Bool) : SharingWorld :=
  (w.appendLocalLine .informationMessage
    ("You are session " ++ sessionId ++ ".")).startSharing answer fs created

def stopSharing (w : SharingWorld) (fs : FileSystem) : SharingWorld :=
  { w with
    shareScanner := w.shareScanner.stopScan fs
    uploadServer := w.uploadServer.stopListening
    connections := ((w.connections.setAdvertisedPort 0).unpublishAllSharedFiles
      ).publishSharedFileCountOnAll 0
    sharedFiles := .empty
    sharedFileCount := 0 }

/-- Publishing happens on the thread of the window: neither the connections nor the upload server
are safe to use from another one. -/
def publishDiscovered (w : SharingWorld) (discovered : List SharedFile) : SharingWorld :=
  let sharedFiles := discovered.foldl (fun files file => files.put file.fileName file) w.sharedFiles
  { w with
    connections := w.connections.publishSharedFilesOnAll discovered
    sharedFiles
    uploadServer := w.uploadServer.setSharedFiles sharedFiles
    sharedFileCount := w.sharedFileCount + UInt32.ofNat discovered.length }.note
      (.sharedFilesSet sharedFiles)

def publishScanEnd (w : SharingWorld) : SharingWorld :=
  { w with
    connections := w.connections.publishSharedFileCountOnAll w.sharedFileCount }.appendLocalLine
      .informationMessage (sharingMessage w.sharedFileCount w.shareScanner.duplicateNameCount)

/-- The first half of `_DrainShareScanner`. -/
def drainFiles (w : SharingWorld) : SharingWorld :=
  let (discovered, shareScanner) := w.shareScanner.takeDiscoveredFiles
  let w := { w with shareScanner }
  if discovered = [] then w else w.publishDiscovered discovered

/-- The second half of `_DrainShareScanner`. -/
def drainScanEnd (w : SharingWorld) : SharingWorld :=
  let (finished, shareScanner) := w.shareScanner.takeScanFinished
  let w := { w with shareScanner }
  if finished then w.publishScanEnd else w

def threadStep (w : SharingWorld) (fs : FileSystem) : SharingWorld :=
  { w with shareScanner := w.shareScanner.threadStep fs }

/-- `between` is what the scanning thread finds while the window is between its two locks. -/
def drainShareScanner (w : SharingWorld) (between : List FileSystem) : SharingWorld :=
  (between.foldl threadStep w.drainFiles).drainScanEnd

end SharingWorld

/-- The window shares its thread with the connections; the scanner runs on one of its own. -/
inductive SharingEvent where
  | startSharing (answer : ListenAnswer) (fs : FileSystem) (created : Bool)
  | stopSharing (fs : FileSystem)
  | idleTick (between : List FileSystem)
  | threadStep (fs : FileSystem)
  | setFileSharingEnabled (enabled : Bool)
  | setShareDirectory (directory : String)
  | connection (e : ConnectionManagerEvent)

namespace SharingWorld

def handle (w : SharingWorld) : SharingEvent → SharingWorld
  | .startSharing answer fs created => w.startSharing answer fs created
  | .stopSharing fs => w.stopSharing fs
  | .idleTick between => w.drainShareScanner between
  | .threadStep fs => w.threadStep fs
  | .setFileSharingEnabled enabled => { w with fileSharingEnabled := enabled }
  | .setShareDirectory directory => { w with shareDirectory := directory }
  | .connection e => { w with connections := w.connections.handle e }

def machine : EventMachine SharingWorld SharingEvent := ⟨handle⟩

/-- The window as it comes up, with the cap of `FileUploadServer`'s constructor. -/
def opened (disk : Disk) : SharingWorld where
  uploadServer := { toUploadWorld := .listening .empty "" 4 disk }

end SharingWorld

namespace SharingWorld

@[simp] theorem drainFiles_shareScanner (w : SharingWorld) :
    w.drainFiles.shareScanner = { w.shareScanner with pendingFiles := [] } := by
  simp only [drainFiles]
  split <;> rfl

@[simp] theorem drainScanEnd_shareScanner (w : SharingWorld) :
    w.drainScanEnd.shareScanner = { w.shareScanner with scanFinished := false } := by
  simp only [drainScanEnd]
  split <;> rfl

@[simp] theorem listen_shareScanner (w : SharingWorld) (answer : ListenAnswer) :
    (w.listen answer).shareScanner = w.shareScanner := by
  simp only [listen]
  split <;> rfl

@[simp] theorem listen_shareDirectory (w : SharingWorld) (answer : ListenAnswer) :
    (w.listen answer).shareDirectory = w.shareDirectory := by
  simp only [listen]
  split <;> rfl

theorem foldl_threadStep (w : SharingWorld) (between : List FileSystem) :
    between.foldl threadStep w =
      { w with
        shareScanner := between.foldl (fun s fs => s.threadStep fs) w.shareScanner } := by
  induction between generalizing w with
  | nil => rfl
  | cons fs between ih => exact ih (w.threadStep fs)

end SharingWorld

end HiTuxShare
