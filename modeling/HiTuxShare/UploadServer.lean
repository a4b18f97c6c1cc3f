import HiTuxShare.Disk
import HiTuxShare.Hashtable
import HiTuxShare.TransferProtocol

namespace HiTuxShare
set_option autoImplicit true

def uploadChunkSize : Nat := 32 * 1024

/-- One file we are offering to other people. -/
structure SharedFile where
  fileName : String
  relativePath : String
  absolutePath : String
  kind : String
  fileSize : Int
  modificationTime : Int32 := 0
  deriving DecidableEq

/-- One peer that is downloading from us. -/
structure PeerUpload where
  peerAddress : String
  remoteSessionId : String := ""
  remoteUserName : String := ""
  requestedFiles : List SharedFile := []
  currentFile : Option ReadStream := none
  currentFileName : String := ""
  currentFileSize : Int := 0
  bytesSent : Int := 0
  mungeMode : Int32 := mungeModeNone
  nextFileIndex : Nat := 0
  isQueued : Bool := false
  deriving DecidableEq

namespace PeerUpload

/-- The peers `_CountActiveUploads` counts. -/
def isActive (peer : PeerUpload) : Bool := !peer.isQueued && !peer.requestedFiles.isEmpty

/-- The peers `_StartNextQueuedPeer` does not skip. -/
def isWaiting (peer : PeerUpload) : Bool := peer.isQueued && !peer.requestedFiles.isEmpty

def closeCurrentFile (peer : PeerUpload) : PeerUpload :=
  { peer with
    currentFile := none
    currentFileName := ""
    currentFileSize := 0
    bytesSent := 0 }

/-- The requested files that `_BeginNextFile` has not reached yet. -/
def remaining (peer : PeerUpload) : List SharedFile :=
  peer.requestedFiles.drop peer.nextFileIndex

def advance (peer : PeerUpload) : PeerUpload :=
  { peer.closeCurrentFile with nextFileIndex := peer.nextFileIndex + 1 }

/-- `_BeginNextFile` without its message: the recursion is on the files still to try. -/
def openFirst (disk : Disk) (peer : PeerUpload) : List SharedFile → PeerUpload × Option SharedFile
  | [] => (peer.closeCurrentFile, none)
  | file :: rest =>
    match disk.fopen file.absolutePath with
    | none => openFirst disk peer.advance rest
    | some stream =>
      ({ peer.advance with
          currentFile := some stream
          currentFileName := file.fileName
          currentFileSize := file.fileSize
          bytesSent := 0 },
        some file)

theorem remaining_advance {peer : PeerUpload} (h : peer.remaining = file :: rest) :
    peer.advance.remaining = rest := by
  change peer.requestedFiles.drop (peer.nextFileIndex + 1) = rest
  rw [← List.drop_drop, show peer.requestedFiles.drop peer.nextFileIndex = _ from h]
  rfl

def openNextFile (disk : Disk) (peer : PeerUpload) : PeerUpload × Option SharedFile :=
  openFirst disk peer peer.remaining

theorem openFirst_frame (disk : Disk) (peer : PeerUpload) (files : List SharedFile) :
    (openFirst disk peer files).1.requestedFiles = peer.requestedFiles ∧
      (openFirst disk peer files).1.isQueued = peer.isQueued ∧
      (openFirst disk peer files).1.mungeMode = peer.mungeMode := by
  induction files generalizing peer with
  | nil => exact ⟨rfl, rfl, rfl⟩
  | cons file rest ih =>
    simp only [openFirst]
    split
    · exact ih _
    · exact ⟨rfl, rfl, rfl⟩

theorem openFirst_snd (disk : Disk) (peer : PeerUpload) (files : List SharedFile) :
    (openFirst disk peer files).2 =
      files.find? fun file => (disk.fopen file.absolutePath).isSome := by
  induction files generalizing peer with
  | nil => rfl
  | cons file rest ih =>
    cases ho : disk.fopen file.absolutePath with
    | none => simp [openFirst, ho, ih]
    | some stream => simp [openFirst, ho]

theorem openFirst_currentFile (disk : Disk) (peer : PeerUpload) (files : List SharedFile) :
    (openFirst disk peer files).1.currentFile.isSome = (openFirst disk peer files).2.isSome := by
  induction files generalizing peer with
  | nil => rfl
  | cons file rest ih =>
    cases ho : disk.fopen file.absolutePath with
    | none => simp [openFirst, ho, ih]
    | some stream => simp [openFirst, ho]

theorem openFirst_remaining (disk : Disk) (peer : PeerUpload) (files : List SharedFile)
    (h : peer.remaining = files) : (openFirst disk peer files).1.remaining.length +
      (openFirst disk peer files).2.toList.length ≤ files.length := by
  induction files generalizing peer with
  | nil =>
    change peer.remaining.length + 0 ≤ 0
    rw [h]
    exact Nat.le_refl 0
  | cons file rest ih =>
    have ht := remaining_advance h
    simp only [openFirst]
    split
    · exact (ih _ ht).trans (Nat.le_succ _)
    · change peer.advance.remaining.length + 1 ≤ _
      rw [ht]
      exact Nat.le_refl _

@[simp] theorem openNextFile_requestedFiles (disk : Disk) (peer : PeerUpload) :
    (peer.openNextFile disk).1.requestedFiles = peer.requestedFiles :=
  (openFirst_frame ..).1

@[simp] theorem openNextFile_isQueued (disk : Disk) (peer : PeerUpload) :
    (peer.openNextFile disk).1.isQueued = peer.isQueued :=
  (openFirst_frame ..).2.1

@[simp] theorem openNextFile_isWaiting (disk : Disk) (peer : PeerUpload) :
    (peer.openNextFile disk).1.isWaiting = peer.isWaiting := by
  simp only [isWaiting, openNextFile_isQueued, openNextFile_requestedFiles]

@[simp] theorem openNextFile_isActive (disk : Disk) (peer : PeerUpload) :
    (peer.openNextFile disk).1.isActive = peer.isActive := by
  simp only [isActive, openNextFile_isQueued, openNextFile_requestedFiles]

@[simp] theorem openNextFile_mungeMode (disk : Disk) (peer : PeerUpload) :
    (peer.openNextFile disk).1.mungeMode = peer.mungeMode :=
  (openFirst_frame ..).2.2

end PeerUpload

/-- What the server does to the outside. `whileQueued` is a history variable: the peer's
`isQueued` flag at the moment of the send. -/
inductive UploadAction where
  | sendToPeer (sessionId : String) (message : TransferMessage) (whileQueued : Bool)
  | requestOutputQueuesDrainedNotification (sessionId : String)
  | uploadsChanged
  | uploadReport (type : LogMessageType) (text : String)
  deriving DecidableEq

structure FileUploadServer where
  sharedFiles : Hashtable String SharedFile
  peers : Hashtable String PeerUpload
  localSessionId : String
  maxSimultaneousUploads : Nat

/-- The server with the disk it reads and the history of what it did. -/
structure UploadWorld extends FileUploadServer where
  disk : Disk
  actions : List UploadAction

namespace UploadWorld

def act (w : UploadWorld) (action : UploadAction) : UploadWorld :=
  { w with actions := w.actions ++ [action] }

def setPeer (w : UploadWorld) (sessionId : String) (peer : PeerUpload) : UploadWorld :=
  { w with peers := w.peers.put sessionId peer }

def isQueued (w : UploadWorld) (sessionId : String) : Bool :=
  (w.peers.get? sessionId).any PeerUpload.isQueued

def sendToPeer (w : UploadWorld) (sessionId : String) (message : TransferMessage) : UploadWorld :=
  w.act (.sendToPeer sessionId message (w.isQueued sessionId))

def countActiveUploads (w : UploadWorld) : Nat := w.peers.count PeerUpload.isActive

def fileHeader (localSessionId : String) (file : SharedFile) : TransferMessage :=
  let header := (Message.ofWhat TransferCommand.fileHeader)
    |>.addString fieldFileName file.fileName
    |>.addInt64 fieldFileSize file.fileSize
    |>.addString fieldFromSession localSessionId
    |>.addString fieldPath file.relativePath
  if file.kind ≠ "" then header.addString fieldKind file.kind else header

def beginNextFile (w : UploadWorld) (sessionId : String) : UploadWorld × Bool :=
  match w.peers.get? sessionId with
  | none => (w, false)
  | some peer =>
    match peer.openNextFile w.disk with
    | (peer, none) => (w.setPeer sessionId peer, false)
    | (peer, some file) =>
      (((w.setPeer sessionId peer).sendToPeer sessionId (fileHeader w.localSessionId file)).act
        .uploadsChanged, true)

def calculateChecksum (data : List UInt8) : UInt32 := checksumFrom 0 0 data

/-- The message `_SendNextChunk` builds around the bytes it has just read. -/
def fileData (mungeMode : Int32) (bytes : List UInt8) : TransferMessage :=
  let buffer := if mungeMode = mungeModeXor then xorBytes bytes else bytes
  (Message.ofWhat TransferCommand.fileData)
    |>.addData fieldData buffer
    |>.addInt32 fieldChecksum (calculateChecksum buffer).toInt32
    |>.addInt32 fieldMungeMode mungeMode

/-- The part of `_SendNextChunk` after a successful read. -/
def sendChunk (w : UploadWorld) (sessionId : String) (peer : PeerUpload) (bytes : List UInt8)
    (stream : ReadStream) : UploadWorld :=
  let w := w.sendToPeer sessionId (fileData peer.mungeMode bytes)
  let w := w.setPeer sessionId
    { peer with currentFile := some stream, bytesSent := peer.bytesSent + bytes.length }
  (w.act (.requestOutputQueuesDrainedNotification sessionId)).act .uploadsChanged

@[simp] theorem act_toFileUploadServer (w : UploadWorld) (action : UploadAction) :
    (w.act action).toFileUploadServer = w.toFileUploadServer := rfl

@[simp] theorem act_disk (w : UploadWorld) (action : UploadAction) :
    (w.act action).disk = w.disk := rfl

@[simp] theorem setPeer_peers (w : UploadWorld) (sessionId : String) (peer : PeerUpload) :
    (w.setPeer sessionId peer).peers = w.peers.put sessionId peer := rfl

theorem beginNextFile_of_none {w : UploadWorld} (hp : w.peers.get? sessionId = some peer)
    (ho : (peer.openNextFile w.disk).2 = none) :
    w.beginNextFile sessionId = (w.setPeer sessionId (peer.openNextFile w.disk).1, false) := by
  simp only [beginNextFile, hp]
  cases hf : peer.openNextFile w.disk with
  | mk peer' opened => rw [hf] at ho; cases ho; rfl

theorem beginNextFile_of_some {w : UploadWorld} (hp : w.peers.get? sessionId = some peer)
    (ho : (peer.openNextFile w.disk).2 = some file) :
    w.beginNextFile sessionId =
      (((w.setPeer sessionId (peer.openNextFile w.disk).1).sendToPeer sessionId
        (fileHeader w.localSessionId file)).act .uploadsChanged, true) := by
  simp only [beginNextFile, hp]
  cases hf : peer.openNextFile w.disk with
  | mk peer' opened => rw [hf] at ho; cases ho; rfl

theorem beginNextFile_peers {w : UploadWorld} (hp : w.peers.get? sessionId = some peer) :
    (w.beginNextFile sessionId).1.peers =
      w.peers.put sessionId (peer.openNextFile w.disk).1 := by
  cases ho : (peer.openNextFile w.disk).2 with
  | none => rw [beginNextFile_of_none hp ho]; rfl
  | some file => rw [beginNextFile_of_some hp ho]; rfl

/-- A peer that is there afterwards was there before. -/
theorem peer_of_beginNextFile {w : UploadWorld}
    (h : (w.beginNextFile sessionId).1.peers.get? sessionId = some peer) :
    ∃ peer', w.peers.get? sessionId = some peer' ∧ peer = (peer'.openNextFile w.disk).1 := by
  cases hp : w.peers.get? sessionId with
  | none =>
    simp only [beginNextFile, hp] at h
    cases h
  | some peer' =>
    rw [beginNextFile_peers hp, Hashtable.get?_put_self] at h
    exact ⟨peer', rfl, (Option.some.inj h).symm⟩

/-- What the waiting peers can still cost: one call to start each, one for each of its files. -/
def waitingWork (w : UploadWorld) : Nat :=
  w.peers.total fun peer => if peer.isWaiting then peer.requestedFiles.length + 2 else 0

def remainingWork (w : UploadWorld) (sessionId : String) : Nat :=
  ((w.peers.get? sessionId).map fun peer => peer.remaining.length).getD 0

theorem beginNextFile_waitingWork (w : UploadWorld) (sessionId : String) :
    (w.beginNextFile sessionId).1.waitingWork = w.waitingWork := by
  cases hp : w.peers.get? sessionId with
  | none => simp only [beginNextFile, hp]
  | some peer =>
    simp only [waitingWork, beginNextFile_peers hp, Hashtable.total_put,
      Hashtable.total_eq_of_get? hp, PeerUpload.openNextFile_isWaiting,
      PeerUpload.openNextFile_requestedFiles]

theorem beginNextFile_remainingWork {w : UploadWorld} (h : (w.beginNextFile sessionId).2 = true) :
    (w.beginNextFile sessionId).1.remainingWork sessionId < w.remainingWork sessionId := by
  cases hp : w.peers.get? sessionId with
  | none => simp [beginNextFile, hp] at h
  | some peer =>
    have hr : (peer.openNextFile w.disk).1.remaining.length +
        (peer.openNextFile w.disk).2.toList.length ≤ peer.remaining.length :=
      PeerUpload.openFirst_remaining w.disk peer _ rfl
    cases ho : (peer.openNextFile w.disk).2 with
    | none => simp [beginNextFile_of_none hp ho] at h
    | some file =>
      simp only [ho, Option.toList_some, List.length_singleton] at hr
      simp only [remainingWork, beginNextFile_peers hp, Hashtable.get?_put_self, hp,
        Option.map_some, Option.getD_some]
      omega

def unqueue (w : UploadWorld) (sessionId : String) (peer : PeerUpload) : UploadWorld :=
  w.setPeer sessionId { peer with isQueued := false }

theorem unqueue_work {w : UploadWorld} (hp : w.peers.get? sessionId = some peer)
    (hw : peer.isWaiting = true) : (w.unqueue sessionId peer).waitingWork +
      (w.unqueue sessionId peer).remainingWork sessionId + 2 ≤ w.waitingWork := by
  have hr : ({ peer with isQueued := false } : PeerUpload).remaining.length ≤
      peer.requestedFiles.length := by
    simp [PeerUpload.remaining]
  have hn : ({ peer with isQueued := false } : PeerUpload).isWaiting = false := rfl
  simp only [unqueue, waitingWork, remainingWork, setPeer_peers, Hashtable.total_put,
    Hashtable.total_eq_of_get? hp, hw, hn, Hashtable.get?_put_self, Bool.false_eq_true,
    ↓reduceIte, Option.map_some, Option.getD_some]
  omega

theorem unqueue_peers (w : UploadWorld) (sessionId : String) (peer : PeerUpload) :
    (w.unqueue sessionId peer).peers =
      w.peers.put sessionId { peer with isQueued := false } := rfl

theorem sendChunk_peers (w : UploadWorld) (sessionId : String) (peer : PeerUpload)
    (bytes : List UInt8) (stream : ReadStream) :
    (w.sendChunk sessionId peer bytes stream).peers = w.peers.put sessionId
      { peer with currentFile := some stream, bytesSent := peer.bytesSent + bytes.length } := rfl

def firstWaiting (w : UploadWorld) : Option (String × PeerUpload) :=
  w.peers.entries.find? fun entry => entry.2.isWaiting

theorem firstWaiting_spec {w : UploadWorld} (h : w.firstWaiting = some (sessionId, peer)) :
    w.peers.get? sessionId = some peer ∧ peer.isWaiting = true :=
  ⟨Hashtable.get?_eq_some_iff.mpr (List.mem_of_find?_eq_some h),
    List.find?_some (p := fun entry : String × PeerUpload => entry.2.isWaiting) h⟩

set_option linter.unusedVariables false in
mutual

def sendNextChunk (w : UploadWorld) (sessionId : String) : UploadWorld :=
  match w.peers.get? sessionId with
  | none => w
  | some peer =>
    match peer.currentFile with
    | none => w
    | some stream =>
      match w.disk.fread uploadChunkSize stream with
      | ([], _) =>
        -- Out of data: the peer's next file, or else somebody waiting.
        if (w.beginNextFile sessionId).2 = true then
          sendNextChunk (w.beginNextFile sessionId).1 sessionId
        else
          (startNextQueuedPeer (w.beginNextFile sessionId).1).act .uploadsChanged
      | (bytes, stream) => w.sendChunk sessionId peer bytes stream
termination_by w.waitingWork + w.remainingWork sessionId + 1
decreasing_by
  · rename_i h
    rw [beginNextFile_waitingWork]
    exact Nat.add_lt_add_right (Nat.add_lt_add_left (beginNextFile_remainingWork h) _) 1
  · rw [beginNextFile_waitingWork]
    omega

def startNextQueuedPeer (w : UploadWorld) : UploadWorld :=
  if w.maxSimultaneousUploads ≤ w.countActiveUploads then w
  else
    match hfirst : w.firstWaiting with
    | none => w
    | some (sessionId, peer) =>
      if ((w.unqueue sessionId peer).beginNextFile sessionId).2 = true then
        sendNextChunk ((w.unqueue sessionId peer).beginNextFile sessionId).1 sessionId
      else
        ((w.unqueue sessionId peer).beginNextFile sessionId).1
termination_by w.waitingWork
decreasing_by
  rename_i hb
  have hw := unqueue_work (firstWaiting_spec hfirst).1 (firstWaiting_spec hfirst).2
  have hr := beginNextFile_remainingWork hb
  rw [beginNextFile_waitingWork]
  omega

end

theorem sendNextChunk_of_absent {w : UploadWorld} (hp : w.peers.get? sessionId = none) :
    w.sendNextChunk sessionId = w := by
  rw [sendNextChunk, hp]

theorem sendNextChunk_of_closed {w : UploadWorld} (hp : w.peers.get? sessionId = some peer)
    (hf : peer.currentFile = none) : w.sendNextChunk sessionId = w := by
  rw [sendNextChunk]
  simp only [hp, hf]

theorem sendNextChunk_of_end {w : UploadWorld} (hp : w.peers.get? sessionId = some peer)
    (hf : peer.currentFile = some stream) (hr : w.disk.unread stream = []) :
    w.sendNextChunk sessionId = if (w.beginNextFile sessionId).2 then
        (w.beginNextFile sessionId).1.sendNextChunk sessionId
      else (w.beginNextFile sessionId).1.startNextQueuedPeer.act .uploadsChanged := by
  have hfr : w.disk.fread uploadChunkSize stream =
      ([], (w.disk.fread uploadChunkSize stream).2) :=
    Prod.ext (by rw [Disk.fread_fst, hr, List.take_nil]) rfl
  rw [sendNextChunk]
  simp only [hp, hf]
  rw [hfr]

theorem sendNextChunk_of_bytes {w : UploadWorld} (hp : w.peers.get? sessionId = some peer)
    (hf : peer.currentFile = some stream) (hr : w.disk.unread stream ≠ []) :
    w.sendNextChunk sessionId =
      w.sendChunk sessionId peer ((w.disk.unread stream).take uploadChunkSize)
        (w.disk.fread uploadChunkSize stream).2 := by
  obtain ⟨byte, rest, hu⟩ := List.exists_cons_of_ne_nil hr
  have hfr : w.disk.fread uploadChunkSize stream =
      ((w.disk.unread stream).take uploadChunkSize,
        (w.disk.fread uploadChunkSize stream).2) := rfl
  rw [sendNextChunk]
  simp only [hp, hf]
  rw [hfr, hu]
  rfl

theorem startNextQueuedPeer_of_full {w : UploadWorld}
    (h : w.maxSimultaneousUploads ≤ w.countActiveUploads) : w.startNextQueuedPeer = w := by
  rw [startNextQueuedPeer, if_pos h]

theorem startNextQueuedPeer_of_none {w : UploadWorld} (h : w.firstWaiting = none) :
    w.startNextQueuedPeer = w := by
  rw [startNextQueuedPeer]
  split
  · rfl
  · split
    · rfl
    · simp_all

theorem startNextQueuedPeer_of_first {w : UploadWorld}
    (hc : w.countActiveUploads < w.maxSimultaneousUploads)
    (h : w.firstWaiting = some (sessionId, peer)) :
    w.startNextQueuedPeer = if ((w.unqueue sessionId peer).beginNextFile sessionId).2 then
        ((w.unqueue sessionId peer).beginNextFile sessionId).1.sendNextChunk sessionId
      else ((w.unqueue sessionId peer).beginNextFile sessionId).1 := by
  rw [startNextQueuedPeer, if_neg (Nat.not_le_of_lt hc)]
  split
  · simp_all
  · rename_i sessionId' peer' h'
    rw [h] at h'
    cases h'
    rfl

end UploadWorld

end HiTuxShare
