import HiTuxShare.Download

namespace HiTuxShare
set_option autoImplicit true

/-- What the user asked for, as a new download is set up with it and then started. -/
structure DownloadRequest where
  downloadDirectory : String
  retainFilePaths : Bool := false
  rateLimit : Nat := 0
  remoteUserName : String := ""
  requestedFiles : List RequestedFile
  hostName : String
  port : Nat
  remoteSessionId : String := ""
  localSessionId : String := ""
  localUserName : String := ""

namespace DownloadRequest

def newDownload (request : DownloadRequest) : FileDownload :=
  request.requestedFiles.foldl FileDownload.addRequestedFile
    { downloadDirectory := request.downloadDirectory
      retainFilePaths := request.retainFilePaths
      rateLimit := request.rateLimit
      remoteUserName := request.remoteUserName }

def started (request : DownloadRequest) (os : OperatingSystem) : DownloadWorld :=
  ({ request.newDownload with history := [] : DownloadWorld }.start os request.hostName
    request.port request.remoteSessionId request.localSessionId request.localUserName).1

end DownloadRequest

/-- The calls a download gets once it is started. -/
inductive DownloadCallback where
  | sessionConnected
  | sessionDisconnected
  | messageReceived (message : TransferMessage)
  | abort (reason : String)
  deriving DecidableEq

structure DownloadEvent where
  callback : DownloadCallback
  os : OperatingSystem := {}

/-- Nothing that concerns the request or the files differs. -/
structure SameFiles (download other : FileDownload) : Prop where
  downloadDirectory : other.downloadDirectory = download.downloadDirectory
  retainFilePaths : other.retainFilePaths = download.retainFilePaths
  requestedFiles : other.requestedFiles = download.requestedFiles
  outputFile : other.outputFile = download.outputFile
  outputPath : other.outputPath = download.outputPath
  currentFileSize : other.currentFileSize = download.currentFileSize
  currentFileBytesDone : other.currentFileBytesDone = download.currentFileBytesDone
  completedFileCount : other.completedFileCount = download.completedFileCount

theorem SameFiles.trans (h : SameFiles d d') (h' : SameFiles d' d'') : SameFiles d d'' :=
  ⟨h'.downloadDirectory.trans h.downloadDirectory, h'.retainFilePaths.trans h.retainFilePaths,
    h'.requestedFiles.trans h.requestedFiles, h'.outputFile.trans h.outputFile,
    h'.outputPath.trans h.outputPath, h'.currentFileSize.trans h.currentFileSize,
    h'.currentFileBytesDone.trans h.currentFileBytesDone,
    h'.completedFileCount.trans h.completedFileCount⟩

/-- The record between two files. -/
def FileDownload.withoutFile (download : FileDownload) : FileDownload :=
  { download with
    outputFile := none
    outputPath := ""
    currentFileBytesDone := 0
    currentFileSize := 0 }

namespace DownloadWorld

def handle [MuscleText] (w : DownloadWorld) (e : DownloadEvent) : DownloadWorld :=
  match e.callback with
  | .sessionConnected => w.sessionConnected
  | .sessionDisconnected => w.sessionDisconnected e.os
  | .messageReceived message => w.messageReceived e.os message
  | .abort reason => w.abort e.os reason

def machine [MuscleText] : EventMachine DownloadWorld DownloadEvent := ⟨handle⟩

@[simp] theorem note_toFileDownload (w : DownloadWorld) (occurrence : Occurrence) :
    (w.note occurrence).toFileDownload = w.toFileDownload := rfl

@[simp] theorem note_ledger (w : DownloadWorld) (occurrence : Occurrence) :
    (w.note occurrence).ledger = w.ledger.step occurrence := Ledger.replay_append ..

theorem setState_toFileDownload (w : DownloadWorld) (state : DownloadState) :
    (w.setState state).toFileDownload = { w.toFileDownload with state } := by
  rw [setState]
  split
  · next h => rw [h]
  · rfl

@[simp] theorem setState_state (w : DownloadWorld) (state : DownloadState) :
    (w.setState state).state = state := by rw [setState_toFileDownload]

@[simp] theorem fail_state (w : DownloadWorld) (reason : String) :
    (w.fail reason).state = .failed := setState_state ..

@[simp] theorem setState_ledger (w : DownloadWorld) (state : DownloadState) :
    (w.setState state).ledger = w.ledger := by
  rw [setState]
  split
  · rfl
  · exact note_ledger ..

@[simp] theorem remove_toFileDownload (os : OperatingSystem) (w : DownloadWorld) (path : String) :
    (remove os w path).toFileDownload = w.toFileDownload := by
  rw [remove]
  split <;> rfl

theorem remove_ledger (os : OperatingSystem) (w : DownloadWorld) (path : String) :
    (remove os w path).ledger = w.ledger ∨
      (remove os w path).ledger = w.ledger.discard path := by
  rw [remove]
  split
  · exact .inl rfl
  · exact .inr (note_ledger ..)

@[simp] theorem forgetCurrentFile_ledger (w : DownloadWorld) :
    w.forgetCurrentFile.ledger = w.ledger := rfl

@[simp] theorem reportCompleted_ledger (w : DownloadWorld) :
    w.reportCompleted.ledger = w.ledger.step (.downloadFileCompleted w.outputPath) :=
  note_ledger ..

@[simp] theorem fail_ledger (w : DownloadWorld) (reason : String) :
    (w.fail reason).ledger = w.ledger := setState_ledger ..

@[simp] theorem discardOutputFile_toFileDownload (os : OperatingSystem) (w : DownloadWorld) :
    (w.discardOutputFile os).toFileDownload = w.toFileDownload := by
  rw [discardOutputFile]
  split
  · exact remove_toFileDownload ..
  · rfl

theorem abort_of_finished {w : DownloadWorld} (os : OperatingSystem) (reason : String)
    (h : w.isFinished = true) : w.abort os reason = w := if_pos h

theorem abort_toFileDownload {w : DownloadWorld} (os : OperatingSystem) (reason : String)
    (h : w.isFinished = false) : (w.abort os reason).toFileDownload =
      { w.toFileDownload with outputFile := none, errorText := reason, state := .failed } := by
  rw [abort, if_neg (Bool.eq_false_iff.mp h), fail, setState_toFileDownload]
  change { (discardOutputFile os (w.note .threadShutDown).closeOutputFile).toFileDownload with
    errorText := reason, state := .failed } = _
  rw [discardOutputFile_toFileDownload]
  rfl

theorem abort_ledger (os : OperatingSystem) (w : DownloadWorld) (reason : String) :
    (w.abort os reason).ledger = w.ledger ∨
      w.outputPath ≠ "" ∧ (w.abort os reason).ledger = w.ledger.discard w.outputPath := by
  have hclosed : (w.note .threadShutDown).closeOutputFile.ledger = w.ledger := note_ledger ..
  cases hf : w.isFinished with
  | true => exact .inl (congrArg ledger (abort_of_finished os reason hf))
  | false =>
    rw [abort, if_neg (Bool.eq_false_iff.mp hf), fail_ledger, discardOutputFile]
    split
    · next hp =>
      have hr := remove_ledger os (w.note .threadShutDown).closeOutputFile w.outputPath
      rw [hclosed] at hr
      exact hr.imp_right fun h => ⟨hp, h⟩
    · exact .inl hclosed

@[simp] theorem abort_reports (os : OperatingSystem) (w : DownloadWorld) (reason : String) :
    (w.abort os reason).ledger.reports = w.ledger.reports := by
  rcases abort_ledger os w reason with h | ⟨-, h⟩
  · rw [h]
  · rw [h]
    rfl

theorem finishCurrentFile_of_closed {w : DownloadWorld} (os : OperatingSystem)
    (h : w.outputFile = none) : w.finishCurrentFile os = w := by
  simp only [finishCurrentFile, h]

theorem finishCurrentFile_of_complete {w : DownloadWorld} (os : OperatingSystem)
    (h : w.outputFile = some path) (hc : w.isComplete = true) :
    (w.finishCurrentFile os).toFileDownload =
        { w.toFileDownload.withoutFile with completedFileCount := w.completedFileCount + 1 } ∧
      (w.finishCurrentFile os).ledger = w.ledger.step (.downloadFileCompleted w.outputPath) := by
  simp only [finishCurrentFile, h, hc, ↓reduceIte, forgetCurrentFile_ledger,
    reportCompleted_ledger]
  exact ⟨rfl, rfl⟩

theorem finishCurrentFile_of_short {w : DownloadWorld} (os : OperatingSystem)
    (h : w.outputFile = some path) (hc : w.isComplete = false) :
    (w.finishCurrentFile os).toFileDownload = w.toFileDownload.withoutFile ∧
      ((w.finishCurrentFile os).ledger = w.ledger ∨
        (w.finishCurrentFile os).ledger = w.ledger.discard w.outputPath) := by
  simp only [finishCurrentFile, h, hc, Bool.false_eq_true, ↓reduceIte, forgetCurrentFile_ledger]
  refine ⟨?_, remove_ledger os w.closeOutputFile w.outputPath⟩
  change { (remove os w.closeOutputFile w.outputPath).toFileDownload with
    outputPath := "", currentFileBytesDone := 0, currentFileSize := 0 } = _
  rw [remove_toFileDownload]
  rfl

theorem finishCurrentFile_field (field : FileDownload → β) (os : OperatingSystem)
    (w : DownloadWorld) (h : ∀ download count,
      field { download.withoutFile with completedFileCount := count } = field download) :
    field (w.finishCurrentFile os).toFileDownload = field w.toFileDownload := by
  cases ho : w.outputFile with
  | none => rw [finishCurrentFile_of_closed os ho]
  | some path =>
    cases hc : w.isComplete with
    | true => exact (congrArg field (finishCurrentFile_of_complete os ho hc).1).trans (h _ _)
    | false =>
      exact (congrArg field (finishCurrentFile_of_short os ho hc).1).trans
        (h _ w.completedFileCount)

theorem finishCurrentFile_closed (os : OperatingSystem) (w : DownloadWorld) :
    (w.finishCurrentFile os).outputFile = none := by
  cases ho : w.outputFile with
  | none => rwa [finishCurrentFile_of_closed os ho]
  | some path =>
    cases hc : w.isComplete with
    | true => rw [(finishCurrentFile_of_complete os ho hc).1]; rfl
    | false => rw [(finishCurrentFile_of_short os ho hc).1]; rfl

theorem finishCurrentFile_frame (os : OperatingSystem) (w : DownloadWorld) :
    (w.finishCurrentFile os).ledger.created = w.ledger.created ∧
      (w.finishCurrentFile os).ledger.headers = w.ledger.headers ∧
      (w.finishCurrentFile os).ledger.lastHeader = w.ledger.lastHeader := by
  cases ho : w.outputFile with
  | none => rw [finishCurrentFile_of_closed os ho]; exact ⟨rfl, rfl, rfl⟩
  | some path =>
    cases hc : w.isComplete with
    | true => rw [(finishCurrentFile_of_complete os ho hc).2]; exact ⟨rfl, rfl, rfl⟩
    | false =>
      rcases (finishCurrentFile_of_short os ho hc).2 with hl | hl
      · rw [hl]; exact ⟨rfl, rfl, rfl⟩
      · rw [hl]; exact ⟨rfl, rfl, rfl⟩

theorem outputPathFor_eq_some [MuscleText] {os : OperatingSystem} {w : DownloadWorld}
    (h : w.outputPathFor os fileName relativePath = some path) :
    sanitizePathComponent fileName ≠ "" ∧
      unusedPath (w.pathExists os) (w.outputDirectory relativePath)
        (sanitizePathComponent fileName) = some path := by
  rw [outputPathFor] at h
  split at h
  · cases h
  · next hne =>
    split at h
    · exact ⟨hne, h⟩
    · cases h

/-- Where `_OpenOutputFile` puts the file, if a file can be made. -/
def newOutputFile [MuscleText] (os : OperatingSystem) (w : DownloadWorld)
    (fileName relativePath : String) : Option String :=
  (w.outputPathFor os fileName relativePath).filter fun path => !os.fopenFails path

theorem openOutputFile_of_none [MuscleText] {os : OperatingSystem} {w : DownloadWorld}
    (h : w.newOutputFile os fileName relativePath = none) :
    w.openOutputFile os fileName relativePath = (w, false) := by
  rw [openOutputFile]
  cases hp : w.outputPathFor os fileName relativePath with
  | none => rfl
  | some path =>
    rw [newOutputFile, hp, Option.filter_some] at h
    exact if_pos (by simpa using h)

theorem openOutputFile_of_some [MuscleText] {os : OperatingSystem} {w : DownloadWorld}
    (h : w.newOutputFile os fileName relativePath = some path) :
    w.openOutputFile os fileName relativePath =
      ({ w with outputFile := some path, outputPath := path }.note (.opened path), true) := by
  obtain ⟨hp, hopen⟩ := Option.filter_eq_some_iff.mp h
  simp only [openOutputFile, hp]
  exact if_neg (by simpa using hopen)

/-- Where the file of a header goes, if a file can be made for it. -/
def openedBy [MuscleText] (os : OperatingSystem) (w : DownloadWorld) (header : FileHeader)
    (message : TransferMessage) : Option String :=
  ((w.finishCurrentFile os).announce header message).newOutputFile os header.fileName
    ((message.findString fieldPath).getD "")

theorem handleFileHeader_malformed [MuscleText] (os : OperatingSystem) (w : DownloadWorld)
    (hr : readFileHeader message = none) : w.handleFileHeader os message =
      (w.finishCurrentFile os).abort os "Peer sent a malformed file header" := by
  simp only [handleFileHeader, hr]

theorem handleFileHeader_refused [MuscleText] {os : OperatingSystem} {w : DownloadWorld}
    (hr : readFileHeader message = some header) (ho : w.openedBy os header message = none) :
    w.handleFileHeader os message = ((w.finishCurrentFile os).announce header message).abort os
      ("Could not create a file for " ++ header.fileName) := by
  simp only [handleFileHeader, hr, openOutputFile_of_none ho]

theorem handleFileHeader_opened [MuscleText] {os : OperatingSystem} {w : DownloadWorld}
    (hr : readFileHeader message = some header) (ho : w.openedBy os header message = some path) :
    (w.handleFileHeader os message).toFileDownload =
        { ((w.finishCurrentFile os).announce header message).toFileDownload with
          outputFile := some path, outputPath := path, state := .transferring } ∧
      (w.handleFileHeader os message).ledger =
        (w.finishCurrentFile os).ledger.step (.opened path) := by
  simp only [handleFileHeader, hr, openOutputFile_of_some ho, setState_toFileDownload,
    setState_ledger, note_ledger]
  exact ⟨rfl, rfl⟩

theorem fwrite_eq_self {os : OperatingSystem} {bytes : List UInt8}
    (h : (os.fwrite bytes).length = bytes.length) : os.fwrite bytes = bytes := by
  rw [OperatingSystem.fwrite] at h ⊢
  split at h
  · rw [List.length_take] at h
    exact List.take_of_length_le (by omega)
  · rfl

theorem writeChunk_refused {os : OperatingSystem} {w : DownloadWorld}
    (h : (os.fwrite bytes).length ≠ bytes.length) : w.writeChunk os path bytes =
      (w.note (.wrote path (os.fwrite bytes))).abort os "Could not write to disk" := by
  simp only [writeChunk]
  exact if_pos h

/-- The world once a chunk is on the disk and counted. -/
def wroteChunk (os : OperatingSystem) (w : DownloadWorld) (path : String) (bytes : List UInt8) :
    DownloadWorld :=
  (w.note (.wrote path bytes)).countBytes os bytes.length

theorem writeChunk_taken {os : OperatingSystem} {w : DownloadWorld}
    (h : (os.fwrite bytes).length = bytes.length) : w.writeChunk os path bytes =
      if 0 ≤ w.currentFileSize ∧ w.currentFileSize ≤ w.currentFileBytesDone + bytes.length then
        (w.wroteChunk os path bytes).finishCurrentFile os
      else w.wroteChunk os path bytes := by
  simp only [writeChunk, fwrite_eq_self h]
  exact if_neg (not_not.mpr rfl)

@[simp] theorem wroteChunk_ledger (os : OperatingSystem) (w : DownloadWorld) (path : String)
    (bytes : List UInt8) :
    (w.wroteChunk os path bytes).ledger = w.ledger.append path bytes := by
  simp only [wroteChunk, countBytes, note_ledger]
  exact note_ledger ..

/-- The bytes of a chunk that passes every test and reaches the disk whole. -/
def chunkBytes (os : OperatingSystem) (message : TransferMessage) : Option (List UInt8) :=
  match message.findData fieldData with
  | none => none
  | some data =>
    if passesChecksum message data then
      (unmunge message data).filter fun bytes => (os.fwrite bytes).length = bytes.length
    else none

theorem handleFileData_closed (os : OperatingSystem) (w : DownloadWorld)
    (ho : w.outputFile = none) : w.handleFileData os message = w := by
  simp only [handleFileData, ho]

theorem handleFileData_ends (os : OperatingSystem) (w : DownloadWorld)
    (ho : w.outputFile = some path) (hd : message.findData fieldData = none) :
    w.handleFileData os message = w.finishCurrentFile os := by
  simp only [handleFileData, ho, hd]

theorem handleFileData_chunk {os : OperatingSystem} {w : DownloadWorld}
    (ho : w.outputFile = some path) (hc : chunkBytes os message = some bytes) :
    w.handleFileData os message = if 0 ≤ w.currentFileSize ∧
        w.currentFileSize ≤ w.currentFileBytesDone + bytes.length then
      (w.wroteChunk os path bytes).finishCurrentFile os else w.wroteChunk os path bytes := by
  rw [chunkBytes] at hc
  split at hc
  · cases hc
  · next data hd =>
    split at hc
    · next hs =>
      obtain ⟨hu, ht⟩ := Option.filter_eq_some_iff.mp hc
      simp only [handleFileData, ho, hd, hs, hu, ↓reduceIte]
      exact writeChunk_taken (by simpa using ht)
    · cases hc

theorem handleFileData_refused (os : OperatingSystem) {w : DownloadWorld}
    (ho : w.outputFile = some path) (hd : message.findData fieldData = some data)
    (hc : chunkBytes os message = none) :
    (∃ reason, w.handleFileData os message = w.abort os reason) ∨ ∃ bytes reason,
      w.handleFileData os message = (w.note (.wrote path bytes)).abort os reason := by
  simp only [handleFileData, ho, hd]
  split
  · next hs =>
    split
    · next bytes hu =>
      simp only [chunkBytes, hd, hs, hu, ↓reduceIte, Option.filter_eq_none_iff] at hc
      exact .inr ⟨_, _, writeChunk_refused (by simpa using hc bytes rfl)⟩
    · exact .inl ⟨_, rfl⟩
  · exact .inl ⟨_, rfl⟩

theorem handleFileData_refused_reports (os : OperatingSystem) {w : DownloadWorld}
    (ho : w.outputFile = some path) (hd : message.findData fieldData = some data)
    (hc : chunkBytes os message = none) :
    (w.handleFileData os message).ledger.reports = w.ledger.reports := by
  rcases handleFileData_refused os ho hd hc with ⟨reason, h⟩ | ⟨bytes, reason, h⟩
  · rw [h, abort_reports]
  · rw [h, abort_reports, note_ledger, Ledger.step, Ledger.append]
    split <;> rfl

theorem handleFileHeader_reports [MuscleText] (os : OperatingSystem) (w : DownloadWorld)
    (message : TransferMessage) : (w.handleFileHeader os message).ledger.reports =
      (w.finishCurrentFile os).ledger.reports := by
  cases hr : readFileHeader message with
  | none => rw [handleFileHeader_malformed os w hr, abort_reports]
  | some header =>
    cases ho : w.openedBy os header message with
    | none =>
      rw [handleFileHeader_refused hr ho, abort_reports]
      rfl
    | some path => rw [(handleFileHeader_opened hr ho).2, Ledger.step]

/-- No file is concerned, neither in the record nor on the disk. -/
structure Untouched (w w' : DownloadWorld) : Prop where
  sameFiles : SameFiles w.toFileDownload w'.toFileDownload
  ledger : w'.ledger = w.ledger

theorem Untouched.trans (h : Untouched w w') (h' : Untouched w' w'') : Untouched w w'' :=
  ⟨h.sameFiles.trans h'.sameFiles, h'.ledger.trans h.ledger⟩

theorem untouched_note (w : DownloadWorld) (h : ∀ l : Ledger, l.step occurrence = l) :
    Untouched w (w.note occurrence) :=
  ⟨by constructor <;> rfl, (note_ledger ..).trans (h _)⟩

theorem untouched_setState (w : DownloadWorld) (state : DownloadState) :
    Untouched w (w.setState state) := by
  refine ⟨?_, setState_ledger ..⟩
  rw [setState_toFileDownload]
  constructor <;> rfl

theorem untouched_fail (w : DownloadWorld) (reason : String) : Untouched w (w.fail reason) := by
  have hset : Untouched { w with errorText := reason } (w.fail reason) := untouched_setState ..
  exact ⟨SameFiles.trans (by constructor <;> rfl) hset.sameFiles, hset.ledger⟩

theorem untouched_setRatePolicy (w : DownloadWorld) : Untouched w w.setRatePolicy := by
  rw [setRatePolicy]
  split
  · exact untouched_note _ fun _ => rfl
  · exact ⟨by constructor <;> rfl, rfl⟩

theorem untouched_connect (os : OperatingSystem) (w : DownloadWorld) (hostName : String)
    (port : Nat) : Untouched w (w.connect os hostName port).1 := by
  have hthread : Untouched w (w.note .threadStarted).setRatePolicy :=
    (untouched_note _ fun _ => rfl).trans (untouched_setRatePolicy _)
  rw [connect]
  split
  · exact untouched_fail ..
  · split
    · exact hthread.trans ((untouched_note _ fun _ => rfl).trans (untouched_fail ..))
    · exact hthread.trans ((untouched_note _ fun _ => rfl).trans (untouched_setState ..))

theorem untouched_start (os : OperatingSystem) (w : DownloadWorld) (hostName : String) (port : Nat)
    (remoteSessionId localSessionId localUserName : String) : Untouched w
      (w.start os hostName port remoteSessionId localSessionId localUserName).1 := by
  rw [start]
  split
  · exact ⟨by constructor <;> rfl, rfl⟩
  · split
    · exact untouched_fail ..
    · have hconnect :=
        untouched_connect os { w with remoteSessionId, localSessionId, localUserName } hostName port
      exact ⟨SameFiles.trans (by constructor <;> rfl) hconnect.sameFiles, hconnect.ledger⟩

theorem messageReceived_header [MuscleText] (os : OperatingSystem) (w : DownloadWorld)
    (h : message.what = .fileHeader) : w.messageReceived os message =
      (w.note (.received message)).handleFileHeader os message := by
  simp only [messageReceived, h]

theorem messageReceived_data [MuscleText] (os : OperatingSystem) (w : DownloadWorld)
    (h : message.what = .fileData) : w.messageReceived os message =
      (w.note (.received message)).handleFileData os message := by
  simp only [messageReceived, h]

theorem messageReceived_rejected [MuscleText] (os : OperatingSystem) (w : DownloadWorld)
    (h : message.what = .rejected) : w.messageReceived os message =
      (w.note (.received message)).abort os (rejectionReason message) := by
  simp only [messageReceived, h]

/-- A message that concerns neither a file nor the fate of the session. -/
structure IsChatter (message : TransferMessage) : Prop where
  not_header : message.what ≠ .fileHeader
  not_data : message.what ≠ .fileData
  not_rejected : message.what ≠ .rejected

theorem untouched_chatter [MuscleText] (os : OperatingSystem) (w : DownloadWorld)
    (h : IsChatter message) : Untouched w (w.messageReceived os message) := by
  have hnote : Untouched w (w.note (.received message)) :=
    ⟨by constructor <;> rfl, (note_ledger ..).trans (Ledger.receive_of_what_ne _ h.not_header)⟩
  rw [messageReceived]
  cases hw : message.what with
  | fileHeader => exact (h.not_header hw).elim
  | fileData => exact (h.not_data hw).elim
  | rejected => exact (h.not_rejected hw).elim
  | notifyQueued => exact hnote.trans (untouched_setState ..)
  | peerId =>
    simp only [peerIdentified]
    split
    · split
      · exact ⟨hnote.sameFiles.trans (by constructor <;> rfl), hnote.ledger⟩
      · exact hnote
    · exact hnote
  | _ => exact hnote

/-- Chatter may take a session out of a final state, never into one. -/
theorem chatter_isFinished [MuscleText] (os : OperatingSystem) (w : DownloadWorld)
    (h : IsChatter message) (hf : (w.messageReceived os message).isFinished = true) :
    (w.messageReceived os message).state = w.state := by
  rw [messageReceived] at hf ⊢
  cases hw : message.what with
  | fileHeader => exact (h.not_header hw).elim
  | fileData => exact (h.not_data hw).elim
  | rejected => exact (h.not_rejected hw).elim
  | notifyQueued =>
    simp only [hw, setState_toFileDownload] at hf
    cases hf
  | peerId =>
    simp only [peerIdentified]
    split
    · split
      · rfl
      · rfl
    · rfl
  | _ => rfl

theorem message_cases (message : TransferMessage) :
    message.what = .fileHeader ∨ message.what = .fileData ∨ message.what = .rejected ∨
      IsChatter message := by
  by_cases hh : message.what = .fileHeader
  · exact .inl hh
  by_cases hd : message.what = .fileData
  · exact .inr (.inl hd)
  by_cases hr : message.what = .rejected
  · exact .inr (.inr (.inl hr))
  · exact .inr (.inr (.inr ⟨hh, hd, hr⟩))

theorem untouched_requestFiles (mungeMode : Int32) (w : DownloadWorld) :
    Untouched w (w.requestFiles mungeMode) :=
  (untouched_setState ..).trans
    ((untouched_note _ fun _ => rfl).trans (untouched_note _ fun _ => rfl))

theorem requestFiles_toFileDownload (mungeMode : Int32) (w : DownloadWorld) :
    (w.requestFiles mungeMode).toFileDownload = { w.toFileDownload with state := .requesting } :=
  setState_toFileDownload ..

theorem sessionDisconnected_finished {w : DownloadWorld} (os : OperatingSystem)
    (hf : w.isFinished = true) : w.sessionDisconnected os = w := if_pos hf

theorem sessionDisconnected_closed {w : DownloadWorld} (os : OperatingSystem)
    (hf : w.isFinished = false) (ho : w.outputFile = none) :
    (w.sessionDisconnected os).ledger = w.ledger ∧
      (w.sessionDisconnected os).toFileDownload =
        { w.toFileDownload with
          state := if 0 < w.completedFileCount then .finished else .failed
          errorText := if w.completedFileCount = 0 ∧ w.errorText = "" then
            "Peer disconnected without sending anything" else w.errorText } := by
  have hs := setState_toFileDownload w.closeOutputFile
    (if 0 < w.completedFileCount then .finished else .failed)
  have hclosed : w.closeOutputFile.toFileDownload = w.toFileDownload :=
    congrArg (fun f => { w.toFileDownload with outputFile := f }) ho.symm
  have hl := setState_ledger w.closeOutputFile
    (if 0 < w.completedFileCount then .finished else .failed)
  rw [hclosed] at hs
  rw [sessionDisconnected, if_neg (Bool.eq_false_iff.mp hf), if_neg (not_not.mpr ho)]
  simp only [hs]
  split
  · exact ⟨hl, rfl⟩
  · exact ⟨hl, hs⟩

theorem sessionDisconnected_open {w : DownloadWorld} (os : OperatingSystem)
    (hf : w.isFinished = false) (ho : w.outputFile = some path) :
    w.sessionDisconnected os = w.abort os "Peer disconnected during transfer" := by
  rw [sessionDisconnected, if_neg (Bool.eq_false_iff.mp hf), if_pos (by simp [ho])]

/-- A hang-up does nothing to a finished download and aborts one that has a file open. -/
theorem sessionDisconnected_cases {P : DownloadWorld → Prop} (os : OperatingSystem)
    (w : DownloadWorld) (finished : P w)
    (cutShort : P (w.abort os "Peer disconnected during transfer"))
    (closed : w.isFinished = false → w.outputFile = none → P (w.sessionDisconnected os)) :
    P (w.sessionDisconnected os) := by
  cases hf : w.isFinished with
  | true => rwa [sessionDisconnected_finished os hf]
  | false =>
    cases ho : w.outputFile with
    | some path => rwa [sessionDisconnected_open os hf ho]
    | none => exact closed hf ho

theorem sessionDisconnected_reports (os : OperatingSystem) (w : DownloadWorld) :
    (w.sessionDisconnected os).ledger.reports = w.ledger.reports := by
  apply sessionDisconnected_cases (P := fun w' => w'.ledger.reports = w.ledger.reports)
  · rfl
  · exact abort_reports ..
  · intro hf ho
    rw [(sessionDisconnected_closed os hf ho).1]

end DownloadWorld

end HiTuxShare
