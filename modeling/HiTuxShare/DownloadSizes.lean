import HiTuxShare.DownloadOrigins

namespace HiTuxShare
set_option autoImplicit true

/-- Between two events an open file is still waiting for something: for bytes, or, where the
header asked for none, for the next message. -/
def Pending (download : FileDownload) : Prop :=
  download.outputFile ≠ none → download.currentFileSize < 0 ∨
    download.currentFileBytesDone < download.currentFileSize ∨
    download.currentFileBytesDone = 0 ∧ download.currentFileSize = 0

theorem pending_of_closed (h : download.outputFile = none) : Pending download :=
  fun ho => (ho h).elim

theorem Pending.congr (h : Pending download) (hs : SameFiles download other) : Pending other := by
  intro ho
  rw [hs.currentFileSize, hs.currentFileBytesDone]
  exact h (hs.outputFile ▸ ho)

namespace DownloadWorld

theorem Pending.abort {w : DownloadWorld} (h : Pending w.toFileDownload) (os : OperatingSystem)
    (reason : String) : Pending (w.abort os reason).toFileDownload := by
  cases hf : w.isFinished with
  | true => rwa [abort_of_finished os reason hf]
  | false =>
    rw [abort_toFileDownload os reason hf]
    exact pending_of_closed rfl

theorem pending_handleFileHeader [MuscleText] (os : OperatingSystem) (w : DownloadWorld)
    (message : TransferMessage) : Pending (w.handleFileHeader os message).toFileDownload := by
  have hclosed := w.finishCurrentFile_closed os
  cases hr : readFileHeader message with
  | none =>
    rw [handleFileHeader_malformed os w hr]
    exact Pending.abort (pending_of_closed hclosed) os _
  | some header =>
    cases ho : w.openedBy os header message with
    | none =>
      rw [handleFileHeader_refused hr ho]
      exact Pending.abort (w := (w.finishCurrentFile os).announce ..)
        (pending_of_closed hclosed) os _
    | some path =>
      rw [(handleFileHeader_opened hr ho).1]
      intro _
      change header.fileSize < 0 ∨ 0 < header.fileSize ∨ (0 : Int) = 0 ∧ header.fileSize = 0
      omega

/-- An overfull file does not outlive the chunk that fills it. -/
theorem Pending.handleFileData {w : DownloadWorld} (h : Pending w.toFileDownload)
    (os : OperatingSystem) (message : TransferMessage) :
    Pending (w.handleFileData os message).toFileDownload := by
  rw [DownloadWorld.handleFileData]
  split
  · exact h
  · next path ho =>
    split
    · exact pending_of_closed (w.finishCurrentFile_closed os)
    · split
      · split
        · next bytes _ =>
          by_cases ht : (os.fwrite bytes).length = bytes.length
          · rw [writeChunk_taken ht]
            split
            · exact pending_of_closed (finishCurrentFile_closed os _)
            · next hopen =>
              intro _
              change w.currentFileSize < 0 ∨
                w.currentFileBytesDone + bytes.length < w.currentFileSize ∨ _
              omega
          · rw [writeChunk_refused ht]
            exact Pending.abort (w := w.note _) h os _
        · exact Pending.abort h os _
      · exact Pending.abort h os _

theorem Pending.messageReceived [MuscleText] {w : DownloadWorld} (h : Pending w.toFileDownload)
    (os : OperatingSystem) (message : TransferMessage) :
    Pending (w.messageReceived os message).toFileDownload := by
  rcases message_cases message with hw | hw | hw | hw
  · rw [messageReceived_header os w hw]
    exact pending_handleFileHeader os _ message
  · rw [messageReceived_data os w hw]
    exact Pending.handleFileData (w := w.note _) h os message
  · rw [messageReceived_rejected os w hw]
    exact Pending.abort (w := w.note _) h os _
  · exact h.congr (untouched_chatter os w hw).sameFiles

theorem Pending.sessionDisconnected {w : DownloadWorld} (h : Pending w.toFileDownload)
    (os : OperatingSystem) : Pending (w.sessionDisconnected os).toFileDownload := by
  apply sessionDisconnected_cases (P := fun w' => Pending w'.toFileDownload)
  · exact h
  · exact Pending.abort h os _
  · intro hf ho
    rw [(sessionDisconnected_closed os hf ho).2]
    exact pending_of_closed ho

theorem Pending.handle [MuscleText] {w : DownloadWorld} (h : Pending w.toFileDownload)
    (e : DownloadEvent) : Pending (w.handle e).toFileDownload := by
  obtain ⟨callback, os⟩ := e
  cases callback with
  | sessionConnected => exact h.congr (untouched_requestFiles mungeModeXor w).sameFiles
  | sessionDisconnected => exact Pending.sessionDisconnected h os
  | messageReceived message => exact Pending.messageReceived h os message
  | abort reason => exact Pending.abort h os reason

/-- Every file reported as completed is as long as its header said. -/
def ReportsExact (w : DownloadWorld) : Prop :=
  ∀ path file?, (path, file?) ∈ w.ledger.reports →
    ∃ file, file? = some file ∧ (file.bytes.length : Int) = file.header.fileSize

/-- The message that ends an open file without filling it up. -/
def EndsFile (message : TransferMessage) : Prop :=
  message.what = .fileHeader ∨ message.what = .fileData ∧ message.findData fieldData = none

/-- No file with a negative size is ended, and no chunk runs over the size of its file. -/
def KeepsToSize (w : DownloadWorld) (e : DownloadEvent) : Prop :=
  match e.callback with
  | .messageReceived message => w.outputFile ≠ none →
    (EndsFile message → 0 ≤ w.currentFileSize) ∧
    (message.what = .fileData → ∀ bytes, chunkBytes e.os message = some bytes →
      0 ≤ w.currentFileSize → w.currentFileBytesDone + bytes.length ≤ w.currentFileSize)
  | _ => True

theorem reportsExact_congr {w w' : DownloadWorld} (h : w'.ledger.reports = w.ledger.reports) :
    ReportsExact w' ↔ ReportsExact w := by
  rw [ReportsExact, h]
  rfl

theorem ReportsExact.complete [MuscleText] {w : DownloadWorld} (h : ReportsExact w)
    (hb : w.Booked) (ho : w.outputFile = some path) (hc : w.isComplete = true)
    (os : OperatingSystem) :
    ReportsExact (w.finishCurrentFile os) ↔ w.currentFileBytesDone = w.currentFileSize := by
  obtain ⟨rfl, -, file, hd, hsize, hdone⟩ := hb.openFile path ho
  have hreports : (w.finishCurrentFile os).ledger.reports =
      w.ledger.reports ++ [(w.outputPath, some file)] := by
    rw [(finishCurrentFile_of_complete os ho hc).2, Ledger.step, hd]
  rw [ReportsExact, hreports, ← hsize, ← hdone]
  constructor
  · intro he
    obtain ⟨file', hfile, hl⟩ := he w.outputPath (some file) (by simp)
    cases hfile
    exact hl
  · intro hl path file? hm
    rcases List.mem_append.mp hm with hm | hm
    · exact h path file? hm
    · obtain ⟨rfl, rfl⟩ := Prod.mk.inj (List.mem_singleton.mp hm)
      exact ⟨file, rfl, hl⟩

/-- Ending a pending file is honest unless its header announced a negative size. -/
theorem ReportsExact.finish [MuscleText] {w : DownloadWorld} (h : ReportsExact w) (hb : w.Booked)
    (hp : Pending w.toFileDownload) (ho : w.outputFile = some path) (os : OperatingSystem) :
    ReportsExact (w.finishCurrentFile os) ↔ 0 ≤ w.currentFileSize := by
  obtain ⟨-, -, file, -, -, hdone⟩ := hb.openFile path ho
  have hpending := hp (by simp [ho])
  cases hc : w.isComplete with
  | true =>
    rw [h.complete hb ho hc os]
    simp only [FileDownload.isComplete, Bool.or_eq_true, decide_eq_true_eq] at hc
    omega
  | false =>
    simp only [FileDownload.isComplete, Bool.or_eq_false_iff, decide_eq_false_iff_not] at hc
    have hreports : (w.finishCurrentFile os).ledger.reports = w.ledger.reports := by
      rcases (finishCurrentFile_of_short os ho (by simpa [FileDownload.isComplete] using hc)).2
        with hl | hl
      · rw [hl]
      · rw [hl]; rfl
    rw [reportsExact_congr hreports]
    exact iff_of_true h (by omega)

/-- A chunk is honest unless it runs over the announced size. -/
theorem ReportsExact.chunk [MuscleText] {w : DownloadWorld} (h : ReportsExact w) (hb : w.Booked)
    (ho : w.outputFile = some path) (os : OperatingSystem) (bytes : List UInt8) :
    ReportsExact (if 0 ≤ w.currentFileSize ∧
        w.currentFileSize ≤ w.currentFileBytesDone + bytes.length then
      (w.wroteChunk os path bytes).finishCurrentFile os else w.wroteChunk os path bytes) ↔
    (0 ≤ w.currentFileSize → w.currentFileBytesDone + bytes.length ≤ w.currentFileSize) := by
  have hreports : (w.wroteChunk os path bytes).ledger.reports = w.ledger.reports := by
    rw [wroteChunk_ledger, Ledger.append]
    split <;> rfl
  have hw := (reportsExact_congr hreports).mpr h
  split
  · next hfull =>
    have hc : (w.wroteChunk os path bytes).isComplete = true := by
      simp only [FileDownload.isComplete, Bool.or_eq_true, decide_eq_true_eq]
      exact .inr hfull.2
    rw [hw.complete (hb.wroteChunk ho os bytes) ho hc os]
    change w.currentFileBytesDone + bytes.length = w.currentFileSize ↔ _
    omega
  · next hroom => exact iff_of_true hw (by omega)

theorem ReportsExact.header [MuscleText] {w : DownloadWorld} (h : ReportsExact w)
    (hb : w.Booked) (hp : Pending w.toFileDownload) (os : OperatingSystem)
    (message : TransferMessage) : ReportsExact (w.handleFileHeader os message) ↔
      (w.outputFile ≠ none → 0 ≤ w.currentFileSize) := by
  rw [reportsExact_congr (w.handleFileHeader_reports os message)]
  cases ho : w.outputFile with
  | none =>
    rw [finishCurrentFile_of_closed os ho]
    exact iff_of_true h (by simp)
  | some path =>
    rw [h.finish hb hp ho os]
    simp

theorem ReportsExact.data [MuscleText] {w : DownloadWorld} (h : ReportsExact w)
    (hb : w.Booked) (hp : Pending w.toFileDownload) (os : OperatingSystem)
    (message : TransferMessage) : ReportsExact (w.handleFileData os message) ↔
      (w.outputFile ≠ none →
        (message.findData fieldData = none → 0 ≤ w.currentFileSize) ∧
        ∀ bytes, chunkBytes os message = some bytes → 0 ≤ w.currentFileSize →
          w.currentFileBytesDone + bytes.length ≤ w.currentFileSize) := by
  cases ho : w.outputFile with
  | none =>
    rw [handleFileData_closed os _ ho]
    exact iff_of_true h (by simp)
  | some path =>
    cases hd : message.findData fieldData with
    | none =>
      rw [handleFileData_ends os _ ho hd, h.finish hb hp ho os]
      simp [chunkBytes, hd]
    | some data =>
      cases hcb : chunkBytes os message with
      | none =>
        rw [reportsExact_congr (handleFileData_refused_reports os ho hd hcb)]
        exact iff_of_true h (by simp)
      | some bytes =>
        rw [handleFileData_chunk ho hcb, h.chunk hb ho os bytes]
        simp

theorem reportsExact_messageReceived [MuscleText] {w : DownloadWorld} (h : ReportsExact w)
    (hb : w.Booked) (hp : Pending w.toFileDownload) (os : OperatingSystem)
    (message : TransferMessage) :
    ReportsExact (w.messageReceived os message) ↔
      KeepsToSize w ⟨.messageReceived message, os⟩ := by
  have hbr : (w.note (.received message)).Booked := by
    rw [DownloadWorld.Booked, note_ledger]
    exact hb.receive message
  have hr : ReportsExact (w.note (.received message)) := by
    refine (reportsExact_congr ?_).mpr h
    rw [note_ledger]
    exact (w.ledger.receive_frame message).2.2
  simp only [KeepsToSize]
  rcases message_cases message with hw | hw | hw | hw
  · rw [messageReceived_header os w hw, hr.header hbr hp]
    simp [EndsFile, hw]
  · rw [messageReceived_data os w hw, hr.data hbr hp]
    simp [EndsFile, hw]
  · rw [messageReceived_rejected os w hw, reportsExact_congr (abort_reports ..)]
    exact iff_of_true hr (by simp [EndsFile, hw])
  · have hu := untouched_chatter os w hw
    rw [reportsExact_congr (congrArg Ledger.reports hu.ledger)]
    exact iff_of_true h (by simp [EndsFile, hw.not_header, hw.not_data])

theorem reportsExact_handle [MuscleText] {w : DownloadWorld} (h : ReportsExact w)
    (hb : w.Booked) (hp : Pending w.toFileDownload) (e : DownloadEvent) :
    ReportsExact (w.handle e) ↔ KeepsToSize w e := by
  obtain ⟨callback, os⟩ := e
  cases callback with
  | messageReceived message => exact reportsExact_messageReceived h hb hp os message
  | sessionConnected =>
    have hl := (untouched_requestFiles mungeModeXor w).ledger
    exact iff_of_true ((reportsExact_congr (congrArg Ledger.reports hl)).mpr h) trivial
  | sessionDisconnected =>
    exact iff_of_true ((reportsExact_congr (sessionDisconnected_reports os w)).mpr h) trivial
  | abort reason =>
    exact iff_of_true ((reportsExact_congr (abort_reports os w reason)).mpr h) trivial

def dataFor (bytes : List UInt8) : TransferMessage :=
  (Message.ofWhat TransferCommand.fileData).addData fieldData bytes

/-- A file announced with one byte and sent with four. -/
def overfullRun : List DownloadEvent :=
  [⟨.sessionConnected, {}⟩, ⟨.messageReceived (headerFor "notes.txt" 1), {}⟩,
    ⟨.messageReceived (dataFor [1, 2, 3, 4]), {}⟩]

theorem overfull_file_is_reported :
    ¬ ∀ [MuscleText] (request : DownloadRequest) (os : OperatingSystem) (es : List DownloadEvent),
      machine.EveryState ReportsExact (request.started os) es := by
  intro h
  have hlast := (@h asciiText notesRequest {} overfullRun).last
  obtain ⟨file, hfile, hlength⟩ := hlast "/downloads/notes.txt"
    (some ⟨⟨"notes.txt", 1⟩, [1, 2, 3, 4]⟩) (by decide +kernel)
  cases hfile
  exact absurd hlength (by decide)

/-- Over a run, every report is exact exactly where the peer neither overfills a file nor
announces a negative size for one that it then ends. -/
theorem reported_sizes [MuscleText] (request : DownloadRequest) (os : OperatingSystem)
    (es : List DownloadEvent) :
    machine.EveryState ReportsExact (request.started os) es ↔
      machine.EveryStep KeepsToSize (request.started os) es := by
  have hu := untouched_started request os
  apply EventMachine.everyState_iff_everyStep (J := fun w => w.Booked ∧ Pending w.toFileDownload)
  · exact fun w e hw => ⟨Bookkeeping.handle hw.1 e, Pending.handle hw.2 e⟩
  · exact fun w e hw h => reportsExact_handle h hw.1 hw.2 e
  · exact ⟨started_booked request os, pending_of_closed
      (hu.sameFiles.outputFile.trans (newDownload_isFresh request).outputFile)⟩
  · intro path file? hm
    rw [hu.ledger] at hm
    cases hm

end DownloadWorld

end HiTuxShare
