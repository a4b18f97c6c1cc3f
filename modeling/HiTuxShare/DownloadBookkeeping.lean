import HiTuxShare.DownloadEvents

namespace HiTuxShare
set_option autoImplicit true

/-- The name a path ends in is the one a peer gave, made safe, or a variant of it that was free. -/
def CarriesName [MuscleText] (path fileName : String) : Prop :=
  ∃ directory, path = directory ++ "/" ++ sanitizePathComponent fileName ∨
    ∃ attempt, path = directory ++ "/" ++ renamed (sanitizePathComponent fileName) attempt

/-- What has been reported stays true, and what has been created goes back to a header. -/
structure Settled [MuscleText] (download : FileDownload) (l : Ledger) : Prop where
  intact : ∀ path file?, (path, file?) ∈ l.reports →
    ∃ file, file? = some file ∧ l.disk.get? path = some file
  unreported : download.outputPath ≠ "" → ∀ file?, (download.outputPath, file?) ∉ l.reports
  completed : download.completedFileCount = UInt32.ofNat l.reports.length
  named : ∀ path header, (path, header) ∈ l.created →
    header ∈ l.headers ∧ CarriesName path header.fileName
  reportsCreated : l.reports.length + download.outputFile.isSome.toNat ≤ l.created.length
  createdAnnounced : l.created.length ≤ l.headers.length

/-- The open file is on the disk as far as it has come. -/
structure OpenFile (download : FileDownload) (l : Ledger) (path : String) : Prop where
  path_eq : download.outputPath = path
  path_ne : path ≠ ""
  onDisk : ∃ file, l.disk.get? path = some file ∧
    file.header.fileSize = download.currentFileSize ∧
    (file.bytes.length : Int) = download.currentFileBytesDone

structure Bookkeeping [MuscleText] (download : FileDownload) (l : Ledger) : Prop extends
    Settled download l where
  finishedClosed : download.isFinished = true → download.outputFile = none
  openFile : ∀ path, download.outputFile = some path → OpenFile download l path

variable [MuscleText]

abbrev DownloadWorld.Booked (w : DownloadWorld) : Prop := Bookkeeping w.toFileDownload w.ledger

theorem Settled.discard (h : Settled download l) (hp : download.outputPath ≠ "") :
    Settled download (l.discard download.outputPath) where
  intact := by
    intro path file? hm
    obtain ⟨file, rfl, hd⟩ := h.intact path file? hm
    refine ⟨file, rfl, ?_⟩
    have hne : path ≠ download.outputPath := by
      rintro rfl
      exact h.unreported hp _ hm
    rw [Ledger.discard, Hashtable.get?_remove, if_neg hne]
    exact hd
  unreported := h.unreported
  completed := h.completed
  named := h.named
  reportsCreated := h.reportsCreated
  createdAnnounced := h.createdAnnounced

theorem Settled.close (h : Settled download l) :
    Settled { download with outputFile := none } l :=
  ⟨h.intact, h.unreported, h.completed, h.named,
    (Nat.le_add_right ..).trans h.reportsCreated, h.createdAnnounced⟩

theorem Settled.receive (h : Settled download l) (message : TransferMessage) :
    Settled download (l.receive message) := by
  rw [Ledger.receive]
  split
  · exact h
  · split
    · refine ⟨h.intact, h.unreported, h.completed, ?_, h.reportsCreated, ?_⟩
      · intro path header hm
        exact ⟨List.mem_append_left _ (h.named path header hm).1, (h.named path header hm).2⟩
      · exact h.createdAnnounced.trans (by simp)
    · exact h

namespace Bookkeeping

theorem not_finished (h : Bookkeeping download l) (ho : download.outputFile = some path) :
    download.isFinished = false := by
  by_contra hf
  have hclosed := h.finishedClosed (by simpa using hf)
  rw [ho] at hclosed
  cases hclosed

theorem receive (h : Bookkeeping download l) (message : TransferMessage) :
    Bookkeeping download (l.receive message) := by
  refine ⟨h.toSettled.receive message, h.finishedClosed, ?_⟩
  intro path hf
  obtain ⟨hp, hne, hd⟩ := h.openFile path hf
  exact ⟨hp, hne, by rwa [(l.receive_frame message).1]⟩

end Bookkeeping

theorem Settled.abort {w : DownloadWorld} (h : Settled w.toFileDownload w.ledger)
    (hf : w.isFinished = true → w.outputFile = none) (os : OperatingSystem) (reason : String) :
    (w.abort os reason).Booked := by
  cases hfin : w.isFinished with
  | true =>
    rw [DownloadWorld.abort_of_finished os reason hfin]
    refine ⟨h, hf, ?_⟩
    intro path ho
    rw [hf hfin] at ho
    cases ho
  | false =>
    rw [DownloadWorld.Booked, DownloadWorld.abort_toFileDownload os reason hfin]
    have hs : Settled w.toFileDownload (w.abort os reason).ledger := by
      rcases w.abort_ledger os reason with hl | ⟨hp, hl⟩
      · exact hl ▸ h
      · exact hl ▸ h.discard hp
    exact ⟨⟨hs.intact, hs.unreported, hs.completed, hs.named, hs.close.reportsCreated,
      hs.createdAnnounced⟩, fun _ => rfl, fun path ho => by cases ho⟩

namespace Bookkeeping

theorem abort {w : DownloadWorld} (h : w.Booked)
    (os : OperatingSystem) (reason : String) :
    (w.abort os reason).Booked :=
  h.toSettled.abort h.finishedClosed os reason

theorem withoutFile (h : Settled download l) : Bookkeeping download.withoutFile l :=
  ⟨⟨h.intact, fun hp => (hp rfl).elim, h.completed, h.named, h.close.reportsCreated,
    h.createdAnnounced⟩, fun _ => rfl, fun path ho => by cases ho⟩

theorem finishCurrentFile {w : DownloadWorld} (h : w.Booked)
    (os : OperatingSystem) :
    (w.finishCurrentFile os).Booked := by
  cases ho : w.outputFile with
  | none => rwa [DownloadWorld.finishCurrentFile_of_closed os ho]
  | some path =>
    obtain ⟨rfl, hne, file, hd, -⟩ := h.openFile path ho
    cases hc : w.isComplete with
    | true =>
      obtain ⟨hw, hl⟩ := DownloadWorld.finishCurrentFile_of_complete os ho hc
      rw [DownloadWorld.Booked, hw, hl]
      refine ⟨⟨?_, fun hp => (hp rfl).elim, ?_, h.named, ?_, h.createdAnnounced⟩, fun _ => rfl,
        fun path ho => by cases ho⟩
      · intro path file? hm
        rcases List.mem_append.mp hm with hm | hm
        · exact h.intact path file? hm
        · obtain ⟨rfl, rfl⟩ := Prod.mk.inj (List.mem_singleton.mp hm)
          exact ⟨file, hd, hd⟩
      · change w.completedFileCount + 1 = UInt32.ofNat (w.ledger.reports ++ _).length
        rw [h.completed, List.length_append, UInt32.ofNat_add]
        rfl
      · have hr := h.reportsCreated
        rw [ho] at hr
        change (w.ledger.reports ++ [_]).length + 0 ≤ w.ledger.created.length
        simpa using hr
    | false =>
      obtain ⟨hw, hl | hl⟩ := DownloadWorld.finishCurrentFile_of_short os ho hc
      · rw [DownloadWorld.Booked, hw, hl]
        exact withoutFile h.toSettled
      · rw [DownloadWorld.Booked, hw, hl]
        exact withoutFile (h.toSettled.discard hne)

theorem opened {w : DownloadWorld} (h : w.Booked)
    (hclosed : w.outputFile = none) (hl : w.ledger.lastHeader = header)
    (hm : header ∈ w.ledger.headers) (hlt : w.ledger.created.length < w.ledger.headers.length)
    (hsize : w.currentFileSize = header.fileSize) (hdone : w.currentFileBytesDone = 0)
    (hp : w.outputPathFor os header.fileName relativePath = some path) :
    Bookkeeping
      { w.toFileDownload with outputFile := some path, outputPath := path, state := .transferring }
      (w.ledger.step (.opened path)) := by
  obtain ⟨-, hunused⟩ := DownloadWorld.outputPathFor_eq_some hp
  obtain ⟨hfree, hname⟩ := unusedPath_eq_some hunused
  have hnew : w.ledger.disk.get? path = none := by
    have hn := (Bool.or_eq_false_iff.mp hfree).1
    rwa [Option.isSome_eq_false_iff, Option.isNone_iff_eq_none] at hn
  have hfresh (file? : Option OutputFile) : (path, file?) ∉ w.ledger.reports := by
    intro hr
    obtain ⟨file, -, hd⟩ := h.intact path file? hr
    rw [hnew] at hd
    cases hd
  refine ⟨⟨?_, fun _ => hfresh, h.completed, ?_, ?_, ?_⟩, ?_, ?_⟩
  · intro path' file? hr
    obtain ⟨file, rfl, hd⟩ := h.intact path' file? hr
    have hne : path' ≠ path := by
      rintro rfl
      exact hfresh _ hr
    exact ⟨file, rfl, by rwa [Ledger.step, Hashtable.get?_put_of_ne _ _ hne]⟩
  · intro path' header' hm'
    rcases List.mem_append.mp hm' with hm' | hm'
    · exact h.named path' header' hm'
    · obtain ⟨rfl, rfl⟩ := Prod.mk.inj (List.mem_singleton.mp hm')
      rw [hl]
      exact ⟨hm, _, hname⟩
  · have hr := h.reportsCreated
    rw [hclosed] at hr
    change w.ledger.reports.length + 1 ≤ (w.ledger.created ++ [_]).length
    simpa using hr
  · change (w.ledger.created ++ [_]).length ≤ w.ledger.headers.length
    rw [List.length_append]
    exact hlt
  · intro hf
    cases hf
  · intro path' ho
    cases ho
    refine ⟨rfl, unusedPath_ne_empty hunused, ⟨header, []⟩, ?_, hsize.symm, hdone.symm⟩
    rw [Ledger.step, hl, Hashtable.get?_put_self]

theorem announce {w : DownloadWorld} (h : w.Booked)
    (hclosed : w.outputFile = none) (header : FileHeader) (message : TransferMessage) :
    (w.announce header message).Booked :=
  ⟨⟨h.intact, h.unreported, h.completed, h.named, h.reportsCreated, h.createdAnnounced⟩,
    fun _ => hclosed, fun path ho => by rw [show w.outputFile = some path from ho] at hclosed;
                                        cases hclosed⟩

theorem handleFileHeader {w : DownloadWorld} (h : w.Booked)
    (hl : ∀ header, readFileHeader message = some header → w.ledger.lastHeader = header ∧
      header ∈ w.ledger.headers ∧ w.ledger.created.length < w.ledger.headers.length)
    (os : OperatingSystem) :
    (w.handleFileHeader os message).Booked := by
  have hfinish := h.finishCurrentFile os
  have hclosed := w.finishCurrentFile_closed os
  cases hr : readFileHeader message with
  | none =>
    rw [DownloadWorld.handleFileHeader_malformed os w hr]
    exact hfinish.abort os _
  | some header =>
    have hann := hfinish.announce hclosed header message
    cases ho : w.openedBy os header message with
    | none =>
      rw [DownloadWorld.handleFileHeader_refused hr ho]
      exact hann.abort os _
    | some path =>
      obtain ⟨hlh, hm, hlt⟩ := hl header hr
      obtain ⟨hcreated, hheaders, hlast⟩ := w.finishCurrentFile_frame os
      obtain ⟨hd, hledger⟩ := DownloadWorld.handleFileHeader_opened hr ho
      rw [DownloadWorld.Booked, hd, hledger]
      refine hann.opened hclosed (hlast.trans hlh) (hheaders ▸ hm) ?_ rfl rfl
        (Option.filter_eq_some_iff.mp ho).1
      change (w.finishCurrentFile os).ledger.created.length <
        (w.finishCurrentFile os).ledger.headers.length
      rwa [hcreated, hheaders]

theorem append (h : Bookkeeping download l) (ho : download.outputFile = some path)
    (bytes : List UInt8) : Settled download (l.append path bytes) := by
  obtain ⟨rfl, hne, file, hd, -⟩ := h.openFile path ho
  simp only [Ledger.append, hd]
  refine ⟨?_, h.unreported, h.completed, h.named, h.reportsCreated, h.createdAnnounced⟩
  intro path' file? hm
  obtain ⟨file', rfl, hd'⟩ := h.intact path' file? hm
  have hne' : path' ≠ download.outputPath := by
    rintro rfl
    exact h.unreported hne _ hm
  exact ⟨file', rfl, by rwa [Hashtable.get?_put_of_ne _ _ hne']⟩

theorem wroteChunk {w : DownloadWorld} (h : w.Booked)
    (ho : w.outputFile = some path) (os : OperatingSystem) (bytes : List UInt8) :
    (w.wroteChunk os path bytes).Booked := by
  have hs := h.append ho bytes
  rw [DownloadWorld.Booked, DownloadWorld.wroteChunk_ledger]
  refine ⟨⟨hs.intact, hs.unreported, hs.completed, hs.named, hs.reportsCreated,
    hs.createdAnnounced⟩, h.finishedClosed, ?_⟩
  intro path' ho'
  obtain rfl : path = path' := Option.some.inj (ho.symm.trans ho')
  obtain ⟨hp, hne, file, hd, hsize, hdone⟩ := h.openFile path ho
  refine ⟨hp, hne, { file with bytes := file.bytes ++ bytes }, ?_, hsize, ?_⟩
  · simp only [Ledger.append, hd, Hashtable.get?_put_self]
  · change ((file.bytes ++ bytes).length : Int) = w.currentFileBytesDone + bytes.length
    rw [List.length_append, Int.natCast_add, hdone]

theorem writeChunk {w : DownloadWorld} (h : w.Booked)
    (ho : w.outputFile = some path) (os : OperatingSystem) (bytes : List UInt8) :
    (w.writeChunk os path bytes).Booked := by
  by_cases ht : (os.fwrite bytes).length = bytes.length
  · rw [DownloadWorld.writeChunk_taken ht]
    split
    · exact (h.wroteChunk ho os bytes).finishCurrentFile os
    · exact h.wroteChunk ho os bytes
  · rw [DownloadWorld.writeChunk_refused ht]
    refine Settled.abort (w := w.note _) ?_ h.finishedClosed os _
    rw [DownloadWorld.note_ledger]
    exact h.append ho _

theorem handleFileData {w : DownloadWorld} (h : w.Booked)
    (os : OperatingSystem) (message : TransferMessage) :
    (w.handleFileData os message).Booked := by
  rw [DownloadWorld.handleFileData]
  split
  · exact h
  · next path ho =>
    split
    · exact h.finishCurrentFile os
    · split
      · split
        · exact h.writeChunk ho os _
        · exact h.abort os _
      · exact h.abort os _

theorem congr (h : Bookkeeping download l) (hs : SameFiles download other)
    (hfin : other.isFinished = true → other.outputFile = none) : Bookkeeping other l := by
  refine ⟨⟨h.intact, hs.outputPath ▸ h.unreported, hs.completedFileCount ▸ h.completed, h.named,
    hs.outputFile ▸ h.reportsCreated, h.createdAnnounced⟩, hfin, ?_⟩
  intro path ho
  obtain ⟨hp, hne, hd⟩ := h.openFile path (hs.outputFile ▸ ho)
  exact ⟨hs.outputPath.trans hp, hne, by rwa [hs.currentFileSize, hs.currentFileBytesDone]⟩

theorem untouched {w : DownloadWorld} (h : w.Booked) (hu : w.Untouched w')
    (hfin : w'.isFinished = true → w'.outputFile = none) : w'.Booked := by
  rw [DownloadWorld.Booked, hu.ledger]
  exact h.congr hu.sameFiles hfin

theorem messageReceived {w : DownloadWorld} (h : w.Booked) (os : OperatingSystem)
    (message : TransferMessage) : (w.messageReceived os message).Booked := by
  have hr : (w.note (.received message)).Booked := by
    rw [DownloadWorld.Booked, DownloadWorld.note_ledger]
    exact h.receive message
  rcases DownloadWorld.message_cases message with hw | hw | hw | hw
  · rw [DownloadWorld.messageReceived_header os w hw]
    refine hr.handleFileHeader ?_ os
    intro header hh
    rw [DownloadWorld.note_ledger, Ledger.step, Ledger.receive_of_header _ hw hh]
    refine ⟨rfl, List.mem_append_right _ (List.mem_singleton_self _), ?_⟩
    have hle := h.createdAnnounced
    simp only [List.length_append, List.length_singleton]
    omega
  · rw [DownloadWorld.messageReceived_data os w hw]
    exact hr.handleFileData os message
  · rw [DownloadWorld.messageReceived_rejected os w hw]
    exact hr.abort os _
  · have hu := DownloadWorld.untouched_chatter os w hw
    refine h.untouched hu fun hf => hu.sameFiles.outputFile.trans (h.finishedClosed ?_)
    have hs := DownloadWorld.chatter_isFinished os w hw hf
    rwa [FileDownload.isFinished, hs] at hf

theorem sessionDisconnected {w : DownloadWorld} (h : w.Booked) (os : OperatingSystem) :
    (w.sessionDisconnected os).Booked := by
  apply DownloadWorld.sessionDisconnected_cases (P := DownloadWorld.Booked)
  · exact h
  · exact h.abort os _
  · intro hf ho
    obtain ⟨hl, hd⟩ := DownloadWorld.sessionDisconnected_closed os hf ho
    rw [DownloadWorld.Booked, hl, hd]
    exact h.congr (by constructor <;> rfl) fun _ => ho

theorem handle {w : DownloadWorld} (h : w.Booked) (e : DownloadEvent) : (w.handle e).Booked := by
  obtain ⟨callback, os⟩ := e
  cases callback with
  | sessionConnected =>
    apply h.untouched (DownloadWorld.untouched_requestFiles _ w)
    intro hf
    change (w.requestFiles mungeModeXor).toFileDownload.isFinished = true at hf
    rw [DownloadWorld.requestFiles_toFileDownload] at hf
    cases hf
  | sessionDisconnected => exact h.sessionDisconnected os
  | messageReceived message => exact h.messageReceived os message
  | abort reason => exact h.abort os reason

end Bookkeeping

/-- A download with nothing received and nothing on the disk. -/
structure IsFresh (download : FileDownload) : Prop where
  state : download.state = .idle
  outputFile : download.outputFile = none
  outputPath : download.outputPath = ""
  completedFileCount : download.completedFileCount = 0

omit [MuscleText] in
theorem newDownload_isFresh (request : DownloadRequest) : IsFresh request.newDownload := by
  rw [DownloadRequest.newDownload]
  refine List.foldlRecOn _ FileDownload.addRequestedFile ⟨rfl, rfl, rfl, rfl⟩ ?_
  intro download h requested _
  exact ⟨h.state, h.outputFile, h.outputPath, h.completedFileCount⟩

omit [MuscleText] in
theorem untouched_started (request : DownloadRequest) (os : OperatingSystem) :
    DownloadWorld.Untouched { request.newDownload with history := [] } (request.started os) :=
  DownloadWorld.untouched_start ..

theorem newDownload_booked (request : DownloadRequest) :
    DownloadWorld.Booked { request.newDownload with history := [] } := by
  have hfresh := newDownload_isFresh request
  refine ⟨⟨?_, fun hp => (hp hfresh.outputPath).elim, hfresh.completedFileCount, ?_, ?_,
    Nat.le_refl 0⟩, fun _ => hfresh.outputFile, ?_⟩
  · intro path file? hm
    cases hm
  · intro path header hm
    cases hm
  · rw [hfresh.outputFile]
    exact Nat.le_refl 0
  · intro path ho
    rw [hfresh.outputFile] at ho
    cases ho

theorem started_booked (request : DownloadRequest) (os : OperatingSystem) :
    (request.started os).Booked := by
  have hu := untouched_started request os
  exact (newDownload_booked request).untouched hu fun _ =>
    hu.sameFiles.outputFile.trans (newDownload_isFresh request).outputFile

theorem run_booked (request : DownloadRequest) (os : OperatingSystem) (es : List DownloadEvent) :
    (DownloadWorld.machine.run (request.started os) es).Booked :=
  EventMachine.run_of_invariant (fun _ e h => Bookkeeping.handle h e) (started_booked request os)

end HiTuxShare
