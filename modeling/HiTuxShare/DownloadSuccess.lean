import HiTuxShare.DownloadSizes

namespace HiTuxShare
set_option autoImplicit true

namespace DownloadWorld

/-- The request stands, reports are only added, and nothing declares success. -/
structure Onward (w w' : DownloadWorld) : Prop where
  requestedFiles : w'.requestedFiles = w.requestedFiles
  reports : w.ledger.reports <+: w'.ledger.reports
  finished : w'.state = .finished → w.state = .finished

theorem Onward.refl (w : DownloadWorld) : Onward w w := ⟨rfl, List.prefix_rfl, id⟩

theorem Onward.trans (h : Onward w w') (h' : Onward w' w'') : Onward w w'' :=
  ⟨h'.requestedFiles.trans h.requestedFiles, h.reports.trans h'.reports,
    fun hf => h.finished (h'.finished hf)⟩

theorem onward_received (w : DownloadWorld) (message : TransferMessage) :
    Onward w (w.note (.received message)) := by
  have hreports : (w.note (.received message)).ledger.reports = w.ledger.reports := by
    rw [note_ledger, Ledger.step, (w.ledger.receive_frame message).2.2]
  exact ⟨rfl, hreports ▸ List.prefix_rfl, id⟩

theorem onward_wrote (w : DownloadWorld) (path : String) (bytes : List UInt8) :
    Onward w (w.note (.wrote path bytes)) := by
  refine ⟨rfl, ?_, id⟩
  rw [note_ledger, Ledger.step, Ledger.append]
  split <;> exact List.prefix_rfl

theorem onward_abort (os : OperatingSystem) (w : DownloadWorld) (reason : String) :
    Onward w (w.abort os reason) := by
  cases hf : w.isFinished with
  | true =>
    rw [abort_of_finished os reason hf]
    exact .refl w
  | false =>
    refine ⟨?_, (abort_reports os w reason) ▸ List.prefix_rfl, ?_⟩
    · rw [abort_toFileDownload os reason hf]
    · rw [abort_toFileDownload os reason hf]
      intro h
      cases h

theorem onward_finishCurrentFile (os : OperatingSystem) (w : DownloadWorld) :
    Onward w (w.finishCurrentFile os) := by
  cases ho : w.outputFile with
  | none =>
    rw [finishCurrentFile_of_closed os ho]
    exact .refl w
  | some path =>
    cases hc : w.isComplete with
    | true =>
      obtain ⟨hd, hl⟩ := finishCurrentFile_of_complete os ho hc
      refine ⟨by rw [hd]; rfl, ?_, by rw [hd]; exact id⟩
      rw [hl]
      exact List.prefix_append _ _
    | false =>
      obtain ⟨hd, hl | hl⟩ := finishCurrentFile_of_short os ho hc
      · exact ⟨by rw [hd]; rfl, hl ▸ List.prefix_rfl, by rw [hd]; exact id⟩
      · exact ⟨by rw [hd]; rfl, hl ▸ List.prefix_rfl, by rw [hd]; exact id⟩

theorem onward_handleFileHeader [MuscleText] (os : OperatingSystem) (w : DownloadWorld)
    (message : TransferMessage) : Onward w (w.handleFileHeader os message) := by
  have hfinish := onward_finishCurrentFile os w
  cases hr : readFileHeader message with
  | none =>
    rw [handleFileHeader_malformed os w hr]
    exact hfinish.trans (onward_abort ..)
  | some header =>
    have hann : Onward w ((w.finishCurrentFile os).announce header message) :=
      hfinish.trans ⟨rfl, List.prefix_rfl, id⟩
    cases ho : w.openedBy os header message with
    | none =>
      rw [handleFileHeader_refused hr ho]
      exact hann.trans (onward_abort ..)
    | some path =>
      obtain ⟨hd, hl⟩ := handleFileHeader_opened hr ho
      refine hann.trans ⟨by rw [hd], ?_, ?_⟩
      · rw [hl]
        exact List.prefix_rfl
      · rw [hd]
        intro h
        cases h

theorem onward_handleFileData (os : OperatingSystem) (w : DownloadWorld)
    (message : TransferMessage) : Onward w (w.handleFileData os message) := by
  cases ho : w.outputFile with
  | none =>
    rw [handleFileData_closed os w ho]
    exact .refl w
  | some path =>
    cases hd : message.findData fieldData with
    | none =>
      rw [handleFileData_ends os w ho hd]
      exact onward_finishCurrentFile os w
    | some data =>
      cases hc : chunkBytes os message with
      | none =>
        rcases handleFileData_refused os ho hd hc with ⟨reason, h⟩ | ⟨bytes, reason, h⟩
        · rw [h]
          exact onward_abort ..
        · rw [h]
          exact (onward_wrote ..).trans (onward_abort ..)
      | some bytes =>
        have hwrote : Onward w (w.wroteChunk os path bytes) := by
          refine ⟨rfl, ?_, id⟩
          rw [wroteChunk_ledger, Ledger.append]
          split <;> exact List.prefix_rfl
        rw [handleFileData_chunk ho hc]
        split
        · exact hwrote.trans (onward_finishCurrentFile ..)
        · exact hwrote

theorem onward_messageReceived [MuscleText] (os : OperatingSystem) (w : DownloadWorld)
    (message : TransferMessage) : Onward w (w.messageReceived os message) := by
  have hr := onward_received w message
  rcases message_cases message with hw | hw | hw | hw
  · rw [messageReceived_header os w hw]
    exact hr.trans (onward_handleFileHeader ..)
  · rw [messageReceived_data os w hw]
    exact hr.trans (onward_handleFileData ..)
  · rw [messageReceived_rejected os w hw]
    exact hr.trans (onward_abort ..)
  · have hu := untouched_chatter os w hw
    refine ⟨hu.sameFiles.requestedFiles, hu.ledger ▸ List.prefix_rfl, fun hf => ?_⟩
    rw [← chatter_isFinished os w hw (by simp [FileDownload.isFinished, hf]), hf]

/-- The names of the files that were reported and are at least as long as announced. -/
def receivedNames (w : DownloadWorld) : List String :=
  w.ledger.reports.filterMap fun report => report.2.bind fun file =>
    if file.header.fileSize ≤ file.bytes.length then some file.header.fileName else none

def requestedNames (download : FileDownload) : List String :=
  download.requestedFiles.map RequestedFile.fileName

/-- Whoever shows success has received every requested file, one requested twice even twice. -/
def SuccessIsTrue (w : DownloadWorld) : Prop :=
  w.state = .finished → (requestedNames w.toFileDownload).Subperm w.receivedNames

/-- A peer that hangs up between two files has sent everything or nothing. -/
def HangsUpHonestly (w : DownloadWorld) (e : DownloadEvent) : Prop :=
  e.callback = .sessionDisconnected → w.isFinished = false → w.outputFile = none →
    0 < w.completedFileCount → (requestedNames w.toFileDownload).Subperm w.receivedNames

theorem Onward.successIsTrue (h : Onward w w') (hs : SuccessIsTrue w) : SuccessIsTrue w' := by
  intro hf
  have hreceived : w.receivedNames.Sublist w'.receivedNames := h.reports.sublist.filterMap _
  rw [requestedNames, h.requestedFiles]
  exact (hs (h.finished hf)).trans hreceived.subperm

theorem successIsTrue_handle [MuscleText] {w : DownloadWorld} (h : SuccessIsTrue w)
    (e : DownloadEvent) : SuccessIsTrue (w.handle e) ↔ HangsUpHonestly w e := by
  obtain ⟨callback, os⟩ := e
  cases callback with
  | messageReceived message =>
    have honward := onward_messageReceived os w message
    exact iff_of_true (honward.successIsTrue h) (by simp [HangsUpHonestly])
  | abort reason =>
    exact iff_of_true ((onward_abort os w reason).successIsTrue h) (by simp [HangsUpHonestly])
  | sessionConnected =>
    refine iff_of_true ?_ (by simp [HangsUpHonestly])
    intro hf
    change (w.requestFiles mungeModeXor).toFileDownload.state = _ at hf
    rw [requestFiles_toFileDownload] at hf
    cases hf
  | sessionDisconnected =>
    simp only [DownloadWorld.handle]
    cases hf : w.isFinished with
    | true =>
      rw [sessionDisconnected_finished os hf]
      exact iff_of_true h (by simp [HangsUpHonestly, hf])
    | false =>
      cases ho : w.outputFile with
      | some path =>
        rw [sessionDisconnected_open os hf ho]
        exact iff_of_true ((onward_abort ..).successIsTrue h) (by simp [HangsUpHonestly, ho])
      | none =>
        obtain ⟨hl, hd⟩ := sessionDisconnected_closed os hf ho
        simp only [SuccessIsTrue, HangsUpHonestly, receivedNames, requestedNames, hl, hd, hf, ho]
        split <;> simp_all

theorem start_not_finished (os : OperatingSystem) {w : DownloadWorld} (h : w.state ≠ .finished)
    (hostName : String) (port : Nat) (remoteSessionId localSessionId localUserName : String) :
    (w.start os hostName port remoteSessionId localSessionId localUserName).1.state ≠
      .finished := by
  rw [start]
  split
  · exact h
  · split
    · simp
    · rw [connect]
      split
      · simp
      · split
        · simp
        · rw [setState_toFileDownload]
          intro hfinished
          cases hfinished

/-- Two files are asked for, the peer sends the first and hangs up. -/
def halfDeliveredRun : List DownloadEvent :=
  [⟨.sessionConnected, {}⟩, ⟨.messageReceived (headerFor "notes.txt" 4), {}⟩,
    ⟨.messageReceived (dataFor [1, 2, 3, 4]), {}⟩, ⟨.sessionDisconnected, {}⟩]

theorem half_delivered_is_success :
    ¬ ∀ [MuscleText] (request : DownloadRequest) (os : OperatingSystem) (es : List DownloadEvent),
      machine.EveryState SuccessIsTrue (request.started os) es := by
  intro h
  have hlast := (@h asciiText { notesRequest with
    requestedFiles := [⟨"notes.txt", "", 4⟩, ⟨"photo.jpg", "", 9⟩] } {} halfDeliveredRun).last
  have hlength := (hlast (by decide +kernel)).length_le
  exact absurd hlength (by decide +kernel)

/-- Over a run, `FINISHED` is only reached with everything received exactly where every
hang-up between two files comes when either nothing or all of the request has arrived. -/
theorem finished_sessions [MuscleText] (request : DownloadRequest) (os : OperatingSystem)
    (es : List DownloadEvent) :
    machine.EveryState SuccessIsTrue (request.started os) es ↔
      machine.EveryStep HangsUpHonestly (request.started os) es := by
  apply EventMachine.everyState_iff_everyStep (J := fun _ => True)
  · exact fun _ _ _ => trivial
  · exact fun w e _ h => successIsTrue_handle h e
  · trivial
  · intro hf
    have hidle := (newDownload_isFresh request).state
    exact (start_not_finished os (w := { request.newDownload with history := [] })
      (by simp [hidle]) _ _ _ _ _ hf).elim

end DownloadWorld

end HiTuxShare
