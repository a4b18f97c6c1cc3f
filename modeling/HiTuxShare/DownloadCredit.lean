import HiTuxShare.DownloadSuccess

namespace HiTuxShare
set_option autoImplicit true

namespace DownloadWorld

/-- The files that are reported or may still be: every header adds at most one. -/
def credit (w : DownloadWorld) : Nat := w.ledger.reports.length + w.outputFile.isSome.toNat

/-- A chunk as a peer should send it: checked, in a known encoding, with these bytes in it. -/
def IsChunk (message : TransferMessage) (bytes : List UInt8) : Prop :=
  message.what = .fileData ∧ ∃ data, message.findData fieldData = some data ∧
    passesChecksum message data = true ∧ unmunge message data = some bytes

/-- The local disk takes what the event brings: a file for a header, all bytes of a chunk. -/
def DiskTakes [MuscleText] (w : DownloadWorld) (e : DownloadEvent) : Prop :=
  match e.callback with
  | .messageReceived message =>
    (message.what = .fileHeader → ∀ header, readFileHeader message = some header →
      ((w.note (.received message)).openedBy e.os header message).isSome) ∧
    (w.outputFile ≠ none → ∀ bytes, IsChunk message bytes →
      (e.os.fwrite bytes).length = bytes.length)
  | _ => True

def isHeaderCallback : DownloadCallback → Bool
  | .messageReceived message => message.what = .fileHeader
  | _ => false

def isHeaderEvent (e : DownloadEvent) : Bool := isHeaderCallback e.callback

theorem credit_untouched (h : Untouched w w') : w'.credit = w.credit := by
  rw [credit, credit, h.ledger, h.sameFiles.outputFile]

theorem credit_received (w : DownloadWorld) (message : TransferMessage) :
    (w.note (.received message)).credit = w.credit := by
  rw [credit, note_ledger, Ledger.step, (w.ledger.receive_frame message).2.2]
  rfl

theorem credit_abort_le (os : OperatingSystem) (w : DownloadWorld) (reason : String) :
    (w.abort os reason).credit ≤ w.credit := by
  cases hf : w.isFinished with
  | true => rw [abort_of_finished os reason hf]
  | false =>
    rw [credit, credit, abort_reports, abort_toFileDownload os reason hf]
    exact Nat.add_le_add_left (Nat.zero_le _) _

theorem credit_abort_open {w : DownloadWorld} (hf : w.isFinished = false)
    (ho : w.outputFile = some path) (os : OperatingSystem) (reason : String) :
    (w.abort os reason).credit + 1 = w.credit := by
  rw [credit, credit, abort_reports, abort_toFileDownload os reason hf, ho]
  rfl

theorem credit_wrote (w : DownloadWorld) (path : String) (bytes : List UInt8) :
    (w.note (.wrote path bytes)).credit = w.credit := by
  rw [credit, credit, note_ledger, Ledger.step, Ledger.append]
  split <;> rfl

theorem credit_finishCurrentFile_le (os : OperatingSystem) (w : DownloadWorld) :
    (w.finishCurrentFile os).credit ≤ w.credit := by
  cases ho : w.outputFile with
  | none => rw [finishCurrentFile_of_closed os ho]
  | some path =>
    have hclosed := w.finishCurrentFile_closed os
    cases hc : w.isComplete with
    | true =>
      rw [credit, credit, hclosed, ho, (finishCurrentFile_of_complete os ho hc).2, Ledger.step,
        List.length_append]
      exact Nat.le_refl _
    | false =>
      have hreports : (w.finishCurrentFile os).ledger.reports = w.ledger.reports := by
        rcases (finishCurrentFile_of_short os ho hc).2 with hl | hl
        · rw [hl]
        · rw [hl]; rfl
      rw [credit, credit, hclosed, ho, hreports]
      exact Nat.le_succ _

theorem credit_handleFileHeader_le [MuscleText] (os : OperatingSystem) (w : DownloadWorld)
    (message : TransferMessage) : (w.handleFileHeader os message).credit ≤ w.credit + 1 := by
  have hfinish := w.credit_finishCurrentFile_le os
  have hclosed := w.finishCurrentFile_closed os
  rw [credit, hclosed] at hfinish
  rw [credit, handleFileHeader_reports]
  have hle := Bool.toNat_le (w.handleFileHeader os message).outputFile.isSome
  simp only [Option.isSome_none, Bool.toNat_false] at hfinish
  omega

theorem credit_handleFileHeader_refused [MuscleText] {os : OperatingSystem} {w : DownloadWorld}
    (hr : readFileHeader message = some header) (ho : w.openedBy os header message = none) :
    (w.handleFileHeader os message).credit ≤ w.credit := by
  rw [handleFileHeader_refused hr ho]
  exact (credit_abort_le ..).trans (w.credit_finishCurrentFile_le os)

theorem credit_handleFileData_le (os : OperatingSystem) (w : DownloadWorld)
    (message : TransferMessage) : (w.handleFileData os message).credit ≤ w.credit := by
  cases ho : w.outputFile with
  | none => rw [handleFileData_closed os w ho]
  | some path =>
    cases hd : message.findData fieldData with
    | none =>
      rw [handleFileData_ends os w ho hd]
      exact w.credit_finishCurrentFile_le os
    | some data =>
      cases hc : chunkBytes os message with
      | none =>
        rcases handleFileData_refused os ho hd hc with ⟨reason, h⟩ | ⟨bytes, reason, h⟩
        · rw [h]
          exact credit_abort_le ..
        · rw [h]
          exact (credit_abort_le ..).trans_eq (credit_wrote ..)
      | some bytes =>
        have hw : (w.wroteChunk os path bytes).credit = w.credit := by
          rw [← w.credit_wrote path bytes, credit, credit, wroteChunk_ledger, note_ledger]
          rfl
        rw [handleFileData_chunk ho hc]
        split
        · exact (credit_finishCurrentFile_le ..).trans_eq hw
        · exact hw.le

theorem credit_chunk_refused {os : OperatingSystem} {w : DownloadWorld}
    (hf : w.isFinished = false) (ho : w.outputFile = some path) (hc : IsChunk message bytes)
    (ht : (os.fwrite bytes).length ≠ bytes.length) :
    (w.handleFileData os message).credit + 1 = w.credit := by
  obtain ⟨-, data, hd, hs, hu⟩ := hc
  have hrefused : w.handleFileData os message =
      (w.note (.wrote path (os.fwrite bytes))).abort os "Could not write to disk" := by
    simp only [handleFileData, ho, hd, hs, hu, ↓reduceIte]
    exact writeChunk_refused ht
  rw [hrefused, credit_abort_open (w := w.note _) hf ho, credit_wrote]

theorem credit_messageReceived_le [MuscleText] (os : OperatingSystem) (w : DownloadWorld)
    (message : TransferMessage) : (w.messageReceived os message).credit ≤
      w.credit + (isHeaderEvent ⟨.messageReceived message, os⟩).toNat := by
  have hr := w.credit_received message
  rcases message_cases message with hw | hw | hw | hw
  · rw [messageReceived_header os w hw, ← hr]
    have hle := credit_handleFileHeader_le os (w.note (.received message)) message
    simpa [isHeaderEvent, isHeaderCallback, hw] using hle
  · rw [messageReceived_data os w hw, ← hr]
    exact (credit_handleFileData_le ..).trans (Nat.le_add_right ..)
  · rw [messageReceived_rejected os w hw, ← hr]
    exact (credit_abort_le ..).trans (Nat.le_add_right ..)
  · rw [credit_untouched (untouched_chatter os w hw)]
    exact Nat.le_add_right ..

theorem credit_sessionDisconnected_le (os : OperatingSystem) (w : DownloadWorld) :
    (w.sessionDisconnected os).credit ≤ w.credit := by
  apply sessionDisconnected_cases (P := fun w' => w'.credit ≤ w.credit)
  · exact le_rfl
  · exact credit_abort_le ..
  · intro hf ho
    obtain ⟨hl, hd⟩ := sessionDisconnected_closed os hf ho
    rw [credit, credit, hl, hd]

theorem credit_handle_le [MuscleText] (w : DownloadWorld) (e : DownloadEvent) :
    (w.handle e).credit ≤ w.credit + (isHeaderEvent e).toNat := by
  obtain ⟨callback, os⟩ := e
  cases callback with
  | messageReceived message => exact credit_messageReceived_le os w message
  | sessionConnected => exact (credit_untouched (untouched_requestFiles _ w)).le
  | sessionDisconnected => exact credit_sessionDisconnected_le os w
  | abort reason => exact credit_abort_le os w reason

theorem credit_handle_lt [MuscleText] {w : DownloadWorld} (hb : w.Booked)
    (h : ¬w.DiskTakes e) : (w.handle e).credit < w.credit + (isHeaderEvent e).toNat := by
  obtain ⟨callback, os⟩ := e
  cases callback with
  | messageReceived message =>
    have hr := w.credit_received message
    change (w.messageReceived os message).credit < _
    rw [DiskTakes, Classical.not_and_iff_not_or_not] at h
    rcases h with h | h
    · push Not at h
      obtain ⟨hw, header, hh, ho⟩ := h
      have hle : ((w.note (.received message)).handleFileHeader os message).credit ≤ _ :=
        credit_handleFileHeader_refused hh (Option.not_isSome_iff_eq_none.mp ho)
      rw [messageReceived_header os w hw]
      simp only [isHeaderEvent, isHeaderCallback, hw, decide_true, Bool.toNat_true]
      omega
    · push Not at h
      obtain ⟨hopen, bytes, hc, ht⟩ := h
      obtain ⟨path, ho⟩ := Option.ne_none_iff_exists'.mp hopen
      have hlt : ((w.note (.received message)).handleFileData os message).credit + 1 = _ :=
        credit_chunk_refused (w := w.note _) (hb.not_finished ho) ho hc ht
      rw [messageReceived_data os w hc.1]
      omega
  | _ => exact (h trivial).elim

/-- Over a run: one file for each header at most, and one less if the disk ever refused. -/
theorem credit_run [MuscleText] {w : DownloadWorld} (hb : w.Booked) (es : List DownloadEvent) :
    (machine.run w es).credit ≤ w.credit + es.countP isHeaderEvent ∧
      (¬machine.EveryStep DiskTakes w es →
        (machine.run w es).credit < w.credit + es.countP isHeaderEvent) := by
  induction es generalizing w with
  | nil => exact ⟨Nat.le_refl _, fun h => (h trivial).elim⟩
  | cons e es ih =>
    obtain ⟨hle, hlt⟩ := ih (hb.handle e)
    have hcount : (e :: es).countP isHeaderEvent =
        es.countP isHeaderEvent + (isHeaderEvent e).toNat := by
      rw [List.countP_cons]
      cases isHeaderEvent e <;> rfl
    have hstep := w.credit_handle_le e
    have hrun : machine.run w (e :: es) = machine.run (w.handle e) es := rfl
    rw [hcount, hrun]
    refine ⟨by omega, fun h => ?_⟩
    by_cases ht : w.DiskTakes e
    · have hrest := hlt fun hes => h ⟨ht, hes⟩
      omega
    · have hdrop := credit_handle_lt hb ht
      omega

end DownloadWorld

end HiTuxShare
