import HiTuxShare.DownloadBookkeeping
import Mathlib.Algebra.Ring.Int.Defs

namespace HiTuxShare
set_option autoImplicit true

/-- A signed result outside of this range has no defined value. -/
def FitsInt64 (n : Int) : Prop := -2 ^ 63 ≤ n ∧ n < 2 ^ 63

namespace FileDownload

/-- The length of the bar of a download, as the table asks for it. -/
def progress (download : FileDownload) : Int :=
  if download.state = .finished then 100
  else if download.totalBytesExpected ≤ 0 then 0
  else max 0 (min ((download.totalBytesDone * 100).tdiv download.totalBytesExpected) 100)

/-- What is computed on the way to it. -/
def progressValues (download : FileDownload) : List Int :=
  if download.state = .finished then []
  else if download.totalBytesExpected ≤ 0 then []
  else [download.totalBytesDone * 100,
    (download.totalBytesDone * 100).tdiv download.totalBytesExpected]

end FileDownload

/-- The sum of the sizes that say something. -/
def positiveSum (files : List RequestedFile) : Int :=
  (files.map fun requested => max requested.expectedSize 0).sum

/-- Neither the bytes that are expected nor those that have come differ. -/
structure SameTotals (download other : FileDownload) : Prop where
  expected : other.totalBytesExpected = download.totalBytesExpected
  done : other.totalBytesDone = download.totalBytesDone

theorem SameTotals.refl (download : FileDownload) : SameTotals download download := ⟨rfl, rfl⟩

theorem SameTotals.trans (h : SameTotals d d') (h' : SameTotals d' d'') : SameTotals d d'' :=
  ⟨h'.expected.trans h.expected, h'.done.trans h.done⟩

theorem progress_range (download : FileDownload) :
    0 ≤ download.progress ∧ download.progress ≤ 100 := by
  rw [FileDownload.progress]
  split
  · decide
  · split
    · decide
    · omega

theorem positiveSum_append (files later : List RequestedFile) :
    positiveSum (files ++ later) = positiveSum files + positiveSum later := by
  rw [positiveSum, List.map_append, List.sum_append]
  rfl

theorem positiveSum_nonneg (files : List RequestedFile) : 0 ≤ positiveSum files := by
  apply List.sum_nonneg
  intro size hm
  obtain ⟨requested, -, rfl⟩ := List.mem_map.mp hm
  exact le_max_right ..

theorem newDownload_totals (request : DownloadRequest) :
    request.newDownload.totalBytesExpected = positiveSum request.requestedFiles ∧
      request.newDownload.totalBytesDone = 0 := by
  have hfold (files : List RequestedFile) (download : FileDownload) :
      (files.foldl FileDownload.addRequestedFile download).totalBytesExpected =
          download.totalBytesExpected + positiveSum files ∧
        (files.foldl FileDownload.addRequestedFile download).totalBytesDone =
          download.totalBytesDone := by
    induction files generalizing download with
    | nil => exact ⟨(Int.add_zero _).symm, rfl⟩
    | cons requested files ih =>
      obtain ⟨hexpected, hdone⟩ := ih (download.addRequestedFile requested)
      rw [List.foldl_cons, hexpected, hdone, FileDownload.addRequestedFile, positiveSum,
        positiveSum, List.map_cons, List.sum_cons]
      refine ⟨?_, rfl⟩
      dsimp only
      split <;> omega
  obtain ⟨hexpected, hdone⟩ := hfold request.requestedFiles _
  exact ⟨hexpected.trans (Int.zero_add _), hdone⟩

namespace DownloadWorld

/-- How many bytes an event brings to the disk. -/
def broughtBytes (w : DownloadWorld) (e : DownloadEvent) : Nat :=
  match e.callback with
  | .messageReceived message =>
    if message.what = .fileData ∧ w.outputFile.isSome then
      ((chunkBytes e.os message).map List.length).getD 0
    else 0
  | _ => 0

/-- How many bytes a run of events brings. -/
def streamLength [MuscleText] (w : DownloadWorld) : List DownloadEvent → Nat
  | [] => 0
  | e :: es => w.broughtBytes e + (w.handle e).streamLength es

theorem setState_sameTotals (w : DownloadWorld) (state : DownloadState) :
    SameTotals w.toFileDownload (w.setState state).toFileDownload := by
  rw [setState_toFileDownload]
  exact ⟨rfl, rfl⟩

theorem fail_sameTotals (w : DownloadWorld) (reason : String) :
    SameTotals w.toFileDownload (w.fail reason).toFileDownload := by
  have hset : SameTotals { w with errorText := reason }.toFileDownload
      (w.fail reason).toFileDownload := setState_sameTotals ..
  exact ⟨hset.expected, hset.done⟩

theorem abort_sameTotals (os : OperatingSystem) (w : DownloadWorld) (reason : String) :
    SameTotals w.toFileDownload (w.abort os reason).toFileDownload := by
  cases hf : w.isFinished with
  | true => rw [abort_of_finished os reason hf]; exact .refl _
  | false => rw [abort_toFileDownload os reason hf]; exact ⟨rfl, rfl⟩

theorem finishCurrentFile_sameTotals (os : OperatingSystem) (w : DownloadWorld) :
    SameTotals w.toFileDownload (w.finishCurrentFile os).toFileDownload ∧
      (w.finishCurrentFile os).state = w.state := by
  cases ho : w.outputFile with
  | none => rw [finishCurrentFile_of_closed os ho]; exact ⟨.refl _, rfl⟩
  | some path =>
    cases hc : w.isComplete with
    | true => rw [(finishCurrentFile_of_complete os ho hc).1]; exact ⟨⟨rfl, rfl⟩, rfl⟩
    | false => rw [(finishCurrentFile_of_short os ho hc).1]; exact ⟨⟨rfl, rfl⟩, rfl⟩

theorem handleFileHeader_sameTotals [MuscleText] (os : OperatingSystem) (w : DownloadWorld)
    (message : TransferMessage) :
    SameTotals w.toFileDownload (w.handleFileHeader os message).toFileDownload := by
  have hfinish := (w.finishCurrentFile_sameTotals os).1
  cases hr : readFileHeader message with
  | none =>
    rw [handleFileHeader_malformed os w hr]
    exact hfinish.trans (abort_sameTotals ..)
  | some header =>
    have hannounce : SameTotals w.toFileDownload
        ((w.finishCurrentFile os).announce header message).toFileDownload :=
      hfinish.trans ⟨rfl, rfl⟩
    cases ho : w.openedBy os header message with
    | none =>
      rw [handleFileHeader_refused hr ho]
      exact hannounce.trans (abort_sameTotals ..)
    | some path =>
      rw [(handleFileHeader_opened hr ho).1]
      exact ⟨hannounce.expected, hannounce.done⟩

theorem connect_sameTotals (os : OperatingSystem) (w : DownloadWorld) (hostName : String)
    (port : Nat) : SameTotals w.toFileDownload (w.connect os hostName port).1.toFileDownload := by
  have hthread : SameTotals w.toFileDownload
      (w.note .threadStarted).setRatePolicy.toFileDownload := by
    rw [setRatePolicy]
    split <;> exact ⟨rfl, rfl⟩
  rw [connect]
  split
  · exact fail_sameTotals w _
  · dsimp only
    split
    · exact hthread.trans (fail_sameTotals (note _ .threadShutDown) _)
    · exact hthread.trans (setState_sameTotals (note _ (.connectSessionAdded hostName port)) _)

theorem start_sameTotals (os : OperatingSystem) (w : DownloadWorld) (hostName : String)
    (port : Nat) (remoteSessionId localSessionId localUserName : String) :
    SameTotals w.toFileDownload
      (w.start os hostName port remoteSessionId localSessionId localUserName).1.toFileDownload := by
  rw [start]
  split
  · exact .refl _
  · split
    · exact fail_sameTotals w _
    · have hseeded : SameTotals w.toFileDownload
          { w with remoteSessionId, localSessionId, localUserName }.toFileDownload := ⟨rfl, rfl⟩
      exact hseeded.trans (connect_sameTotals ..)

/-- So many bytes have come, which only a download that goes on can take. -/
structure Brings (w w' : DownloadWorld) (byteCount : Nat) : Prop where
  expected : w'.totalBytesExpected = w.totalBytesExpected
  done : w'.totalBytesDone = w.totalBytesDone + byteCount
  goesOn : byteCount ≠ 0 → w'.isFinished = false

theorem Brings.of_same {w w' : DownloadWorld}
    (h : SameTotals w.toFileDownload w'.toFileDownload) : Brings w w' 0 :=
  ⟨h.expected, h.done.trans (Int.add_zero _).symm, fun hne => absurd rfl hne⟩

theorem handleFileData_brings {w : DownloadWorld} (hbooks : w.isFinished = true →
    w.outputFile = none) (os : OperatingSystem) (message : TransferMessage) :
    Brings w (w.handleFileData os message) (if w.outputFile.isSome then
      ((chunkBytes os message).map List.length).getD 0 else 0) := by
  cases ho : w.outputFile with
  | none =>
    rw [handleFileData_closed os w ho]
    exact .of_same (.refl _)
  | some path =>
    have hrunning : w.isFinished = false := by
      apply Bool.eq_false_iff.mpr
      intro hf
      cases ho.symm.trans (hbooks hf)
    cases hc : chunkBytes os message with
    | some bytes =>
      rw [handleFileData_chunk ho hc]
      have hwrote : Brings w (w.wroteChunk os path bytes) bytes.length :=
        ⟨rfl, rfl, fun _ => hrunning⟩
      have hfinish := (w.wroteChunk os path bytes).finishCurrentFile_sameTotals os
      simp only [Option.isSome_some, if_true, Option.map_some, Option.getD_some]
      split
      · refine ⟨hfinish.1.expected.trans hwrote.expected, hfinish.1.done.trans hwrote.done, ?_⟩
        intro _
        rw [FileDownload.isFinished, hfinish.2]
        exact hrunning
      · exact hwrote
    | none =>
      have hnone : Brings w (w.handleFileData os message) 0 := by
        cases hd : message.findData fieldData with
        | none =>
          rw [handleFileData_ends os w ho hd]
          exact .of_same (w.finishCurrentFile_sameTotals os).1
        | some data =>
          rcases handleFileData_refused os ho hd hc with ⟨reason, h⟩ | ⟨bytes, reason, h⟩
          · rw [h]
            exact .of_same (abort_sameTotals ..)
          · rw [h]
            exact .of_same (abort_sameTotals os (w.note (.wrote path bytes)) reason)
      simpa using hnone

variable [MuscleText]

theorem messageReceived_sameTotals (os : OperatingSystem) (w : DownloadWorld)
    (h : message.what ≠ .fileData) :
    SameTotals w.toFileDownload (w.messageReceived os message).toFileDownload := by
  have hnote : SameTotals w.toFileDownload (w.note (.received message)).toFileDownload := .refl _
  simp only [messageReceived]
  split
  · exact hnote.trans (handleFileHeader_sameTotals ..)
  · next hd => exact absurd hd h
  · rw [peerIdentified]
    split
    · split
      · exact ⟨rfl, rfl⟩
      · exact hnote
    · exact hnote
  · exact hnote.trans (setState_sameTotals ..)
  · exact hnote.trans (abort_sameTotals ..)
  · exact hnote

theorem handle_brings {w : DownloadWorld} (hbooks : w.isFinished = true → w.outputFile = none)
    (e : DownloadEvent) : Brings w (w.handle e) (w.broughtBytes e) := by
  obtain ⟨callback, os⟩ := e
  cases callback with
  | sessionConnected => exact .of_same (setState_sameTotals w .requesting)
  | sessionDisconnected =>
    apply Brings.of_same
    apply sessionDisconnected_cases
      (P := fun w' => SameTotals w.toFileDownload w'.toFileDownload)
    · exact .refl _
    · exact abort_sameTotals ..
    · intro hf ho
      rw [(sessionDisconnected_closed os hf ho).2]
      exact ⟨rfl, rfl⟩
  | messageReceived message =>
    change Brings w (w.messageReceived os message)
      (if message.what = .fileData ∧ w.outputFile.isSome then
        ((chunkBytes os message).map List.length).getD 0 else 0)
    by_cases hd : message.what = .fileData
    · rw [messageReceived_data os w hd]
      have hreceived := handleFileData_brings (w := w.note (.received message)) hbooks os message
      simp only [hd, true_and]
      exact ⟨hreceived.expected, hreceived.done, hreceived.goesOn⟩
    · rw [if_neg fun h => hd h.1]
      exact .of_same (messageReceived_sameTotals os w hd)
  | abort reason => exact .of_same (abort_sameTotals os w reason)

omit [MuscleText] in
theorem handleFileData_state {w : DownloadWorld} (hbooks : w.isFinished = true →
    w.outputFile = none) (os : OperatingSystem) (message : TransferMessage) :
    (w.handleFileData os message).state = .finished ↔ w.state = .finished := by
  have habort {w : DownloadWorld} (reason : String) (h : w.state ≠ .finished) :
      (w.abort os reason).state ≠ .finished := by
    cases hf : w.isFinished with
    | true => rwa [abort_of_finished os reason hf]
    | false =>
      rw [abort_toFileDownload os reason hf]
      exact (by decide : DownloadState.failed ≠ .finished)
  cases ho : w.outputFile with
  | none => rw [handleFileData_closed os w ho]
  | some path =>
    have hrunning : w.state ≠ .finished := by
      intro hs
      have hf : w.isFinished = true := by
        rw [FileDownload.isFinished, hs]
        decide
      cases ho.symm.trans (hbooks hf)
    refine iff_of_false ?_ hrunning
    cases hc : chunkBytes os message with
    | some bytes =>
      rw [handleFileData_chunk ho hc]
      split
      · rw [((w.wroteChunk os path bytes).finishCurrentFile_sameTotals os).2]
        exact hrunning
      · exact hrunning
    | none =>
      cases hd : message.findData fieldData with
      | none =>
        rw [handleFileData_ends os w ho hd, (w.finishCurrentFile_sameTotals os).2]
        exact hrunning
      | some data =>
        rcases handleFileData_refused os ho hd hc with ⟨reason, h⟩ | ⟨bytes, reason, h⟩
        · rw [h]
          exact habort reason hrunning
        · rw [h]
          exact habort (w := w.note (.wrote path bytes)) reason hrunning

omit [MuscleText] in
theorem progress_le {w w' : DownloadWorld} (h : Brings w w' byteCount)
    (hstate : w'.state = .finished ↔ w.state = .finished) (hdone : 0 ≤ w.totalBytesDone) :
    w.progress ≤ w'.progress := by
  simp only [FileDownload.progress, hstate, h.expected, h.done]
  split
  · exact le_rfl
  · split
    · exact le_rfl
    · next hexpected =>
      have hmore : w.totalBytesDone * 100 ≤ (w.totalBytesDone + byteCount) * 100 := by omega
      have hquotient : (w.totalBytesDone * 100).tdiv w.totalBytesExpected ≤
          ((w.totalBytesDone + byteCount) * 100).tdiv w.totalBytesExpected := by
        rw [Int.tdiv_eq_ediv_of_nonneg (by omega), Int.tdiv_eq_ediv_of_nonneg (by omega)]
        exact Int.ediv_le_ediv (by omega) hmore
      omega

/-- What holds of a download in any run. -/
structure InOrder (total : Int) (w : DownloadWorld) : Prop where
  booked : w.Booked
  expected : w.totalBytesExpected = total
  done : 0 ≤ w.totalBytesDone

theorem InOrder.handle {w : DownloadWorld} (h : InOrder total w) (e : DownloadEvent) :
    InOrder total (w.handle e) := by
  have hbrings := handle_brings h.booked.finishedClosed e
  refine ⟨h.booked.handle e, hbrings.expected.trans h.expected, ?_⟩
  rw [hbrings.done]
  exact Int.add_nonneg h.done (Int.natCast_nonneg _)

theorem inOrder_started (request : DownloadRequest) (os : OperatingSystem) :
    InOrder (positiveSum request.requestedFiles) (request.started os) ∧
      (request.started os).totalBytesDone = 0 := by
  obtain ⟨hexpected, hdone⟩ := newDownload_totals request
  have hsame := start_sameTotals os { request.newDownload with history := [] } request.hostName
    request.port request.remoteSessionId request.localSessionId request.localUserName
  have hnone : (request.started os).totalBytesDone = 0 := hsame.done.trans hdone
  exact ⟨⟨started_booked request os, hsame.expected.trans hexpected, hnone.ge⟩, hnone⟩

/-- The values that are computed in a state. -/
def Fits (w : DownloadWorld) : Prop :=
  FitsInt64 w.totalBytesDone ∧ ∀ value ∈ w.progressValues, FitsInt64 value

/-- So many bytes can be counted, and, where something is expected, a percentage taken of them. -/
def Within (total done : Int) : Prop := done < 2 ^ 63 ∧ (0 < total → done * 100 < 2 ^ 63)

omit [MuscleText] in
theorem Within.mono (h : Within total more) (hle : done ≤ more) : Within total done := by
  refine ⟨by have := h.1; omega, fun ht => ?_⟩
  have hmore := h.2 ht
  omega

theorem fits_of_within {w : DownloadWorld} (h : InOrder total w)
    (hwithin : Within total w.totalBytesDone) : Fits w := by
  have hdone := h.done
  have hsmall := hwithin.1
  refine ⟨⟨by omega, hsmall⟩, ?_⟩
  rw [FileDownload.progressValues]
  split
  · exact List.forall_mem_nil _
  · split
    · exact List.forall_mem_nil _
    · next hexpected =>
      have hproduct := hwithin.2 (h.expected ▸ not_le.mp hexpected)
      have hle := Int.tdiv_le_self w.totalBytesExpected (show 0 ≤ w.totalBytesDone * 100 by omega)
      have hnonneg := Int.tdiv_nonneg (show 0 ≤ w.totalBytesDone * 100 by omega)
        (not_le.mp hexpected).le
      simp only [List.forall_mem_cons]
      exact ⟨⟨by omega, hproduct⟩, ⟨by omega, by omega⟩, List.forall_mem_nil _⟩

theorem within_of_fits {w : DownloadWorld} (h : InOrder total w) (hfits : Fits w)
    (hrunning : w.isFinished = false) : Within total w.totalBytesDone := by
  refine ⟨hfits.1.2, fun ht => (hfits.2 _ ?_).2⟩
  have hstate : w.state ≠ .finished := by
    intro hs
    rw [FileDownload.isFinished, hs] at hrunning
    exact absurd hrunning (by decide)
  have hexpected : ¬w.totalBytesExpected ≤ 0 := not_le.mpr (h.expected ▸ ht)
  rw [FileDownload.progressValues, if_neg hstate, if_neg hexpected]
  exact List.mem_cons_self

/-- A run stays inside the range exactly if all that it brings can be counted. -/
theorem everyState_fits_iff {w : DownloadWorld} (h : InOrder total w)
    (hwithin : Within total w.totalBytesDone) (es : List DownloadEvent) :
    machine.EveryState Fits w es ↔ Within total (w.totalBytesDone + w.streamLength es) := by
  induction es generalizing w with
  | nil =>
    have hsame : w.totalBytesDone + (w.streamLength [] : Nat) = w.totalBytesDone :=
      Int.add_zero _
    rw [hsame]
    exact iff_of_true (fits_of_within h hwithin) hwithin
  | cons e es ih =>
    have hbrings := handle_brings h.booked.finishedClosed e
    have hstream : w.totalBytesDone + w.streamLength (e :: es) =
        (w.handle e).totalBytesDone + (w.handle e).streamLength es := by
      rw [hbrings.done, streamLength]
      omega
    rw [hstream]
    by_cases hnext : Within total (w.handle e).totalBytesDone
    · rw [← ih (h.handle e) hnext]
      exact and_iff_right (fits_of_within h hwithin)
    · refine iff_of_false (fun hall => hnext ?_) fun hlater => hnext (hlater.mono (by omega))
      have hfits : Fits (w.handle e) := hall.2.head
      by_cases hnone : w.broughtBytes e = 0
      · rw [hbrings.done, hnone]
        exact (Int.add_zero w.totalBytesDone).symm ▸ hwithin
      · exact within_of_fits (h.handle e) hfits (hbrings.goesOn hnone)

end DownloadWorld

open DownloadWorld

section
variable [MuscleText]

/-- What is expected and shown of a download over a run. -/
structure TransfersFit (request : DownloadRequest) (os : OperatingSystem)
    (es : List DownloadEvent) : Prop where
  total : request.newDownload.totalBytesExpected = positiveSum request.requestedFiles
  /-- Every sum on the way to the total. -/
  sums : ∀ files later, request.requestedFiles = files ++ later →
    FitsInt64 { request with requestedFiles := files }.newDownload.totalBytesExpected
  values : machine.EveryState (fun w => FitsInt64 w.totalBytesDone ∧
    ∀ value ∈ w.progressValues, FitsInt64 value) (request.started os) es
  percentage : machine.EveryState (fun w => 0 ≤ w.progress ∧ w.progress ≤ 100)
    (request.started os) es
  /-- As bytes arrive. -/
  rises : machine.EveryStep (fun w e => ∀ message, e.callback = .messageReceived message →
    message.what = .fileData → w.progress ≤ (w.handle e).progress) (request.started os) es

theorem rises_of_inOrder {w : DownloadWorld} (h : InOrder total w) {e : DownloadEvent}
    (message : TransferMessage) (he : e.callback = .messageReceived message)
    (hdata : message.what = .fileData) : w.progress ≤ (w.handle e).progress := by
  obtain ⟨callback, os⟩ := e
  cases he
  have hbrings := handle_brings h.booked.finishedClosed ⟨.messageReceived message, os⟩
  apply progress_le hbrings _ h.done
  change (w.messageReceived os message).state = .finished ↔ _
  rw [messageReceived_data os w hdata]
  exact handleFileData_state (w := w.note (.received message)) h.booked.finishedClosed os message

/-- Nothing overflows exactly if the sizes add up to a number of 64 bits, no more bytes come than
such a number can count, and, where a percentage is taken of them, a hundredth of that. -/
theorem transfersFit_iff (request : DownloadRequest) (os : OperatingSystem)
    (es : List DownloadEvent) : TransfersFit request os es ↔
      positiveSum request.requestedFiles < 2 ^ 63 ∧
        ((request.started os).streamLength es : Int) < 2 ^ 63 ∧
        (0 < positiveSum request.requestedFiles →
          ((request.started os).streamLength es : Int) * 100 < 2 ^ 63) := by
  obtain ⟨horder, hzero⟩ := inOrder_started request os
  have hstart : Within (positiveSum request.requestedFiles)
      (request.started os).totalBytesDone := by
    rw [hzero]
    exact ⟨by decide, fun _ => by decide⟩
  have hvalues := everyState_fits_iff horder hstart es
  rw [hzero, Int.zero_add] at hvalues
  have hsums (files : List RequestedFile) :
      { request with requestedFiles := files }.newDownload.totalBytesExpected =
        positiveSum files := (newDownload_totals _).1
  constructor
  · intro h
    have hall := h.sums request.requestedFiles [] (List.append_nil _).symm
    rw [hsums] at hall
    exact ⟨hall.2, hvalues.mp h.values⟩
  · rintro ⟨hsum, hstream⟩
    refine ⟨(newDownload_totals request).1, ?_, hvalues.mpr hstream, ?_, ?_⟩
    · intro files later hsplit
      rw [hsplit, positiveSum_append] at hsum
      rw [hsums]
      have hfiles := positiveSum_nonneg files
      have hlater := positiveSum_nonneg later
      exact ⟨by omega, by omega⟩
    · apply EventMachine.everyState_of_preserved
      · exact fun w e _ => progress_range _
      · exact progress_range _
    · exact EventMachine.everyStep_of_invariant
        (J := InOrder (positiveSum request.requestedFiles)) (fun w e h => h.handle e)
        (fun w e h => rises_of_inOrder h) horder es

end

section
attribute [local instance] asciiText

/-- Two files of 2 ^ 62 bytes each. -/
def hugeRequest : DownloadRequest where
  downloadDirectory := "/downloads"
  requestedFiles := [⟨"one", "", 2 ^ 62⟩, ⟨"two", "", 2 ^ 62⟩]
  hostName := "peer"
  port := 7000

theorem huge_sizes_overflow : ¬TransfersFit hugeRequest {} [] := by
  intro h
  have hall := (h.sums hugeRequest.requestedFiles [] rfl).2
  exact absurd hall (by decide)

end

end HiTuxShare
