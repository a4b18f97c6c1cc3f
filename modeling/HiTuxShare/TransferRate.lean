import HiTuxShare.DownloadSizes
import Mathlib.Algebra.GroupWithZero.Nat

namespace HiTuxShare
set_option autoImplicit true

/-- A division of the source, which has no value where it divides by zero. -/
def checkedDivide (dividend divisor : UInt64) : Option UInt64 :=
  if divisor = 0 then none else some (dividend / divisor)

namespace FileDownload

/-- The loop over the samples, in the arithmetic of its type. -/
def sampledBytes (download : FileDownload) : UInt64 :=
  download.transferSamples.foldl (fun total sample => total + UInt64.ofNat sample.byteCount) 0

/-- How long ago the oldest sample was taken when the clock shows `now`. -/
def elapsed (now : UInt64) (download : FileDownload) : UInt64 :=
  let oldest := (download.transferSamples.head?.map TransferSample.when).getD 0
  if oldest < now then now - oldest else 0

def getBytesPerSecond (now : UInt64) (download : FileDownload) : Option Int64 :=
  if download.transferSamples.length < 2 then some 0
  else if download.elapsed now = 0 then some 0
  else
    (checkedDivide (download.sampledBytes * 1000000) (download.elapsed now)).map UInt64.toInt64

/-- What the window adds up to. -/
def windowBytes (download : FileDownload) : Nat :=
  (download.transferSamples.map TransferSample.byteCount).sum

/-- The sum and the product are the exact ones, and a rate comes out. -/
structure RateSafe (download : FileDownload) (now : UInt64) : Prop where
  sum : download.sampledBytes.toNat = download.windowBytes
  product : (download.sampledBytes * 1000000).toNat = download.windowBytes * 1000000
  rate : ∃ rate, download.getBytesPerSecond now = some rate ∧ 0 ≤ rate

/-- A window as the loop leaves it, of chunks whose sizes are numbers of 32 bits. -/
structure Windowed (download : FileDownload) : Prop where
  short : download.transferSamples.length ≤ maximumTransferSamples
  sizes : ∀ sample ∈ download.transferSamples, sample.byteCount < 2 ^ 32

theorem windowBytes_le {samples : List TransferSample}
    (h : ∀ sample ∈ samples, sample.byteCount < 2 ^ 32) :
    (samples.map TransferSample.byteCount).sum ≤ samples.length * (2 ^ 32 - 1) := by
  induction samples with
  | nil => exact Nat.le_refl 0
  | cons sample samples ih =>
    have hfirst := h sample List.mem_cons_self
    have hrest := ih fun s hm => h s (List.mem_cons_of_mem sample hm)
    rw [List.map_cons, List.sum_cons, List.length_cons, Nat.add_mul]
    omega

theorem toNat_foldl_sum (samples : List TransferSample) (total : UInt64)
    (h : total.toNat + (samples.map TransferSample.byteCount).sum < 2 ^ 64) :
    (samples.foldl (fun total sample => total + UInt64.ofNat sample.byteCount) total).toNat =
      total.toNat + (samples.map TransferSample.byteCount).sum := by
  induction samples generalizing total with
  | nil => rfl
  | cons sample samples ih =>
    rw [List.map_cons, List.sum_cons] at h ⊢
    have hnext : (total + UInt64.ofNat sample.byteCount).toNat =
        total.toNat + sample.byteCount := by
      rw [UInt64.toNat_add, UInt64.toNat_ofNat_of_lt' (by rw [UInt64.size]; omega)]
      omega
    rw [List.foldl_cons, ih _ (by rw [hnext]; omega), hnext, Nat.add_assoc]

theorem toInt64_nonneg {n : UInt64} (h : n.toNat < 2 ^ 63) : 0 ≤ n.toInt64 := by
  rw [Int64.le_iff_toInt_le]
  change 0 ≤ n.toBitVec.toInt
  rw [BitVec.toInt_eq_toNat_of_lt (by change 2 * n.toNat < 2 ^ 64; omega)]
  exact Int.natCast_nonneg _

theorem Windowed.rateSafe (h : Windowed download) (now : UInt64) : RateSafe download now := by
  have hbound : download.windowBytes ≤ 32 * (2 ^ 32 - 1) :=
    (windowBytes_le h.sizes).trans (Nat.mul_le_mul_right _ h.short)
  have hsum : download.sampledBytes.toNat = download.windowBytes := by
    have hloop := toNat_foldl_sum download.transferSamples 0 (by
      rw [windowBytes] at hbound
      rw [UInt64.toNat_zero]
      omega)
    rwa [UInt64.toNat_zero, Nat.zero_add] at hloop
  have hproduct : (download.sampledBytes * 1000000).toNat = download.windowBytes * 1000000 := by
    rw [UInt64.toNat_mul, hsum]
    exact Nat.mod_eq_of_lt (by change download.windowBytes * 1000000 < 2 ^ 64; omega)
  refine ⟨hsum, hproduct, ?_⟩
  rw [getBytesPerSecond]
  split
  · exact ⟨0, rfl, by decide⟩
  · split
    · exact ⟨0, rfl, by decide⟩
    · next helapsed =>
      rw [checkedDivide, if_neg helapsed]
      refine ⟨_, rfl, toInt64_nonneg ?_⟩
      rw [UInt64.toNat_div, hproduct]
      exact Nat.lt_of_le_of_lt (Nat.div_le_self ..) (by omega)

end FileDownload

/-- The loop only takes from the front, and stops before the last sample. -/
theorem dropOldSamples_spec (getRunTime64 : Nat → UInt64) (reading : Nat)
    {samples : List TransferSample} (h : samples ≠ []) :
    dropOldSamples getRunTime64 reading samples ⊆ samples ∧
      1 ≤ (dropOldSamples getRunTime64 reading samples).length ∧
      (dropOldSamples getRunTime64 reading samples).length ≤ maximumTransferSamples := by
  induction samples generalizing reading with
  | nil => exact absurd rfl h
  | cons sample samples ih =>
    have hdrop (reading : Nat) (hmore : 1 < samples.length + 1) :
        dropOldSamples getRunTime64 reading samples ⊆ sample :: samples ∧
          1 ≤ (dropOldSamples getRunTime64 reading samples).length ∧
          (dropOldSamples getRunTime64 reading samples).length ≤ maximumTransferSamples := by
      obtain ⟨hsub, hbounds⟩ := ih reading (List.length_pos_iff.mp (by omega))
      exact ⟨List.subset_cons_of_subset sample hsub, hbounds⟩
    rw [dropOldSamples]
    split
    · next hmany =>
      exact hdrop reading (by rw [maximumTransferSamples] at hmany; omega)
    · next hfew =>
      split
      · next hold => exact hdrop (reading + 1) hold.1
      · exact ⟨List.Subset.refl _, Nat.le_add_left .., Nat.le_of_not_lt hfew⟩

/-- The number of bytes of a chunk is one of 32 bits. -/
def DownloadEvent.SizesFit (e : DownloadEvent) : Prop :=
  ∀ message data, e.callback = .messageReceived message →
    message.findData fieldData = some data → data.length < 2 ^ 32

namespace DownloadWorld

/-- The chunk an event brings to the disk. -/
def broughtChunk (w : DownloadWorld) (e : DownloadEvent) : Option (List UInt8) :=
  match e.callback with
  | .messageReceived message =>
    if message.what = .fileData ∧ w.outputFile.isSome then chunkBytes e.os message else none
  | _ => none

theorem abort_transferSamples (os : OperatingSystem) (w : DownloadWorld) (reason : String) :
    (w.abort os reason).transferSamples = w.transferSamples := by
  cases hf : w.isFinished with
  | true => rw [abort_of_finished os reason hf]
  | false => rw [abort_toFileDownload os reason hf]

theorem finishCurrentFile_transferSamples (os : OperatingSystem) (w : DownloadWorld) :
    (w.finishCurrentFile os).transferSamples = w.transferSamples :=
  finishCurrentFile_field FileDownload.transferSamples os w fun _ _ => rfl

theorem setState_transferSamples (w : DownloadWorld) (state : DownloadState) :
    (w.setState state).transferSamples = w.transferSamples := by
  rw [setState_toFileDownload]

theorem handleFileHeader_transferSamples [MuscleText] (os : OperatingSystem) (w : DownloadWorld)
    (message : TransferMessage) :
    (w.handleFileHeader os message).transferSamples = w.transferSamples := by
  have hfinish := finishCurrentFile_transferSamples os w
  cases hr : readFileHeader message with
  | none =>
    rw [handleFileHeader_malformed os w hr]
    exact (abort_transferSamples ..).trans hfinish
  | some header =>
    cases ho : w.openedBy os header message with
    | none =>
      rw [handleFileHeader_refused hr ho]
      exact (abort_transferSamples ..).trans hfinish
    | some path =>
      rw [(handleFileHeader_opened hr ho).1]
      exact hfinish

theorem handleFileData_transferSamples (os : OperatingSystem) (w : DownloadWorld)
    (message : TransferMessage) : (w.handleFileData os message).transferSamples =
      match if w.outputFile.isSome then chunkBytes os message else none with
      | some bytes => dropOldSamples os.getRunTime64 1
          (w.transferSamples ++ [⟨os.getRunTime64 0, bytes.length⟩])
      | none => w.transferSamples := by
  cases ho : w.outputFile with
  | none => rw [handleFileData_closed os w ho]; rfl
  | some path =>
    rw [Option.isSome_some, if_pos rfl]
    cases hc : chunkBytes os message with
    | some bytes =>
      rw [handleFileData_chunk ho hc]
      split
      · rw [finishCurrentFile_transferSamples]
        rfl
      · rfl
    | none =>
      cases hd : message.findData fieldData with
      | none =>
        rw [handleFileData_ends os w ho hd]
        exact finishCurrentFile_transferSamples os w
      | some data =>
        rcases handleFileData_refused os ho hd hc with ⟨reason, h⟩ | ⟨bytes, reason, h⟩
        · rw [h]
          exact abort_transferSamples ..
        · rw [h]
          exact abort_transferSamples os (w.note (.wrote path bytes)) reason

theorem length_chunkBytes (h : chunkBytes os message = some bytes)
    (hd : message.findData fieldData = some data) : bytes.length = data.length := by
  simp only [chunkBytes, hd] at h
  split at h
  · have hu := (Option.filter_eq_some_iff.mp h).1
    simp only [unmunge] at hu
    split at hu
    · cases hu
      exact List.length_map _
    · split at hu
      · cases hu
        rfl
      · cases hu
  · cases h

variable [MuscleText]

theorem messageReceived_transferSamples (os : OperatingSystem) (w : DownloadWorld)
    (h : message.what ≠ .fileData) :
    (w.messageReceived os message).transferSamples = w.transferSamples := by
  simp only [messageReceived]
  split
  · exact handleFileHeader_transferSamples os (w.note (.received message)) message
  · next hd => exact absurd hd h
  · rw [peerIdentified]
    split
    · split <;> rfl
    · rfl
  · exact setState_transferSamples (w.note (.received message)) _
  · exact abort_transferSamples os (w.note (.received message)) _
  · rfl

theorem handle_transferSamples (w : DownloadWorld) (e : DownloadEvent) :
    (w.handle e).transferSamples = match w.broughtChunk e with
      | some bytes => dropOldSamples e.os.getRunTime64 1
          (w.transferSamples ++ [⟨e.os.getRunTime64 0, bytes.length⟩])
      | none => w.transferSamples := by
  obtain ⟨callback, os⟩ := e
  cases callback with
  | sessionConnected => exact setState_transferSamples w .requesting
  | sessionDisconnected =>
    apply sessionDisconnected_cases
      (P := fun w' => w'.transferSamples = w.transferSamples)
    · rfl
    · exact abort_transferSamples ..
    · intro hf ho
      rw [(sessionDisconnected_closed os hf ho).2]
  | messageReceived message =>
    change (w.messageReceived os message).transferSamples =
      match if message.what = .fileData ∧ w.outputFile.isSome then chunkBytes os message
        else none with
      | some bytes => _
      | none => _
    by_cases hd : message.what = .fileData
    · rw [messageReceived_data os w hd]
      simp only [hd, true_and]
      exact handleFileData_transferSamples os (w.note (.received message)) message
    · rw [if_neg fun h => hd h.1]
      exact messageReceived_transferSamples os w hd
  | abort reason => exact abort_transferSamples os w reason

omit [MuscleText] in
theorem connect_transferSamples (os : OperatingSystem) (w : DownloadWorld) (hostName : String)
    (port : Nat) : (w.connect os hostName port).1.transferSamples = w.transferSamples := by
  have hrate (w : DownloadWorld) : w.setRatePolicy.transferSamples = w.transferSamples := by
    rw [setRatePolicy]
    split <;> rfl
  rw [connect]
  split
  · exact setState_transferSamples ..
  · dsimp only
    split <;> exact (setState_transferSamples ..).trans (hrate _)

omit [MuscleText] in
theorem started_transferSamples (request : DownloadRequest) (os : OperatingSystem) :
    (request.started os).transferSamples = [] := by
  have hnew : request.newDownload.transferSamples = [] := by
    refine List.foldlRecOn (motive := fun download : FileDownload =>
      download.transferSamples = []) _ FileDownload.addRequestedFile rfl ?_
    intro download h requested _
    exact h
  rw [DownloadRequest.started, start]
  split
  · exact hnew
  · split
    · exact (setState_transferSamples ..).trans hnew
    · exact (connect_transferSamples ..).trans hnew

omit [MuscleText] in
theorem broughtChunk_lt {w : DownloadWorld} (hfit : e.SizesFit)
    (h : w.broughtChunk e = some bytes) : bytes.length < 2 ^ 32 := by
  obtain ⟨callback, os⟩ := e
  cases callback with
  | messageReceived message =>
    simp only [broughtChunk] at h
    split at h
    · cases hd : message.findData fieldData with
      | none => simp only [chunkBytes, hd] at h; cases h
      | some data =>
        rw [length_chunkBytes h hd]
        exact hfit message data rfl hd
    · cases h
  | _ => cases h

theorem windowed_handle {w : DownloadWorld} (hw : w.Windowed) (e : DownloadEvent)
    (hfit : e.SizesFit) : (w.handle e).Windowed ∧
      (w.broughtChunk e ≠ none → 1 ≤ (w.handle e).transferSamples.length) := by
  have hsamples := handle_transferSamples w e
  cases hc : w.broughtChunk e with
  | none =>
    simp only [hc] at hsamples
    exact ⟨⟨hsamples ▸ hw.short, hsamples ▸ hw.sizes⟩, fun h => absurd rfl h⟩
  | some bytes =>
    simp only [hc] at hsamples
    obtain ⟨hsub, hmin, hmax⟩ := dropOldSamples_spec e.os.getRunTime64 1
      (List.append_ne_nil_of_right_ne_nil w.transferSamples
        (List.cons_ne_nil (TransferSample.mk (e.os.getRunTime64 0) bytes.length) []))
    rw [← hsamples] at hsub hmin hmax
    refine ⟨⟨hmax, ?_⟩, fun _ => hmin⟩
    intro sample hm
    rcases List.mem_append.mp (hsub hm) with hold | hnew
    · exact hw.sizes sample hold
    · rw [List.mem_singleton.mp hnew]
      exact broughtChunk_lt hfit hc

/-- Nothing is asked of the clock, neither between two looks nor between two chunks. -/
theorem rate_safe_after_every_chunk (request : DownloadRequest) (os : OperatingSystem)
    (es : List DownloadEvent) (hes : ∀ e ∈ es, e.SizesFit) :
    machine.EveryStep (fun w e =>
      (w.broughtChunk e ≠ none → 1 ≤ (w.handle e).transferSamples.length) ∧
        (w.handle e).transferSamples.length ≤ 32 ∧
        ∀ now, (w.handle e).RateSafe now) (request.started os) es := by
  have hstart : (request.started os).Windowed := by
    have hnone := started_transferSamples request os
    exact ⟨by rw [hnone]; exact Nat.zero_le _, by rw [hnone]; exact List.forall_mem_nil _⟩
  refine (EventMachine.everyStep_iff_of_kind (J := fun w => w.Windowed)
    (K := DownloadEvent.SizesFit) (P := fun _ _ => True) ?_ ?_ hstart hes).mp
    (EventMachine.everyStep_of_invariant (J := fun _ => True) (fun _ _ => id)
      (fun _ _ _ => trivial) trivial es)
  · intro w e hfit hw _
    exact (windowed_handle hw e hfit).1
  · intro w e hfit hw
    obtain ⟨hnext, hmin⟩ := windowed_handle hw e hfit
    exact iff_of_true trivial ⟨hmin, hnext.short, hnext.rateSafe⟩

end DownloadWorld

section
attribute [local instance] asciiText
open DownloadWorld

def songRequest : DownloadRequest where
  downloadDirectory := "/downloads"
  requestedFiles := [⟨"song", "", 6⟩]
  hostName := "peer"
  port := 7000

def clockAt (now : UInt64) : OperatingSystem := { getRunTime64 := fun _ => now }

/-- The header of the song and its six bytes, in two chunks half a second apart. -/
def songEvents : List DownloadEvent :=
  [⟨.messageReceived (headerFor "song" 6), clockAt 1000000⟩,
    ⟨.messageReceived (dataFor [1, 2, 3]), clockAt 1000000⟩,
    ⟨.messageReceived (dataFor [4, 5, 6]), clockAt 1500000⟩]

theorem rate_safe_after_the_song :
    (machine.run (songRequest.started {}) songEvents).transferSamples.length = 2 ∧
      (machine.run (songRequest.started {}) songEvents).getBytesPerSecond 1500000 = some 12 ∧
      machine.EveryStep (fun w e =>
        (w.broughtChunk e ≠ none → 1 ≤ (w.handle e).transferSamples.length) ∧
          (w.handle e).transferSamples.length ≤ 32 ∧
          ∀ now, (w.handle e).RateSafe now) (songRequest.started {}) songEvents := by
  refine ⟨by decide +kernel, by decide +kernel,
    rate_safe_after_every_chunk songRequest {} songEvents ?_⟩
  simp only [songEvents, List.forall_mem_cons]
  refine ⟨?_, ?_, ?_, List.forall_mem_nil _⟩
  · intro message data he hd
    cases he
    cases hd
  · intro message data he hd
    cases he
    cases hd
    decide
  · intro message data he hd
    cases he
    cases hd
    decide

end

end HiTuxShare
