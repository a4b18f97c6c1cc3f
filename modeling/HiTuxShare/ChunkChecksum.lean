import HiTuxShare.DownloadFiles
import HiTuxShare.TransferWire

namespace HiTuxShare
set_option autoImplicit true

/-- What byte `i` adds to the sum. -/
def checksumTerm (i : Nat) (byte : UInt8) : UInt32 := byte.toUInt32 <<< UInt32.ofNat (i % 24)

theorem toNat_checksumTerm (i : Nat) (byte : UInt8) :
    (checksumTerm i byte).toNat = byte.toNat * 2 ^ (i % 24) := by
  have hshift : i % 24 < 24 := Nat.mod_lt _ (by decide)
  have hbyte : byte.toNat < 2 ^ 8 := byte.toNat_lt
  have hpow : 2 ^ (i % 24) ≤ 2 ^ 23 := Nat.pow_le_pow_right (by decide) (by omega)
  have hfits : byte.toNat * 2 ^ (i % 24) < 2 ^ 32 :=
    Nat.lt_of_le_of_lt (Nat.mul_le_mul_left _ hpow) (by omega)
  have hcount : (UInt32.ofNat (i % 24)).toNat % 32 = i % 24 := by
    rw [UInt32.toNat_ofNat_of_lt' (Nat.lt_of_lt_of_le hshift (by decide))]
    omega
  rw [checksumTerm, UInt32.toNat_shiftLeft, UInt8.toNat_toUInt32, hcount, Nat.shiftLeft_eq,
    Nat.mod_eq_of_lt hfits]

/-- No bit of a byte is shifted out, so the term determines the byte. -/
theorem checksumTerm_injective (i : Nat) : Function.Injective (checksumTerm i) := by
  intro a b h
  have hn := congrArg UInt32.toNat h
  rw [toNat_checksumTerm, toNat_checksumTerm] at hn
  exact UInt8.toNat_inj.mp (Nat.eq_of_mul_eq_mul_right (Nat.two_pow_pos _) hn)

theorem checksumFrom_add (a b : UInt32) (i : Nat) (data : List UInt8) :
    checksumFrom (a + b) i data = a + checksumFrom b i data := by
  induction data generalizing b i with
  | nil => rfl
  | cons byte data ih =>
    simp only [checksumFrom]
    rw [UInt32.add_assoc, ih]

theorem checksumFrom_append (sum : UInt32) (i : Nat) (front back : List UInt8) :
    checksumFrom sum i (front ++ back) =
      checksumFrom (checksumFrom sum i front) (i + front.length) back := by
  induction front generalizing sum i with
  | nil => rfl
  | cons byte front ih =>
    simp only [List.cons_append, checksumFrom, List.length_cons]
    rw [ih, Nat.add_assoc, Nat.add_comm 1]

theorem checksumFrom_middle (front : List UInt8) (byte : UInt8) (back : List UInt8) :
    checksumFrom 0 0 (front ++ byte :: back) = checksumTerm front.length byte +
      (checksumFrom 0 0 front + checksumFrom 0 (front.length + 1) back) := by
  calc checksumFrom 0 0 (front ++ byte :: back)
      = checksumFrom (checksumFrom 0 0 front + checksumTerm front.length byte)
          (front.length + 1) back := by
        rw [checksumFrom_append, Nat.zero_add, checksumFrom, checksumTerm]
    _ = checksumFrom (checksumTerm front.length byte + (checksumFrom 0 0 front + 0))
          (front.length + 1) back := by
        rw [UInt32.add_zero, UInt32.add_comm]
    _ = _ := by rw [checksumFrom_add, checksumFrom_add]

theorem calculateReceivedChecksum_set_ne {data : List UInt8} (hi : i < data.length)
    (hbyte : byte ≠ data[i]) :
    calculateReceivedChecksum (data.set i byte) ≠ calculateReceivedChecksum data := by
  have hlength : (data.take i).length = i := List.length_take_of_le (Nat.le_of_lt hi)
  have hdata : data = data.take i ++ data[i] :: data.drop (i + 1) := by
    rw [List.getElem_cons_drop, List.take_append_drop]
  have hset : data.set i byte = data.take i ++ byte :: data.drop (i + 1) :=
    List.set_eq_take_append_cons_drop.trans (if_pos hi)
  intro h
  rw [calculateReceivedChecksum, calculateReceivedChecksum, hset] at h
  conv at h => rhs; rw [hdata]
  rw [checksumFrom_middle, checksumFrom_middle, UInt32.add_left_inj, hlength] at h
  exact hbyte (checksumTerm_injective i h)

namespace DownloadWorld

/-- Whatever happens on the way, no byte goes to a file. -/
def WritesNothing (w w' : DownloadWorld) : Prop :=
  ∃ occurrences, w'.history = w.history ++ occurrences ∧
    ∀ path bytes, .wrote path bytes ∉ occurrences

theorem WritesNothing.refl (w : DownloadWorld) : WritesNothing w w :=
  ⟨[], (List.append_nil _).symm, fun _ _ => List.not_mem_nil⟩

theorem WritesNothing.trans (h : WritesNothing w w') (h' : WritesNothing w' w'') :
    WritesNothing w w'' := by
  obtain ⟨occurrences, hh, hn⟩ := h
  obtain ⟨occurrences', hh', hn'⟩ := h'
  refine ⟨occurrences ++ occurrences', by rw [hh', hh, List.append_assoc], ?_⟩
  intro path bytes hm
  rcases List.mem_append.mp hm with hm | hm
  · exact hn path bytes hm
  · exact hn' path bytes hm

theorem writesNothing_note (w : DownloadWorld) {occurrence : Occurrence}
    (h : ∀ path bytes, occurrence ≠ .wrote path bytes) : WritesNothing w (w.note occurrence) :=
  ⟨[occurrence], rfl, fun path bytes hm => h path bytes (List.mem_singleton.mp hm).symm⟩

theorem writesNothing_discardOutputFile (os : OperatingSystem) (w : DownloadWorld) :
    WritesNothing w (w.discardOutputFile os) := by
  rw [discardOutputFile]
  split
  · rw [remove]
    split
    · exact .refl w
    · exact writesNothing_note w fun _ _ h => by cases h
  · exact .refl w

theorem writesNothing_fail (w : DownloadWorld) (reason : String) :
    WritesNothing w (w.fail reason) := by
  obtain ⟨notes, hh, hn⟩ := (aside_fail w reason).history
  refine ⟨notes, hh, ?_⟩
  intro path bytes hm
  have := hn _ hm
  cases this

theorem writesNothing_abort (os : OperatingSystem) (w : DownloadWorld) (reason : String) :
    WritesNothing w (w.abort os reason) := by
  rw [abort]
  split
  · exact .refl w
  · have hclosed : WritesNothing w (w.note .threadShutDown).closeOutputFile :=
      writesNothing_note w fun _ _ h => by cases h
    exact (hclosed.trans (writesNothing_discardOutputFile os _)).trans (writesNothing_fail _ reason)

theorem handleFileData_of_corrupted {w : DownloadWorld} (os : OperatingSystem)
    (ho : w.outputFile = some path) (hd : message.findData fieldData = some data)
    (hc : passesChecksum message data = false) :
    w.handleFileData os message = w.abort os "Checksum mismatch -- the data arrived corrupted" := by
  simp only [handleFileData, ho, hd, hc, Bool.false_eq_true, ↓reduceIte]

theorem abort_stops {w : DownloadWorld} (os : OperatingSystem) (reason : String)
    (h : w.isFinished = false) :
    (w.abort os reason).state = .failed ∧ (w.abort os reason).outputFile = none := by
  rw [abort_toFileDownload os reason h]
  exact ⟨rfl, rfl⟩

/-- A chunk that comes with the sum of the original, whatever encoding it claims to be in. -/
theorem replaced_byte_aborts (data : List UInt8) (i : Nat) (hi : i < data.length) (byte : UInt8)
    (hbyte : byte ≠ data[i]) :
    calculateReceivedChecksum (data.set i byte) ≠ calculateReceivedChecksum data ∧
      ∀ (os : OperatingSystem) (w : DownloadWorld) (path : String) (message : TransferMessage),
        w.outputFile = some path → message.findData fieldData = some (data.set i byte) →
        message.findInt32 fieldChecksum = some (calculateReceivedChecksum data).toInt32 →
        w.handleFileData os message =
            w.abort os "Checksum mismatch -- the data arrived corrupted" ∧
          WritesNothing w (w.handleFileData os message) ∧
          (w.isFinished = false → (w.handleFileData os message).state = .failed ∧
            (w.handleFileData os message).outputFile = none) := by
  have hne := calculateReceivedChecksum_set_ne hi hbyte
  refine ⟨hne, ?_⟩
  intro os w path message ho hd hsum
  have hc : passesChecksum message (data.set i byte) = false := by
    simpa only [passesChecksum, hsum, UInt32.toUInt32_toInt32, decide_eq_false_iff_not] using hne
  have hw := handleFileData_of_corrupted os ho hd hc
  refine ⟨hw, ?_, ?_⟩
  · rw [hw]
    exact writesNothing_abort os w _
  · intro hf
    rw [hw]
    exact abort_stops os _ hf

/-- A chunk of three bytes whose second was changed on the way. -/
def damagedChunk (mungeMode : Int32) : TransferMessage :=
  (Message.ofWhat TransferCommand.fileData)
    |>.addData fieldData ([1, 2, 3].set 1 7)
    |>.addInt32 fieldChecksum (calculateReceivedChecksum [1, 2, 3]).toInt32
    |>.addInt32 fieldMungeMode mungeMode

def halfWay : DownloadWorld where
  downloadDirectory := "/d"
  state := .transferring
  outputFile := some "/d/a"
  outputPath := "/d/a"
  history := [.opened "/d/a"]

theorem replaced_byte_aborts_both_modes :
    calculateReceivedChecksum ([1, 2, 3].set 1 7) ≠ calculateReceivedChecksum [1, 2, 3] ∧
      (halfWay.handleFileData {} (damagedChunk mungeModeNone)).state = .failed ∧
      (halfWay.handleFileData {} (damagedChunk mungeModeXor)).state = .failed := by
  obtain ⟨hne, h⟩ := replaced_byte_aborts [1, 2, 3] 1 (by decide) 7 (by decide)
  exact ⟨hne, ((h {} halfWay "/d/a" (damagedChunk mungeModeNone) rfl rfl rfl).2.2 rfl).1,
    ((h {} halfWay "/d/a" (damagedChunk mungeModeXor) rfl rfl rfl).2.2 rfl).1⟩

end DownloadWorld

end HiTuxShare
