import Mathlib.Algebra.GroupWithZero.Nat
import Mathlib.Tactic.Common

set_option autoImplicit true

/-- A number in that many bytes, the lowest one first. -/
def toLittleEndian : Nat → Nat → List UInt8
  | 0, _ => []
  | width + 1, n => UInt8.ofNat n :: toLittleEndian width (n / 256)

def ofLittleEndian : List UInt8 → Nat
  | [] => 0
  | byte :: bytes => byte.toNat + 256 * ofLittleEndian bytes

theorem length_toLittleEndian (width n : Nat) : (toLittleEndian width n).length = width := by
  induction width generalizing n with
  | zero => rfl
  | succ width ih => rw [toLittleEndian, List.length_cons, ih]

theorem ofLittleEndian_toLittleEndian (width n : Nat) :
    ofLittleEndian (toLittleEndian width n) = n % 256 ^ width := by
  induction width generalizing n with
  | zero => exact (Nat.mod_one n).symm
  | succ width ih =>
    have hbyte : (UInt8.ofNat n).toNat = n % 256 := UInt8.toNat_ofNat'
    rw [toLittleEndian, ofLittleEndian, ih, hbyte, Nat.pow_succ', Nat.mod_mul]

/-- A block of bytes behind its size. -/
def sizedBlock (block : List UInt8) : List UInt8 := toLittleEndian 4 block.length ++ block

/-- The size, and then as many bytes as it says. A size over the limit is refused. -/
def readSizedBlock (limit : Nat) (bytes : List UInt8) : Option (List UInt8) :=
  if bytes.length < 4 then none
  else
    let size := ofLittleEndian (bytes.take 4)
    if limit < size then none
    else
      let rest := bytes.drop 4
      if rest.length < size then none else some (rest.take size)

section
variable {block : List UInt8}

theorem length_sizedBlock (block : List UInt8) : (sizedBlock block).length = 4 + block.length := by
  rw [sizedBlock, List.length_append, length_toLittleEndian]

theorem readSizedBlock_append (hsize : size < 256 ^ 4) (limit : Nat) (rest : List UInt8) :
    readSizedBlock limit (toLittleEndian 4 size ++ rest) =
      if limit < size then none
      else if rest.length < size then none else some (rest.take size) := by
  have hheader : (toLittleEndian 4 size).length = 4 := length_toLittleEndian _ _
  have hlong : ¬(toLittleEndian 4 size ++ rest).length < 4 := by
    rw [List.length_append, hheader]
    exact Nat.not_lt.mpr (Nat.le_add_right 4 _)
  have hnumber : ofLittleEndian (toLittleEndian 4 size) = size := by
    rw [ofLittleEndian_toLittleEndian, Nat.mod_eq_of_lt hsize]
  rw [readSizedBlock, if_neg hlong]
  simp only [List.take_left' hheader, List.drop_left' hheader, hnumber]

theorem readSizedBlock_sizedBlock (hsize : block.length < 256 ^ 4) (hlimit : block.length ≤ limit) :
    readSizedBlock limit (sizedBlock block) = some block := by
  rw [sizedBlock, readSizedBlock_append hsize, if_neg (Nat.not_lt.mpr hlimit),
    if_neg (Nat.lt_irrefl _), List.take_length]

/-- A block that is cut off anywhere is not taken for a shorter one. -/
theorem readSizedBlock_cut (hsize : block.length < 256 ^ 4)
    (hcut : n < (sizedBlock block).length) (limit : Nat) :
    readSizedBlock limit ((sizedBlock block).take n) = none := by
  have hheader : (toLittleEndian 4 block.length).length = 4 := length_toLittleEndian _ _
  rw [length_sizedBlock] at hcut
  by_cases hshort : n < 4
  · rw [readSizedBlock, if_pos]
    exact Nat.lt_of_le_of_lt (List.length_take_le _ _) hshort
  · obtain ⟨k, rfl⟩ := Nat.exists_eq_add_of_le (Nat.not_lt.mp hshort)
    have hbytes : (sizedBlock block).take (4 + k) =
        toLittleEndian 4 block.length ++ block.take k := by
      rw [sizedBlock, List.take_append, hheader, Nat.add_sub_cancel_left,
        List.take_of_length_le (by rw [hheader]; omega)]
    have hmissing : (block.take k).length < block.length := by
      rw [List.length_take]
      omega
    rw [hbytes, readSizedBlock_append hsize, if_pos hmissing, ite_self]

end
