import HiTuxShare.ChatInputLine
import Mathlib.Data.List.Induction

namespace HiTuxShare
set_option autoImplicit true

def isHighSurrogate (unit : UInt16) : Bool := 0xD800 ≤ unit.toNat && unit.toNat < 0xDC00

def isLowSurrogate (unit : UInt16) : Bool := 0xDC00 ≤ unit.toNat && unit.toNat < 0xE000

theorem isHighSurrogate_of_low (h : isLowSurrogate unit = true) : isHighSurrogate unit = false := by
  simp only [isLowSurrogate, isHighSurrogate, Bool.and_eq_true, Bool.and_eq_false_iff,
    decide_eq_true_eq, decide_eq_false_iff_not] at *
  omega

theorem isLowSurrogate_of_high (h : isHighSurrogate unit = true) :
    isLowSurrogate unit = false := by
  simp only [isLowSurrogate, isHighSurrogate, Bool.and_eq_true, Bool.and_eq_false_iff,
    decide_eq_true_eq, decide_eq_false_iff_not] at *
  omega

/-- A character outside of the Basic Multilingual Plane takes two units. -/
def utf16Of (c : Char) : Utf16 :=
  if c.toNat < 0x10000 then [UInt16.ofNat c.toNat]
  else
    [UInt16.ofNat (0xD800 + (c.toNat - 0x10000) / 0x400),
      UInt16.ofNat (0xDC00 + (c.toNat - 0x10000) % 0x400)]

def toUtf16 (text : List Char) : Utf16 := text.flatMap utf16Of

/-- The two ways in which a character is stored. -/
inductive StoredAs (c : Char) : Utf16 → Prop where
  | single (hc : c.toNat < 0x10000) (hunit : unit.toNat = c.toNat)
      (hhigh : isHighSurrogate unit = false) (hlow : isLowSurrogate unit = false) :
      StoredAs c [unit]
  | pair (hc : 0x10000 ≤ c.toNat) (hhigh : isHighSurrogate high = true)
      (hlow : isLowSurrogate low = true) : StoredAs c [high, low]

theorem storedAs (c : Char) : StoredAs c (utf16Of c) := by
  have hvalid : c.toNat < 0xD800 ∨ 0xDFFF < c.toNat ∧ c.toNat < 0x110000 := c.valid
  rw [utf16Of]
  split
  · next hc =>
    have hunit : (UInt16.ofNat c.toNat).toNat = c.toNat := UInt16.toNat_ofNat_of_lt' hc
    refine .single hc hunit ?_ ?_
    · simp only [isHighSurrogate, hunit, Bool.and_eq_false_iff, decide_eq_false_iff_not]
      omega
    · simp only [isLowSurrogate, hunit, Bool.and_eq_false_iff, decide_eq_false_iff_not]
      omega
  · next hc =>
    have hhigh : (UInt16.ofNat (0xD800 + (c.toNat - 0x10000) / 0x400)).toNat =
        0xD800 + (c.toNat - 0x10000) / 0x400 :=
      UInt16.toNat_ofNat_of_lt' (by rw [UInt16.size]; omega)
    have hlow : (UInt16.ofNat (0xDC00 + (c.toNat - 0x10000) % 0x400)).toNat =
        0xDC00 + (c.toNat - 0x10000) % 0x400 :=
      UInt16.toNat_ofNat_of_lt' (by rw [UInt16.size]; omega)
    refine .pair (by omega) ?_ ?_
    · simp only [isHighSurrogate, hhigh, Bool.and_eq_true, decide_eq_true_eq]
      omega
    · simp only [isLowSurrogate, hlow, Bool.and_eq_true, decide_eq_true_eq]
      omega

@[simp] theorem toUtf16_nil : toUtf16 [] = [] := rfl

@[simp] theorem toUtf16_cons (c : Char) (text : List Char) :
    toUtf16 (c :: text) = utf16Of c ++ toUtf16 text := rfl

@[simp] theorem toUtf16_append (text later : List Char) :
    toUtf16 (text ++ later) = toUtf16 text ++ toUtf16 later := List.flatMap_append

theorem toUtf16_ne_nil (h : text ≠ []) : toUtf16 text ≠ [] := by
  cases text with
  | nil => exact absurd rfl h
  | cons c text =>
    rw [toUtf16_cons]
    have hc := storedAs c
    generalize utf16Of c = units at hc
    cases hc <;> exact List.cons_ne_nil _ _

/-- A position is between two characters unless the two units around it are a pair. -/
theorem exists_split (text : List Char) (i : Nat) (hi : i ≤ (toUtf16 text).length)
    (h : ∀ j high low, i = j + 1 → (toUtf16 text)[j]? = some high → (toUtf16 text)[i]? = some low →
      isHighSurrogate high = true → isLowSurrogate low = false) :
    ∃ before behind, text = before ++ behind ∧ (toUtf16 before).length = i := by
  induction text generalizing i with
  | nil => exact ⟨[], [], rfl, (Nat.le_zero.mp hi).symm⟩
  | cons c text ih =>
    cases i with
    | zero => exact ⟨[], c :: text, rfl, rfl⟩
    | succ i =>
      rw [toUtf16_cons] at hi h
      have hc := storedAs c
      generalize hunits : utf16Of c = units at hi h hc
      cases hc with
      | single =>
        obtain ⟨before, behind, rfl, hlength⟩ := ih i (by simpa using hi) (by
          rintro j high low rfl hhigh hlow
          exact h (j + 1) high low rfl hhigh hlow)
        refine ⟨c :: before, behind, rfl, ?_⟩
        rw [toUtf16_cons, hunits, List.length_append, hlength]
        exact Nat.add_comm 1 i
      | @pair high low _ hhigh hlow =>
        cases i with
        | zero => exact absurd hlow (Bool.eq_false_iff.mp (h 0 high low rfl rfl rfl hhigh))
        | succ i =>
          obtain ⟨before, behind, rfl, hlength⟩ := ih i (by simpa using hi) (by
            rintro j high low rfl hhigh hlow
            exact h (j + 2) high low rfl hhigh hlow)
          refine ⟨c :: before, behind, rfl, ?_⟩
          rw [toUtf16_cons, hunits, List.length_append, hlength]
          exact Nat.add_comm 2 i

theorem getLast?_toUtf16 (text : List Char) (h : (toUtf16 text).getLast? = some unit) :
    isHighSurrogate unit = false := by
  induction text using List.reverseRecOn with
  | nil => cases h
  | append_singleton text c _ =>
    rw [toUtf16_append, toUtf16_cons, toUtf16_nil, List.append_nil] at h
    have hc := storedAs c
    generalize utf16Of c = units at h hc
    cases hc with
    | single _ _ hhigh =>
      rw [List.getLast?_append] at h
      cases h
      exact hhigh
    | pair _ _ hlow =>
      rw [List.getLast?_append] at h
      cases h
      exact isHighSurrogate_of_low hlow

theorem head?_toUtf16 (text : List Char) (h : (toUtf16 text).head? = some unit) :
    isLowSurrogate unit = false := by
  cases text with
  | nil => cases h
  | cons c text =>
    rw [toUtf16_cons] at h
    have hc := storedAs c
    generalize utf16Of c = units at h hc
    cases hc with
    | single _ _ _ hlow => cases h; exact hlow
    | pair _ hhigh => cases h; exact isLowSurrogate_of_high hhigh

end HiTuxShare
