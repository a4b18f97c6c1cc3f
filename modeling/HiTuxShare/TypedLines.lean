import HiTuxShare.ChatCommandParser
import HiTuxShare.Trimming

namespace HiTuxShare
set_option autoImplicit true

open MuscleText

theorem toLower_eq_self_or (c : Char) :
    c.toLower = c ∨ c.isUpper = true ∧ c.toLower.isLower = true := by
  delta Char.toLower
  split
  · next h =>
    right
    constructor
    · exact decide_eq_true h
    · obtain ⟨hlow, hhigh⟩ := h
      delta Char.isLower
      simp only [Bool.and_eq_true, decide_eq_true_eq]
      simp only [ge_iff_le, UInt32.le_iff_toNat_le, UInt32.toNat_add] at *
      have hshift : ('a'.val - 'A'.val).toNat = 32 := by decide
      have hupper : 'A'.val.toNat = 65 ∧ 'Z'.val.toNat = 90 := by decide
      have hlower : 'a'.val.toNat = 97 ∧ 'z'.val.toNat = 122 := by decide
      rw [hshift, hlower.1, hlower.2]
      omega
  · exact .inl rfl

theorem toLower_eq_iff {d : Char} (h : d.isAlpha = false) (c : Char) :
    c.toLower = d ↔ c = d := by
  obtain ⟨hupper, hlower⟩ := Bool.or_eq_false_iff.mp h
  rcases toLower_eq_self_or c with he | ⟨hc, hc'⟩
  · rw [he]
  · apply iff_of_false
    · rintro rfl
      exact absurd (hc'.symm.trans hlower) Bool.true_eq_false_eq_False
    · rintro rfl
      exact absurd (hc.symm.trans hupper) Bool.true_eq_false_eq_False

theorem toLower_toLower (c : Char) : c.toLower.toLower = c.toLower := by
  rcases toLower_eq_self_or c with he | ⟨-, hlower⟩
  · rw [he, he]
  · rcases toLower_eq_self_or c.toLower with he' | ⟨hupper, -⟩
    · exact he'
    · delta Char.isUpper Char.isLower at hupper hlower
      simp only [Bool.and_eq_true, decide_eq_true_eq] at hupper hlower
      have hgap : 'Z'.val < 'a'.val := by decide
      exact absurd (UInt32.le_trans hlower.1 hupper.2) (UInt32.not_le.mpr hgap)

theorem takeWhile_before_space (front later : List Char) :
    (front ++ ' ' :: later).takeWhile (· ≠ ' ') = front.takeWhile (· ≠ ' ') :=
  takeWhile_append_stop (by decide) front later

theorem dropWhile_before_space (front later : List Char) :
    (front ++ ' ' :: later).dropWhile (· ≠ ' ') = front.dropWhile (· ≠ ' ') ++ ' ' :: later :=
  dropWhile_append_stop (by decide) front later

theorem startsWith_slash_iff {text : String} :
    startsWith text "/" = true ↔ ∃ rest, text.toList = '/' :: rest := by
  rw [startsWith_iff_begins]
  constructor
  · rintro ⟨rest, h⟩
    exact ⟨rest, h.symm⟩
  · rintro ⟨rest, h⟩
    exact ⟨rest, h.symm⟩

section
variable [MuscleText]

/-- What is documented of the white space that `Trimmed` takes off. -/
def PlainWhiteSpace : Prop :=
  ∀ character, isSpaceChar character = true ↔ character ∈ [' ', '\t', '\r', '\n']

theorem PlainWhiteSpace.space (h : PlainWhiteSpace) : isSpaceChar ' ' = true := (h _).mpr (by decide)

theorem PlainWhiteSpace.slash (h : PlainWhiteSpace) : isSpaceChar '/' = false :=
  Bool.eq_false_iff.mpr fun hs => absurd ((h _).mp hs) (by decide)

theorem PlainWhiteSpace.toLower (h : PlainWhiteSpace) (character : Char) :
    isSpaceChar character.toLower = isSpaceChar character := by
  have hsame : ∀ d ∈ [' ', '\t', '\r', '\n'], character.toLower = d ↔ character = d := by
    intro d hd
    have hplain : ([' ', '\t', '\r', '\n'].all fun d => d.isAlpha = false) = true := by decide
    exact toLower_eq_iff (of_decide_eq_true (List.all_eq_true.mp hplain d hd)) character
  rw [Bool.eq_iff_iff, h, h]
  simp only [List.mem_cons, List.not_mem_nil, or_false]
  rw [hsame ' ' (by decide), hsame '\t' (by decide), hsame '\r' (by decide),
    hsame '\n' (by decide)]

omit [MuscleText] in
theorem asciiText_plainWhiteSpace : @PlainWhiteSpace asciiText := by
  intro character
  simp only [isSpaceChar, Bool.or_eq_true, decide_eq_true_eq, List.mem_cons, List.not_mem_nil,
    or_false, or_assoc]

theorem trimmed_eq (text : List Char) : trimmed text = trim isSpaceChar text := rfl

/-- Nothing but white space. -/
def IsBlank (text : List Char) : Prop := ∀ character ∈ text, isSpaceChar character = true

theorem trimmedText_toList (text : String) :
    (trimmedText text).toList = trim isSpaceChar text.toList := String.toList_ofList

theorem splitWord_snd (text : String) : (splitWord text).2.toList =
    trim isSpaceChar (text.toList.dropWhile (· ≠ ' ')).tail := by
  rw [splitWord, splitAtSpace]
  cases text.toList.dropWhile (· ≠ ' ') with
  | nil => rfl
  | cons space rest => rw [trimmedText_toList, String.toList_ofList, List.tail_cons]

/-- The space at which a line is split is white itself. -/
theorem splitWord_snd_eq (hspace : isSpaceChar ' ' = true) (text : String) :
    (splitWord text).2.toList = trim isSpaceChar (text.toList.dropWhile (· ≠ ' ')) := by
  rw [splitWord_snd]
  cases hd : text.toList.dropWhile (· ≠ ' ') with
  | nil => rfl
  | cons space rest =>
    have hstop := of_decide_eq_false (head_of_dropWhile_eq_cons hd :)
    obtain rfl : space = ' ' := not_not.mp hstop
    have hblank : ∀ character ∈ [' '], isSpaceChar character = true := by
      intro character hm
      rwa [List.mem_singleton.mp hm]
    exact (trim_append_of_all hblank).symm

theorem not_blank_cons (hfirst : isSpaceChar first = false) (rest : List Char) :
    ¬IsBlank (first :: rest) := by
  intro hall
  exact absurd ((hall first List.mem_cons_self).symm.trans hfirst) Bool.true_eq_false_eq_False

theorem not_blank_append (hrest : ¬IsBlank rest) (front : List Char) : ¬IsBlank (front ++ rest) :=
  fun hall => hrest fun character hm => hall character (List.mem_append_right front hm)

theorem trim_slash (hslash : isSpaceChar '/' = false) (front : List Char) {text : List Char}
    (htext : ¬IsBlank text) : trim isSpaceChar ('/' :: front ++ text) =
      '/' :: front ++ text.rdropWhile isSpaceChar := by
  rw [trim_append_of_not_all (not_blank_cons hslash front) htext,
    List.dropWhile_cons_of_neg (by rw [hslash]; exact Bool.false_ne_true)]

theorem trim_space (hspace : isSpaceChar ' ' = true) (text : List Char) :
    trim isSpaceChar (' ' :: text) = trim isSpaceChar text := by
  apply trim_append_of_all (l := [' '])
  intro character hm
  rwa [List.mem_singleton.mp hm]

end

end HiTuxShare
