import HiTuxShare.ListModels
import Mathlib.Data.List.Forall2

namespace HiTuxShare
set_option autoImplicit true

/-- A stretch of a byte string as it is decoded: the bytes of one character, or bytes that are none
of UTF-8. -/
inductive Utf8Piece where
  | encoded (c : Char)
  | invalid (bytes : List Char)
  deriving DecidableEq

namespace Utf8Piece

/-- U+FFFD. -/
def replacementCharacter : Char := Char.ofNat 0xFFFD

def bytes : Utf8Piece → List Char
  | .encoded c => (String.utf8EncodeChar c).map fun byte => Char.ofNat byte.toNat
  | .invalid bytes => bytes

def decoded : Utf8Piece → Char
  | .encoded c => c
  | .invalid _ => replacementCharacter

/-- The same character, or two pieces that are both read as U+FFFD. -/
def ReadsAs (p q : Utf8Piece) : Prop :=
  p = q ∨ p.decoded = replacementCharacter ∧ q.decoded = replacementCharacter

instance (p q : Utf8Piece) : Decidable (ReadsAs p q) := inferInstanceAs (Decidable (_ ∨ _ ∧ _))

theorem decoded_eq_iff (p q : Utf8Piece) : p.decoded = q.decoded ↔ ReadsAs p q := by
  constructor
  · intro h
    cases p with
    | invalid bytes => exact .inr ⟨rfl, h.symm⟩
    | encoded c =>
      cases q with
      | invalid bytes => exact .inr ⟨h, rfl⟩
      | encoded d => exact .inl (congrArg encoded h)
  · rintro (rfl | ⟨hp, hq⟩)
    · rfl
    · rw [hp, hq]

theorem newline_ne_replacement : replacementCharacter ≠ '\n' := by decide

theorem bytes_of_ascii {c : Char} (h : c.toNat < 128) : bytes (.encoded c) = [c] := by
  have hsize : c.utf8Size = 1 :=
    Char.utf8Size_eq_one_iff.mpr (UInt32.le_iff_toNat_le.mpr (Nat.le_of_lt_succ h))
  have hbyte : c.val.toUInt8.toNat = c.toNat := by
    rw [UInt32.toNat_toUInt8]
    exact Nat.mod_eq_of_lt (Nat.lt_trans h (by decide))
  rw [bytes, String.utf8EncodeChar_eq_singleton hsize, List.map_singleton, hbyte, Char.ofNat_toNat]

end Utf8Piece

/-- Of bytes that are no UTF-8, each invalid sequence is read as one U+FFFD. Where such a sequence
ends is up to the library. -/
class QtDecoder extends QtLibrary where
  pieces : String → List Utf8Piece
  bytes_pieces : ∀ text, (pieces text).flatMap Utf8Piece.bytes = text.toList
  fromUtf8_pieces : ∀ text, fromUtf8 text = .ofList ((pieces text).map Utf8Piece.decoded)

/-- One byte of a text that is plain ASCII but for bytes that are no UTF-8. -/
def asciiPiece (c : Char) : Utf8Piece := if c.toNat < 128 then .encoded c else .invalid [c]

theorem bytes_asciiPiece (c : Char) : (asciiPiece c).bytes = [c] := by
  rw [asciiPiece]
  split
  · next h => exact Utf8Piece.bytes_of_ascii h
  · rfl

/-- The decoder of such texts. -/
abbrev asciiDecoder : QtDecoder where
  fromUtf8 text := .ofList ((text.toList.map asciiPiece).map Utf8Piece.decoded)
  isUtf8 text := text.toList.all fun c => c.toNat < 128
  fromUtf8_injective := by
    have hsame {text : String} (h : (text.toList.all fun c => c.toNat < 128) = true) :
        (text.toList.map asciiPiece).map Utf8Piece.decoded = text.toList := by
      rw [List.map_map]
      refine (List.map_congr_left ?_).trans (List.map_id _)
      intro c hm
      have hc : c.toNat < 128 := by simpa using List.all_eq_true.mp h c hm
      rw [Function.comp_apply, asciiPiece, if_pos hc]
      rfl
    intro text text' h h' he
    rw [hsame h, hsame h', String.ofList_toList, String.ofList_toList] at he
    exact he
  fromUtf8_newline := by
    intro text _ hm
    rw [String.toList_ofList, List.map_map] at hm
    obtain ⟨c, hc, he⟩ := List.mem_map.mp hm
    rw [Function.comp_apply, asciiPiece] at he
    split at he
    · cases he
      exact hc
    · exact absurd he Utf8Piece.newline_ne_replacement
  pieces text := text.toList.map asciiPiece
  bytes_pieces text := by
    have hone (l : List Char) : (l.map asciiPiece).flatMap Utf8Piece.bytes = l := by
      induction l with
      | nil => rfl
      | cons c l ih => rw [List.map_cons, List.flatMap_cons, bytes_asciiPiece, ih]; rfl
    exact hone text.toList
  fromUtf8_pieces _ := rfl

section
variable [QtDecoder]

open QtDecoder (pieces)

/-- Nothing differs but invalid sequences, and U+FFFD where it is written out. -/
def SameButInvalid (text text' : String) : Prop :=
  List.Forall₂ Utf8Piece.ReadsAs (pieces text) (pieces text')

instance (text text' : String) : Decidable (SameButInvalid text text') :=
  inferInstanceAs (Decidable (List.Forall₂ _ _ _))

theorem toQString_eq_iff : toQString text = toQString text' ↔ SameButInvalid text text' := by
  have hdecoded (l l' : List Utf8Piece) :
      l.map Utf8Piece.decoded = l'.map Utf8Piece.decoded ↔ List.Forall₂ Utf8Piece.ReadsAs l l' := by
    rw [← List.forall₂_eq_eq_eq, List.forall₂_map_left_iff, List.forall₂_map_right_iff]
    simp only [Utf8Piece.decoded_eq_iff]
  rw [toQString, toQString, QtDecoder.fromUtf8_pieces, QtDecoder.fromUtf8_pieces,
    String.ofList_inj, hdecoded, SameButInvalid]

/-- A line break is read only where the bytes have one. -/
theorem not_mem_toQString (h : '\n' ∉ text.toList) : '\n' ∉ (toQString text).toList := by
  rw [toQString, QtDecoder.fromUtf8_pieces, String.toList_ofList]
  intro hm
  obtain ⟨p, hp, hnewline⟩ := List.mem_map.mp hm
  rw [← QtDecoder.bytes_pieces] at h
  cases p with
  | encoded c =>
    cases hnewline
    exact h (List.mem_flatMap.mpr ⟨_, hp, by decide⟩)
  | invalid bytes => exact absurd hnewline Utf8Piece.newline_ne_replacement

namespace ResultName

/-- Two names of results meet in one key exactly where a decoding cannot tell them apart. -/
theorem own_key_iff (name name' : ResultName) (h : '\n' ∉ name.sessionId.toList)
    (h' : '\n' ∉ name'.sessionId.toList) :
    (name ≠ name' → name.key ≠ name'.key) ↔ (name ≠ name' → name.connection ≠ name'.connection ∨
      ¬SameButInvalid name.sessionId name'.sessionId ∨
      ¬SameButInvalid name.fileName name'.fileName) := by
  apply imp_congr_right
  intro _
  rw [← not_and_or, ← not_and_or]
  apply not_congr
  rw [key, key, FileResultModel.makeKey, FileResultModel.makeKey, connectionKey_inj]
  apply and_congr_right
  intro _
  rw [← toQString_eq_iff, ← toQString_eq_iff]
  constructor
  · exact append_newline_inj (not_mem_toQString h) (not_mem_toQString h')
  · rintro ⟨hsession, hfile⟩
    rw [hsession, hfile]

end ResultName

end

section
attribute [local instance] asciiDecoder
open ResultName

/-- Two files of one person, whose names end in bytes that are no UTF-8. -/
theorem latin_names_collide : ¬∀ name name' : ResultName, '\n' ∉ name.sessionId.toList →
    '\n' ∉ name'.sessionId.toList → name ≠ name' → name.key ≠ name'.key := by
  intro h
  have hread : toQString "caf\xe9" = toQString "caf\xe8" := toQString_eq_iff.mpr (by decide)
  refine h ⟨1, "5", "caf\xe9"⟩ ⟨1, "5", "caf\xe8"⟩ (by decide) (by decide) (by decide) ?_
  rw [key, key, FileResultModel.makeKey, hread, FileResultModel.makeKey]

theorem plain_name_has_its_own_key :
    key ⟨1, "5", "caf\xe9"⟩ ≠ key ⟨1, "5", "cafe"⟩ :=
  (own_key_iff ⟨1, "5", "caf\xe9"⟩ ⟨1, "5", "cafe"⟩ (by decide) (by decide)).mpr
    (fun _ => .inr (.inr (by decide))) (by decide)

end

end HiTuxShare
