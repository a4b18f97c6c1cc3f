import HiTuxShare.EventMachine
import Mathlib.Data.List.Induction

set_option autoImplicit true

/-- What goes over a connection that carries files one after the other: nothing marks the end
of a file but the bytes themselves. -/
inductive Piece (φ : Type u) (β : Type v) where
  | notice
  | header (file : φ)
  | data (bytes : List β)
  deriving DecidableEq

namespace Piece

/-- The file a stream is in the middle of, and what it has carried of it. -/
abbrev Cursor (φ : Type u) (β : Type v) := Option (φ × List β)

def advance : Cursor φ β → Piece φ β → Cursor φ β
  | cursor, .notice => cursor
  | _, .header file => some (file, [])
  | cursor, .data bytes => cursor.map fun progress => (progress.1, progress.2 ++ bytes)

def stream : EventMachine (Cursor φ β) (Piece φ β) := ⟨advance⟩

def cursor (pieces : List (Piece φ β)) : Cursor φ β := stream.run none pieces

def header? : Piece φ β → Option φ
  | .header file => some file
  | _ => none

def announced (pieces : List (Piece φ β)) : List φ := pieces.filterMap header?

@[simp] theorem cursor_snoc (pieces : List (Piece φ β)) (piece : Piece φ β) :
    cursor (pieces ++ [piece]) = advance (cursor pieces) piece := by
  rw [cursor, EventMachine.run_append]
  rfl

@[simp] theorem announced_snoc (pieces : List (Piece φ β)) (piece : Piece φ β) :
    announced (pieces ++ [piece]) = announced pieces ++ piece.header?.toList := by
  rw [announced, List.filterMap_append]
  cases piece <;> rfl

theorem announced_mono {pieces more : List (Piece φ β)} (h : pieces <+: more) :
    (announced pieces).Sublist (announced more) := h.sublist.filterMap _

/-- A stream is always in the middle of the file it announced last. -/
theorem cursor_announced (pieces : List (Piece φ β)) :
    (cursor pieces).map Prod.fst = (announced pieces).getLast? := by
  induction pieces using List.reverseRecOn with
  | nil => rfl
  | append_singleton pieces piece ih =>
    rw [cursor_snoc, announced_snoc]
    cases piece with
    | notice => simpa [advance, header?] using ih
    | header file => simp [advance, header?]
    | data bytes => simpa [advance, header?, Function.comp_def] using ih

theorem cursor_eq_none_iff {pieces : List (Piece φ β)} :
    cursor pieces = none ↔ announced pieces = [] := by
  rw [← List.getLast?_eq_none_iff, ← cursor_announced, Option.map_eq_none_iff]

section Legal

variable (contents : φ → Option (List β))

/-- Nothing of the file the stream has reached is left to send. -/
def AtEnd (cursor : Cursor φ β) : Prop :=
  ∀ file sent, cursor = some (file, sent) → contents file = some sent

/-- A stream carries readable files, each one from its start to its end. -/
def Legal (cursor : Cursor φ β) : Piece φ β → Prop
  | .notice => True
  | .header file => AtEnd contents cursor ∧ (contents file).isSome = true
  | .data bytes => ∃ file sent whole, cursor = some (file, sent) ∧
      contents file = some whole ∧ sent ++ bytes <+: whole

def LegalStream (pieces : List (Piece φ β)) : Prop :=
  stream.EveryStep (Legal contents) none pieces

variable {contents}

theorem legalStream_append {pieces more : List (Piece φ β)} :
    LegalStream contents (pieces ++ more) ↔
      LegalStream contents pieces ∧ stream.EveryStep (Legal contents) (cursor pieces) more :=
  EventMachine.everyStep_append ..

theorem legalStream_snoc {pieces : List (Piece φ β)} {piece : Piece φ β} :
    LegalStream contents (pieces ++ [piece]) ↔
      LegalStream contents pieces ∧ Legal contents (cursor pieces) piece := by
  rw [legalStream_append]
  exact and_congr_right fun _ => and_iff_left trivial

theorem LegalStream.cursor_part {pieces : List (Piece φ β)} (h : LegalStream contents pieces)
    (hc : cursor pieces = some (file, sent)) :
    ∃ whole, contents file = some whole ∧ sent <+: whole := by
  have hrun := EventMachine.everyState_of_invariant
    (I := fun c : Cursor φ β => ∀ file sent, c = some (file, sent) →
      ∃ whole, contents file = some whole ∧ sent <+: whole) ?_ (by simp) h
  · exact hrun.last file sent hc
  · intro c piece hI hl file sent hs
    cases piece with
    | notice => exact hI file sent hs
    | header next =>
      obtain ⟨rfl, rfl⟩ := Prod.mk.inj (Option.some.inj hs)
      obtain ⟨whole, hw⟩ := Option.isSome_iff_exists.mp hl.2
      exact ⟨whole, hw, List.nil_prefix⟩
    | data bytes =>
      obtain ⟨file', sent', whole, rfl, hw, hp⟩ := hl
      obtain ⟨rfl, rfl⟩ := Prod.mk.inj (Option.some.inj hs)
      exact ⟨whole, hw, hp⟩

theorem LegalStream.notices {pieces : List (Piece φ β)} (h : LegalStream contents pieces)
    (hn : announced pieces = []) : ∀ piece ∈ pieces, piece = .notice := by
  induction pieces using List.reverseRecOn with
  | nil => simp
  | append_singleton pieces piece ih =>
    obtain ⟨hbefore, hlegal⟩ := legalStream_snoc.mp h
    rw [announced_snoc, List.append_eq_nil_iff] at hn
    intro other hm
    rcases List.mem_append.mp hm with hm | hm
    · exact ih hbefore hn.1 other hm
    · rw [List.mem_singleton.mp hm]
      cases piece with
      | notice => rfl
      | header file => simp [header?] at hn
      | data bytes =>
        obtain ⟨file, sent, whole, hc, -⟩ := hlegal
        rw [cursor_eq_none_iff.mpr hn.1] at hc
        cases hc

end Legal

end Piece
