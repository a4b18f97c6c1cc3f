import Mathlib.Data.List.Infix

namespace HiTuxShare
namespace StyleCheck
set_option autoImplicit true

/-- `str.find`: how far behind the index the first occurrence of a pattern is. -/
def find (pattern : List Char) : List Char → Option Nat
  | [] => if pattern = [] then some 0 else none
  | character :: line =>
    if pattern <+: character :: line then some 0 else (find pattern line).map (· + 1)

/-- The loop of `strip_comments`; `line` is what stands from the index on. -/
def stripComments (line : List Char) (inBlock : Bool) : List Char × Bool :=
  if line = [] then ([], inBlock)
  else if inBlock then
    match find ['*', '/'] line with
    | none => ([], true)
    | some ending => stripComments (line.drop (ending + 2)) false
  else
    let startLine := find ['/', '/'] line
    let startBlock := find ['/', '*'] line
    -- A `//` counts if no `/*` stands before it.
    match startLine.filter (fun start => startBlock.all (start < ·)), startBlock with
    | some start, _ => (line.take start, false)
    | none, some start =>
      let (result, stillInBlock) := stripComments (line.drop (start + 2)) true
      (line.take start ++ result, stillInBlock)
    | none, none => (line, false)
termination_by line.length
decreasing_by
  all_goals
    have := List.length_pos_iff.mpr ‹¬line = []›
    rw [List.length_drop]
    omega

/-- A marker that opens a comment stands at the front of a text. -/
def OpensComment (text : List Char) : Prop := ['/', '/'] <+: text ∨ ['/', '*'] <+: text

instance : Decidable (OpensComment text) := inferInstanceAs (Decidable (_ ∨ _))

theorem opensComment_cons : OpensComment (character :: text) ↔
    character = '/' ∧ (text.head? = some '/' ∨ text.head? = some '*') := by
  cases text with
  | nil => simp [OpensComment]
  | cons second text =>
    simp only [OpensComment, List.cons_prefix_cons, List.nil_prefix, and_true, List.head?_cons,
      Option.some.injEq, eq_comm (b := second), eq_comm (b := character), ← and_or_left]

/-- A text with a marker that opens a comment in it. -/
def HasMarker : List Char → Prop
  | [] => False
  | character :: text => OpensComment (character :: text) ∨ HasMarker text

theorem find_of_prefix (h : pattern <+: character :: line) :
    find pattern (character :: line) = some 0 := by
  rw [find, if_pos h]

theorem find_cons (h : ¬pattern <+: character :: line) :
    find pattern (character :: line) = (find pattern line).map (· + 1) := by
  rw [find, if_neg h]

@[simp] theorem stripComments_nil : stripComments [] inBlock = ([], inBlock) := by
  rw [stripComments, if_pos rfl]

@[simp] theorem stripComments_slashes : stripComments ('/' :: '/' :: line) false = ([], false) := by
  have hline : find ['/', '/'] ('/' :: '/' :: line) = some 0 := find_of_prefix (by simp)
  have hblock : find ['/', '*'] ('/' :: '/' :: line) =
      (find ['/', '*'] ('/' :: line)).map (· + 1) := find_cons (by simp)
  rw [stripComments, if_neg (by simp), if_neg (by simp)]
  simp [hline, hblock, Option.filter_some, Option.all_map]

@[simp] theorem stripComments_opening :
    stripComments ('/' :: '*' :: line) false = stripComments line true := by
  have hblock : find ['/', '*'] ('/' :: '*' :: line) = some 0 := find_of_prefix (by simp)
  rw [stripComments, if_neg (by simp), if_neg (by simp)]
  simp [hblock]

theorem stripComments_code (h : ¬OpensComment (character :: line)) :
    stripComments (character :: line) false =
      (character :: (stripComments line false).1, (stripComments line false).2) := by
  have hline := find_cons (fun hp => h (.inl hp))
  have hblock := find_cons (fun hp => h (.inr hp))
  rw [stripComments, if_neg (by simp), if_neg (by simp), hline, hblock]
  by_cases hempty : line = []
  · simp [hempty, find]
  rw [stripComments.eq_1 line, if_neg hempty, if_neg (by simp)]
  cases find ['/', '/'] line with
  | none => cases find ['/', '*'] line <;> simp
  | some start =>
    cases find ['/', '*'] line with
    | none => simp [Option.filter_some]
    | some other =>
      by_cases hlt : start < other <;> simp [Option.filter_some, hlt]

@[simp] theorem stripComments_closing :
    stripComments ('*' :: '/' :: line) true = stripComments line false := by
  have hending : find ['*', '/'] ('*' :: '/' :: line) = some 0 := find_of_prefix (by simp)
  rw [stripComments, if_neg (by simp), if_pos rfl, hending]
  rfl

theorem stripComments_comment (h : ¬['*', '/'] <+: character :: line) :
    stripComments (character :: line) true = stripComments line true := by
  rw [stripComments, if_neg (by simp), if_pos rfl, find_cons h]
  by_cases hempty : line = []
  · simp [hempty, find]
  rw [stripComments.eq_1 line, if_neg hempty, if_pos rfl]
  cases find ['*', '/'] line <;> simp

theorem not_opensComment_stripComments (h : ¬OpensComment (character :: line)) :
    ¬OpensComment (character :: (stripComments line false).1) := by
  rw [opensComment_cons] at h ⊢
  rintro ⟨rfl, hhead⟩
  cases line with
  | nil => simp at hhead
  | cons second line =>
    simp only [true_and, List.head?_cons, Option.some.injEq] at h
    have hsecond : ¬OpensComment (second :: line) := by
      rw [opensComment_cons]
      exact fun hopens => h (.inl hopens.1)
    rw [stripComments_code hsecond] at hhead
    exact h (by simpa using hhead)

/-- What `strip_comments` leaves of a line has no marker in it, in a literal or elsewhere. -/
theorem not_hasMarker_stripComments (line : List Char) (inBlock : Bool) :
    ¬HasMarker (stripComments line inBlock).1 := by
  match line, inBlock with
  | [], _ => simp [HasMarker]
  | character :: line, true =>
    by_cases hclosing : ['*', '/'] <+: character :: line
    · obtain ⟨rest, hrest⟩ := hclosing
      rw [← hrest]
      simpa using not_hasMarker_stripComments rest false
    · rw [stripComments_comment hclosing]
      exact not_hasMarker_stripComments line true
  | character :: line, false =>
    by_cases hopens : OpensComment (character :: line)
    · rcases hopens with ⟨rest, hrest⟩ | ⟨rest, hrest⟩
      · rw [← hrest]
        simp [HasMarker]
      · rw [← hrest]
        simpa using not_hasMarker_stripComments rest true
    · rw [stripComments_code hopens]
      rintro (hfront | hbehind)
      · exact not_opensComment_stripComments hopens hfront
      · exact not_hasMarker_stripComments line false hbehind
termination_by line.length
decreasing_by
  · have := congrArg List.length hrest
    simp only [List.cons_append, List.nil_append, List.length_cons] at this ⊢
    omega
  · simp
  · have := congrArg List.length hrest
    simp only [List.cons_append, List.nil_append, List.length_cons] at this ⊢
    omega
  · simp

/-- What follows the closing quote of a literal, if the line has one. -/
def literalRest (quote : Char) : List Char → Option (List Char)
  | [] => none
  | '\\' :: [] => none
  | '\\' :: _ :: line => literalRest quote line
  | character :: line => if character = quote then some line else literalRest quote line

theorem literalRest_length {line rest : List Char} (h : literalRest quote line = some rest) :
    rest.length < line.length := by
  fun_induction literalRest quote line with
  | case1 => cases h
  | case2 => cases h
  | case3 _ line ih =>
    have := ih h
    simp only [List.length_cons]
    omega
  | case4 line =>
    cases h
    simp
  | case5 _ line _ _ _ ih =>
    have := ih h
    simp only [List.length_cons]
    omega

/-- `strip_literals`: every literal that is closed on the line becomes an empty one. -/
def stripLiterals (line : List Char) : List Char :=
  match line with
  | [] => []
  | character :: line =>
    if character = '"' ∨ character = '\'' then
      match _hrest : literalRest character line with
      | some rest => '"' :: '"' :: stripLiterals rest
      | none => character :: stripLiterals line
    else character :: stripLiterals line
termination_by line.length
decreasing_by
  · have := literalRest_length _hrest
    simp only [List.length_cons]
    omega
  · simp
  · simp

abbrev IsQuote (character : Char) : Prop := character = '"' ∨ character = '\''

theorem literalRest_escape : literalRest quote ('\\' :: character :: line) =
    literalRest quote line := rfl

theorem literalRest_cons (h : character ≠ '\\') : literalRest quote (character :: line) =
    if character = quote then some line else literalRest quote line := by
  rw [literalRest]
  · exact fun he _ => h he
  · exact fun _ _ he _ => h he

@[simp] theorem stripLiterals_nil : stripLiterals [] = [] := by
  rw [stripLiterals]

theorem stripLiterals_cons (h : ¬IsQuote character) :
    stripLiterals (character :: line) = character :: stripLiterals line := by
  rw [stripLiterals, if_neg h]

theorem stripLiterals_append (h : front.any (fun character => IsQuote character) = false) :
    stripLiterals (front ++ line) = front ++ stripLiterals line := by
  induction front with
  | nil => rfl
  | cons character front ih =>
    rw [List.any_cons, Bool.or_eq_false_iff, decide_eq_false_iff_not] at h
    rw [List.cons_append, stripLiterals_cons h.1, ih h.2, List.cons_append]

theorem stripLiterals_closed (hquote : IsQuote quote) (h : literalRest quote line = some rest) :
    stripLiterals (quote :: line) = '"' :: '"' :: stripLiterals rest := by
  rw [stripLiterals, if_pos hquote]
  split
  · next rest' hrest =>
    rw [h, Option.some.injEq] at hrest
    rw [hrest]
  · next hnone =>
    rw [h] at hnone
    cases hnone

theorem stripLiterals_open (hquote : IsQuote quote) (h : literalRest quote line = none) :
    stripLiterals (quote :: line) = quote :: stripLiterals line := by
  rw [stripLiterals, if_pos hquote]
  split
  · next rest hrest =>
    rw [h] at hrest
    cases hrest
  · rfl

theorem stripLiterals_eq_nil : stripLiterals line = [] ↔ line = [] := by
  refine ⟨fun h => ?_, fun h => h ▸ stripLiterals_nil⟩
  cases line with
  | nil => rfl
  | cons character line =>
    rw [stripLiterals] at h
    split at h
    · split at h
      · cases h
      · cases h
    · cases h

theorem stripLiterals_eq_backslash : stripLiterals line = ['\\'] ↔ line = ['\\'] := by
  cases line with
  | nil => rw [stripLiterals_nil]
  | cons character line =>
    by_cases hquote : IsQuote character
    · refine iff_of_false (fun h => ?_) fun h => ?_
      · cases hrest : literalRest character line with
        | some rest =>
          rw [stripLiterals_closed hquote hrest] at h
          cases h
        | none =>
          rw [stripLiterals_open hquote hrest, List.cons.injEq] at h
          rw [h.1] at hquote
          revert hquote
          decide
      · cases h
        revert hquote
        decide
    · rw [stripLiterals_cons hquote, List.cons.injEq, List.cons.injEq, stripLiterals_eq_nil]

/-- The lines of a file without their comments, as `check_file` goes through them. -/
def uncommentedLines (inBlock : Bool) : List (List Char) → List (List Char)
  | [] => []
  | line :: lines =>
    let (uncommented, stillInBlock) := stripComments line inBlock
    uncommented :: uncommentedLines stillInBlock lines

/-- The numbers of the lines where a rule about the structure of the code fires. -/
def structuralFindings (rule : List Char → Bool) (uncommented : List (List Char)) : List Nat :=
  (uncommented.zipIdx 1).filterMap fun (line, number) =>
    if rule (stripLiterals line) then some number else none

end StyleCheck
end HiTuxShare
