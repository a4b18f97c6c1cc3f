import Mathlib.Data.List.Count
import Mathlib.Tactic.Common

set_option autoImplicit true

/-- The parts of a list that `stop` ends. What follows the last one is no part. -/
def endedLines [DecidableEq α] (stop : α) : List α → List (List α)
  | [] => []
  | x :: l =>
    if x = stop then [] :: endedLines stop l
    else
      match endedLines stop l with
      | [] => []
      | line :: lines => (x :: line) :: lines

section
variable [DecidableEq α] {stop : α} {line : List α} {lines : List (List α)}

theorem endedLines_append (h : stop ∉ line) (l : List α) :
    endedLines stop (line ++ stop :: l) = line :: endedLines stop l := by
  induction line with
  | nil => exact if_pos rfl
  | cons x line ih =>
    rw [List.mem_cons, not_or] at h
    rw [List.cons_append, endedLines, if_neg (Ne.symm h.1), ih h.2]

theorem length_endedLines (stop : α) (l : List α) :
    (endedLines stop l).length = l.count stop := by
  induction l with
  | nil => rfl
  | cons x l ih =>
    rw [endedLines]
    split
    · next h => rw [h, List.length_cons, ih, List.count_cons_self]
    · next h =>
      rw [List.count_cons_of_ne h, ← ih]
      cases endedLines stop l with
      | nil => rfl
      | cons line lines => rfl

theorem endedLines_flatMap (h : ∀ line ∈ lines, stop ∉ line) :
    endedLines stop (lines.flatMap fun line => line ++ [stop]) = lines := by
  induction lines with
  | nil => rfl
  | cons line lines ih =>
    obtain ⟨hline, h⟩ := List.forall_mem_cons.mp h
    rw [List.flatMap_cons, List.append_assoc]
    exact (endedLines_append hline _).trans (congrArg (line :: ·) (ih h))

theorem count_flatMap_lines (stop : α) (lines : List (List α)) :
    (lines.flatMap fun line => line ++ [stop]).count stop =
      lines.length + lines.flatten.count stop := by
  induction lines with
  | nil => rfl
  | cons line lines ih =>
    rw [List.flatMap_cons, List.count_append, ih, List.count_append, List.count_singleton_self,
      List.flatten_cons, List.count_append, List.length_cons]
    omega

/-- Lines are found again exactly if the end of a line stands in none of them. -/
theorem endedLines_flatMap_iff :
    endedLines stop (lines.flatMap fun line => line ++ [stop]) = lines ↔
      ∀ line ∈ lines, stop ∉ line := by
  constructor
  · intro h line hm hstop
    have hlength := congrArg List.length h
    rw [length_endedLines, count_flatMap_lines, Nat.add_eq_left, List.count_eq_zero] at hlength
    exact hlength (List.mem_flatten.mpr ⟨line, hm, hstop⟩)
  · exact endedLines_flatMap

end
