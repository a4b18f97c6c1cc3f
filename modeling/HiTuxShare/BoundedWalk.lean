import Mathlib.Algebra.BigOperators.Group.List.Basic
import Mathlib.Algebra.GroupWithZero.Nat
import Mathlib.Tactic.Common

set_option autoImplicit true

/-- An entry of a folder: a folder again, a file, or something a walk passes over. -/
inductive WalkEntry (α : Type u) (β : Type v) where
  | skipped
  | folder (a : α)
  | file (b : β)

namespace WalkEntry

def files (below : α → List β) : WalkEntry α β → List β
  | .skipped => []
  | .folder a => below a
  | .file b => [b]

/-- A file is worth `cost` steps beside the one that reads its entry. -/
def steps (cost : Nat) (below : α → Nat) : WalkEntry α β → Nat
  | .skipped => 1
  | .folder a => below a + 1
  | .file _ => cost + 1

end WalkEntry

/-! A folder may contain itself, so a walk goes down a bounded number of levels only. -/

namespace BoundedWalk

variable {α : Type u} {β : Type v} {entries : α → List (WalkEntry α β)}

/-- The files of a folder and of those below it, as a walk comes past them. -/
def filesBelow (entries : α → List (WalkEntry α β)) : Nat → α → List β
  | 0, _ => []
  | levels + 1, a => (entries a).flatMap (WalkEntry.files (filesBelow entries levels))

def stepsBelow (cost : Nat) (entries : α → List (WalkEntry α β)) : Nat → α → Nat
  | 0, _ => 0
  | levels + 1, a =>
    ((entries a).map (WalkEntry.steps cost (stepsBelow cost entries levels))).sum + 1

/-- `depth` steps down from one folder to another. -/
inductive Reaches (entries : α → List (WalkEntry α β)) : Nat → α → α → Prop where
  | here (a : α) : Reaches entries 0 a a
  | down (hm : .folder a' ∈ entries a) (h : Reaches entries depth a' c) :
      Reaches entries (depth + 1) a c

theorem mem_filesBelow : b ∈ filesBelow entries levels a ↔
    ∃ depth < levels, ∃ folder, Reaches entries depth a folder ∧ .file b ∈ entries folder := by
  induction levels generalizing a with
  | zero => simp only [filesBelow, List.not_mem_nil, Nat.not_lt_zero, false_and, exists_false]
  | succ levels ih =>
    rw [filesBelow, List.mem_flatMap]
    constructor
    · rintro ⟨entry, hm, hb⟩
      cases entry with
      | skipped => cases hb
      | file b' =>
        cases List.mem_singleton.mp hb
        exact ⟨0, Nat.succ_pos _, a, .here a, hm⟩
      | folder a' =>
        obtain ⟨depth, hd, folder, hr, hf⟩ := ih.mp hb
        exact ⟨depth + 1, Nat.succ_lt_succ hd, folder, .down hm hr, hf⟩
    · rintro ⟨depth, hd, folder, hr, hf⟩
      cases hr with
      | here => exact ⟨_, hf, List.mem_singleton.mpr rfl⟩
      | down hm hr =>
        exact ⟨_, hm, ih.mpr ⟨_, Nat.lt_of_succ_lt_succ hd, folder, hr, hf⟩⟩

theorem Reaches.keeps {P : α → Prop} (h : Reaches entries depth a c)
    (hstep : ∀ a a', P a → .folder a' ∈ entries a → P a') (ha : P a) : P c := by
  induction h with
  | here => exact ha
  | down hm hr ih => exact ih (hstep _ _ ha hm)

section Stack

variable {bound : Nat}

/-- The folders that are open, each with the entries still to be read, the innermost first. -/
abbrev Stack (α : Type u) (β : Type v) := List (List (WalkEntry α β))

/-- At most `bound` folders are open. -/
def enter (entries : α → List (WalkEntry α β)) (bound : Nat) (a : α) (stack : Stack α β) :
    Stack α β :=
  if stack.length < bound then entries a :: stack else stack

/-- The files the walk has still to come past. -/
def filesLeft (entries : α → List (WalkEntry α β)) (bound : Nat) : Stack α β → List β
  | [] => []
  | unread :: outer =>
    unread.flatMap (WalkEntry.files (filesBelow entries (bound - (outer.length + 1)))) ++
      filesLeft entries bound outer

def stepsLeft (cost : Nat) (entries : α → List (WalkEntry α β)) (bound : Nat) : Stack α β → Nat
  | [] => 0
  | unread :: outer =>
    (unread.map (WalkEntry.steps cost (stepsBelow cost entries (bound - (outer.length + 1))))).sum +
      1 + stepsLeft cost entries bound outer

@[simp] theorem filesLeft_read (outer : Stack α β) :
    filesLeft entries bound ([] :: outer) = filesLeft entries bound outer := rfl

@[simp] theorem filesLeft_skipped (unread : List (WalkEntry α β)) (outer : Stack α β) :
    filesLeft entries bound ((.skipped :: unread) :: outer) =
      filesLeft entries bound (unread :: outer) := rfl

@[simp] theorem filesLeft_file (b : β) (unread : List (WalkEntry α β)) (outer : Stack α β) :
    filesLeft entries bound ((.file b :: unread) :: outer) =
      b :: filesLeft entries bound (unread :: outer) := rfl

theorem enter_levels (entries : α → List (WalkEntry α β)) (bound : Nat) (a : α)
    (stack : Stack α β) :
    enter entries bound a stack = entries a :: stack ∧
        bound - stack.length = (bound - (stack.length + 1)) + 1 ∨
      enter entries bound a stack = stack ∧ bound - stack.length = 0 := by
  rw [enter]
  split
  · next hlt => exact .inl ⟨rfl, by omega⟩
  · next hge => exact .inr ⟨rfl, Nat.sub_eq_zero_of_le (Nat.le_of_not_lt hge)⟩

/-- Entering a folder leaves as many files to come past as its entry did. -/
theorem filesLeft_enter (a : α) (stack : Stack α β) : filesLeft entries bound
    (enter entries bound a stack) =
      filesBelow entries (bound - stack.length) a ++ filesLeft entries bound stack := by
  rcases enter_levels entries bound a stack with ⟨henter, hlevels⟩ | ⟨henter, hlevels⟩
  · rw [henter, hlevels]
    rfl
  · rw [henter, hlevels]
    rfl

@[simp] theorem filesLeft_folder (a : α) (unread : List (WalkEntry α β)) (outer : Stack α β) :
    filesLeft entries bound ((.folder a :: unread) :: outer) =
      filesLeft entries bound (enter entries bound a (unread :: outer)) := by
  rw [filesLeft_enter, filesLeft, filesLeft, List.flatMap_cons, List.append_assoc]
  rfl

variable {cost : Nat}

theorem stepsLeft_read (outer : Stack α β) : stepsLeft cost entries bound ([] :: outer) =
    stepsLeft cost entries bound outer + 1 := by
  rw [stepsLeft, List.map_nil, List.sum_nil]
  omega

theorem stepsLeft_entry (entry : WalkEntry α β) (unread : List (WalkEntry α β))
    (outer : Stack α β) : stepsLeft cost entries bound ((entry :: unread) :: outer) =
      entry.steps cost (stepsBelow cost entries (bound - (outer.length + 1))) +
        stepsLeft cost entries bound (unread :: outer) := by
  rw [stepsLeft, stepsLeft, List.map_cons, List.sum_cons]
  omega

theorem stepsLeft_enter (cost : Nat) (entries : α → List (WalkEntry α β)) (bound : Nat) (a : α)
    (stack : Stack α β) : stepsLeft cost entries bound (enter entries bound a stack) =
      stepsBelow cost entries (bound - stack.length) a + stepsLeft cost entries bound stack := by
  rcases enter_levels entries bound a stack with ⟨henter, hlevels⟩ | ⟨henter, hlevels⟩
  · rw [henter, hlevels]
    rfl
  · rw [henter, hlevels, stepsBelow, Nat.zero_add]

end Stack

end BoundedWalk
