import Mathlib.Data.List.DropRight
import Mathlib.Tactic.Common

set_option autoImplicit true

/-- What is left of a list when everything that satisfies `p` is taken off its two ends. -/
def trim (p : α → Bool) (l : List α) : List α := (l.dropWhile p).rdropWhile p

section
variable {p : α → Bool} {l m : List α}

theorem dropWhile_append_of_all (h : ∀ x ∈ l, p x = true) :
    (l ++ m).dropWhile p = m.dropWhile p := by
  induction l with
  | nil => rfl
  | cons x l ih =>
    rw [List.cons_append, List.dropWhile_cons_of_pos (h x List.mem_cons_self)]
    exact ih fun y hm => h y (List.mem_cons_of_mem x hm)

theorem dropWhile_append_of_not_all (h : ¬∀ x ∈ l, p x = true) :
    (l ++ m).dropWhile p = l.dropWhile p ++ m := by
  induction l with
  | nil => exact (h fun x hm => absurd hm List.not_mem_nil).elim
  | cons x l ih =>
    rw [List.cons_append]
    by_cases hx : p x = true
    · rw [List.dropWhile_cons_of_pos hx, List.dropWhile_cons_of_pos hx]
      apply ih
      intro hall
      exact h (List.forall_mem_cons.mpr ⟨hx, hall⟩)
    · rw [List.dropWhile_cons_of_neg hx, List.dropWhile_cons_of_neg hx, List.cons_append]

theorem rdropWhile_append_of_not_all (h : ¬∀ x ∈ m, p x = true) :
    (l ++ m).rdropWhile p = l ++ m.rdropWhile p := by
  have hreverse : ¬∀ x ∈ m.reverse, p x = true := by simpa only [List.mem_reverse] using h
  rw [List.rdropWhile, List.reverse_append, dropWhile_append_of_not_all hreverse,
    List.reverse_append, List.reverse_reverse, List.rdropWhile]

theorem head_of_dropWhile_eq_cons {x : α} (h : l.dropWhile p = x :: m) : p x = false := by
  induction l with
  | nil => cases h
  | cons y l ih =>
    cases hy : p y with
    | true => exact ih (by rwa [List.dropWhile_cons_of_pos hy] at h)
    | false =>
      rw [List.dropWhile_cons_of_neg (by rw [hy]; exact Bool.false_ne_true)] at h
      exact (List.head_eq_of_cons_eq h) ▸ hy

theorem takeWhile_append_stop {x : α} (hx : p x = false) (l m : List α) :
    (l ++ x :: m).takeWhile p = l.takeWhile p := by
  induction l with
  | nil => simp [hx]
  | cons y l ih =>
    rw [List.cons_append, List.takeWhile_cons, List.takeWhile_cons, ih]

theorem dropWhile_append_stop {x : α} (hx : p x = false) (l m : List α) :
    (l ++ x :: m).dropWhile p = l.dropWhile p ++ x :: m := by
  induction l with
  | nil => simp [hx]
  | cons y l ih =>
    cases hy : p y <;> simp [hy, ih]

theorem rdropWhile_append_of_all (h : ∀ x ∈ m, p x = true) :
    (l ++ m).rdropWhile p = l.rdropWhile p := by
  have hreverse : ∀ x ∈ m.reverse, p x = true := by simpa only [List.mem_reverse] using h
  rw [List.rdropWhile, List.reverse_append, dropWhile_append_of_all hreverse, List.rdropWhile]

theorem rdropWhile_cons_of_neg {x : α} (hx : p x = false) (l : List α) :
    (x :: l).rdropWhile p = x :: l.rdropWhile p := by
  by_cases h : ∀ y ∈ l, p y = true
  · rw [← List.singleton_append, rdropWhile_append_of_all h, List.rdropWhile_singleton, hx,
      List.rdropWhile_eq_nil_iff.mpr h]
    rfl
  · exact rdropWhile_append_of_not_all h (l := [x])

theorem not_all_rdropWhile (h : ¬∀ x ∈ l, p x = true) : ¬∀ x ∈ l.rdropWhile p, p x = true := by
  have hne : l.rdropWhile p ≠ [] := fun heq => h (List.rdropWhile_eq_nil_iff.mp heq)
  intro hall
  exact List.rdropWhile_last_not p l hne (hall _ (List.getLast_mem hne))

theorem not_all_dropWhile (h : ¬∀ x ∈ l, p x = true) : ¬∀ x ∈ l.dropWhile p, p x = true := by
  intro hall
  apply h
  rw [← List.dropWhile_eq_nil_iff]
  by_contra hne
  exact absurd (hall _ (List.head_mem hne)) (by simp [List.head_dropWhile_not])

theorem trim_eq_nil_iff : trim p l = [] ↔ ∀ x ∈ l, p x = true := by
  rw [trim, List.rdropWhile_eq_nil_iff]
  constructor
  · intro h
    by_contra hnot
    exact not_all_dropWhile hnot h
  · intro h x hm
    exact h x ((List.dropWhile_sublist p).subset hm)

theorem trim_append_of_all (h : ∀ x ∈ l, p x = true) : trim p (l ++ m) = trim p m := by
  rw [trim, dropWhile_append_of_all h, trim]

theorem trim_append_of_not_all (hl : ¬∀ x ∈ l, p x = true) (hm : ¬∀ x ∈ m, p x = true) :
    trim p (l ++ m) = l.dropWhile p ++ m.rdropWhile p := by
  rw [trim, dropWhile_append_of_not_all hl, rdropWhile_append_of_not_all hm]

theorem trim_rdropWhile (p : α → Bool) (l : List α) : trim p (l.rdropWhile p) = trim p l := by
  by_cases h : ∀ x ∈ l, p x = true
  · rw [List.rdropWhile_eq_nil_iff.mpr h, trim_eq_nil_iff.mpr h]
    rfl
  · have hsplit := List.rdropWhile_append_rtakeWhile (p := p) (l := l)
    have hfront : l.dropWhile p = (l.rdropWhile p).dropWhile p ++ l.rtakeWhile p := by
      conv_lhs => rw [← hsplit]
      exact dropWhile_append_of_not_all (not_all_rdropWhile h)
    rw [trim, trim, hfront, rdropWhile_append_of_all]
    exact fun x hm => List.mem_rtakeWhile_imp hm

theorem trim_trim (p : α → Bool) (l : List α) : trim p (trim p l) = trim p l := by
  have hfront : (l.dropWhile p).dropWhile p = l.dropWhile p := List.dropWhile_idempotent p l
  calc trim p (trim p l) = trim p (l.dropWhile p) := trim_rdropWhile p _
    _ = trim p l := by rw [trim, hfront, trim]

theorem dropWhile_of_trim_eq (h : trim p l = l) : l.dropWhile p = l := by
  have hlength : l.length ≤ (l.dropWhile p).length := by
    conv_lhs => rw [← h]
    exact (List.rdropWhile_prefix p _).length_le
  exact (List.dropWhile_suffix p).eq_of_length_le hlength

theorem rdropWhile_of_trim_eq (h : trim p l = l) : l.rdropWhile p = l := by
  rwa [trim, dropWhile_of_trim_eq h] at h

theorem rdropWhile_map {q : β → Bool} {f : α → β} (h : ∀ x, q (f x) = p x) (l : List α) :
    (l.map f).rdropWhile q = (l.rdropWhile p).map f := by
  have hcomp : q ∘ f = p := funext h
  rw [List.rdropWhile, List.rdropWhile, ← List.map_reverse, List.dropWhile_map, hcomp,
    List.map_reverse]

theorem trim_map {q : β → Bool} {f : α → β} (h : ∀ x, q (f x) = p x) (l : List α) :
    trim q (l.map f) = (trim p l).map f := by
  have hcomp : q ∘ f = p := funext h
  rw [trim, trim, List.dropWhile_map, hcomp, rdropWhile_map h]

theorem trim_split (p : α → Bool) (l : List α) : ∃ front behind, (∀ x ∈ front, p x = true) ∧
    (∀ x ∈ behind, p x = true) ∧ l = front ++ (trim p l ++ behind) := by
  refine ⟨l.takeWhile p, (l.dropWhile p).rtakeWhile p, fun x hm => List.mem_takeWhile_imp hm,
    fun x hm => List.mem_rtakeWhile_imp hm, ?_⟩
  rw [trim, List.rdropWhile_append_rtakeWhile, List.takeWhile_append_dropWhile]

theorem trim_append_of_all_right (h : ∀ x ∈ m, p x = true) : trim p (l ++ m) = trim p l := by
  rw [← trim_rdropWhile p (l ++ m), rdropWhile_append_of_all h, trim_rdropWhile]

/-- Where nothing that is trimmed off is cut at, a list can be trimmed before it is cut. -/
theorem trim_takeWhile_trim {q : α → Bool} (h : ∀ x, p x = true → q x = true) (l : List α) :
    trim p ((trim p l).takeWhile q) = trim p (l.takeWhile q) := by
  obtain ⟨front, behind, hfront, hbehind, hl⟩ := trim_split p l
  conv_rhs => rw [hl]
  rw [List.takeWhile_append_of_pos fun x hm => h x (hfront x hm), trim_append_of_all hfront]
  by_cases hall : ∀ x ∈ trim p l, q x = true
  · have hbehind' : behind.takeWhile q = behind :=
      List.takeWhile_eq_self_iff.mpr fun x hm => h x (hbehind x hm)
    rw [List.takeWhile_append_of_pos hall, hbehind', trim_append_of_all_right hbehind,
      List.takeWhile_eq_self_iff.mpr hall]
  · have hstop : (trim p l ++ behind).takeWhile q = (trim p l).takeWhile q := by
      have hlength : ((trim p l).takeWhile q).length ≠ (trim p l).length := by
        intro he
        have heq := (List.takeWhile_prefix (p := q) (l := trim p l)).eq_of_length he
        exact hall (List.takeWhile_eq_self_iff.mp heq)
      rw [List.takeWhile_append, if_neg hlength]
    rw [hstop]

theorem trim_sublist (p : α → Bool) (l : List α) : (trim p l).Sublist l :=
  (List.rdropWhile_prefix p _).sublist.trans (List.dropWhile_sublist p)

theorem length_trim_le (p : α → Bool) (l : List α) : (trim p l).length ≤ l.length :=
  (trim_sublist p l).length_le

end
