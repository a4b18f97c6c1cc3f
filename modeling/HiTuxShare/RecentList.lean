import Mathlib.Data.List.Induction
import Mathlib.Data.List.Infix
import Mathlib.Data.List.Nodup
import Mathlib.Tactic.Common

set_option autoImplicit true

/-! Lists that have what was used last in front. Entries of one key count as the same. -/

namespace RecentList

variable {α : Type u} {β : Type v} [DecidableEq β] {key : α → β} {bound : Nat}

/-- An entry that is there already moves, a new one is added. -/
def promote (key : α → β) (l : List α) (x : α) : List α := x :: l.filter fun y => key y ≠ key x

/-- What does not fit any longer is dropped. -/
def remember (key : α → β) (bound : Nat) (l : List α) (x : α) : List α :=
  (promote key l x).take bound

/-- What was used, without what was used again later. -/
def mostRecent (key : α → β) (xs : List α) : List α := xs.foldl (promote key) []

theorem promote_nodup (h : (l.map key).Nodup) (x : α) : ((promote key l x).map key).Nodup := by
  rw [promote, List.map_cons, List.nodup_cons]
  constructor
  · intro hm
    obtain ⟨y, hy, hk⟩ := List.mem_map.mp hm
    exact of_decide_eq_true (List.mem_filter.mp hy).2 hk
  · exact h.sublist (List.filter_sublist.map key)

theorem mostRecent_nodup (key : α → β) (xs : List α) : ((mostRecent key xs).map key).Nodup := by
  apply List.foldlRecOn xs (promote key) (motive := fun l => (l.map key).Nodup) List.nodup_nil
  intro l hl x _
  exact promote_nodup hl x

theorem length_filter_ne {l : List α} (h : (l.map key).Nodup) (k : β) :
    l.length ≤ (l.filter fun y => key y ≠ k).length + 1 := by
  have hcount : l.countP (fun y => key y = k) ≤ 1 := by
    have hone := List.nodup_iff_count_le_one.mp h k
    rw [List.count, List.countP_map] at hone
    exact hone
  have hsplit := List.length_eq_countP_add_countP (fun y => decide (key y = k)) (l := l)
  rw [← List.countP_eq_length_filter]
  simp only [decide_eq_true_eq, ne_eq] at hsplit ⊢
  omega

theorem take_filter_take {l : List α} (h : (l.map key).Nodup) (k : β) (n : Nat) :
    (l.filter fun y => key y ≠ k).take n =
      ((l.take (n + 1)).filter fun y => key y ≠ k).take n := by
  by_cases hn : l.length ≤ n + 1
  · rw [List.take_of_length_le hn]
  · have hlength : (l.take (n + 1)).length = n + 1 := by
      rw [List.length_take]
      omega
    have hlong := length_filter_ne (h.sublist ((List.take_sublist (n + 1) l).map key)) k
    rw [hlength] at hlong
    conv_lhs => rw [← List.take_append_drop (n + 1) l, List.filter_append]
    exact List.take_append_of_le_length (Nat.le_of_succ_le_succ hlong)

theorem take_promote_prefix {l m : List α} (h : (m.map key).Nodup) (hm : m.take bound <+: l) (x : α) :
    (promote key m x).take bound <+: remember key bound l x := by
  cases bound with
  | zero => exact List.nil_prefix
  | succ n =>
    rw [remember, promote, promote, List.take_succ_cons, List.take_succ_cons,
      take_filter_take h, List.prefix_cons_inj]
    exact List.IsPrefix.take (hm.filter _) n

/-- Whatever was there before: in front there is what was used, the latest first. -/
theorem mostRecent_prefix (key : α → β) (bound : Nat) (l xs : List α) :
    (mostRecent key xs).take bound <+: xs.foldl (remember key bound) l := by
  induction xs using List.reverseRecOn with
  | nil =>
    rw [mostRecent, List.foldl_nil, List.take_nil]
    exact List.nil_prefix
  | append_singleton xs x ih =>
    rw [mostRecent, List.foldl_append, List.foldl_append]
    exact take_promote_prefix (mostRecent_nodup key xs) ih x

/-- The entries of one key. -/
def copies (key : α → β) (k : β) (l : List α) : List α := l.filter fun y => key y = k

theorem copies_remember_self (bound : Nat) (l : List α) (x : α) :
    (copies key (key x) (remember key bound l x)).length ≤ 1 := by
  have hsub : (copies key (key x) (remember key bound l x)).Sublist
      (copies key (key x) (promote key l x)) := (List.take_sublist ..).filter _
  have hpromote : copies key (key x) (promote key l x) = [x] := by
    have hnone : ∀ y ∈ l, ¬ (decide (key y = key x) && decide (key y ≠ key x)) = true := by
      intro y _
      simp
    rw [copies, promote, List.filter_cons, if_pos (decide_eq_true rfl), List.filter_filter,
      List.filter_eq_nil_iff.mpr hnone]
  rw [hpromote] at hsub
  exact hsub.length_le

theorem copies_remember_of_ne (hk : key x ≠ k) (bound : Nat) (l : List α) :
    (copies key k (remember key bound l x)).length ≤ (copies key k l).length := by
  have hsub : (copies key k (remember key bound l x)).Sublist
      (copies key k (promote key l x)) := (List.take_sublist ..).filter _
  have hpromote : (copies key k (promote key l x)).Sublist (copies key k l) := by
    rw [copies, promote, List.filter_cons_of_neg (by simpa using hk)]
    exact List.filter_sublist.filter _
  exact (hsub.trans hpromote).length_le

theorem copies_foldl_remember {xs : List α} (hm : x ∈ xs) (bound : Nat) (l : List α) :
    (copies key (key x) (xs.foldl (remember key bound) l)).length ≤ 1 := by
  induction xs using List.reverseRecOn with
  | nil => cases hm
  | append_singleton xs y ih =>
    rw [List.foldl_append]
    by_cases hk : key y = key x
    · rw [← hk]
      exact copies_remember_self bound _ y
    · have hold : x ∈ xs := by
        rcases List.mem_append.mp hm with hm | hm
        · exact hm
        · cases List.mem_singleton.mp hm
          exact absurd rfl hk
      exact Nat.le_trans (copies_remember_of_ne hk bound _) (ih hold)

/-- Nothing goes but for want of room. -/
theorem known_or_cut (hm : y ∈ l) (hk : key y ≠ key x) (bound : Nat) :
    y ∈ remember key bound l x ∨ y ∈ (promote key l x).drop bound := by
  rw [remember, ← List.mem_append, List.take_append_drop]
  exact List.mem_cons_of_mem _ (List.mem_filter.mpr ⟨hm, decide_eq_true hk⟩)

end RecentList
