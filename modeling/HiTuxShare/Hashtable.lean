import Mathlib.Algebra.GroupWithZero.Nat
import Mathlib.Algebra.Order.BigOperators.Group.List
import Mathlib.Algebra.Order.Group.Nat
import Mathlib.Data.List.Induction
import Mathlib.Data.List.Nodup

set_option autoImplicit true

/-- A finite map that iterates in insertion order; no key occurs twice. -/
structure Hashtable (κ : Type u) (α : Type v) where
  entries : List (κ × α)
  nodup : (entries.map Prod.fst).Nodup

namespace Hashtable

variable {κ : Type u} {α : Type v} [DecidableEq κ]

instance [DecidableEq α] : DecidableEq (Hashtable κ α) := fun s t =>
  decidable_of_iff (s.entries = t.entries) (by cases s; cases t; simp)

def empty : Hashtable κ α := ⟨[], List.nodup_nil⟩

def get? (t : Hashtable κ α) (k : κ) : Option α :=
  (t.entries.find? fun e => e.1 = k).map Prod.snd

/-- Overwriting keeps an entry's place; a new key goes to the end. -/
def put (t : Hashtable κ α) (k : κ) (v : α) : Hashtable κ α :=
  if h : k ∈ t.entries.map Prod.fst then
    ⟨t.entries.map fun e => if e.1 = k then (k, v) else e, by
      have he : (t.entries.map fun e => if e.1 = k then (k, v) else e).map Prod.fst =
          t.entries.map Prod.fst := by
        rw [List.map_map]
        apply List.map_congr_left
        intro e _
        by_cases hk : e.1 = k <;> simp [hk]
      exact he ▸ t.nodup⟩
  else
    ⟨t.entries ++ [(k, v)], by
      rw [List.map_append]
      exact List.Nodup.append t.nodup (by simp) (by simpa using h)⟩

def remove (t : Hashtable κ α) (k : κ) : Hashtable κ α :=
  ⟨t.entries.filter fun e => e.1 ≠ k, t.nodup.sublist (List.filter_sublist.map _)⟩

/-- The sum of a weight over all values. -/
def total (t : Hashtable κ α) (f : α → Nat) : Nat := (t.entries.map fun e => f e.2).sum

/-- How many values satisfy the predicate. -/
def count (t : Hashtable κ α) (p : α → Bool) : Nat := t.total fun v => (p v).toNat

theorem get?_eq_some_iff {t : Hashtable κ α} : t.get? k = some v ↔ (k, v) ∈ t.entries := by
  obtain ⟨l, hl⟩ := t
  simp only [get?]
  induction l with
  | nil => simp
  | cons e l ih =>
    obtain ⟨k', v'⟩ := e
    simp only [List.map_cons, List.nodup_cons] at hl
    by_cases hk : k' = k
    · subst hk
      have hnot : (k', v) ∉ l := fun hm => hl.1 (List.mem_map.mpr ⟨_, hm, rfl⟩)
      simp [hnot, eq_comm]
    · simp [hk, Ne.symm hk, ih hl.2]

theorem mem_keys_of_get? {t : Hashtable κ α} (h : t.get? k = some v) :
    k ∈ t.entries.map Prod.fst :=
  List.mem_map.mpr ⟨_, get?_eq_some_iff.mp h, rfl⟩

theorem put_entries_of_mem {t : Hashtable κ α} (h : k ∈ t.entries.map Prod.fst) (v : α) :
    (t.put k v).entries = t.entries.map fun e => if e.1 = k then (k, v) else e := by
  rw [put, dif_pos h]

theorem put_entries_of_not_mem {t : Hashtable κ α} (h : k ∉ t.entries.map Prod.fst) (v : α) :
    (t.put k v).entries = t.entries ++ [(k, v)] := by
  rw [put, dif_neg h]

theorem mem_entries_put {t : Hashtable κ α} (h : e ∈ (t.put k v).entries) :
    e = (k, v) ∨ e ∈ t.entries := by
  by_cases hk : k ∈ t.entries.map Prod.fst
  · rw [put_entries_of_mem hk] at h
    obtain ⟨e', he', rfl⟩ := List.mem_map.mp h
    by_cases hk' : e'.1 = k
    · exact .inl (if_pos hk')
    · rw [if_neg hk']
      exact .inr he'
  · rw [put_entries_of_not_mem hk] at h
    rcases List.mem_append.mp h with h | h
    · exact .inr h
    · exact .inl (List.mem_singleton.mp h)

@[simp] theorem get?_put_self (t : Hashtable κ α) (k : κ) (v : α) :
    (t.put k v).get? k = some v := by
  rw [get?_eq_some_iff]
  by_cases h : k ∈ t.entries.map Prod.fst
  · obtain ⟨e, he, rfl⟩ := List.mem_map.mp h
    rw [put_entries_of_mem h]
    exact List.mem_map.mpr ⟨e, he, by simp⟩
  · rw [put_entries_of_not_mem h]
    simp

theorem get?_put_of_ne (t : Hashtable κ α) (v : α) (h : k' ≠ k) :
    (t.put k v).get? k' = t.get? k' := by
  ext u
  rw [get?_eq_some_iff, get?_eq_some_iff]
  by_cases hk : k ∈ t.entries.map Prod.fst
  · rw [put_entries_of_mem hk, List.mem_map]
    constructor
    · rintro ⟨e, he, heq⟩
      by_cases hek : e.1 = k
      · simp only [hek, ↓reduceIte, Prod.mk.injEq] at heq
        exact (h heq.1.symm).elim
      · rw [if_neg hek] at heq
        exact heq ▸ he
    · exact fun hm => ⟨_, hm, if_neg h⟩
  · rw [put_entries_of_not_mem hk]
    simp [h]

theorem get?_put (t : Hashtable κ α) (k k' : κ) (v : α) :
    (t.put k v).get? k' = if k' = k then some v else t.get? k' := by
  by_cases h : k' = k
  · subst h; simp
  · rw [get?_put_of_ne t v h, if_neg h]

theorem get?_remove (t : Hashtable κ α) (k k' : κ) :
    (t.remove k).get? k' = if k' = k then none else t.get? k' := by
  ext u
  rw [get?_eq_some_iff]
  by_cases h : k' = k
  · simp [remove, h]
  · simp [remove, h, get?_eq_some_iff]

@[simp] theorem remove_put (t : Hashtable κ α) (k : κ) (v : α) :
    (t.put k v).remove k = t.remove k := by
  have hmem (l : List (κ × α)) : (l.map fun e => if e.1 = k then (k, v) else e).filter
      (fun e => e.1 ≠ k) = l.filter fun e => e.1 ≠ k := by
    induction l with
    | nil => rfl
    | cons e l ih => by_cases he : e.1 = k <;> simp_all
  simp only [remove, mk.injEq]
  by_cases h : k ∈ t.entries.map Prod.fst
  · rw [put_entries_of_mem h, hmem]
  · rw [put_entries_of_not_mem h]
    simp

theorem map_overwrite_of_not_mem {l : List (κ × α)} (h : k ∉ l.map Prod.fst) (v : α) :
    (l.map fun e => if e.1 = k then (k, v) else e) = l := by
  refine (List.map_congr_left fun e hm => ?_).trans (List.map_id l)
  exact if_neg fun hek => h (List.mem_map.mpr ⟨e, hm, hek⟩)

@[simp] theorem put_put (t : Hashtable κ α) (k : κ) (v v' : α) :
    (t.put k v).put k v' = t.put k v' := by
  have hk : k ∈ (t.put k v).entries.map Prod.fst := mem_keys_of_get? (get?_put_self t k v)
  have he : ((t.put k v).put k v').entries = (t.put k v').entries := by
    rw [put_entries_of_mem hk]
    by_cases h : k ∈ t.entries.map Prod.fst
    · rw [put_entries_of_mem h, put_entries_of_mem h, List.map_map]
      apply List.map_congr_left
      intro e _
      by_cases hek : e.1 = k <;> simp [hek]
    · rw [put_entries_of_not_mem h, put_entries_of_not_mem h, List.map_append]
      rw [map_overwrite_of_not_mem h]
      simp
  cases hl : (t.put k v).put k v'
  cases hr : t.put k v'
  simpa [hl, hr] using he

theorem put_entries_of_split {t : Hashtable κ α} (h : t.entries = before ++ (k, v) :: behind)
    (v' : α) : (t.put k v').entries = before ++ (k, v') :: behind := by
  have hn := t.nodup
  rw [h, List.map_append, List.map_cons, List.nodup_append, List.nodup_cons] at hn
  obtain ⟨-, ⟨hbehind, -⟩, hbefore⟩ := hn
  have hk : k ∈ t.entries.map Prod.fst := by simp [h]
  have hbefore' : k ∉ before.map Prod.fst := fun hm => hbefore k hm k (by simp) rfl
  rw [put_entries_of_mem hk, h, List.map_append, List.map_cons, if_pos rfl,
    map_overwrite_of_not_mem hbehind, map_overwrite_of_not_mem hbefore']

theorem foldl_put_entries {l : List (κ × α)} (hl : (l.map Prod.fst).Nodup) {t : Hashtable κ α}
    (hnew : ∀ k ∈ l.map Prod.fst, k ∉ t.entries.map Prod.fst) :
    (l.foldl (fun t e => t.put e.1 e.2) t).entries = t.entries ++ l := by
  induction l generalizing t with
  | nil => exact (List.append_nil _).symm
  | cons e l ih =>
    rw [List.map_cons] at hl hnew
    obtain ⟨hfresh, hl⟩ := List.nodup_cons.mp hl
    have hput := put_entries_of_not_mem (hnew e.1 List.mem_cons_self) e.2
    rw [List.foldl_cons, ih hl, hput, List.append_assoc]
    · rfl
    · intro k hk
      rw [hput, List.map_append, List.mem_append, not_or]
      constructor
      · exact hnew k (List.mem_cons_of_mem _ hk)
      · rintro hlast
        obtain rfl := List.mem_singleton.mp hlast
        exact hfresh hk

theorem foldl_put_empty (t : Hashtable κ α) :
    t.entries.foldl (fun t e => t.put e.1 e.2) .empty = t := by
  have he := foldl_put_entries t.nodup (t := empty) fun _ _ => List.not_mem_nil
  cases hf : t.entries.foldl (fun t e => t.put e.1 e.2) empty
  cases t
  rw [hf] at he
  cases he
  rfl

def values (t : Hashtable κ α) : List α := t.entries.map Prod.snd

omit [DecidableEq κ] in
theorem count_eq_countP (t : Hashtable κ α) (p : α → Bool) : t.count p = t.values.countP p := by
  simp only [count, total, values]
  induction t.entries with
  | nil => rfl
  | cons e l ih =>
    rw [List.map_cons, List.sum_cons, ih, List.map_cons, List.countP_cons, Nat.add_comm]
    cases p e.2 <;> rfl

omit [DecidableEq κ] in
theorem count_eq_add_countP (t : Hashtable κ α) (p q : α → Bool) :
    t.count p = t.count (fun v => p v && !q v) + (t.values.filter q).countP p := by
  simp only [count_eq_countP, List.countP_filter]
  rw [List.countP_eq_countP_filter_add t.values p q, List.countP_filter, List.countP_filter,
    Nat.add_comm]

/-- A total splits into the value at one key and the values at the others. -/
theorem total_eq_of_get? {t : Hashtable κ α} (h : t.get? k = some v) (f : α → Nat) :
    t.total f = (t.remove k).total f + f v := by
  obtain ⟨l, hl⟩ := t
  have hm := get?_eq_some_iff.mp h
  clear h
  simp only [total, remove]
  induction l with
  | nil => simp at hm
  | cons e l ih =>
    obtain ⟨k', v'⟩ := e
    simp only [List.map_cons, List.nodup_cons] at hl
    by_cases hk : k' = k
    · subst hk
      have hv : v' = v := by
        rcases List.mem_cons.mp hm with he | he
        · simp_all
        · exact (hl.1 (List.mem_map.mpr ⟨_, he, rfl⟩)).elim
      have hr : l.filter (fun e => e.1 ≠ k') = l := by
        apply List.filter_eq_self.mpr
        intro e he
        have hne : e.1 ≠ k' := fun heq => hl.1 (List.mem_map.mpr ⟨e, he, heq⟩)
        simpa using hne
      subst hv
      simp only [List.map_cons, List.sum_cons, List.filter_cons, ne_eq, not_true_eq_false,
        decide_false, Bool.false_eq_true, ↓reduceIte] at hr ⊢
      rw [hr, Nat.add_comm]
    · have hm' : (k, v) ∈ l := by simpa [Ne.symm hk] using hm
      have hi := ih hl.2 hm'
      simp only [List.map_cons, List.sum_cons, List.filter_cons, ne_eq, hk, not_false_eq_true,
        decide_true, ↓reduceIte] at hi ⊢
      omega

theorem total_put (t : Hashtable κ α) (k : κ) (v : α) (f : α → Nat) :
    (t.put k v).total f = (t.remove k).total f + f v := by
  rw [total_eq_of_get? (get?_put_self t k v), remove_put]

theorem count_eq_of_get? {t : Hashtable κ α} (h : t.get? k = some v) (p : α → Bool) :
    t.count p = (t.remove k).count p + (p v).toNat :=
  total_eq_of_get? h _

theorem count_put (t : Hashtable κ α) (k : κ) (v : α) (p : α → Bool) :
    (t.put k v).count p = (t.remove k).count p + (p v).toNat :=
  total_put t k v _

theorem count_remove_le (t : Hashtable κ α) (k : κ) (p : α → Bool) :
    (t.remove k).count p ≤ t.count p :=
  (List.filter_sublist.map _).sum_le_sum fun _ _ => Nat.zero_le _

omit [DecidableEq κ] in
theorem count_le_length (t : Hashtable κ α) (p : α → Bool) : t.count p ≤ t.entries.length := by
  rw [count_eq_countP]
  exact List.countP_le_length.trans (List.length_map ..).le

theorem length_of_get? {t : Hashtable κ α} (h : t.get? k = some v) :
    t.entries.length = (t.remove k).entries.length + 1 := by
  have hcount := count_eq_of_get? h fun _ => true
  simp only [count_eq_countP, List.countP_true] at hcount
  simpa [values] using hcount

theorem count_le_of_imp (t : Hashtable κ α) {p q : α → Bool}
    (h : ∀ k v, t.get? k = some v → p v = true → q v = true) : t.count p ≤ t.count q := by
  apply List.sum_le_sum
  intro e he
  have hpq := h e.1 e.2 (get?_eq_some_iff.mpr he)
  cases hp : p e.2 with
  | false => simp only [hp, Bool.toNat_false, Nat.zero_le]
  | true => simp only [hp, hpq hp, Nat.le_refl]

/-- Every entry of `t` is an entry of `t'`. -/
def Extends (t' t : Hashtable κ α) : Prop := ∀ k v, t.get? k = some v → t'.get? k = some v

theorem Extends.refl (t : Hashtable κ α) : t.Extends t := fun _ _ h => h

theorem eq_empty_of_extends {t : Hashtable κ α} (h : empty.Extends t) : t = empty := by
  obtain ⟨entries, hnodup⟩ := t
  cases entries with
  | nil => rfl
  | cons e entries =>
    have hget : (empty : Hashtable κ α).get? e.1 = some e.2 :=
      h _ _ (get?_eq_some_iff.mpr List.mem_cons_self)
    cases hget

/-- The elements of a list by a key, the keys in the order in which they appear first. -/
def groups (key : α → κ) (l : List α) : Hashtable κ (List α) :=
  l.foldl (fun t a => t.put (key a) ((t.get? (key a)).getD [] ++ [a])) .empty

theorem groups_concat (key : α → κ) (l : List α) (a : α) : groups key (l ++ [a]) =
    (groups key l).put (key a) (((groups key l).get? (key a)).getD [] ++ [a]) := by
  rw [groups, List.foldl_append]
  rfl

theorem eraseDups_concat (l : List κ) (k : κ) :
    (l ++ [k]).eraseDups = if k ∈ l then l.eraseDups else l.eraseDups ++ [k] := by
  rw [List.eraseDups_append]
  by_cases h : k ∈ l
  · simp [h, List.removeAll]
  · simp [h, List.removeAll, List.eraseDups_cons]

theorem groups_entries (key : α → κ) (l : List α) : (groups key l).entries =
    (l.map key).eraseDups.map fun k => (k, l.filter fun a => key a = k) := by
  induction l using List.reverseRecOn with
  | nil => rfl
  | append_singleton l a ih =>
    have hkeys : (groups key l).entries.map Prod.fst = (l.map key).eraseDups := by
      rw [ih, List.map_map]
      exact List.map_id _
    rw [groups_concat, List.map_append, List.map_singleton, eraseDups_concat]
    by_cases ha : key a ∈ l.map key
    · have hm : key a ∈ (groups key l).entries.map Prod.fst := by
        rw [hkeys]
        exact List.mem_eraseDups.mpr ha
      have hget : (groups key l).get? (key a) = some (l.filter fun b => key b = key a) := by
        rw [get?_eq_some_iff, ih]
        exact List.mem_map_of_mem (List.mem_eraseDups.mpr ha)
      rw [put_entries_of_mem hm, if_pos ha, hget, ih, List.map_map]
      apply List.map_congr_left
      intro k _
      by_cases hk : k = key a
      · subst hk
        simp
      · simp [hk, Ne.symm hk]
    · have hm : key a ∉ (groups key l).entries.map Prod.fst := by
        rw [hkeys, List.mem_eraseDups]
        exact ha
      have hget : (groups key l).get? (key a) = none := by
        rw [← Option.not_isSome_iff_eq_none, Option.isSome_iff_exists]
        rintro ⟨group, hgroup⟩
        exact hm (mem_keys_of_get? hgroup)
      rw [put_entries_of_not_mem hm, if_neg ha, hget, ih, List.map_append, List.map_singleton]
      have hold : ∀ k ∈ (l.map key).eraseDups, key a ≠ k := by
        rintro k hk rfl
        exact ha (List.mem_eraseDups.mp hk)
      have hnone : l.filter (fun b => key b = key a) = [] := by
        apply List.filter_eq_nil_iff.mpr
        intro b hb hkey
        exact ha (of_decide_eq_true hkey ▸ List.mem_map_of_mem hb)
      congr 1
      · apply List.map_congr_left
        intro k hk
        simp [hold k hk]
      · simp [hnone]

end Hashtable
