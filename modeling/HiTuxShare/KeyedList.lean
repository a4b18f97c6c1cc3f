import Mathlib.Data.List.Nodup
import Mathlib.Logic.Function.Iterate
import Mathlib.Tactic.Common

set_option autoImplicit true

namespace KeyedList

variable {α : Type u} {β : Type v} {key : α → β} {bound : Nat}

/-- No two entries have one key, and there is room for all of them. -/
structure Fits (key : α → β) (bound : Nat) (l : List α) : Prop where
  nodup : (l.map key).Nodup
  length_le : l.length ≤ bound

theorem Fits.nil : Fits key bound [] := ⟨List.nodup_nil, Nat.zero_le bound⟩

theorem Fits.tail (h : Fits key bound (b :: l)) : Fits key bound l :=
  ⟨(List.nodup_cons.mp h.nodup).2, Nat.le_of_succ_le h.length_le⟩

theorem keys_iff_forall {l m : List α} : (∀ k, k ∈ l.map key ↔ k ∈ m.map key) ↔
    ∀ a, (∃ b ∈ l, key b = key a) ↔ ∃ b ∈ m, key b = key a := by
  constructor
  · intro h a
    rw [← List.mem_map, ← List.mem_map]
    exact h (key a)
  · intro h k
    constructor
    · intro hm
      obtain ⟨a, ha, rfl⟩ := List.mem_map.mp hm
      exact List.mem_map.mpr ((h a).mp ⟨a, ha, rfl⟩)
    · intro hm
      obtain ⟨a, ha, rfl⟩ := List.mem_map.mp hm
      exact List.mem_map.mpr ((h a).mpr ⟨a, ha, rfl⟩)

variable [DecidableEq β]

/-- An entry whose key is there already is dropped, and so is one too many. -/
def insertNew (key : α → β) (bound : Nat) (l : List α) (a : α) : List α :=
  if key a ∈ l.map key then l else if bound ≤ l.length then l else l ++ [a]

/-- What comes back of a list if its head is not kept and `a` is added in the end. -/
def restored (key : α → β) (bound : Nat) (a : α) (l : List α) : List α :=
  insertNew key bound (l.tail.foldl (insertNew key bound) []) a

theorem insertNew_of_mem (h : key a ∈ l.map key) (bound : Nat) : insertNew key bound l a = l :=
  if_pos h

theorem insertNew_of_not_mem (h : key a ∉ l.map key) (hroom : l.length < bound) :
    insertNew key bound l a = l ++ [a] := by
  rw [insertNew, if_neg h, if_neg (Nat.not_le.mpr hroom)]

theorem Fits.insertNew (h : Fits key bound l) (a : α) :
    Fits key bound (insertNew key bound l a) := by
  rw [KeyedList.insertNew]
  split
  · exact h
  · next hnew =>
    split
    · exact h
    · next hroom =>
      constructor
      · rw [List.map_append]
        apply h.nodup.append (List.nodup_singleton _)
        exact List.disjoint_singleton.mpr hnew
      · rw [List.length_append]
        exact Nat.lt_of_not_le hroom

theorem insertNew_insertNew (key : α → β) (bound : Nat) (l : List α) (a : α) :
    insertNew key bound (insertNew key bound l a) a = insertNew key bound l a := by
  by_cases hm : key a ∈ l.map key
  · rw [insertNew_of_mem hm, insertNew_of_mem hm]
  · by_cases hroom : l.length < bound
    · rw [insertNew_of_not_mem hm hroom]
      apply insertNew_of_mem
      rw [List.map_append]
      exact List.mem_append_right _ List.mem_cons_self
    · have hfull : insertNew key bound l a = l := by
        rw [insertNew, if_neg hm, if_pos (Nat.le_of_not_lt hroom)]
      rw [hfull, hfull]

theorem foldl_insertNew (h : Fits key bound (l ++ as)) :
    as.foldl (insertNew key bound) l = l ++ as := by
  induction as generalizing l with
  | nil => rw [List.foldl_nil, List.append_nil]
  | cons a as ih =>
    have hsplit : l ++ a :: as = l ++ [a] ++ as := by
      rw [List.append_assoc]
      rfl
    have hnew : key a ∉ l.map key := by
      have hnodup := h.nodup
      rw [List.map_append, List.map_cons] at hnodup
      exact fun hm => List.disjoint_of_nodup_append hnodup hm List.mem_cons_self
    have hroom : l.length < bound := by
      have hlength := h.length_le
      rw [List.length_append, List.length_cons] at hlength
      omega
    rw [List.foldl_cons, insertNew_of_not_mem hnew hroom, hsplit]
    rw [hsplit] at h
    exact ih h

theorem restored_cons (h : Fits key bound (b :: l)) (a : α) :
    restored key bound a (b :: l) = insertNew key bound l a := by
  rw [restored, List.tail_cons, foldl_insertNew (l := []) h.tail, List.nil_append]

theorem Fits.restored (h : Fits key bound l) (a : α) :
    Fits key bound (restored key bound a l) := by
  cases l with
  | nil => exact Fits.nil.insertNew a
  | cons b l =>
    rw [restored_cons h]
    exact h.tail.insertNew a

/-- One time the list comes back as a set exactly if what is added stands for the head. -/
theorem restored_keys_iff (h : Fits key bound l) (hbound : 0 < bound) (a : α) :
    (∀ k, k ∈ (restored key bound a l).map key ↔ k ∈ l.map key) ↔
      ∃ b rest, l = b :: rest ∧ key b = key a := by
  cases l with
  | nil =>
    apply iff_of_false
    · intro hsame
      have hnil : key a ∉ ([] : List α).map key := List.not_mem_nil
      have hrestored : restored key bound a [] = [a] := insertNew_of_not_mem hnil hbound
      rw [hrestored] at hsame
      exact hnil ((hsame (key a)).mp List.mem_cons_self)
    · rintro ⟨b, rest, hl, -⟩
      cases hl
  | cons b l =>
    have hb : key b ∉ l.map key := (List.nodup_cons.mp h.nodup).1
    rw [restored_cons h]
    constructor
    · intro hsame
      refine ⟨b, l, rfl, ?_⟩
      have hm := (hsame (key b)).mpr List.mem_cons_self
      rw [insertNew] at hm
      split at hm
      · exact absurd hm hb
      · split at hm
        · exact absurd hm hb
        · rw [List.map_append, List.mem_append] at hm
          exact List.mem_singleton.mp (hm.resolve_left hb)
    · rintro ⟨b', rest, hl, hkey⟩ k
      cases hl
      have ha : key a ∉ l.map key := hkey ▸ hb
      have hcons : k ∈ (b :: l).map key ↔ k = key b ∨ k ∈ l.map key := List.mem_cons
      rw [insertNew_of_not_mem ha h.length_le, List.map_append, List.mem_append, hcons, hkey,
        or_comm]
      exact or_congr List.mem_singleton Iff.rfl

theorem restored_restored (h : Fits key bound (b :: c :: l)) (hkey : key b = key a) :
    key c ∉ (restored key bound a (restored key bound a (b :: c :: l))).map key := by
  have hb := (List.nodup_cons.mp h.nodup).1
  have hc := (List.nodup_cons.mp h.tail.nodup).1
  rw [hkey] at hb
  have hone : restored key bound a (b :: c :: l) = c :: (l ++ [a]) := by
    rw [restored_cons h, insertNew_of_not_mem hb h.length_le]
    rfl
  have hfirst : Fits key bound (c :: (l ++ [a])) := hone ▸ h.restored a
  have hknown : key a ∈ (l ++ [a]).map key := by
    rw [List.map_append]
    exact List.mem_append_right _ List.mem_cons_self
  rw [hone, restored_cons hfirst, insertNew_of_mem hknown, List.map_append, List.mem_append]
  rintro (hm | hm)
  · exact hc hm
  · exact hb (List.mem_singleton.mp hm ▸ List.mem_cons_self)

theorem restored_singleton (hbound : 0 < bound) (a b : α) :
    restored key bound a [b] = [a] := insertNew_of_not_mem List.not_mem_nil hbound

theorem restored_iterate_singleton (hbound : 0 < bound) (hkey : key b = key a) (n : Nat) :
    ((restored key bound a)^[n] [b]).map key = [key b] := by
  cases n with
  | zero => rfl
  | succ n =>
    have hfixed : (restored key bound a)^[n] [a] = [a] :=
      Function.iterate_fixed (restored_singleton hbound a a) n
    rw [Function.iterate_succ_apply, restored_singleton hbound, hfixed, hkey]
    rfl

/-- Nothing is ever lost of a list, and one time it comes back as it was, exactly if there is only
one entry in it and what is added stands for that one. -/
theorem restored_forever_iff (h : Fits key bound l) (hbound : 0 < bound) (a : α) :
    ((∀ k, k ∈ (restored key bound a l).map key ↔ k ∈ l.map key) ∧
      ∀ n, ∀ k ∈ l.map key, k ∈ ((restored key bound a)^[n] l).map key) ↔
        ∃ b, l = [b] ∧ key b = key a := by
  constructor
  · rintro ⟨hsame, hkeeps⟩
    obtain ⟨b, rest, rfl, hkey⟩ := (restored_keys_iff h hbound a).mp hsame
    refine ⟨b, ?_, hkey⟩
    cases rest with
    | nil => rfl
    | cons c rest =>
      have hm : key c ∈ (b :: c :: rest).map key := List.mem_cons_of_mem _ List.mem_cons_self
      exact absurd (hkeeps 2 (key c) hm) (restored_restored h hkey)
  · rintro ⟨b, rfl, hkey⟩
    refine ⟨(restored_keys_iff h hbound a).mpr ⟨b, [], rfl, hkey⟩, fun n k hm => ?_⟩
    rw [restored_iterate_singleton hbound hkey]
    exact hm

end KeyedList
