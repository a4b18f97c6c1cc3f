import Mathlib.Data.List.Nodup
import Mathlib.Tactic.Common

set_option autoImplicit true

/-! Lists that take up what is new to them. Entries of one key count as the same. -/

namespace KeyedMerge

variable {α : Type u} {β : Type v} [DecidableEq β] {key : α → β}

/-- What is not known yet, each once and in its order. -/
def newOnes (key : α → β) : List α → List α → List α
  | _, [] => []
  | known, a :: as =>
    if key a ∈ known.map key then newOnes key known as
    else a :: newOnes key (known ++ [a]) as

theorem newOnes_of_known (h : key a ∈ known.map key) (as : List α) :
    newOnes key known (a :: as) = newOnes key known as := if_pos h

theorem newOnes_of_new (h : key a ∉ known.map key) (as : List α) :
    newOnes key known (a :: as) = a :: newOnes key (known ++ [a]) as := if_neg h

theorem foldl_append_new (key : α → β) (l as : List α) :
    as.foldl (fun l a => if key a ∈ l.map key then l else l ++ [a]) l =
      l ++ newOnes key l as := by
  induction as generalizing l with
  | nil => exact (List.append_nil l).symm
  | cons a as ih =>
    rw [List.foldl_cons, ih]
    by_cases h : key a ∈ l.map key
    · rw [if_pos h, newOnes_of_known h]
    · rw [if_neg h, newOnes_of_new h, List.append_assoc]
      rfl

theorem newOnes_congr {known known' : List α}
    (h : ∀ k, k ∈ known.map key ↔ k ∈ known'.map key) (as : List α) :
    newOnes key known as = newOnes key known' as := by
  induction as generalizing known known' with
  | nil => rfl
  | cons a as ih =>
    by_cases hm : key a ∈ known.map key
    · rw [newOnes_of_known hm, newOnes_of_known ((h _).mp hm), ih h]
    · rw [newOnes_of_new hm, newOnes_of_new (mt (h _).mpr hm)]
      congr 1
      apply ih
      intro k
      rw [List.map_append, List.map_append, List.mem_append, List.mem_append, h]

theorem newOnes_append (known more as : List α) : newOnes key (known ++ more) as =
    (newOnes key more as).filter fun a => key a ∉ known.map key := by
  induction as generalizing more with
  | nil => rfl
  | cons a as ih =>
    have hmem : key a ∈ (known ++ more).map key ↔
        key a ∈ known.map key ∨ key a ∈ more.map key := by
      rw [List.map_append, List.mem_append]
    by_cases hmore : key a ∈ more.map key
    · rw [newOnes_of_known (hmem.mpr (.inr hmore)), newOnes_of_known hmore, ih]
    · rw [newOnes_of_new hmore]
      by_cases hknown : key a ∈ known.map key
      · have hsame : ∀ k, k ∈ (known ++ more).map key ↔ k ∈ (known ++ (more ++ [a])).map key := by
          intro k
          have hlast : k ∈ (known ++ (more ++ [a])).map key ↔
              k ∈ (known ++ more).map key ∨ k ∈ [key a] := by
            rw [← List.append_assoc, List.map_append, List.mem_append]
            rfl
          rw [hlast]
          constructor
          · exact .inl
          · rintro (hm | hm)
            · exact hm
            · cases List.mem_singleton.mp hm
              exact hmem.mpr (.inl hknown)
        rw [newOnes_of_known (hmem.mpr (.inl hknown)), newOnes_congr hsame, ih,
          List.filter_cons_of_neg (by simpa using hknown)]
      · have hnew : key a ∉ (known ++ more).map key := by
          rw [hmem, not_or]
          exact ⟨hknown, hmore⟩
        rw [newOnes_of_new hnew, List.filter_cons, if_pos (decide_eq_true hknown),
          List.append_assoc, ih]

theorem newOnes_eq_filter (known as : List α) : newOnes key known as =
    (newOnes key [] as).filter fun a => key a ∉ known.map key := by
  rw [← newOnes_append, List.append_nil]

theorem newOnes_subset (key : α → β) (known as : List α) : newOnes key known as ⊆ as := by
  induction as generalizing known with
  | nil => exact List.nil_subset _
  | cons a as ih =>
    rw [newOnes]
    split
    · exact List.subset_cons_of_subset a (ih known)
    · exact List.cons_subset_cons a (ih _)

theorem merge_nodup {l : List α} (h : (l.map key).Nodup) (as : List α) :
    ((l ++ newOnes key l as).map key).Nodup := by
  induction as generalizing l with
  | nil =>
    rw [newOnes, List.append_nil]
    exact h
  | cons a as ih =>
    by_cases hm : key a ∈ l.map key
    · rw [newOnes_of_known hm]
      exact ih h
    · have hmore : ((l ++ [a]).map key).Nodup := by
        rw [List.map_append]
        exact h.append (List.nodup_singleton _) (List.disjoint_singleton.mpr hm)
      rw [newOnes_of_new hm, List.append_cons]
      exact ih hmore

theorem mem_merge {as : List α} (hm : a ∈ as) (l : List α) :
    key a ∈ (l ++ newOnes key l as).map key := by
  induction as generalizing l with
  | nil => cases hm
  | cons b as ih =>
    by_cases hb : key b ∈ l.map key
    · rw [newOnes_of_known hb]
      rcases List.mem_cons.mp hm with rfl | hm
      · rw [List.map_append]
        exact List.mem_append_left _ hb
      · exact ih hm l
    · rw [newOnes_of_new hb, List.append_cons]
      rcases List.mem_cons.mp hm with rfl | hm
      · rw [List.map_append, List.map_append]
        exact List.mem_append_left _ (List.mem_append_right _ List.mem_cons_self)
      · exact ih hm _

theorem merge_eq_nil_iff : l ++ newOnes key l as = [] ↔ l = [] ∧ as = [] := by
  rw [List.append_eq_nil_iff]
  constructor
  · rintro ⟨rfl, has⟩
    refine ⟨rfl, ?_⟩
    cases as with
    | nil => rfl
    | cons a as => cases has
  · rintro ⟨rfl, rfl⟩
    exact ⟨rfl, rfl⟩

/-- Of the new ones, those that go again come back, behind those that stay. -/
theorem newOnes_again {p : α → Bool} (hp : ∀ a b, key a = key b → p a = p b)
    (l as : List α) : newOnes key (l ++ (newOnes key l as).filter fun a => !p a) as =
      (newOnes key l as).filter p := by
  have hswap : ∀ k, k ∈ (l ++ (newOnes key l as).filter fun a => !p a).map key ↔
      k ∈ ((newOnes key l as).filter (fun a => !p a) ++ l).map key := by
    intro k
    rw [List.map_append, List.map_append, List.mem_append, List.mem_append, or_comm]
  rw [newOnes_congr hswap, newOnes_append]
  apply List.filter_congr
  intro a hm
  rw [Bool.eq_iff_iff, decide_eq_true_iff]
  constructor
  · intro hfree
    by_contra hpa
    exact hfree (List.mem_map_of_mem (List.mem_filter.mpr ⟨hm, by simpa using hpa⟩))
  · intro hpa hk
    obtain ⟨b, hb, hkey⟩ := List.mem_map.mp hk
    have hpb := (List.mem_filter.mp hb).2
    rw [hp b a hkey, hpa] at hpb
    cases hpb

omit [DecidableEq β] in
theorem filter_append_filter_iff {p : α → Bool} {l : List α} :
    l.filter (fun a => !p a) ++ l.filter p = l ↔
      l.Pairwise fun a b => p a = true → p b = true := by
  induction l with
  | nil => exact iff_of_true rfl List.Pairwise.nil
  | cons a l ih =>
    rw [List.pairwise_cons]
    cases ha : p a with
    | false =>
      rw [List.filter_cons_of_pos (by simp [ha]), List.filter_cons_of_neg (by simp [ha]),
        List.cons_append, List.cons_inj_right, ih]
      exact (and_iff_right fun _ _ h => absurd h Bool.false_ne_true).symm
    | true =>
      rw [List.filter_cons_of_neg (by simp [ha]), List.filter_cons_of_pos ha]
      constructor
      · intro heq
        have hnone : l.filter (fun a => !p a) = [] := by
          cases hf : l.filter fun a => !p a with
          | nil => rfl
          | cons b rest =>
            rw [hf, List.cons_append] at heq
            obtain ⟨rfl, -⟩ := List.cons.inj heq
            have hb := (List.mem_filter.mp (hf ▸ List.mem_cons_self : b ∈ l.filter fun a => !p a)).2
            rw [ha] at hb
            cases hb
        rw [List.filter_eq_nil_iff] at hnone
        have hall : ∀ b ∈ l, p b = true := by
          intro b hb
          simpa using hnone b hb
        refine ⟨fun b hb _ => hall b hb, List.pairwise_of_forall_mem_list ?_⟩
        exact fun b _ c hc _ => hall c hc
      · rintro ⟨hall, -⟩
        have hnone : l.filter (fun a => !p a) = [] := by
          rw [List.filter_eq_nil_iff]
          intro b hb
          simp [hall b hb rfl]
        have hevery : l.filter p = l := List.filter_eq_self.mpr fun b hb => hall b hb rfl
        rw [hnone, hevery]
        rfl

theorem count_key_eq_one {l : List α} (h : (l.map key).Nodup) (hm : key a ∈ l.map key) :
    (l.filter fun b => key b = key a).length = 1 := by
  have hone := List.count_eq_one_of_mem h hm
  rw [List.count, List.countP_map] at hone
  rw [← List.countP_eq_length_filter]
  exact hone

end KeyedMerge
