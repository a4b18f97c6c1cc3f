import HiTuxShare.Hashtable
import Mathlib.Data.List.Induction

set_option autoImplicit true

/-- The rows of a table, with an index that says which row is the one of a key. -/
structure IndexedRows (κ : Type u) (ρ : Type v) where
  rows : List ρ := []
  index : Hashtable κ Nat := .empty

namespace IndexedRows

variable {κ : Type u} {ρ : Type v} [DecidableEq κ] {key : ρ → κ} {t : IndexedRows κ ρ}

def append (key : ρ → κ) (t : IndexedRows κ ρ) (r : ρ) : IndexedRows κ ρ :=
  ⟨t.rows ++ [r], t.index.put (key r) t.rows.length⟩

/-- The index is made anew. -/
def rebuild (key : ρ → κ) (rows : List ρ) : IndexedRows κ ρ :=
  ⟨rows, rows.zipIdx.foldl (fun index row => index.put (key row.1) row.2) .empty⟩

/-- A row of the same key is replaced, else the new one comes last. -/
def put (key : ρ → κ) (t : IndexedRows κ ρ) (r : ρ) : IndexedRows κ ρ :=
  match t.index.get? (key r) with
  | some i => { t with rows := t.rows.set i r }
  | none => t.append key r

def erase (key : ρ → κ) (t : IndexedRows κ ρ) (k : κ) : IndexedRows κ ρ :=
  match t.index.get? k with
  | some i => rebuild key (t.rows.eraseIdx i)
  | none => t

def keep (key : ρ → κ) (p : ρ → Bool) (t : IndexedRows κ ρ) : IndexedRows κ ρ :=
  if (t.rows.filter p).length = t.rows.length then t else rebuild key (t.rows.filter p)

/-- The index leads to the row of a key and nowhere else. -/
def Indexed (key : ρ → κ) (t : IndexedRows κ ρ) : Prop :=
  ∀ k i, t.index.get? k = some i ↔ ∃ r, t.rows[i]? = some r ∧ key r = k

theorem indexed_empty (key : ρ → κ) : Indexed key {} := by
  intro k i
  constructor
  · intro h
    cases h
  · rintro ⟨r, hr, -⟩
    cases hr

theorem Indexed.eq_none_iff (h : Indexed key t) (k : κ) :
    t.index.get? k = none ↔ ∀ r ∈ t.rows, key r ≠ k := by
  rw [Option.eq_none_iff_forall_ne_some]
  constructor
  · intro hnone r hr hk
    obtain ⟨i, hi⟩ := List.mem_iff_getElem?.mp hr
    exact hnone i ((h k i).mpr ⟨r, hi, hk⟩)
  · intro hfree i hi
    obtain ⟨r, hr, hk⟩ := (h k i).mp hi
    exact hfree r (List.mem_iff_getElem?.mpr ⟨i, hr⟩) hk

theorem Indexed.unique {i j : Nat} (h : Indexed key t) (hr : t.rows[i]? = some r)
    (hr' : t.rows[j]? = some r') (hk : key r = key r') : i = j := by
  have hi := (h (key r') i).mpr ⟨r, hr, hk⟩
  have hj := (h (key r') j).mpr ⟨r', hr', rfl⟩
  exact Option.some.inj (hi.symm.trans hj)

theorem Indexed.nodup (h : Indexed key t) : (t.rows.map key).Nodup := by
  rw [List.nodup_iff_getElem?_ne_getElem?]
  intro i j hij hj heq
  rw [List.length_map] at hj
  rw [List.getElem?_map, List.getElem?_map, List.getElem?_eq_getElem hj,
    List.getElem?_eq_getElem (hij.trans hj), Option.map_some, Option.map_some,
    Option.some.injEq] at heq
  have hsame := h.unique (List.getElem?_eq_getElem (hij.trans hj)) (List.getElem?_eq_getElem hj) heq
  omega

theorem Indexed.nodup_names {name : ρ → ν} (encode : ν → κ)
    (h : Indexed (fun r => encode (name r)) t) : (t.rows.map name).Nodup := by
  apply List.Nodup.of_map encode
  rw [List.map_map]
  exact h.nodup

omit [DecidableEq κ] in
theorem getElem?_concat_iff {rows : List ρ} {i : Nat} :
    (rows ++ [r])[i]? = some r' ↔ rows[i]? = some r' ∨ i = rows.length ∧ r' = r := by
  rcases Nat.lt_trichotomy i rows.length with hlt | rfl | hgt
  · rw [List.getElem?_append_left hlt]
    constructor
    · exact .inl
    · rintro (h | ⟨rfl, -⟩)
      · exact h
      · exact absurd hlt (Nat.lt_irrefl _)
  · rw [List.getElem?_concat_length, List.getElem?_eq_none (Nat.le_refl _)]
    simp [eq_comm]
  · rw [List.getElem?_eq_none (by simp; omega), List.getElem?_eq_none hgt.le]
    simp [hgt.ne']

theorem Indexed.append (h : Indexed key t) (hr : t.index.get? (key r) = none) :
    Indexed key (t.append key r) := by
  intro k i
  simp only [IndexedRows.append, Hashtable.get?_put, getElem?_concat_iff]
  by_cases hk : k = key r
  · subst hk
    rw [if_pos rfl, Option.some.injEq]
    constructor
    · rintro rfl
      exact ⟨r, .inr ⟨rfl, rfl⟩, rfl⟩
    · rintro ⟨r', hold | ⟨rfl, -⟩, hk⟩
      · cases hr.symm.trans ((h _ i).mpr ⟨r', hold, hk⟩)
      · rfl
  · rw [if_neg hk, h k i]
    constructor
    · rintro ⟨r', hold, rfl⟩
      exact ⟨r', .inl hold, rfl⟩
    · rintro ⟨r', hold | ⟨-, rfl⟩, rfl⟩
      · exact ⟨r', hold, rfl⟩
      · exact absurd rfl hk

theorem foldl_append_rows (key : ρ → κ) (t : IndexedRows κ ρ) (rs : List ρ) :
    (rs.foldl (append key) t).rows = t.rows ++ rs := by
  induction rs generalizing t with
  | nil => exact (List.append_nil _).symm
  | cons r rs ih => exact (ih _).trans (List.append_assoc ..)

theorem Indexed.foldl_append (h : Indexed key t) {rs : List ρ} (hrs : (rs.map key).Nodup)
    (hnew : ∀ r ∈ rs, t.index.get? (key r) = none) :
    Indexed key (rs.foldl (IndexedRows.append key) t) := by
  induction rs generalizing t with
  | nil => exact h
  | cons r rs ih =>
    rw [List.map_cons, List.nodup_cons] at hrs
    apply ih (h.append (hnew r List.mem_cons_self)) hrs.2
    intro r' hm
    rw [IndexedRows.append, Hashtable.get?_put, if_neg]
    · exact hnew r' (List.mem_cons_of_mem r hm)
    · exact fun hk => hrs.1 (hk ▸ List.mem_map_of_mem hm)

/-- With a key among them that occurs twice, the index goes wrong. -/
theorem Indexed.foldl_append_iff (h : Indexed key t) {rs : List ρ}
    (hnew : ∀ r ∈ rs, t.index.get? (key r) = none) :
    Indexed key (rs.foldl (IndexedRows.append key) t) ↔ (rs.map key).Nodup := by
  constructor
  · intro hindexed
    have hnodup := hindexed.nodup
    rw [foldl_append_rows, List.map_append] at hnodup
    exact hnodup.of_append_right
  · exact fun hrs => h.foldl_append hrs hnew

theorem rebuild_concat (key : ρ → κ) (rows : List ρ) (r : ρ) :
    rebuild key (rows ++ [r]) = (rebuild key rows).append key r := by
  simp only [rebuild, append, List.zipIdx_append, List.foldl_append]
  rw [Nat.zero_add]
  rfl

theorem rebuild_indexed {rows : List ρ} (h : (rows.map key).Nodup) :
    Indexed key (rebuild key rows) := by
  induction rows using List.reverseRecOn with
  | nil => exact indexed_empty key
  | append_singleton rows r ih =>
    rw [List.map_append, List.nodup_append] at h
    obtain ⟨hnodup, -, hfree⟩ := h
    rw [rebuild_concat]
    apply (ih hnodup).append
    rw [(ih hnodup).eq_none_iff]
    intro r' hm hk
    exact hfree _ (List.mem_map_of_mem hm) _ List.mem_cons_self hk

/-- Overwriting rows in place leaves the index right as long as the keys stay. -/
theorem Indexed.of_keys (h : Indexed key t) {rows : List ρ}
    (hkeys : rows.map key = t.rows.map key) : Indexed key { t with rows } := by
  intro k i
  have hrow (rows : List ρ) : (∃ r, rows[i]? = some r ∧ key r = k) ↔
      (rows.map key)[i]? = some k := by
    rw [List.getElem?_map, Option.map_eq_some_iff]
  rw [hrow, hkeys, ← hrow]
  exact h k i

theorem Indexed.set {i : Nat} (h : Indexed key t) (hi : t.rows[i]? = some old)
    (hk : key r = key old) : Indexed key { t with rows := t.rows.set i r } := by
  obtain ⟨hlt, rfl⟩ := List.getElem?_eq_some_iff.mp hi
  have hbound : i < (t.rows.map key).length := by rwa [List.length_map]
  have hkey : (t.rows.map key)[i] = key t.rows[i] := List.getElem_map key
  apply h.of_keys
  rw [List.map_set, hk, ← hkey, List.set_getElem_self]

theorem Indexed.put (h : Indexed key t) (r : ρ) : Indexed key (t.put key r) := by
  rw [IndexedRows.put]
  split
  · next i hi =>
    obtain ⟨old, hold, hk⟩ := (h _ i).mp hi
    exact h.set hold hk.symm
  · next hnew => exact h.append hnew

theorem Indexed.mem_put (h : Indexed key t) (r x : ρ) :
    x ∈ (t.put key r).rows ↔ x = r ∨ x ∈ t.rows ∧ key x ≠ key r := by
  rw [IndexedRows.put]
  split
  · next i hi =>
    obtain ⟨old, hold, hk⟩ := (h _ i).mp hi
    have hlt : i < t.rows.length := (List.getElem?_eq_some_iff.mp hold).choose
    rw [List.mem_iff_getElem?, List.mem_iff_getElem?]
    constructor
    · rintro ⟨j, hj⟩
      rw [List.getElem?_set] at hj
      split at hj
      · exact .inl (Option.some.inj hj).symm
      · next hne => exact .inr ⟨⟨j, hj⟩, fun hx => hne (h.unique hold hj (hk.trans hx.symm))⟩
    · rintro (rfl | ⟨⟨j, hj⟩, hx⟩)
      · exact ⟨i, by rw [List.getElem?_set, if_pos rfl, if_pos hlt]⟩
      · refine ⟨j, ?_⟩
        rw [List.getElem?_set, if_neg, hj]
        rintro rfl
        cases hj.symm.trans hold
        exact hx hk
  · next hnew =>
    rw [h.eq_none_iff] at hnew
    simp only [IndexedRows.append, List.mem_append, List.mem_singleton]
    constructor
    · rintro (hm | rfl)
      · exact .inr ⟨hm, hnew x hm⟩
      · exact .inl rfl
    · rintro (rfl | ⟨hm, -⟩)
      · exact .inr rfl
      · exact .inl hm

theorem Indexed.erase (h : Indexed key t) (k : κ) : Indexed key (t.erase key k) := by
  rw [IndexedRows.erase]
  split
  · exact rebuild_indexed (h.nodup.sublist ((List.eraseIdx_sublist ..).map key))
  · exact h

theorem Indexed.mem_erase (h : Indexed key t) (k : κ) (x : ρ) :
    x ∈ (t.erase key k).rows ↔ x ∈ t.rows ∧ key x ≠ k := by
  rw [IndexedRows.erase]
  split
  · next i hi =>
    obtain ⟨old, hold, hk⟩ := (h k i).mp hi
    rw [rebuild, List.mem_eraseIdx_iff_getElem?, List.mem_iff_getElem?]
    constructor
    · rintro ⟨j, hne, hj⟩
      exact ⟨⟨j, hj⟩, fun hx => hne (h.unique hj hold (hx.trans hk.symm))⟩
    · rintro ⟨⟨j, hj⟩, hx⟩
      refine ⟨j, ?_, hj⟩
      rintro rfl
      cases hj.symm.trans hold
      exact hx hk
  · next hnone =>
    rw [h.eq_none_iff] at hnone
    exact ⟨fun hm => ⟨hm, hnone x hm⟩, fun hm => hm.1⟩

@[simp] theorem keep_rows (key : ρ → κ) (p : ρ → Bool) (t : IndexedRows κ ρ) :
    (t.keep key p).rows = t.rows.filter p := by
  rw [keep]
  split
  · next hall => exact (List.filter_eq_self.mpr (List.length_filter_eq_length_iff.mp hall)).symm
  · rfl

theorem Indexed.keep (h : Indexed key t) (p : ρ → Bool) : Indexed key (t.keep key p) := by
  rw [IndexedRows.keep]
  split
  · exact h
  · exact rebuild_indexed (h.nodup.sublist (List.filter_sublist.map key))

end IndexedRows
