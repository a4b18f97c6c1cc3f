import HiTuxShare.LiveResults

namespace HiTuxShare
set_option autoImplicit true

/-- A call of the model, with what it is given. -/
inductive ResultsCall where
  | addResults (entries : List FileResultEntry)
  | removeResult (connection : Nat) (sessionId fileName : String)
  | removeResultsForSession (connection : Nat) (sessionId : String)
  | removeResultsForConnection (connection : Nat)
  | updateSharerName (connection : Nat) (sessionId displayName : String)
  | clear

namespace FileResultModel

def clear (m : FileResultModel) : FileResultModel := if m.rows = [] then m else {}

variable [QtLibrary]

def handle (m : FileResultModel) : ResultsCall → FileResultModel
  | .addResults entries => addResults m entries
  | .removeResult connection sessionId fileName => removeResult m connection sessionId fileName
  | .removeResultsForSession connection sessionId => removeResultsForSession m connection sessionId
  | .removeResultsForConnection connection => removeResultsForConnection m connection
  | .updateSharerName connection sessionId displayName =>
    updateSharerName m connection sessionId displayName
  | .clear => clear m

def machine : EventMachine FileResultModel ResultsCall := ⟨handle⟩

/-- No two rows are about the same file, and the index holds the rows and nothing else. -/
structure RowsMatchIndex (m : FileResultModel) : Prop where
  distinct : (names m).Nodup
  found : ∀ row entry, m.rows[row]? = some entry → m.index.get? (entryKey entry) = some row
  nothingElse : ∀ key row, m.index.get? key = some row →
    ∃ entry, m.rows[row]? = some entry ∧ entryKey entry = key

/-- The entries of a batch that have no row yet differ in their keys. -/
def BringsEachKeyOnce (m : FileResultModel) : ResultsCall → Prop
  | .addResults entries => ((additions m entries).map entryKey).Nodup
  | _ => True

theorem rowsMatchIndex_iff {m : FileResultModel} : RowsMatchIndex m ↔ m.Indexed entryKey := by
  constructor
  · intro h key row
    constructor
    · exact h.nothingElse key row
    · rintro ⟨entry, hr, rfl⟩
      exact h.found row entry hr
  · intro h
    constructor
    · exact IndexedRows.Indexed.nodup_names ResultName.key h
    · exact fun row entry hr => (h _ row).mpr ⟨entry, hr, rfl⟩
    · exact fun key row => (h key row).mp

theorem refreshResults_indexed {m : FileResultModel} (h : m.Indexed entryKey)
    (entries : List FileResultEntry) : (refreshResults m entries).Indexed entryKey ∧
      (refreshResults m entries).index = m.index := by
  induction entries generalizing m with
  | nil => exact ⟨h, rfl⟩
  | cons entry entries ih =>
    rw [refreshResults, List.foldl_cons]
    cases hi : m.index.get? (entryKey entry) with
    | none => exact ih h
    | some row =>
      obtain ⟨old, hold, hk⟩ := (h _ row).mp hi
      exact ih (h.set hold hk.symm)

theorem addResults_indexed_iff {m : FileResultModel} (h : m.Indexed entryKey)
    (entries : List FileResultEntry) : (addResults m entries).Indexed entryKey ↔
      ((additions m entries).map entryKey).Nodup := by
  obtain ⟨hrefreshed, hindex⟩ := refreshResults_indexed h entries
  apply hrefreshed.foldl_append_iff
  intro entry hm
  rw [hindex]
  exact Option.isNone_iff_eq_none.mp (List.mem_filter.mp hm).2

theorem updateSharerName_indexed {m : FileResultModel} (h : m.Indexed entryKey)
    (connection : Nat) (sessionId displayName : String) :
    (updateSharerName m connection sessionId displayName).Indexed entryKey := by
  apply h.of_keys
  rw [List.map_map]
  apply List.map_congr_left
  intro entry hm
  rw [Function.comp_apply]
  split <;> rfl

omit [QtLibrary] in
theorem clear_indexed {key : FileResultEntry → String} {m : FileResultModel}
    (h : m.Indexed key) : (clear m).Indexed key := by
  rw [clear]
  split
  · exact h
  · exact IndexedRows.indexed_empty key

theorem handle_indexed_iff {m : FileResultModel} (h : m.Indexed entryKey) (e : ResultsCall) :
    (handle m e).Indexed entryKey ↔ BringsEachKeyOnce m e := by
  cases e with
  | addResults entries => exact addResults_indexed_iff h entries
  | removeResult connection sessionId fileName => exact iff_of_true (h.erase _) trivial
  | removeResultsForSession connection sessionId => exact iff_of_true (h.keep _) trivial
  | removeResultsForConnection connection => exact iff_of_true (h.keep _) trivial
  | updateSharerName connection sessionId displayName =>
    exact iff_of_true (updateSharerName_indexed h connection sessionId displayName) trivial
  | clear => exact iff_of_true (clear_indexed h) trivial

/-- Rows and index belong together in every state up to the first batch that brings a key twice
and finds no row of it, and not from there on. -/
theorem run_rowsMatchIndex_iff (es : List ResultsCall) :
    machine.EveryState RowsMatchIndex {} es ↔ machine.EveryStep BringsEachKeyOnce {} es := by
  apply EventMachine.everyState_iff_everyStep_of_kind (K := fun _ => True)
  · intro m e _ h
    rw [rowsMatchIndex_iff] at h ⊢
    exact handle_indexed_iff h e
  · exact rowsMatchIndex_iff.mpr (IndexedRows.indexed_empty entryKey)
  · exact fun _ _ => trivial

omit [QtLibrary] in
/-- A file that is announced twice before its batch is added gets two rows, and the index knows
only the second. -/
theorem announced_twice_has_two_rows : ¬ ∀ (_ : QtLibrary) (es : List ResultsCall),
    machine.EveryState RowsMatchIndex {} es := by
  intro h
  let entry : FileResultEntry :=
    ⟨{ sessionId := "5", fileName := "notes.txt" }, 0, "server", "Anna"⟩
  obtain ⟨hdistinct, -, -⟩ := (h plainQt [.addResults [entry, entry]]).2
  exact absurd hdistinct (by decide)

end FileResultModel

end HiTuxShare
