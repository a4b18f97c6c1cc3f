import HiTuxShare.EventLog
import HiTuxShare.ListWindow

namespace HiTuxShare
set_option autoImplicit true

def FileResultEntry.name (entry : FileResultEntry) : ResultName :=
  ⟨entry.connection, entry.result.sessionId, entry.result.fileName⟩

section
variable [QtLibrary]

namespace FileResultModel

theorem entryKey_eq (entry : FileResultEntry) : entryKey entry = entry.name.key := rfl

def names (m : FileResultModel) : List ResultName := m.rows.map FileResultEntry.name

/-- The index is right, and no two names that occur are read as one. -/
structure WellKept (m : FileResultModel) : Prop where
  indexed : m.Indexed entryKey
  plain : ∀ name ∈ names m, name.IsPlain

theorem WellKept.nodup {m : FileResultModel} (h : WellKept m) : (names m).Nodup :=
  IndexedRows.Indexed.nodup_names ResultName.key h.indexed

theorem WellKept.of_names {m : FileResultModel} (h : WellKept m) {rows : List FileResultEntry}
    (hrows : rows.map FileResultEntry.name = names m) : WellKept { m with rows } := by
  refine ⟨h.indexed.of_keys ?_, fun name hm => h.plain name (hrows ▸ hm)⟩
  have hkeys := congrArg (List.map ResultName.key) hrows
  rwa [names, List.map_map, List.map_map] at hkeys

theorem WellKept.eq_none_iff {m : FileResultModel} (h : WellKept m) {entry : FileResultEntry}
    (hp : entry.name.IsPlain) :
    m.index.get? (entryKey entry) = none ↔ entry.name ∉ names m := by
  rw [h.indexed.eq_none_iff]
  constructor
  · intro hnone hm
    obtain ⟨row, hrow, hname⟩ := List.mem_map.mp hm
    apply hnone row hrow
    rw [entryKey_eq, entryKey_eq, hname]
  · intro hfree row hrow hk
    have hm := List.mem_map_of_mem hrow (f := FileResultEntry.name)
    rw [entryKey_eq, entryKey_eq, ResultName.key_inj (h.plain _ hm) hp] at hk
    exact hfree (hk ▸ hm)

theorem WellKept.set {m : FileResultModel} (h : WellKept m) {entry : FileResultEntry}
    (hp : entry.name.IsPlain) (hi : m.index.get? (entryKey entry) = some row) :
    (m.rows.set row entry).map FileResultEntry.name = names m := by
  obtain ⟨old, hold, hk⟩ := (h.indexed _ row).mp hi
  obtain ⟨hlt, rfl⟩ := List.getElem?_eq_some_iff.mp hold
  have hm := List.mem_map_of_mem (List.getElem_mem hlt) (f := FileResultEntry.name)
  rw [entryKey_eq, entryKey_eq, ResultName.key_inj (h.plain _ hm) hp] at hk
  have hbound : row < (m.rows.map FileResultEntry.name).length := by rwa [List.length_map]
  have hrow : (m.rows.map FileResultEntry.name)[row] = entry.name :=
    (List.getElem_map FileResultEntry.name).trans hk
  rw [List.map_set, ← hrow, List.set_getElem_self]
  rfl

theorem WellKept.refreshResults {m : FileResultModel} (h : WellKept m)
    {entries : List FileResultEntry} (hp : ∀ entry ∈ entries, entry.name.IsPlain) :
    WellKept (refreshResults m entries) ∧
      (FileResultModel.refreshResults m entries).index = m.index ∧
        names (FileResultModel.refreshResults m entries) = names m := by
  induction entries generalizing m with
  | nil => exact ⟨h, rfl, rfl⟩
  | cons entry entries ih =>
    have hrest := fun e hm => hp e (List.mem_cons_of_mem entry hm)
    rw [FileResultModel.refreshResults, List.foldl_cons]
    split
    · next row hi =>
      have hnames := h.set (hp entry List.mem_cons_self) hi
      obtain ⟨hkept, hindex, hsame⟩ := ih (h.of_names hnames) hrest
      exact ⟨hkept, hindex, hsame.trans hnames⟩
    · exact ih h hrest

theorem WellKept.additions {m : FileResultModel} (h : WellKept m)
    {entries : List FileResultEntry} (hp : ∀ entry ∈ entries, entry.name.IsPlain) :
    (additions m entries).map FileResultEntry.name =
      (entries.map FileResultEntry.name).filter fun name => name ∉ names m := by
  rw [FileResultModel.additions, List.filter_map]
  congr 1
  apply List.filter_congr
  intro entry hm
  rw [Function.comp_apply, Bool.eq_iff_iff, Option.isNone_iff_eq_none, decide_eq_true_iff]
  exact h.eq_none_iff (hp entry hm)

/-- A batch adds the names that have no row yet, as often as they occur in it. -/
theorem WellKept.names_addResults {m : FileResultModel} (h : WellKept m)
    {entries : List FileResultEntry} (hp : ∀ entry ∈ entries, entry.name.IsPlain) :
    names (addResults m entries) = names m ++
      (entries.map FileResultEntry.name).filter fun name => name ∉ names m := by
  rw [names, addResults, IndexedRows.foldl_append_rows, List.map_append, h.additions hp]
  exact congrArg (· ++ _) (h.refreshResults hp).2.2

theorem WellKept.addResults {m : FileResultModel} (h : WellKept m)
    {entries : List FileResultEntry} (hp : ∀ entry ∈ entries, entry.name.IsPlain)
    (honce : ((entries.map FileResultEntry.name).filter fun name => name ∉ names m).Nodup) :
    WellKept (addResults m entries) := by
  obtain ⟨hkept, hindex, hsame⟩ := h.refreshResults hp
  refine ⟨hkept.indexed.foldl_append ?_ fun entry hm => ?_, fun name hm => ?_⟩
  · rw [← h.additions hp] at honce
    have hkeys : (FileResultModel.additions m entries).map entryKey =
        ((FileResultModel.additions m entries).map FileResultEntry.name).map ResultName.key := by
      rw [List.map_map]
      rfl
    rw [hkeys]
    apply honce.map_on
    intro name hm name' hm'
    obtain ⟨entry, he, rfl⟩ := List.mem_map.mp hm
    obtain ⟨entry', he', rfl⟩ := List.mem_map.mp hm'
    exact (ResultName.key_inj (hp _ (List.mem_of_mem_filter he))
      (hp _ (List.mem_of_mem_filter he'))).mp
  · rw [hindex]
    exact Option.isNone_iff_eq_none.mp (List.mem_filter.mp hm).2
  · rw [h.names_addResults hp] at hm
    rcases List.mem_append.mp hm with hm | hm
    · exact h.plain name hm
    · obtain ⟨entry, he, rfl⟩ := List.mem_map.mp (List.mem_of_mem_filter hm)
      exact hp entry he

omit [QtLibrary] in
theorem mem_names_iff {m : FileResultModel} :
    name ∈ names m ↔ ∃ entry ∈ m.rows, entry.name = name := List.mem_map

theorem WellKept.removeResult {m : FileResultModel} (h : WellKept m) {removed : ResultName}
    (hp : removed.IsPlain) :
    WellKept (removeResult m removed.connection removed.sessionId removed.fileName) ∧
      ∀ name, name ∈
        names (FileResultModel.removeResult m removed.connection removed.sessionId
          removed.fileName) ↔ name ∈ names m ∧ name ≠ removed := by
  have hmem : ∀ name, name ∈ names (FileResultModel.removeResult m removed.connection
      removed.sessionId removed.fileName) ↔ name ∈ names m ∧ name ≠ removed := by
    intro name
    rw [mem_names_iff, mem_names_iff]
    have hrow (entry : FileResultEntry) (hm : entry ∈ m.rows) :
        entryKey entry ≠ removed.key ↔ entry.name ≠ removed := by
      have hplain := h.plain _ (List.mem_map_of_mem hm (f := FileResultEntry.name))
      rw [entryKey_eq, ne_eq, ResultName.key_inj hplain hp]
    have herase := h.indexed.mem_erase removed.key
    constructor
    · rintro ⟨entry, hm, rfl⟩
      obtain ⟨hm, hk⟩ := (herase entry).mp hm
      exact ⟨⟨entry, hm, rfl⟩, (hrow entry hm).mp hk⟩
    · rintro ⟨⟨entry, hm, rfl⟩, hne⟩
      exact ⟨entry, (herase entry).mpr ⟨hm, (hrow entry hm).mpr hne⟩, rfl⟩
  exact ⟨⟨h.indexed.erase _, fun name hm => h.plain name ((hmem name).mp hm).1⟩, hmem⟩

theorem WellKept.keep {m : FileResultModel} (h : WellKept m) {p : FileResultEntry → Bool}
    {q : ResultName → Prop} (hpq : ∀ entry ∈ m.rows, p entry = true ↔ q entry.name) :
    WellKept (m.keep entryKey p) ∧
      ∀ name, name ∈ names (m.keep entryKey p) ↔ name ∈ names m ∧ q name := by
  have hmem : ∀ name, name ∈ names (m.keep entryKey p) ↔ name ∈ names m ∧ q name := by
    intro name
    rw [mem_names_iff, mem_names_iff, IndexedRows.keep_rows]
    constructor
    · rintro ⟨entry, hm, rfl⟩
      obtain ⟨hm, hp⟩ := List.mem_filter.mp hm
      exact ⟨⟨entry, hm, rfl⟩, (hpq entry hm).mp hp⟩
    · rintro ⟨⟨entry, hm, rfl⟩, hq⟩
      exact ⟨entry, List.mem_filter.mpr ⟨hm, (hpq entry hm).mpr hq⟩, rfl⟩
  exact ⟨⟨h.indexed.keep _, fun name hm => h.plain name ((hmem name).mp hm).1⟩, hmem⟩

theorem updateSharerNames_rows (m : FileResultModel) (registries : Registries) :
    ∃ rows, ListWindow.updateSharerNames m registries = { m with rows } ∧
      rows.map FileResultEntry.name = names m := by
  let Same (m' : FileResultModel) : Prop :=
    ∃ rows, m' = { m with rows } ∧ rows.map FileResultEntry.name = names m
  have hone (m' : FileResultModel) (connection : Nat) (sessionId displayName : String)
      (hm : Same m') : Same (updateSharerName m' connection sessionId displayName) := by
    obtain ⟨rows, rfl, hrows⟩ := hm
    refine ⟨_, rfl, Eq.trans ?_ hrows⟩
    rw [List.map_map]
    apply List.map_congr_left
    intro entry _
    rw [Function.comp_apply]
    split <;> rfl
  change Same (ListWindow.updateSharerNames m registries)
  apply List.foldlRecOn (motive := Same) registries _ ⟨m.rows, rfl, rfl⟩
  intro m' hm registry _
  apply List.foldlRecOn (motive := Same) registry.2.entries _ hm
  intro m' hm user _
  exact hone m' registry.1 user.1 _ hm

end FileResultModel

/-- What the lists hear of, the flush of the timer included. -/
inductive ListEvent where
  | callback (connection : Nat) (serverAddress : String) (registries : Registries)
      (o : ConnectionOccurrence)
  | flush (registries : Registries)

namespace ListEvent

def isFlush : ListEvent → Bool
  | flush _ | callback _ _ _ (.querySweepStateChanged false) => true
  | _ => false

/-- What an event says about a result: that it is there now, or that it is not. -/
def saysLive (name : ResultName) : ListEvent → Option Bool
  | callback connection _ _ (.queryResultAdded result _) =>
    if ⟨connection, result.sessionId, result.fileName⟩ = name then some true else none
  | callback connection _ _ (.queryResultRemoved sessionId fileName) =>
    if ⟨connection, sessionId, fileName⟩ = name then some false else none
  | callback connection _ _ (.userLeft user) =>
    if connection = name.connection ∧ user.sessionId = name.sessionId then some false else none
  | callback connection _ _ .queryResultsCleared
  | callback connection _ _ (.connectionStateChanged .disconnected) =>
    if connection = name.connection then some false else none
  | _ => none

/-- The names in the event are such that a line break cannot be part of one. -/
def IsPlain : ListEvent → Prop
  | callback connection _ _ (.queryResultAdded result _) =>
    ResultName.IsPlain ⟨connection, result.sessionId, result.fileName⟩
  | callback connection _ _ (.queryResultRemoved sessionId fileName) =>
    ResultName.IsPlain ⟨connection, sessionId, fileName⟩
  | callback _ _ _ (.userLeft user) => IsPlainId user.sessionId
  | _ => True

end ListEvent

/-- The lists with the history of what they have heard. -/
structure ListWorld extends ListWindow where
  log : List ListEvent := []

namespace ListWorld

def handle (w : ListWorld) (e : ListEvent) : ListWorld where
  toListWindow :=
    match e with
    | .callback connection serverAddress registries o =>
      w.callback connection serverAddress registries o
    | .flush registries => w.flushPendingResults registries
  log := w.log ++ [e]

def machine : EventMachine ListWorld ListEvent := ⟨handle⟩

def names (w : ListWorld) : List ResultName := FileResultModel.names w.resultsModel

def pendingNames (w : ListWorld) : List ResultName := w.pendingResults.map FileResultEntry.name

/-- The latest event about the result is an add. -/
def Live (w : ListWorld) (name : ResultName) : Prop :=
  latest (ListEvent.saysLive name) w.log = some true

instance (w : ListWorld) (name : ResultName) : Decidable (w.Live name) :=
  inferInstanceAs (Decidable (latest (ListEvent.saysLive name) w.log = some true))

/-- One row for every live result, and no other rows. -/
structure ShowsLive (w : ListWorld) : Prop where
  nodup : w.names.Nodup
  live : ∀ name, name ∈ w.names ↔ w.Live name

/-- Nothing is in the batch that has been removed since, and nothing twice without a row. -/
structure PendingIsLive (w : ListWorld) : Prop where
  live : ∀ name ∈ w.pendingNames, w.Live name
  once : (w.pendingNames.filter fun name => name ∉ w.names).Nodup

/-- What is live has a row or is in the batch, and what has a row is live. -/
structure Tracks (w : ListWorld) : Prop where
  kept : FileResultModel.WellKept w.resultsModel
  plain : ∀ entry ∈ w.pendingResults, entry.name.IsPlain
  rows : ∀ name ∈ w.names, w.Live name
  live : ∀ name, w.Live name → name ∈ w.names ∨ name ∈ w.pendingNames

theorem live_handle (w : ListWorld) (e : ListEvent) (name : ResultName) :
    (w.handle e).Live name ↔
      match e.saysLive name with
      | some live => live = true
      | none => w.Live name := by
  have hlast : latest (ListEvent.saysLive name) [e] = e.saysLive name := by
    cases hs : e.saysLive name <;> simp [latest, hs]
  change latest (ListEvent.saysLive name) (w.log ++ [e]) = some true ↔ _
  rw [latest_append, hlast]
  cases e.saysLive name with
  | none => rfl
  | some live => exact Option.some_inj

theorem flush_results (w : ListWorld) (registries : Registries) :
    (w.flushPendingResults registries).pendingResults = [] ∧
      ∃ rows, rows.map FileResultEntry.name =
          FileResultModel.names (FileResultModel.addResults w.resultsModel w.pendingResults) ∧
        (w.flushPendingResults registries).resultsModel =
          { FileResultModel.addResults w.resultsModel w.pendingResults with rows } := by
  have hadded : (if w.pendingResults = [] then w.toListWindow else { w.toListWindow with
      resultsModel := FileResultModel.addResults w.resultsModel w.pendingResults
      pendingResults := [] }) = { w.toListWindow with
        resultsModel := FileResultModel.addResults w.resultsModel w.pendingResults
        pendingResults := [] } := by
    split
    · next hnone =>
      have hsame : { w.toListWindow with pendingResults := [] } = w.toListWindow := by
        rw [← hnone]
      rw [hnone]
      exact hsame.symm
    · rfl
  simp only [ListWindow.flushPendingResults, hadded]
  split
  · obtain ⟨rows, hmodel, hrows⟩ := FileResultModel.updateSharerNames_rows
      (FileResultModel.addResults w.resultsModel w.pendingResults) registries
    exact ⟨rfl, rows, hrows, hmodel⟩
  · exact ⟨rfl, _, rfl, rfl⟩

theorem handle_flush (w : ListWorld) {e : ListEvent} (he : e.isFlush = true) :
    (∀ name, e.saysLive name = none) ∧
      ∃ registries, (w.handle e).toListWindow = w.flushPendingResults registries := by
  cases e with
  | flush registries => exact ⟨fun name => rfl, registries, rfl⟩
  | callback connection serverAddress registries o =>
    cases o with
    | querySweepStateChanged isSweeping =>
      cases isSweeping with
      | true => cases he
      | false => exact ⟨fun name => rfl, registries, rfl⟩
    | _ => cases he

/-- A flush shows what is live exactly if the batch is, and the lists are in order after it. -/
theorem Tracks.flush {w : ListWorld} (h : Tracks w) {e : ListEvent} (he : e.isFlush = true) :
    (ShowsLive (w.handle e) ↔ PendingIsLive w) ∧
      (ShowsLive (w.handle e) → Tracks (w.handle e)) := by
  obtain ⟨hsilent, registries, hflush⟩ := w.handle_flush he
  obtain ⟨hpending, rows, hrows, hmodel⟩ := w.flush_results registries
  have hlive (name : ResultName) : (w.handle e).Live name ↔ w.Live name := by
    rw [live_handle, hsilent]
  have hnames : (w.handle e).names =
      w.names ++ w.pendingNames.filter fun name => name ∉ w.names := by
    rw [names, hflush, hmodel]
    exact hrows.trans (h.kept.names_addResults h.plain)
  have hmem (name : ResultName) :
      name ∈ (w.handle e).names ↔ name ∈ w.names ∨ name ∈ w.pendingNames := by
    rw [hnames, List.mem_append, List.mem_filter, decide_eq_true_iff]
    tauto
  have hshows : ShowsLive (w.handle e) ↔ PendingIsLive w := by
    constructor
    · rintro ⟨hnodup, hall⟩
      rw [hnames] at hnodup
      exact ⟨fun name hm => (hlive name).mp ((hall name).mp ((hmem name).mpr (.inr hm))),
        (List.nodup_append.mp hnodup).2.1⟩
    · rintro ⟨hall, honce⟩
      refine ⟨?_, fun name => ?_⟩
      · rw [hnames]
        refine List.nodup_append.mpr ⟨h.kept.nodup, honce, fun name hm name' hm' => ?_⟩
        rintro rfl
        exact of_decide_eq_true (List.mem_filter.mp hm').2 hm
      · rw [hmem, hlive]
        exact ⟨fun hm => hm.elim (h.rows name) (hall name), h.live name⟩
  refine ⟨hshows, fun hs => ?_⟩
  have honce := (hshows.mp hs).once
  have hnone : (w.handle e).pendingResults = [] := by rw [hflush, hpending]
  refine ⟨?_, ?_, fun name hm => (hs.live name).mp hm, fun name hl => .inl ((hs.live name).mpr hl)⟩
  · rw [hflush, hmodel]
    exact (h.kept.addResults h.plain honce).of_names hrows
  · rw [hnone]
    exact fun entry hm => by cases hm

theorem Tracks.removes {w : ListWorld} (h : Tracks w) {e : ListEvent} (gone : ResultName → Prop)
    [DecidablePred gone]
    (he : ∀ name, e.saysLive name = if gone name then some false else none)
    (hkept : FileResultModel.WellKept (w.handle e).resultsModel)
    (hnames : ∀ name, name ∈ (w.handle e).names ↔ name ∈ w.names ∧ ¬gone name)
    (hplain : ∀ entry ∈ (w.handle e).pendingResults, entry ∈ w.pendingResults)
    (hpending : ∀ name ∈ w.pendingNames, ¬gone name → name ∈ (w.handle e).pendingNames) :
    Tracks (w.handle e) := by
  have hlive (name : ResultName) : (w.handle e).Live name ↔ w.Live name ∧ ¬gone name := by
    rw [live_handle, he]
    by_cases hg : gone name
    · simp [hg]
    · simp [hg]
  refine ⟨hkept, fun entry hm => h.plain entry (hplain entry hm), fun name hm => ?_,
    fun name hl => ?_⟩
  · obtain ⟨hm, hg⟩ := (hnames name).mp hm
    exact (hlive name).mpr ⟨h.rows name hm, hg⟩
  · obtain ⟨hl, hg⟩ := (hlive name).mp hl
    rcases h.live name hl with hm | hm
    · exact .inl ((hnames name).mpr ⟨hm, hg⟩)
    · exact .inr (hpending name hm hg)

theorem Tracks.silent {w : ListWorld} (h : Tracks w) {e : ListEvent}
    (he : ∀ name, e.saysLive name = none)
    (hresults : (w.handle e).resultsModel = w.resultsModel)
    (hpending : (w.handle e).pendingResults = w.pendingResults) : Tracks (w.handle e) := by
  have hnames : (w.handle e).names = w.names := congrArg FileResultModel.names hresults
  have hbatch : (w.handle e).pendingNames = w.pendingNames :=
    congrArg (List.map FileResultEntry.name) hpending
  apply h.removes (fun _ => False) he
  · rw [hresults]
    exact h.kept
  · simp [hnames]
  · simp [hpending]
  · simp [hbatch]

theorem Tracks.queryResultAdded {w : ListWorld} (h : Tracks w) (connection : Nat)
    (serverAddress : String) (registries : Registries) {result : FileResult} (sharerName : String)
    (hp : ResultName.IsPlain ⟨connection, result.sessionId, result.fileName⟩) :
    Tracks (w.handle (.callback connection serverAddress registries
      (.queryResultAdded result sharerName))) := by
  refine ⟨h.kept, fun entry hm => ?_, fun name hm => ?_, fun name hl => ?_⟩
  · rcases List.mem_append.mp hm with hm | hm
    · exact h.plain entry hm
    · rw [List.mem_singleton.mp hm]
      exact hp
  · rw [live_handle, ListEvent.saysLive]
    split
    · next heq =>
      split at heq
      · cases heq
        rfl
      · cases heq
    · exact h.rows name hm
  · rw [live_handle, ListEvent.saysLive] at hl
    have hbatch (name' : ResultName) (hm : name' ∈ w.pendingNames ∨
        name' = ⟨connection, result.sessionId, result.fileName⟩) :
        name' ∈ (w.handle (.callback connection serverAddress registries
          (.queryResultAdded result sharerName))).pendingNames := by
      change name' ∈ (w.pendingResults ++ [_]).map FileResultEntry.name
      rw [List.map_append, List.mem_append]
      rcases hm with hm | rfl
      · exact .inl hm
      · exact .inr List.mem_cons_self
    by_cases heq : ⟨connection, result.sessionId, result.fileName⟩ = name
    · exact .inr (hbatch name (.inr heq.symm))
    · rw [if_neg heq] at hl
      exact (h.live name hl).imp_right fun hm => hbatch name (.inl hm)

theorem Tracks.queryResultsCleared {w : ListWorld} (h : Tracks w) (connection : Nat)
    (serverAddress : String) (registries : Registries) :
    Tracks (w.handle (.callback connection serverAddress registries .queryResultsCleared)) := by
  obtain ⟨hkept, hnames⟩ := h.kept.keep (p := fun entry => entry.connection ≠ connection)
    (q := fun name => ¬connection = name.connection)
    fun entry _ => by rw [decide_eq_true_iff, ne_comm]; rfl
  refine h.removes _ (fun name => rfl) hkept hnames (fun entry hm => List.mem_of_mem_filter hm) ?_
  intro name hm hne
  obtain ⟨entry, he, rfl⟩ := List.mem_map.mp hm
  exact List.mem_map_of_mem (List.mem_filter.mpr ⟨he, decide_eq_true (Ne.symm hne)⟩)

theorem Tracks.connectionStateChanged {w : ListWorld} (h : Tracks w) (connection : Nat)
    (serverAddress : String) (registries : Registries) (state : ConnectionState) :
    Tracks (w.handle (.callback connection serverAddress registries
      (.connectionStateChanged state))) := by
  cases state with
  | disconnected =>
    obtain ⟨hkept, hnames⟩ := h.kept.keep (p := fun entry => entry.connection ≠ connection)
      (q := fun name => ¬connection = name.connection)
      fun entry _ => by rw [decide_eq_true_iff, ne_comm]; rfl
    exact h.removes _ (fun name => rfl) hkept hnames (fun entry hm => hm) fun name hm _ => hm
  | _ => exact h.silent (fun name => rfl) rfl rfl

theorem Tracks.userLeft {w : ListWorld} (h : Tracks w) (connection : Nat)
    (serverAddress : String) (registries : Registries) {user : UserRecord}
    (hp : IsPlainId user.sessionId) :
    Tracks (w.handle (.callback connection serverAddress registries (.userLeft user))) := by
  obtain ⟨hkept, hnames⟩ := h.kept.keep
    (p := fun entry => entry.connection ≠ connection ∨
      toQString entry.result.sessionId ≠ toQString user.sessionId)
    (q := fun name => ¬(connection = name.connection ∧ user.sessionId = name.sessionId))
    fun entry hm => by
      have hutf8 : isUtf8 entry.result.sessionId = true :=
        (h.kept.plain _ (List.mem_map_of_mem hm (f := FileResultEntry.name))).sessionId.1
      rw [decide_eq_true_iff, ne_eq, ne_eq, toQString_inj hutf8 hp.1, not_and_or,
        eq_comm, eq_comm (a := entry.result.sessionId)]
      rfl
  exact h.removes _ (fun name => rfl) hkept hnames (fun entry hm => hm) fun name hm _ => hm

theorem Tracks.handle_callback {w : ListWorld} (h : Tracks w) {e : ListEvent} (hp : e.IsPlain)
    (he : e.isFlush = false) : Tracks (w.handle e) := by
  cases e with
  | flush registries => cases he
  | callback connection serverAddress registries o =>
    cases o with
    | queryResultAdded result sharerName => exact h.queryResultAdded _ _ _ _ hp
    | queryResultRemoved sessionId fileName =>
      have hplain : ResultName.IsPlain ⟨connection, sessionId, fileName⟩ := hp
      obtain ⟨hkept, hnames⟩ := h.kept.removeResult hplain
      refine h.removes (fun name => ⟨connection, sessionId, fileName⟩ = name)
        (fun name => rfl) hkept ?_ (fun entry hm => hm) fun name hm _ => hm
      exact fun name => (hnames name).trans (and_congr_right fun _ => ne_comm)
    | userLeft user => exact h.userLeft _ _ _ hp
    | queryResultsCleared => exact h.queryResultsCleared _ _ _
    | connectionStateChanged state => exact h.connectionStateChanged _ _ _ state
    | userUpdated user isNewUser =>
      cases isNewUser <;> exact h.silent (fun name => rfl) rfl rfl
    | querySweepStateChanged isSweeping =>
      cases isSweeping with
      | true => exact h.silent (fun name => rfl) rfl rfl
      | false => cases he
    | _ => exact h.silent (fun name => rfl) rfl rfl

theorem tracks_new : Tracks {} where
  kept := ⟨IndexedRows.indexed_empty _, fun name hm => by cases hm⟩
  plain entry hm := by cases hm
  rows name hm := by cases hm
  live name hl := by cases hl

def FlushesShowLive (w : ListWorld) (e : ListEvent) : Prop :=
  e.isFlush = true → ShowsLive (w.handle e)

def FlushesAreLive (w : ListWorld) (e : ListEvent) : Prop := e.isFlush = true → PendingIsLive w

end ListWorld

end

/-- A file goes away again before the batch it is in has been flushed. -/
theorem removed_result_comes_back : ¬ ∀ (_ : QtLibrary) (es : List ListEvent),
    ListWorld.machine.EveryStep ListWorld.FlushesShowLive {} es := by
  intro h
  have hrun := h plainQt
    [.callback 0 "server" [] (.queryResultAdded { sessionId := "5", fileName := "notes.txt" } "5"),
      .callback 0 "server" [] (.queryResultRemoved "5" "notes.txt"), .flush []]
  have hlive := ((hrun.2.2.1 rfl).live ⟨0, "5", "notes.txt"⟩).mp (by decide)
  exact absurd hlive (by decide)

/-- Over a run with plain names, the rows after each flush are the live results, one row each,
exactly if each flush finds nothing in the batch that is not live or that is there twice without a
row. -/
theorem rows_are_live_results [QtLibrary] (es : List ListEvent) (hplain : ∀ e ∈ es, e.IsPlain) :
    ListWorld.machine.EveryStep ListWorld.FlushesShowLive {} es ↔
      ListWorld.machine.EveryStep ListWorld.FlushesAreLive {} es := by
  refine EventMachine.everyStep_iff_of_kind (J := ListWorld.Tracks) ?_ ?_ ListWorld.tracks_new
    hplain
  · intro w e hp h hs
    cases he : e.isFlush with
    | true => exact (h.flush he).2 (hs he)
    | false => exact h.handle_callback hp he
  · intro w e hp h
    exact forall_congr' fun he => (h.flush he).1

/-- Two servers bring a file of the same name, one of them takes it back, and another one comes. -/
theorem added_result_is_shown :
    let _ : QtLibrary := plainQt
    let es : List ListEvent :=
      [.callback 0 "server" []
          (.queryResultAdded { sessionId := "5", fileName := "notes.txt" } "5"),
        .callback 1 "other" []
          (.queryResultAdded { sessionId := "5", fileName := "notes.txt" } "5"),
        .flush [],
        .callback 0 "server" [] (.queryResultRemoved "5" "notes.txt"),
        .callback 1 "other" []
          (.queryResultAdded { sessionId := "6", fileName := "song.ogg" } "6"),
        .flush []]
    ListWorld.machine.EveryStep ListWorld.FlushesShowLive {} es := by
  intro library es
  have hplain : ∀ e ∈ es, e.IsPlain := by
    simp only [es, List.forall_mem_cons]
    exact ⟨⟨⟨rfl, by decide⟩, rfl⟩, ⟨⟨rfl, by decide⟩, rfl⟩, trivial, ⟨⟨rfl, by decide⟩, rfl⟩,
      ⟨⟨rfl, by decide⟩, rfl⟩, trivial, List.forall_mem_nil _⟩
  have hfalse (P : Prop) (h : false = true) : P := absurd h Bool.false_ne_true
  exact (rows_are_live_results es hplain).mpr ⟨hfalse _, hfalse _,
    fun _ => ⟨by decide, by decide⟩, hfalse _, hfalse _, fun _ => ⟨by decide, by decide⟩, trivial⟩

end HiTuxShare
