import HiTuxShare.EventMachine
import HiTuxShare.PublishedFiles
import HiTuxShare.ScannedFolders
import Mathlib.Data.List.Dedup

namespace HiTuxShare
set_option autoImplicit true

/-- A scan with everything that has been taken from it. -/
structure Scan where
  scanner : ShareScanner
  taken : List SharedFile := []

/-- The thread makes a step, or the owner looks what there is. -/
inductive ScanTurn where
  | threadStep
  | takeDiscoveredFiles
  | takeScanFinished
  deriving DecidableEq

namespace Scan

def handle (fs : FileSystem) (s : Scan) : ScanTurn → Scan
  | .threadStep => { s with scanner := s.scanner.threadStep fs }
  | .takeDiscoveredFiles =>
    let (files, scanner) := s.scanner.takeDiscoveredFiles
    ⟨scanner, s.taken ++ files⟩
  | .takeScanFinished => { s with scanner := s.scanner.takeScanFinished.2 }

/-- The tree stays as it is while it is scanned. -/
def machine (fs : FileSystem) : EventMachine Scan ScanTurn := ⟨handle fs⟩

/-- Right after `StartScan`. -/
def begin (fs : FileSystem) (scanner : ShareScanner) : Scan := ⟨scanner.startScan fs true, []⟩

/-- The scan has come to its end, and the last files have been taken too. -/
structure Complete (s : Scan) : Prop where
  ended : s.scanner.thread = .ended
  nothingPending : s.scanner.pendingFiles = []

/-- The files that were the first of their name, in the order they were claimed in. -/
def kept (s : Scan) : List SharedFile := s.taken ++ s.scanner.pendingFiles ++ s.scanner.found

end Scan

def repeats (files : List SharedFile) : Nat :=
  files.length - (files.map (·.fileName)).dedup.length

/-- What the owner is promised of a complete scan. -/
structure FindsEachNameOnce (fs : FileSystem) (shareDirectory : String) (s : Scan) : Prop where
  once : (s.taken.map (·.fileName)).Nodup
  each : ∀ name, name ∈ s.taken.map (·.fileName) ↔
    ∃ file, Visited fs shareDirectory file ∧ file.fileName = name
  counted : s.taken.length + s.scanner.duplicateNameCount.toNat =
    (visitedFiles fs shareDirectory).length
  placed : ∀ file ∈ s.taken, FilePlaced shareDirectory file

namespace Scan

/-- The files the thread has still to claim the name of. -/
def unclaimed (fs : FileSystem) (shareDirectory : String) : ThreadPosition → List SharedFile
  | .starting => visitedFiles fs shareDirectory
  | .scanning opened =>
    BoundedWalk.filesLeft (entriesOf fs) levelsScanned (unreadEntries fs opened)
  | .claiming file opened =>
    file :: BoundedWalk.filesLeft (entriesOf fs) levelsScanned (unreadEntries fs opened)
  | .adding _ opened =>
    BoundedWalk.filesLeft (entriesOf fs) levelsScanned (unreadEntries fs opened)
  | .ended => []

/-- `seen` are the files the thread has come past. -/
structure Progress (fs : FileSystem) (shareDirectory : String) (s : Scan)
    (seen : List SharedFile) : Prop where
  sameShare : s.scanner.shareDirectory = shareDirectory
  notAborted : s.scanner.shouldAbort = false
  ahead : seen ++ unclaimed fs shareDirectory s.scanner.thread = visitedFiles fs shareDirectory
  claimed : s.scanner.claimedNames = s.kept.map (·.fileName)
  once : s.scanner.claimedNames.Nodup
  fromSeen : s.kept.Sublist seen
  names : ∀ file ∈ seen, file.fileName ∈ s.scanner.claimedNames
  counted : s.scanner.duplicateNameCount = .ofNat (seen.length - s.kept.length)

theorem begin_progress (fs fs' : FileSystem) (scanner : ShareScanner)
    (h : scanner.shareDirectory ≠ "") :
    Progress fs scanner.shareDirectory (begin fs' scanner) [] := by
  have hdirectory := scanner.stopScan_shareDirectory fs'
  have hs : (scanner.stopScan fs').shareDirectory ≠ "" := hdirectory ▸ h
  have hbegin : begin fs' scanner = ⟨{ scanner.stopScan fs' with
      pendingFiles := []
      claimedNames := []
      duplicateNameCount := 0
      scanFinished := false
      shouldAbort := false
      threadRunning := true
      thread := .starting }, []⟩ := by
    simp only [begin, ShareScanner.startScan, if_neg hs, ↓reduceIte]
  rw [hbegin]
  exact {
    sameShare := hdirectory
    notAborted := rfl
    ahead := rfl
    claimed := rfl
    once := List.nodup_nil
    fromSeen := .slnil
    names := fun _ hm => absurd hm List.not_mem_nil
    counted := rfl }

theorem begin_thread (fs : FileSystem) {scanner : ShareScanner}
    (h : scanner.shareDirectory ≠ "") : (begin fs scanner).scanner.thread = .starting := by
  have hs : (scanner.stopScan fs).shareDirectory ≠ "" := scanner.stopScan_shareDirectory fs ▸ h
  simp only [begin, ShareScanner.startScan, if_neg hs, ↓reduceIte]

theorem filesLeft_enterDirectory (fs : FileSystem) (folder : Folder)
    (opened : List OpenDirectory) :
    BoundedWalk.filesLeft (entriesOf fs) levelsScanned
        (unreadEntries fs (enterDirectory fs folder.directoryPath folder.relativePath opened)) =
      BoundedWalk.filesLeft (entriesOf fs) levelsScanned
        (BoundedWalk.enter (entriesOf fs) levelsScanned folder (unreadEntries fs opened)) := by
  rcases unreadEntries_enterDirectory fs folder opened with he | ⟨he, hempty⟩
  · rw [he]
  · rw [he, hempty, BoundedWalk.filesLeft_read]

theorem Progress.of_same (h : Progress fs shareDirectory s seen) {s' : Scan}
    (hshare : s'.scanner.shareDirectory = s.scanner.shareDirectory)
    (habort : s'.scanner.shouldAbort = s.scanner.shouldAbort)
    (hnames : s'.scanner.claimedNames = s.scanner.claimedNames)
    (hcount : s'.scanner.duplicateNameCount = s.scanner.duplicateNameCount)
    (hkept : s'.kept = s.kept)
    (hahead : unclaimed fs shareDirectory s'.scanner.thread =
      unclaimed fs shareDirectory s.scanner.thread) : Progress fs shareDirectory s' seen where
  sameShare := hshare.trans h.sameShare
  notAborted := habort.trans h.notAborted
  ahead := hahead ▸ h.ahead
  claimed := by
    rw [hnames, hkept]
    exact h.claimed
  once := hnames ▸ h.once
  fromSeen := hkept ▸ h.fromSeen
  names := hnames ▸ h.names
  counted := by
    rw [hcount, hkept]
    exact h.counted

theorem Progress.ahead_claiming (h : Progress fs shareDirectory s seen)
    (ht : s.scanner.thread = .claiming file opened) :
    (seen ++ [file]) ++ BoundedWalk.filesLeft (entriesOf fs) levelsScanned
      (unreadEntries fs opened) = visitedFiles fs shareDirectory := by
  rw [List.append_assoc, ← h.ahead, ht]
  rfl

theorem kept_of_found {s : Scan} (h : s.scanner.found = []) :
    s.kept = s.taken ++ s.scanner.pendingFiles := by
  rw [kept, h, List.append_nil]

theorem Progress.counts (h : Progress fs shareDirectory s seen)
    (ht : s.scanner.thread = .claiming file opened)
    (hm : file.fileName ∈ s.scanner.claimedNames) :
    Progress fs shareDirectory (s.handle fs .threadStep) (seen ++ [file]) := by
  have hstep : s.handle fs .threadStep = ⟨{ s.scanner with
      duplicateNameCount := s.scanner.duplicateNameCount + 1
      thread := .scanning opened }, s.taken⟩ := by
    simp only [handle, ShareScanner.threadStep, ht, if_pos hm]
  have hfound : s.scanner.found = [] := by simp only [ShareScanner.found, ht]
  have hsame : kept ⟨{ s.scanner with
      duplicateNameCount := s.scanner.duplicateNameCount + 1
      thread := .scanning opened }, s.taken⟩ = s.kept := by
    rw [kept_of_found hfound]
    exact List.append_nil _
  have hle := h.fromSeen.length_le
  rw [hstep]
  exact {
    sameShare := h.sameShare
    notAborted := h.notAborted
    ahead := h.ahead_claiming ht
    claimed := by
      rw [hsame]
      exact h.claimed
    once := h.once
    fromSeen := hsame ▸ h.fromSeen.trans (List.sublist_append_left _ _)
    names := by
      intro file' hf
      rcases List.mem_append.mp hf with hf | hf
      · exact h.names file' hf
      · cases List.mem_singleton.mp hf
        exact hm
    counted := by
      have hlength : (seen ++ [file]).length - s.kept.length =
          (seen.length - s.kept.length) + 1 := by
        rw [List.length_append, List.length_singleton]
        omega
      rw [hsame, hlength, UInt32.ofNat_add]
      exact congrArg (· + 1) h.counted }

theorem Progress.claims (h : Progress fs shareDirectory s seen)
    (ht : s.scanner.thread = .claiming file opened)
    (hm : file.fileName ∉ s.scanner.claimedNames) :
    Progress fs shareDirectory (s.handle fs .threadStep) (seen ++ [file]) := by
  have hstep : s.handle fs .threadStep = ⟨{ s.scanner with
      claimedNames := s.scanner.claimedNames ++ [file.fileName]
      thread := .adding file opened }, s.taken⟩ := by
    simp only [handle, ShareScanner.threadStep, ht, if_neg hm]
  have hfound : s.scanner.found = [] := by simp only [ShareScanner.found, ht]
  have hmore : kept ⟨{ s.scanner with
      claimedNames := s.scanner.claimedNames ++ [file.fileName]
      thread := .adding file opened }, s.taken⟩ = s.kept ++ [file] := by
    rw [kept_of_found hfound]
    rfl
  rw [hstep]
  exact {
    sameShare := h.sameShare
    notAborted := h.notAborted
    ahead := h.ahead_claiming ht
    claimed := by
      rw [hmore, List.map_append]
      exact congrArg (· ++ [file.fileName]) h.claimed
    once := by
      apply List.nodup_append.mpr
      refine ⟨h.once, List.nodup_singleton _, ?_⟩
      intro name hn name' hn' he
      cases List.mem_singleton.mp hn'
      exact hm (he ▸ hn)
    fromSeen := by
      rw [hmore]
      exact h.fromSeen.append_right [file]
    names := by
      intro file' hf
      rcases List.mem_append.mp hf with hf | hf
      · exact List.mem_append_left _ (h.names file' hf)
      · cases List.mem_singleton.mp hf
        exact List.mem_append_right _ (List.mem_singleton.mpr rfl)
    counted := by
      rw [hmore, List.length_append, List.length_append, List.length_singleton,
        Nat.add_sub_add_right]
      exact h.counted }

theorem Progress.visits (h : Progress fs shareDirectory s seen)
    (ht : s.scanner.thread = .scanning (directory :: outer))
    (hu : directory.unread = entryName :: unread) :
    Progress fs shareDirectory (s.handle fs .threadStep) seen := by
  have hstep : s.handle fs .threadStep = ⟨{ s.scanner with
      thread := visitEntry fs directory entryName ({ directory with unread } :: outer) },
      s.taken⟩ := by
    simp only [handle, ShareScanner.threadStep, ht, hu]
    rw [if_neg (ne_true_of_eq_false h.notAborted)]
  have hfound : s.scanner.found = [] := by simp only [ShareScanner.found, ht]
  have hkept := kept_of_found hfound
  have hunread : unreadEntries fs (directory :: outer) =
      (entryOf fs directory.folder entryName :: unread.map (entryOf fs directory.folder)) ::
        unreadEntries fs outer := by
    rw [unreadEntries, List.map_cons, hu]
    rfl
  rw [hstep, visitEntry_eq]
  cases he : entryOf fs directory.folder entryName with
  | skipped =>
    refine h.of_same rfl rfl rfl rfl ?_ ?_
    · rw [hkept]
      exact List.append_nil _
    · rw [ht, unclaimed, unclaimed, hunread, he, BoundedWalk.filesLeft_skipped]
      rfl
  | folder folder =>
    refine h.of_same rfl rfl rfl rfl ?_ ?_
    · rw [hkept]
      exact List.append_nil _
    · rw [ht, unclaimed, unclaimed, hunread, he, BoundedWalk.filesLeft_folder,
        filesLeft_enterDirectory]
      rfl
  | file file =>
    refine h.of_same rfl rfl rfl rfl ?_ ?_
    · rw [hkept]
      exact List.append_nil _
    · rw [ht, unclaimed, unclaimed, hunread, he, BoundedWalk.filesLeft_file]
      rfl

theorem Progress.threadStep (h : Progress fs shareDirectory s seen) :
    ∃ seen', Progress fs shareDirectory (s.handle fs .threadStep) seen' := by
  cases ht : s.scanner.thread with
  | starting =>
    apply Exists.intro seen
    simp only [handle, ShareScanner.threadStep, ht]
    refine h.of_same rfl rfl rfl rfl ?_ ?_
    · simp only [kept, ShareScanner.found, ht]
    · rw [ht, unclaimed, unclaimed, h.sameShare]
      have henter := filesLeft_enterDirectory fs ⟨shareDirectory, ""⟩ []
      rw [BoundedWalk.filesLeft_enter] at henter
      exact henter.trans (List.append_nil _)
  | scanning opened =>
    apply Exists.intro seen
    cases opened with
    | nil =>
      simp only [handle, ShareScanner.threadStep, ht]
      refine h.of_same rfl rfl rfl rfl ?_ ?_
      · simp only [kept, ShareScanner.found, ht]
      · rw [ht]
        rfl
    | cons directory outer =>
      cases hu : directory.unread with
      | nil =>
        simp only [handle, ShareScanner.threadStep, ht, hu]
        refine h.of_same rfl rfl rfl rfl ?_ ?_
        · simp only [kept, ShareScanner.found, ht]
        · rw [ht, unclaimed, unclaimed, unreadEntries, unreadEntries, List.map_cons, hu]
          rfl
      | cons entryName unread => exact h.visits ht hu
  | claiming file opened =>
    apply Exists.intro (seen ++ [file])
    by_cases hm : file.fileName ∈ s.scanner.claimedNames
    · exact h.counts ht hm
    · exact h.claims ht hm
  | adding file opened =>
    apply Exists.intro seen
    have hstep : s.handle fs .threadStep = ⟨{ s.scanner with
        pendingFiles := s.scanner.pendingFiles ++ [file]
        thread := .scanning opened }, s.taken⟩ := by
      simp only [handle, ShareScanner.threadStep, ht]
    rw [hstep]
    refine h.of_same rfl rfl rfl rfl ?_ ?_
    · simp only [kept, ShareScanner.found, ht, List.append_nil, List.append_assoc]
    · rw [ht]
      rfl
  | ended =>
    apply Exists.intro seen
    have hstep : s.handle fs .threadStep = s := by
      simp only [handle, ShareScanner.threadStep_of_ended fs ht]
    rw [hstep]
    exact h

/-- Files change hands, none is lost on the way. -/
theorem kept_takeDiscoveredFiles (fs : FileSystem) (s : Scan) :
    (s.handle fs .takeDiscoveredFiles).kept = s.kept := by
  change s.taken ++ s.scanner.pendingFiles ++ [] ++ s.scanner.found = _
  rw [List.append_nil]
  rfl

theorem Progress.handle (h : Progress fs shareDirectory s seen) (e : ScanTurn) :
    ∃ seen', Progress fs shareDirectory (s.handle fs e) seen' := by
  cases e with
  | threadStep => exact h.threadStep
  | takeDiscoveredFiles =>
    exact ⟨seen, h.of_same rfl rfl rfl rfl (s.kept_takeDiscoveredFiles fs) rfl⟩
  | takeScanFinished => exact ⟨seen, h.of_same rfl rfl rfl rfl rfl rfl⟩

theorem run_progress (h : Progress fs shareDirectory s seen) (es : List ScanTurn) :
    ∃ seen', Progress fs shareDirectory ((machine fs).run s es) seen' := by
  induction es generalizing s seen with
  | nil => exact ⟨seen, h⟩
  | cons e es ih =>
    obtain ⟨seen', h'⟩ := h.handle e
    exact ih h'

section Complete

variable (h : Progress fs shareDirectory s seen) (hc : s.Complete)
include h hc

/-- In the end every file has been seen, and those that were kept have been taken. -/
theorem Progress.complete : seen = visitedFiles fs shareDirectory ∧ s.kept = s.taken := by
  constructor
  · rw [← h.ahead, hc.ended]
    exact (List.append_nil _).symm
  · simp only [kept, hc.nothingPending, ShareScanner.found, hc.ended, List.append_nil]

theorem Progress.taken_names_nodup : (s.taken.map (·.fileName)).Nodup := by
  rw [← (h.complete hc).2, ← h.claimed]
  exact h.once

theorem Progress.mem_taken_names (name : String) : name ∈ s.taken.map (·.fileName) ↔
    name ∈ (visitedFiles fs shareDirectory).map (·.fileName) := by
  obtain ⟨hseen, hkept⟩ := h.complete hc
  constructor
  · intro hm
    rw [← hkept] at hm
    rw [← hseen]
    exact (h.fromSeen.map (·.fileName)).subset hm
  · intro hm
    rw [← hseen] at hm
    obtain ⟨file, hf, rfl⟩ := List.mem_map.mp hm
    rw [← hkept, ← h.claimed]
    exact h.names file hf

theorem Progress.taken_length :
    s.taken.length = ((visitedFiles fs shareDirectory).map (·.fileName)).dedup.length := by
  have hperm : (s.taken.map (·.fileName)).Perm
      ((visitedFiles fs shareDirectory).map (·.fileName)).dedup := by
    rw [List.perm_ext_iff_of_nodup (h.taken_names_nodup hc) (List.nodup_dedup _)]
    intro name
    rw [List.mem_dedup, h.mem_taken_names hc]
  rw [← hperm.length_eq, List.length_map]

/-- The counter starts anew at 2 ^ 32. -/
theorem Progress.counted_iff : s.taken.length + s.scanner.duplicateNameCount.toNat =
    (visitedFiles fs shareDirectory).length ↔
      repeats (visitedFiles fs shareDirectory) < 2 ^ 32 := by
  obtain ⟨hseen, hkept⟩ := h.complete hc
  have hle := h.fromSeen.length_le
  have hcount := h.counted
  rw [hseen, hkept] at hle hcount
  rw [hcount, UInt32.toNat_ofNat', repeats, ← h.taken_length hc]
  constructor
  · intro he
    have hmod := Nat.mod_lt ((visitedFiles fs shareDirectory).length - s.taken.length)
      (Nat.two_pow_pos 32)
    omega
  · intro hlt
    rw [Nat.mod_eq_of_lt hlt]
    omega

end Complete

/-! The thread does not go on for ever. -/

/-- How many steps the thread still makes at most. Claiming a name and adding the file are two
steps beside the one that reads the entry. -/
def stepsAhead (fs : FileSystem) (shareDirectory : String) : ThreadPosition → Nat
  | .starting =>
    BoundedWalk.stepsBelow 2 (entriesOf fs) levelsScanned ⟨shareDirectory, ""⟩ + 2
  | .scanning opened =>
    BoundedWalk.stepsLeft 2 (entriesOf fs) levelsScanned (unreadEntries fs opened) + 1
  | .claiming _ opened =>
    BoundedWalk.stepsLeft 2 (entriesOf fs) levelsScanned (unreadEntries fs opened) + 3
  | .adding _ opened =>
    BoundedWalk.stepsLeft 2 (entriesOf fs) levelsScanned (unreadEntries fs opened) + 2
  | .ended => 0

theorem stepsAhead_eq_zero (h : stepsAhead fs shareDirectory position = 0) :
    position = .ended := by
  cases position with
  | ended => rfl
  | _ => cases h

theorem stepsLeft_enterDirectory (fs : FileSystem) (folder : Folder)
    (opened : List OpenDirectory) :
    BoundedWalk.stepsLeft 2 (entriesOf fs) levelsScanned
        (unreadEntries fs (enterDirectory fs folder.directoryPath folder.relativePath opened)) ≤
      BoundedWalk.stepsBelow 2 (entriesOf fs) (levelsScanned - opened.length) folder +
        BoundedWalk.stepsLeft 2 (entriesOf fs) levelsScanned (unreadEntries fs opened) := by
  have henter := BoundedWalk.stepsLeft_enter 2 (entriesOf fs) levelsScanned folder
    (unreadEntries fs opened)
  rw [unreadEntries, List.length_map, ← unreadEntries] at henter
  rcases unreadEntries_enterDirectory fs folder opened with he | ⟨he, -⟩
  · rw [he, henter]
  · rw [he]
    omega

theorem stepsLeft_read (hu : directory.unread = []) (outer : List OpenDirectory) :
    BoundedWalk.stepsLeft 2 (entriesOf fs) levelsScanned (unreadEntries fs (directory :: outer)) =
      BoundedWalk.stepsLeft 2 (entriesOf fs) levelsScanned (unreadEntries fs outer) + 1 := by
  rw [unreadEntries, List.map_cons, hu]
  exact BoundedWalk.stepsLeft_read _

theorem stepsAhead_visitEntry (fs : FileSystem) (shareDirectory : String)
    (hu : directory.unread = entryName :: unread) (outer : List OpenDirectory) :
    stepsAhead fs shareDirectory
        (visitEntry fs directory entryName ({ directory with unread } :: outer)) + 1 ≤
      stepsAhead fs shareDirectory (.scanning (directory :: outer)) := by
  have hbefore : BoundedWalk.stepsLeft 2 (entriesOf fs) levelsScanned
      (unreadEntries fs (directory :: outer)) =
        (entryOf fs directory.folder entryName).steps 2 (BoundedWalk.stepsBelow 2 (entriesOf fs)
          (levelsScanned - (outer.length + 1))) +
        BoundedWalk.stepsLeft 2 (entriesOf fs) levelsScanned
          (unreadEntries fs ({ directory with unread } :: outer)) := by
    rw [unreadEntries, List.map_cons, hu, List.map_cons, BoundedWalk.stepsLeft_entry,
      List.length_map]
    rfl
  rw [visitEntry_eq, stepsAhead, hbefore]
  cases entryOf fs directory.folder entryName with
  | skipped =>
    simp only [stepsAhead, WalkEntry.steps]
    omega
  | file file =>
    simp only [stepsAhead, WalkEntry.steps]
    omega
  | folder folder =>
    have hfolder := stepsLeft_enterDirectory fs folder ({ directory with unread } :: outer)
    simp only [List.length_cons] at hfolder
    simp only [stepsAhead, WalkEntry.steps]
    omega

theorem Progress.stepsAhead_threadStep (h : Progress fs shareDirectory s seen) :
    stepsAhead fs shareDirectory (s.handle fs .threadStep).scanner.thread ≤
      stepsAhead fs shareDirectory s.scanner.thread - 1 := by
  cases ht : s.scanner.thread with
  | starting =>
    have hroot := stepsLeft_enterDirectory fs ⟨shareDirectory, ""⟩ []
    simp only [Scan.handle, ShareScanner.threadStep, ht, stepsAhead, h.sameShare]
    simp only [List.length_nil, Nat.sub_zero, unreadEntries, List.map_nil,
      BoundedWalk.stepsLeft] at hroot
    simp only [unreadEntries]
    omega
  | scanning opened =>
    cases opened with
    | nil =>
      simp only [Scan.handle, ShareScanner.threadStep, ht]
      exact Nat.zero_le _
    | cons directory outer =>
      cases hu : directory.unread with
      | nil =>
        simp only [Scan.handle, ShareScanner.threadStep, ht, hu, stepsAhead, stepsLeft_read hu]
        omega
      | cons entryName unread =>
        have hvisit := stepsAhead_visitEntry fs shareDirectory hu outer
        simp only [Scan.handle, ShareScanner.threadStep, ht, hu]
        rw [if_neg (ne_true_of_eq_false h.notAborted)]
        exact Nat.le_sub_one_of_lt hvisit
  | claiming file opened =>
    by_cases hm : file.fileName ∈ s.scanner.claimedNames
    · simp only [Scan.handle, ShareScanner.threadStep, ht, if_pos hm, stepsAhead]
      omega
    · simp only [Scan.handle, ShareScanner.threadStep, ht, if_neg hm, stepsAhead]
      omega
  | adding file opened =>
    simp only [Scan.handle, ShareScanner.threadStep, ht, stepsAhead]
    omega
  | ended =>
    simp only [Scan.handle, ShareScanner.threadStep_of_ended fs ht, ht, stepsAhead, Nat.le_refl]

theorem Progress.run_stepsAhead (h : Progress fs shareDirectory s seen) (es : List ScanTurn) :
    stepsAhead fs shareDirectory ((machine fs).run s es).scanner.thread ≤
      stepsAhead fs shareDirectory s.scanner.thread - es.count .threadStep := by
  induction es generalizing s seen with
  | nil => exact Nat.le_refl _
  | cons e es ih =>
    obtain ⟨seen', h'⟩ := h.handle e
    have hrest := ih h'
    rw [EventMachine.run_cons]
    cases e with
    | threadStep =>
      have hstep := h.stepsAhead_threadStep
      rw [List.count_cons_self]
      exact hrest.trans (by omega)
    | takeDiscoveredFiles =>
      rw [List.count_cons_of_ne (by decide)]
      exact hrest
    | takeScanFinished =>
      rw [List.count_cons_of_ne (by decide)]
      exact hrest

theorem Progress.run_ended (h : Progress fs shareDirectory s seen)
    (hn : stepsAhead fs shareDirectory s.scanner.thread ≤ es.count .threadStep) :
    ((machine fs).run s es).scanner.thread = .ended := by
  have hsteps := h.run_stepsAhead es
  rw [Nat.sub_eq_zero_of_le hn] at hsteps
  exact stepsAhead_eq_zero (Nat.le_zero.mp hsteps)

theorem Progress.findsEachNameOnce_iff (h : Progress fs shareDirectory s seen)
    (hfs : fs.GivesNames) (hc : s.Complete) : FindsEachNameOnce fs shareDirectory s ↔
      repeats (visitedFiles fs shareDirectory) < 2 ^ 32 := by
  constructor
  · intro hfinds
    exact (h.counted_iff hc).mp hfinds.counted
  · intro hlt
    constructor
    · exact h.taken_names_nodup hc
    · intro name
      rw [h.mem_taken_names hc, List.mem_map]
      simp only [mem_visitedFiles]
    · exact (h.counted_iff hc).mpr hlt
    · obtain ⟨hseen, hkept⟩ := h.complete hc
      intro file hm
      rw [← hkept] at hm
      have hf := h.fromSeen.subset hm
      rw [hseen] at hf
      exact (mem_visitedFiles.mp hf).placed hfs

/-- However often the owner looks meanwhile, a scan comes to its end and finds every name once;
the files it skips are counted right as long as they are fewer than 2 ^ 32. -/
theorem run_findsEachNameOnce_iff (fs fs' : FileSystem) (hfs : fs.GivesNames)
    (scanner : ShareScanner) (h : scanner.shareDirectory ≠ "") (es : List ScanTurn) :
    (stepsAhead fs scanner.shareDirectory .starting ≤ es.count .threadStep →
      ((machine fs).run (begin fs' scanner) es).scanner.thread = .ended) ∧
    (((machine fs).run (begin fs' scanner) es).Complete →
      (FindsEachNameOnce fs scanner.shareDirectory ((machine fs).run (begin fs' scanner) es) ↔
        repeats (visitedFiles fs scanner.shareDirectory) < 2 ^ 32)) := by
  have hbegin := begin_progress fs fs' scanner h
  constructor
  · intro hn
    apply hbegin.run_ended
    rw [begin_thread fs' h]
    exact hn
  · intro hc
    obtain ⟨seen, hrun⟩ := run_progress hbegin es
    exact hrun.findsEachNameOnce_iff hfs hc

end Scan

/-- The share of the testing notes. -/
def testShare : FileSystem where
  opendir directoryPath :=
    if directoryPath = "/tmp/share" then
      some [".", "..", "readme.txt", "docs", "notes.txt", ".secret", "blob.bin"]
    else if directoryPath = "/tmp/share/docs" then some [".", "..", "notes.txt"]
    else none
  stat path := some { kind := if path = "/tmp/share/docs" then .directory else .regular }

theorem testShare_givesNames : testShare.GivesNames := by
  intro directoryPath names ho
  simp only [testShare] at ho
  split at ho
  · cases ho
    decide
  · split at ho <;> cases ho
    decide

theorem Scan.run_findsEachNameOnce_testShare :
    let es := List.replicate 12 .threadStep ++ [.takeDiscoveredFiles] ++
      List.replicate 20 .threadStep ++ [.takeDiscoveredFiles]
    FindsEachNameOnce testShare "/tmp/share"
      ((machine testShare).run (begin testShare { shareDirectory := "/tmp/share" }) es) := by
  intro es
  have hends := run_findsEachNameOnce_iff testShare testShare testShare_givesNames
    { shareDirectory := "/tmp/share" } (by decide) es
  exact (hends.2 ⟨hends.1 (by decide +kernel), by decide +kernel⟩).mpr (by decide +kernel)

/-- Two of the entries of the folder are links to the folder itself. -/
def loopedShare : FileSystem where
  opendir _ := some ["notes.txt", "a", "b"]
  stat path := some { kind := if path.toList.getLast? = some 't' then .regular else .directory }

theorem loopedShare_entriesOf (folder : Folder) : ∃ file below below',
    entriesOf loopedShare folder = [.file file, .folder below, .folder below'] ∧
      file.fileName = "notes.txt" := by
  simp [entriesOf, loopedShare, entryOf, Hidden]

theorem loopedShare_filesBelow (levels : Nat) (folder : Folder) :
    (BoundedWalk.filesBelow (entriesOf loopedShare) levels folder).map (·.fileName) =
      List.replicate (2 ^ levels - 1) "notes.txt" := by
  induction levels generalizing folder with
  | zero => rfl
  | succ levels ih =>
    obtain ⟨file, below, below', he, hname⟩ := loopedShare_entriesOf folder
    have hpow := Nat.two_pow_pos levels
    have hnumber : 2 ^ (levels + 1) - 1 = (2 ^ levels - 1) + (2 ^ levels - 1) + 1 := by
      rw [Nat.pow_succ]
      omega
    rw [BoundedWalk.filesBelow, he, List.flatMap_cons, List.flatMap_cons, List.flatMap_cons,
      List.flatMap_nil, List.append_nil, List.map_append, List.map_append, hnumber,
      List.replicate_succ, List.replicate_add]
    simp only [WalkEntry.files, ih, List.map_cons, List.map_nil, hname, List.cons_append,
      List.nil_append]

theorem loopedShare_repeats : repeats (visitedFiles loopedShare "/share") = 2 ^ 33 - 2 := by
  have hnames := loopedShare_filesBelow levelsScanned ⟨"/share", ""⟩
  have hlength := congrArg List.length hnames
  rw [List.length_map, List.length_replicate] at hlength
  rw [repeats, visitedFiles, hnames, List.replicate_dedup (by decide), hlength]
  rfl

theorem Scan.loopedShare_is_miscounted : ∃ es,
    ((machine loopedShare).run (begin loopedShare { shareDirectory := "/share" }) es).Complete ∧
      ¬ FindsEachNameOnce loopedShare "/share"
        ((machine loopedShare).run (begin loopedShare { shareDirectory := "/share" }) es) := by
  have hbegin := begin_progress loopedShare loopedShare { shareDirectory := "/share" } (by decide)
  have hnames : loopedShare.GivesNames := by
    intro directoryPath names ho
    cases ho
    decide
  obtain ⟨steps, hcount⟩ : ∃ steps : List ScanTurn,
      stepsAhead loopedShare "/share" .starting ≤ steps.count .threadStep :=
    ⟨_, List.count_replicate_self.ge⟩
  have hended := hbegin.run_ended hcount
  have hcomplete : ((machine loopedShare).run (begin loopedShare { shareDirectory := "/share" })
      (steps ++ [.takeDiscoveredFiles])).Complete := by
    rw [EventMachine.run_append]
    exact ⟨hended, rfl⟩
  apply Exists.intro (steps ++ [.takeDiscoveredFiles])
  apply And.intro hcomplete
  obtain ⟨seen, hrun⟩ := run_progress hbegin (steps ++ [.takeDiscoveredFiles])
  rw [hrun.findsEachNameOnce_iff hnames hcomplete, loopedShare_repeats]
  decide

end HiTuxShare
