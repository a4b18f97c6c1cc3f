import HiTuxShare.SharingOff

namespace HiTuxShare
set_option autoImplicit true

def IsUnder (directory path : String) : Prop := ∃ rest, path = directory ++ "/" ++ rest

theorem IsUnder.child (h : path = directory ∨ IsUnder directory path) (name : String) :
    IsUnder directory (path ++ "/" ++ name) := by
  rcases h with rfl | ⟨rest, rfl⟩
  · exact ⟨name, rfl⟩
  · exact ⟨rest ++ "/" ++ name, by simp only [String.append_assoc]⟩

namespace ThreadPosition

def openDirectories : ThreadPosition → List OpenDirectory
  | .scanning opened | .claiming _ opened | .adding _ opened => opened
  | _ => []

def file : ThreadPosition → Option SharedFile
  | .claiming file _ | .adding file _ => some file
  | _ => none

end ThreadPosition

/-- The thread walks a folder, whatever it is doing. -/
structure Walks (directory : String) (thread : ThreadPosition) : Prop where
  opened : ∀ o ∈ thread.openDirectories,
    o.directoryPath = directory ∨ IsUnder directory o.directoryPath
  file : ∀ file, thread.file = some file → IsUnder directory file.absolutePath

theorem walks_scanning {opened : List OpenDirectory}
    (h : ∀ o ∈ opened, o.directoryPath = directory ∨ IsUnder directory o.directoryPath) :
    Walks directory (.scanning opened) := ⟨h, fun _ hf => by cases hf⟩

theorem walks_ended (directory : String) : Walks directory .ended :=
  ⟨fun _ hm => (by cases hm), fun _ hf => (by cases hf)⟩

theorem walks_enterDirectory (fs : FileSystem) (relativePath : String) {opened : List OpenDirectory}
    (hpath : path = directory ∨ IsUnder directory path)
    (h : Walks directory (.scanning opened)) :
    Walks directory (.scanning (enterDirectory fs path relativePath opened)) := by
  rw [enterDirectory]
  split
  · exact h
  · split
    · exact h
    · apply walks_scanning
      intro o hm
      rcases List.mem_cons.mp hm with rfl | hm
      · exact hpath
      · exact h.opened o hm

theorem walks_visitEntry (fs : FileSystem) (entryName : String) {opened : List OpenDirectory}
    {o : OpenDirectory} (ho : o.directoryPath = directory ∨ IsUnder directory o.directoryPath)
    (h : Walks directory (.scanning opened)) :
    Walks directory (visitEntry fs o entryName opened) := by
  have hpath := IsUnder.child ho entryName
  simp only [visitEntry]
  split
  · exact h
  · split
    · exact h
    · split
      · exact walks_enterDirectory fs _ (.inr hpath) h
      · refine ⟨h.opened, fun file hf => ?_⟩
        cases hf
        exact hpath
      · exact h

/-- What the thread has found in the folder of the scan. -/
structure FindsWithin (s : ShareScanner) : Prop where
  pendingFiles : ∀ file ∈ s.pendingFiles, IsUnder s.shareDirectory file.absolutePath
  thread : Walks s.shareDirectory s.thread

namespace FindsWithin

theorem threadStep (h : FindsWithin s) (fs : FileSystem) : FindsWithin (s.threadStep fs) := by
  obtain ⟨hpending, hwalks⟩ := h
  rw [ShareScanner.threadStep]
  cases ht : s.thread with
  | starting =>
    have hroot : Walks s.shareDirectory (.scanning []) := walks_scanning fun o hm => by cases hm
    exact ⟨hpending, walks_enterDirectory fs "" (.inl rfl) hroot⟩
  | scanning opened =>
    rw [ht] at hwalks
    cases opened with
    | nil => exact ⟨hpending, walks_ended _⟩
    | cons o outer =>
      have ho := hwalks.opened o List.mem_cons_self
      have houter : Walks s.shareDirectory (.scanning outer) :=
        walks_scanning fun o' hm => hwalks.opened o' (List.mem_cons_of_mem o hm)
      dsimp only
      split
      · exact ⟨hpending, houter⟩
      · split
        · exact ⟨hpending, houter⟩
        · refine ⟨hpending, walks_visitEntry fs _ ho (walks_scanning fun o' hm => ?_)⟩
          rcases List.mem_cons.mp hm with rfl | hm
          · exact ho
          · exact houter.opened o' hm
  | claiming file opened =>
    rw [ht] at hwalks
    dsimp only
    split
    · exact ⟨hpending, walks_scanning hwalks.opened⟩
    · exact ⟨hpending, hwalks.opened, hwalks.file⟩
  | adding file opened =>
    rw [ht] at hwalks
    refine ⟨fun found hm => ?_, walks_scanning hwalks.opened⟩
    rcases List.mem_append.mp hm with hm | hm
    · exact hpending found hm
    · exact List.mem_singleton.mp hm ▸ hwalks.file file rfl
  | ended => exact ⟨hpending, hwalks⟩

theorem foldl_threadStep (h : FindsWithin s) (between : List FileSystem) :
    FindsWithin (between.foldl (fun s fs => s.threadStep fs) s) := by
  induction between generalizing s with
  | nil => exact h
  | cons fs between ih => exact ih (h.threadStep fs)

theorem stopScan (h : FindsWithin s) (fs : FileSystem) : FindsWithin (s.stopScan fs) := by
  rw [ShareScanner.stopScan]
  split
  · have hjoin : FindsWithin (ShareScanner.join fs { s with shouldAbort := true }) := by
      have habort : FindsWithin { s with shouldAbort := true } := ⟨h.pendingFiles, h.thread⟩
      exact Function.Iterate.rec FindsWithin habort (fun s' hs => hs.threadStep fs) _
    exact ⟨hjoin.pendingFiles, hjoin.thread⟩
  · exact h

theorem startScan {s : ShareScanner} (h : s.Settled) (hd : s.shareDirectory ≠ "")
    (fs : FileSystem) (created : Bool) : FindsWithin (s.startScan fs created) := by
  simp only [ShareScanner.startScan, ShareScanner.stopScan_shareDirectory, if_neg hd]
  split
  · exact ⟨fun _ hm => (by cases hm), fun _ hm => (by cases hm), fun _ hf => (by cases hf)⟩
  · refine ⟨fun _ hm => (by cases hm), ?_⟩
    rw [(ShareScanner.stopScan_spec fs h).1]
    exact walks_ended _

end FindsWithin

/-- One of the ports we try can be bound. -/
def ListenAnswer.Binds (answer : ListenAnswer) : Prop :=
  answer.startInternalThread = none ∧
    ∃ port, answer.firstPort defaultTransferPort transferPortRange = some port ∧ port ≠ 0

theorem startListening_ne_zero_iff (w : ListeningServer) (answer : ListenAnswer) :
    (w.startListening answer defaultTransferPort transferPortRange).2 ≠ 0 ↔ answer.Binds := by
  simp only [ListeningServer.startListening, ListenAnswer.Binds]
  cases answer.startInternalThread with
  | some text => simp
  | none =>
    cases answer.firstPort defaultTransferPort transferPortRange with
    | none => simp
    | some port => simp

namespace SharingWorld

def IsListening (w : SharingWorld) : Prop := w.uploadServer.listenPort ≠ 0

/-- The file lies under the share folder that was set when `_StartSharing` was called last. -/
def InGivenFolder (w : SharingWorld) (file : SharedFile) : Prop :=
  ∃ directory, w.givenDirectory = some directory ∧ IsUnder directory file.absolutePath

/-- Whatever can be fetched lies under the current share folder. -/
def ServesOnlyShare (w : SharingWorld) : Prop :=
  w.IsListening → ∀ entry ∈ w.uploadServer.sharedFiles.entries, w.InGivenFolder entry.2

/-- What has been found since the scan was started, not handed over yet included. -/
def foundFiles (w : SharingWorld) : Hashtable String SharedFile :=
  w.shareScanner.pendingFiles.foldl (fun files file => files.put file.fileName file) w.sharedFiles

/-- Wherever `_StartSharing` leaves the server listening, the server has files of the folder only
that is set then; and a tick of a listening window finds that folder scanned, or else files that
lie under it all the same. -/
def KeepsToFolder (w : SharingWorld) : SharingEvent → Prop
  | .startSharing answer _ _ =>
    (if w.fileSharingEnabled = true ∧ w.shareDirectory ≠ "" then answer.Binds else w.IsListening) →
      ∀ entry ∈ w.uploadServer.sharedFiles.entries, IsUnder w.shareDirectory entry.2.absolutePath
  | .idleTick _ =>
    w.IsListening → w.shareScanner.pendingFiles ≠ [] →
      w.givenDirectory = some w.shareScanner.shareDirectory ∨
        ∀ entry ∈ w.foundFiles.entries, w.InGivenFolder entry.2
  | _ => True

theorem listen_listenPort (w : SharingWorld) (answer : ListenAnswer) :
    (w.listen answer).IsListening ↔ answer.Binds := by
  rw [← startListening_ne_zero_iff w.uploadServer]
  simp only [listen]
  split
  · next hzero =>
    refine iff_of_false (fun h => h ?_) (fun h => h hzero)
    exact (ListeningServer.startListening_listenPort ..).trans hzero
  · next hport =>
    refine iff_of_true (fun h => hport ?_) hport
    exact (ListeningServer.startListening_listenPort ..).symm.trans h

theorem listen_sharedFiles (w : SharingWorld) (answer : ListenAnswer) :
    (w.listen answer).uploadServer.sharedFiles = w.uploadServer.sharedFiles := by
  simp only [listen]
  split
  · exact ListeningServer.startListening_sharedFiles ..
  · exact ListeningServer.startListening_sharedFiles ..

theorem listen_givenDirectory (w : SharingWorld) (answer : ListenAnswer) :
    (w.listen answer).givenDirectory = w.givenDirectory := by
  simp only [listen]
  split <;> rfl

theorem servesOnlyShare_iff {w : SharingWorld} (h : w.givenDirectory = some directory) :
    ServesOnlyShare w ↔ (w.IsListening → ∀ entry ∈ w.uploadServer.sharedFiles.entries,
      IsUnder directory entry.2.absolutePath) := by
  simp only [ServesOnlyShare, InGivenFolder, h, Option.some.injEq, exists_eq_left']

theorem startSharing_iff (w : SharingWorld) (answer : ListenAnswer) (fs : FileSystem)
    (created : Bool) : ServesOnlyShare (w.startSharing answer fs created) ↔
      KeepsToFolder w (.startSharing answer fs created) := by
  simp only [startSharing, KeepsToFolder]
  by_cases he : w.fileSharingEnabled = false
  · rw [if_pos he, if_neg (by simp [he])]
    exact servesOnlyShare_iff rfl
  · rw [if_neg he]
    by_cases hd : w.shareDirectory = ""
    · rw [if_pos hd, if_neg (by simp [hd])]
      exact servesOnlyShare_iff rfl
    · rw [if_neg hd, if_pos ⟨Bool.eq_true_of_not_eq_false he, hd⟩,
        ← listen_listenPort { w with givenDirectory := some w.shareDirectory }]
      refine (servesOnlyShare_iff (listen_givenDirectory ..)).trans ?_
      rw [← listen_sharedFiles { w with givenDirectory := some w.shareDirectory } answer]
      exact Iff.rfl

theorem drainFiles_uploadServer (w : SharingWorld) :
    w.drainFiles.uploadServer = if w.shareScanner.pendingFiles = [] then w.uploadServer
      else w.uploadServer.setSharedFiles w.foundFiles := by
  simp only [drainFiles]
  split
  · next hp => exact (if_pos hp).symm
  · next hp => exact (if_neg hp).symm

theorem drainFiles_sharedFiles (w : SharingWorld) : w.drainFiles.sharedFiles = w.foundFiles := by
  simp only [drainFiles]
  split
  · next hp =>
    rw [foundFiles, show w.shareScanner.pendingFiles = [] from hp]
    rfl
  · rfl

theorem drainFiles_givenDirectory (w : SharingWorld) :
    w.drainFiles.givenDirectory = w.givenDirectory := by
  simp only [drainFiles]
  split <;> rfl

theorem drainScanEnd_frame (w : SharingWorld) :
    w.drainScanEnd.uploadServer = w.uploadServer ∧ w.drainScanEnd.sharedFiles = w.sharedFiles ∧
      w.drainScanEnd.givenDirectory = w.givenDirectory := by
  simp only [drainScanEnd]
  split <;> exact ⟨rfl, rfl, rfl⟩

theorem drainShareScanner_frame (w : SharingWorld) (between : List FileSystem) :
    (w.drainShareScanner between).uploadServer = w.drainFiles.uploadServer ∧
      (w.drainShareScanner between).sharedFiles = w.foundFiles ∧
      (w.drainShareScanner between).givenDirectory = w.givenDirectory := by
  obtain ⟨hserver, hfiles, hgiven⟩ := drainScanEnd_frame (between.foldl threadStep w.drainFiles)
  rw [drainShareScanner, hserver, hfiles, hgiven, foldl_threadStep]
  exact ⟨rfl, drainFiles_sharedFiles w, drainFiles_givenDirectory w⟩

theorem mem_foldl_put {files : Hashtable String SharedFile} (discovered : List SharedFile)
    (h : entry ∈
      (discovered.foldl (fun files file => files.put file.fileName file) files).entries) :
    entry ∈ files.entries ∨ entry.2 ∈ discovered := by
  induction discovered generalizing files with
  | nil => exact .inl h
  | cons file discovered ih =>
    rcases ih h with h | h
    · rcases Hashtable.mem_entries_put h with rfl | h
      · exact .inr List.mem_cons_self
      · exact .inl h
    · exact .inr (List.mem_cons_of_mem file h)

/-- What the scanner and the window have comes from the folder that is being scanned. -/
structure Scanned (w : SharingWorld) : Prop where
  settled : w.shareScanner.Settled
  finds : FindsWithin w.shareScanner
  table : ∀ entry ∈ w.sharedFiles.entries,
    IsUnder w.shareScanner.shareDirectory entry.2.absolutePath

theorem Scanned.foundFiles {w : SharingWorld} (h : Scanned w) :
    ∀ entry ∈ w.foundFiles.entries, IsUnder w.shareScanner.shareDirectory entry.2.absolutePath := by
  intro entry hm
  rcases mem_foldl_put _ hm with hm | hm
  · exact h.table entry hm
  · exact h.finds.pendingFiles entry.2 hm

theorem Scanned.idleTick_iff {w : SharingWorld} (h : Scanned w) (hserves : ServesOnlyShare w)
    (between : List FileSystem) : ServesOnlyShare (w.drainShareScanner between) ↔
      KeepsToFolder w (.idleTick between) := by
  obtain ⟨hserver, -, hgiven⟩ := drainShareScanner_frame w between
  rw [drainFiles_uploadServer] at hserver
  simp only [ServesOnlyShare, IsListening, InGivenFolder, hserver, hgiven, KeepsToFolder]
  split
  · next hp => exact iff_of_true hserves fun _ hne => absurd hp hne
  · next hp =>
    constructor
    · intro hs hl _
      exact .inr (hs hl)
    · intro hk hl
      rcases hk hl hp with hg | hall
      · intro entry hm
        exact ⟨_, hg, h.foundFiles entry hm⟩
      · exact hall

theorem Scanned.startSharing {w : SharingWorld} (h : Scanned w) (answer : ListenAnswer)
    (fs : FileSystem) (created : Bool) : Scanned (w.startSharing answer fs created) := by
  have hsettled := settled_startSharing h.settled answer fs created
  revert hsettled
  simp only [SharingWorld.startSharing]
  split
  · exact fun hs => ⟨hs, h.finds, h.table⟩
  · split
    · exact fun hs => ⟨hs, h.finds, h.table⟩
    · next hd =>
      refine fun hs => ⟨hs, FindsWithin.startScan ?_ ?_ fs created, fun _ hm => (by cases hm)⟩
      · rw [listen_shareScanner]
        exact h.settled
      · rwa [listen_shareDirectory]

theorem drainShareScanner_shareScanner (w : SharingWorld) (between : List FileSystem) :
    (w.drainShareScanner between).shareScanner =
      { between.foldl (fun s fs => s.threadStep fs) { w.shareScanner with pendingFiles := [] } with
        scanFinished := false } := by
  rw [drainShareScanner, drainScanEnd_shareScanner, foldl_threadStep, drainFiles_shareScanner]

theorem Scanned.idleTick {w : SharingWorld} (h : Scanned w) (between : List FileSystem) :
    Scanned (w.drainShareScanner between) := by
  have htaken : FindsWithin { w.shareScanner with pendingFiles := [] } :=
    ⟨fun _ hm => (by cases hm), h.finds.thread⟩
  have hfinds := htaken.foldl_threadStep between
  have hdirectory := ShareScanner.foldl_threadStep_shareDirectory
    { w.shareScanner with pendingFiles := [] } between
  refine ⟨settled_drainShareScanner h.settled between, ?_, ?_⟩
  · rw [drainShareScanner_shareScanner]
    exact ⟨hfinds.pendingFiles, hfinds.thread⟩
  · rw [(drainShareScanner_frame w between).2.1, drainShareScanner_shareScanner, hdirectory]
    exact h.foundFiles

theorem Scanned.handle {w : SharingWorld} (h : Scanned w) (e : SharingEvent) :
    Scanned (w.handle e) := by
  cases e with
  | startSharing answer fs created => exact h.startSharing answer fs created
  | stopSharing fs =>
    exact ⟨h.settled.stopScan fs, h.finds.stopScan fs, fun entry hm => by cases hm⟩
  | idleTick between => exact h.idleTick between
  | threadStep fs =>
    refine ⟨h.settled.threadStep fs, h.finds.threadStep fs, fun entry hm => ?_⟩
    have hdirectory := (ShareScanner.threadStep_frame fs w.shareScanner).1
    change IsUnder (w.shareScanner.threadStep fs).shareDirectory _
    rw [hdirectory]
    exact h.table entry hm
  | _ => exact ⟨h.settled, h.finds, h.table⟩

theorem Scanned.handle_iff {w : SharingWorld} (h : Scanned w) (hserves : ServesOnlyShare w)
    (e : SharingEvent) : ServesOnlyShare (w.handle e) ↔ KeepsToFolder w e := by
  cases e with
  | startSharing answer fs created => exact startSharing_iff w answer fs created
  | stopSharing fs => exact iff_of_true (fun hl => absurd rfl hl) trivial
  | idleTick between => exact h.idleTick_iff hserves between
  | _ => exact iff_of_true hserves trivial

end SharingWorld

/-- The window changes from one share folder to another one that is empty. -/
theorem old_share_is_served :
    ¬ ∀ (disk : Disk) (es : List SharingEvent),
      SharingWorld.machine.EveryState SharingWorld.ServesOnlyShare (.opened disk) es := by
  intro h
  have hserves := (h (.ofFiles []) (fileFoundRun ++ [.idleTick [], .setShareDirectory "/other",
    .stopSharing oneFileFolder, .startSharing {} oneFileFolder true])).last
  have hlistens : (7000 : UInt16) ≠ 0 := by decide
  obtain ⟨directory, hgiven, rest, hpath⟩ := hserves hlistens _ List.mem_cons_self
  cases hgiven
  have hpath : "/share/notes.txt" = "/other" ++ "/" ++ rest := hpath
  have hstart := congrArg (fun path => path.toList.take 2) hpath
  simp at hstart

/-- In a run, whatever can be fetched lies under the current share folder exactly if every start
finds a server that has files of that folder only. -/
theorem only_current_share_is_served (disk : Disk) (es : List SharingEvent) :
    SharingWorld.machine.EveryState SharingWorld.ServesOnlyShare (.opened disk) es ↔
      SharingWorld.machine.EveryStep SharingWorld.KeepsToFolder (.opened disk) es := by
  refine EventMachine.everyState_iff_everyStep (J := SharingWorld.Scanned) (fun _ e h => h.handle e)
    (fun _ e h hserves => h.handle_iff hserves e) ?_ (fun hl => absurd rfl hl)
  exact ⟨fun _ => rfl, ⟨fun _ hm => (by cases hm), walks_ended _⟩, fun _ hm => (by cases hm)⟩

end HiTuxShare
