import HiTuxShare.ConnectionFrames
import HiTuxShare.ScannerThread
import HiTuxShare.SharingController

namespace HiTuxShare
set_option autoImplicit true

/-- The nodes the connections have set since, over all servers. -/
def nodesPublishedSince (m m' : ConnectionManagerWorld) : List (String × NodeMessage) :=
  (List.zipWith (fun c c' => nodesSetSince c.world c'.world) m.connections m'.connections).flatten

theorem nodesPublishedSince_onAll (m : ConnectionManagerWorld)
    (call : ManagedConnection → ConnectionWorld) : nodesPublishedSince m (m.onAll call) =
      m.connections.flatMap fun c => nodesSetSince c.world (call c) := by
  simp only [nodesPublishedSince, ConnectionManagerWorld.onAll, List.zipWith_map_right,
    List.zipWith_self, List.flatMap_def]

theorem nodesSetSince_self (w : ConnectionWorld) : nodesSetSince w w = [] := by
  rw [nodesSetSince, List.drop_length]
  rfl

theorem nodesPublishedSince_self (m : ConnectionManagerWorld) : nodesPublishedSince m m = [] := by
  rw [nodesPublishedSince, List.zipWith_self, List.flatten_eq_nil_iff]
  intro nodes hm
  obtain ⟨c, -, rfl⟩ := List.mem_map.mp hm
  exact nodesSetSince_self c.world

/-- Between the two states nobody has been told of a shared file, nor of how many there are unless
there are none, and the upload server has been given none. -/
structure Silent (w w' : SharingWorld) : Prop where
  files : ∀ node ∈ nodesPublishedSince w.connections w'.connections, isFileNode node.1 = false
  count : ∀ node ∈ nodesPublishedSince w.connections w'.connections,
    node.1 = nodeFileCount → node.2 = fileCountNode 0
  table : ∀ files, .sharedFilesSet files ∈ w'.history.drop w.history.length → files = .empty

namespace SharingWorld

def TicksAreSilent (w : SharingWorld) : SharingEvent → Prop
  | .idleTick between => Silent w (w.drainShareScanner between)
  | _ => True

end SharingWorld

def SharingEvent.isStart : SharingEvent → Bool
  | .startSharing .. => true
  | _ => false

namespace SharingWorld

/-- Whatever happens until sharing is started again, no idle tick shares anything. -/
def StaysOff (w : SharingWorld) : Prop :=
  ∀ later, (∀ e ∈ later, e.isStart = false) → machine.EveryStep TicksAreSilent w later

/-- The thread is at its end, and nothing it has found is left to hand over. -/
structure Off (w : SharingWorld) : Prop where
  thread : w.shareScanner.thread = .ended
  running : w.shareScanner.threadRunning = false
  pendingFiles : w.shareScanner.pendingFiles = []
  sharedFileCount : w.sharedFileCount = 0

theorem Off.threadStep {w : SharingWorld} (h : Off w) (fs : FileSystem) : w.threadStep fs = w := by
  rw [SharingWorld.threadStep, ShareScanner.threadStep_of_ended fs h.thread]

theorem Off.foldl_threadStep {w : SharingWorld} (h : Off w) (between : List FileSystem) :
    between.foldl SharingWorld.threadStep w = w := by
  induction between with
  | nil => rfl
  | cons fs between ih => rw [List.foldl_cons, h.threadStep, ih]

theorem Off.drainFiles {w : SharingWorld} (h : Off w) : w.drainFiles = w := by
  have hscanner : { w.shareScanner with pendingFiles := [] } = w.shareScanner := by
    rw [← h.pendingFiles]
  simp only [SharingWorld.drainFiles, ShareScanner.takeDiscoveredFiles, h.pendingFiles, hscanner,
    ↓reduceIte]

theorem Off.drainShareScanner {w : SharingWorld} (h : Off w) (between : List FileSystem) :
    w.drainShareScanner between = w.drainScanEnd := by
  rw [SharingWorld.drainShareScanner, h.drainFiles, h.foldl_threadStep]

theorem Off.drainScanEnd {w : SharingWorld} (h : Off w) : Off w.drainScanEnd := by
  simp only [SharingWorld.drainScanEnd]
  split <;> exact ⟨h.thread, h.running, h.pendingFiles, h.sharedFileCount⟩

theorem nodesSetSince_publishSharedFileCount (w : ConnectionWorld) (fileCount : UInt32) :
    ∀ node ∈ nodesSetSince w (w.publishSharedFileCount fileCount),
      node = (nodeFileCount, fileCountNode fileCount) := by
  rw [ConnectionWorld.publishSharedFileCount]
  split
  · rw [nodesSetSince_append rfl]
    exact fun node hm => List.mem_singleton.mp hm
  · rw [nodesSetSince_self]
    exact fun node hm => by cases hm

theorem nodesPublishedSince_fileCount (m : ConnectionManagerWorld) (fileCount : UInt32) :
    ∀ node ∈ nodesPublishedSince m (m.publishSharedFileCountOnAll fileCount),
      node = (nodeFileCount, fileCountNode fileCount) := by
  rw [ConnectionManagerWorld.publishSharedFileCountOnAll, nodesPublishedSince_onAll]
  intro node hm
  obtain ⟨c, -, hc⟩ := List.mem_flatMap.mp hm
  exact nodesSetSince_publishSharedFileCount _ _ node hc

theorem drainScanEnd_nodes (w : SharingWorld) :
    ∀ node ∈ nodesPublishedSince w.connections w.drainScanEnd.connections,
      node = (nodeFileCount, fileCountNode w.sharedFileCount) := by
  simp only [SharingWorld.drainScanEnd]
  split
  · exact nodesPublishedSince_fileCount w.connections w.sharedFileCount
  · intro node hm
    change node ∈ nodesPublishedSince w.connections w.connections at hm
    rw [nodesPublishedSince_self] at hm
    cases hm

theorem drainScanEnd_table (w : SharingWorld) (files : Hashtable String SharedFile) :
    .sharedFilesSet files ∉ w.drainScanEnd.history.drop w.history.length := by
  simp only [SharingWorld.drainScanEnd]
  split
  · change _ ∉ (w.history ++ [_]).drop w.history.length
    rw [List.drop_left]
    exact fun hm => by cases List.mem_singleton.mp hm
  · change _ ∉ w.history.drop w.history.length
    rw [List.drop_length]
    exact List.not_mem_nil

theorem Off.silent {w : SharingWorld} (h : Off w) : Silent w w.drainScanEnd := by
  have hnode := drainScanEnd_nodes w
  rw [h.sharedFileCount] at hnode
  refine ⟨fun node hm => ?_, fun node hm _ => ?_, fun files hm => ?_⟩
  · rw [hnode node hm]
    decide
  · rw [hnode node hm]
  · exact absurd hm (drainScanEnd_table w files)

theorem Off.stopSharing {w : SharingWorld} (h : w.shareScanner.Settled)
    (hpending : w.shareScanner.NothingBuffered) (fs : FileSystem) :
    Off (w.stopSharing fs) := by
  obtain ⟨hthread, hrunning, hfiles⟩ := ShareScanner.stopScan_spec fs h
  exact ⟨hthread, hrunning, hfiles.trans hpending, rfl⟩

theorem Off.settled {w : SharingWorld} (h : Off w) : w.shareScanner.Settled := fun _ => h.thread

theorem Off.handle {w : SharingWorld} (h : Off w) {e : SharingEvent} (he : e.isStart = false) :
    Off (w.handle e) := by
  cases e with
  | startSharing answer fs created => cases he
  | stopSharing fs =>
    refine .stopSharing h.settled ?_ fs
    rw [ShareScanner.NothingBuffered, h.pendingFiles, ShareScanner.inHand_of_ended h.thread]
    rfl
  | idleTick between =>
    change Off (w.drainShareScanner between)
    rw [h.drainShareScanner]
    exact h.drainScanEnd
  | threadStep fs =>
    change Off (w.threadStep fs)
    rwa [h.threadStep]
  | setFileSharingEnabled enabled => exact ⟨h.thread, h.running, h.pendingFiles, h.sharedFileCount⟩
  | setShareDirectory directory => exact ⟨h.thread, h.running, h.pendingFiles, h.sharedFileCount⟩
  | connection e => exact ⟨h.thread, h.running, h.pendingFiles, h.sharedFileCount⟩

theorem Off.staysOff {w : SharingWorld} (h : Off w) : StaysOff w := by
  intro later hlater
  induction later generalizing w with
  | nil => trivial
  | cons e later ih =>
    refine ⟨?_, ih (h.handle (hlater e List.mem_cons_self)) fun e' hm =>
      hlater e' (List.mem_cons_of_mem e hm)⟩
    cases e with
    | idleTick between =>
      change Silent w (w.drainShareScanner between)
      rw [h.drainShareScanner]
      exact h.silent
    | _ => trivial

theorem foldl_put_ne_empty {discovered : List SharedFile} (h : discovered ≠ [])
    (files : Hashtable String SharedFile) :
    discovered.foldl (fun files file => files.put file.fileName file) files ≠ .empty := by
  obtain ⟨init, last, rfl⟩ := (List.eq_nil_or_concat' discovered).resolve_left h
  rw [List.foldl_append, List.foldl_cons, List.foldl_nil]
  intro hempty
  have hlast := Hashtable.get?_put_self
    (init.foldl (fun files file => files.put file.fileName file) files) last.fileName last
  rw [hempty] at hlast
  cases hlast

theorem drainScanEnd_history (w : SharingWorld) : w.history <+: w.drainScanEnd.history := by
  simp only [SharingWorld.drainScanEnd]
  split
  · exact List.prefix_append ..
  · exact List.prefix_refl _

/-- Whatever is pending goes to the upload server. -/
theorem not_silent_of_pending {w : SharingWorld} (h : w.shareScanner.pendingFiles ≠ [])
    (between : List FileSystem) : ¬Silent w (w.drainShareScanner between) := by
  intro hsilent
  refine foldl_put_ne_empty h w.sharedFiles (hsilent.table _ ?_)
  obtain ⟨later, hlater⟩ :=
    drainScanEnd_history (between.foldl SharingWorld.threadStep w.drainFiles)
  rw [SharingWorld.drainShareScanner, ← hlater, foldl_threadStep]
  simp only [SharingWorld.drainFiles, ShareScanner.takeDiscoveredFiles, h, ↓reduceIte]
  change _ ∈ ((w.history ++ [_]) ++ later).drop w.history.length
  rw [List.append_assoc, List.drop_left]
  exact List.mem_cons_self

theorem settled_startSharing {w : SharingWorld} (h : w.shareScanner.Settled)
    (answer : ListenAnswer) (fs : FileSystem) (created : Bool) :
    (w.startSharing answer fs created).shareScanner.Settled := by
  simp only [SharingWorld.startSharing]
  split
  · exact h
  · split
    · exact h
    · apply ShareScanner.Settled.startScan
      rw [listen_shareScanner]
      exact h

theorem settled_drainShareScanner {w : SharingWorld} (h : w.shareScanner.Settled)
    (between : List FileSystem) : (w.drainShareScanner between).shareScanner.Settled := by
  have hthread {s : ShareScanner} (hs : s.Settled) :
      (between.foldl (fun s fs => s.threadStep fs) s).Settled := by
    induction between generalizing s with
    | nil => exact hs
    | cons fs between ih => exact ih (hs.threadStep fs)
  rw [SharingWorld.drainShareScanner, drainScanEnd_shareScanner, foldl_threadStep,
    drainFiles_shareScanner]
  exact hthread h

theorem settled_handle {w : SharingWorld} (h : w.shareScanner.Settled) (e : SharingEvent) :
    (w.handle e).shareScanner.Settled := by
  cases e with
  | startSharing answer fs created => exact settled_startSharing h answer fs created
  | stopSharing fs => exact h.stopScan fs
  | idleTick between => exact settled_drainShareScanner h between
  | threadStep fs => exact h.threadStep fs
  | _ => exact h

theorem staysOff_stopSharing_iff {w : SharingWorld} (h : w.shareScanner.Settled) (fs : FileSystem) :
    StaysOff (w.stopSharing fs) ↔ w.shareScanner.NothingBuffered := by
  constructor
  · intro hoff
    by_contra hpending
    refine not_silent_of_pending (w := w.stopSharing fs) ?_ []
      (hoff [.idleTick []] fun e hm => ?_).1
    · exact fun hnone => hpending ((ShareScanner.stopScan_spec fs h).2.2.symm.trans hnone)
    · rw [List.mem_singleton.mp hm]
      rfl
  · exact fun hpending => (Off.stopSharing h hpending fs).staysOff

end SharingWorld

/-- A share folder with one file in it. -/
def oneFileFolder : FileSystem where
  opendir path := if path = "/share" then some ["notes.txt"] else none
  stat path := if path = "/share/notes.txt" then some { kind := .regular, size := 4 } else none

/-- Sharing is started, and the scan finds the file. -/
def fileFoundRun : List SharingEvent :=
  [.setFileSharingEnabled true, .setShareDirectory "/share",
    .startSharing {} oneFileFolder true, .threadStep oneFileFolder, .threadStep oneFileFolder,
    .threadStep oneFileFolder, .threadStep oneFileFolder]

theorem settled_run (disk : Disk) (es : List SharingEvent) :
    (SharingWorld.machine.run (.opened disk) es).shareScanner.Settled :=
  EventMachine.run_of_invariant (I := fun w : SharingWorld => w.shareScanner.Settled)
    (fun _ e h => SharingWorld.settled_handle h e) (fun _ => rfl)

/-- Sharing is stopped before a tick has come round to what the scan has found. -/
theorem stopped_sharing_is_published :
    ¬ ∀ (disk : Disk) (es : List SharingEvent) (fs : FileSystem),
      ((SharingWorld.machine.run (.opened disk) es).stopSharing fs).StaysOff := by
  intro h
  have hbuffered := (SharingWorld.staysOff_stopSharing_iff (settled_run (.ofFiles []) fileFoundRun)
    oneFileFolder).mp (h (.ofFiles []) fileFoundRun oneFileFolder)
  exact absurd hbuffered (by decide)

/-- Wherever the stop falls, no later tick shares anything exactly if no file is on its way from
the scanning thread at that moment. -/
theorem sharing_off_means_off (disk : Disk) (es : List SharingEvent) (fs : FileSystem) :
    ((SharingWorld.machine.run (.opened disk) es).stopSharing fs).StaysOff ↔
      (SharingWorld.machine.run (.opened disk) es).shareScanner.NothingBuffered :=
  SharingWorld.staysOff_stopSharing_iff (settled_run disk es) fs

end HiTuxShare
