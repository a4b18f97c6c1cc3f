import HiTuxShare.PublishedFiles
import HiTuxShare.SharingOff

namespace HiTuxShare
set_option autoImplicit true

/-- While a scan is under way, the thread goes on or the owner's tick comes round. -/
inductive ScanEvent where
  | threadStep (fs : FileSystem)
  | idleTick (between : List FileSystem)

/-- Either of the two programs that run a scanner; of the window's connections, the one that is
watched. -/
inductive ScanOwner where
  | window (w : SharingWorld) (serial : Nat)
  | probe (p : Probe)

namespace ScanOwner

def shareScanner : ScanOwner → ShareScanner
  | window w _ => w.shareScanner
  | probe p => p.scanner

/-- How many files it has counted. -/
def fileCount : ScanOwner → UInt32
  | window w _ => w.sharedFileCount
  | probe p => p.sharedSoFar

def connection : ScanOwner → Option ConnectionWorld
  | window w serial => (w.connections.findConnection serial).map ManagedConnection.world
  | probe p => some p.connection

/-- It is going to scan when it is told to. -/
def Scans : ScanOwner → Prop
  | window w _ => w.fileSharingEnabled = true ∧ w.shareDirectory ≠ ""
  | probe p => p.shouldStartScan = true ∧ p.shareDirectory ≠ ""

def startScan (answer : ListenAnswer) (fs : FileSystem) : ScanOwner → ScanOwner
  | window w serial => window (w.startSharing answer fs true) serial
  | probe p => probe (p.startScan answer fs true)

def handle : ScanOwner → ScanEvent → ScanOwner
  | window w serial, .threadStep fs => window (w.threadStep fs) serial
  | window w serial, .idleTick between => window (w.drainShareScanner between) serial
  | probe p, .threadStep fs => probe (p.threadStep fs)
  | probe p, .idleTick between => probe (p.drainScanner between)

def machine : EventMachine ScanOwner ScanEvent := ⟨handle⟩

/-- The files the thread finds during an event. -/
def foundDuring (o : ScanOwner) : ScanEvent → List SharedFile
  | .threadStep _ => o.shareScanner.found
  | .idleTick between => o.shareScanner.foundBy between

def discovered : ScanOwner → List ScanEvent → List SharedFile
  | _, [] => []
  | o, e :: es => o.foundDuring e ++ (o.handle e).discovered es

/-- What `TakeScanFinished` returns in a tick. -/
def seesEnd (o : ScanOwner) (between : List FileSystem) : Bool :=
  (between.foldl (fun s fs => s.threadStep fs)
    o.shareScanner.takeDiscoveredFiles.2).takeScanFinished.1

end ScanOwner

/-- A scan that is started while the watched connection is logged in, what happens up to the tick
that sees its end, and what the thread does between the two locks of that tick. -/
structure FinishedScan where
  owner : ScanOwner
  answer : ListenAnswer
  fs : FileSystem
  es : List ScanEvent
  between : List FileSystem
  connection : ConnectionWorld
  scans : owner.Scans
  started : (owner.startScan answer fs).connection = some connection
  connected : connection.isConnected = true
  finished : (ScanOwner.machine.run (owner.startScan answer fs) es).seesEnd between = true

namespace FinishedScan

def start (s : FinishedScan) : ScanOwner := s.owner.startScan s.answer s.fs

def discovered (s : FinishedScan) : List SharedFile :=
  s.start.discovered (s.es ++ [.idleTick s.between])

/-- The tick that sees the end finds the owner here. -/
def before (s : FinishedScan) : ScanOwner := ScanOwner.machine.run s.start s.es

def after (s : FinishedScan) : ScanOwner := s.before.handle (.idleTick s.between)

/-- Every file found has been published since the start, and last the number of them. -/
def CountIsReal (s : FinishedScan) : Prop :=
  ∀ connection', s.after.connection = some connection' →
    ∃ fileCount : Int32, fileCount.toInt = s.discovered.length ∧
      nodesSetSince s.connection connection' =
        s.discovered.map s.connection.sharedFileNode ++
          [(nodeFileCount, (Message.ofWhat ()).addInt32 fieldFileCount fileCount)]

/-- The last tick comes too late for no file, the owner has counted from zero, and the count is
one the node can carry. -/
structure CountsAll (s : FinishedScan) : Prop where
  between : s.before.shareScanner.foundBy s.between = []
  start : s.start.fileCount = 0
  fits : s.discovered.length < 2 ^ 31

end FinishedScan

/-- A scan as one connection sees it. -/
structure ScanView where
  scanner : ShareScanner
  connection : ConnectionWorld
  fileCount : UInt32

namespace ScanView

def drainFiles (v : ScanView) : ScanView where
  scanner := v.scanner.takeDiscoveredFiles.2
  connection := v.connection.publishSharedFiles v.scanner.pendingFiles
  fileCount := v.fileCount + UInt32.ofNat v.scanner.pendingFiles.length

def threadSteps (v : ScanView) (between : List FileSystem) : ScanView :=
  { v with scanner := between.foldl (fun s fs => s.threadStep fs) v.scanner }

def drainScanEnd (v : ScanView) : ScanView where
  scanner := v.scanner.takeScanFinished.2
  connection :=
    if v.scanner.scanFinished then v.connection.publishSharedFileCount v.fileCount
    else v.connection
  fileCount := v.fileCount

def handle (v : ScanView) : ScanEvent → ScanView
  | .threadStep fs => v.threadSteps [fs]
  | .idleTick between => (v.drainFiles.threadSteps between).drainScanEnd

end ScanView

namespace ScanOwner

/-- The owner has come to the view of the watched connection. -/
structure Shows (o : ScanOwner) (v : ScanView) : Prop where
  scanner : o.shareScanner = v.scanner
  connection : o.connection = some v.connection
  fileCount : o.fileCount = v.fileCount

end ScanOwner

theorem publishSharedFiles_nil (w : ConnectionWorld) : w.publishSharedFiles [] = w := by
  rw [ConnectionWorld.publishSharedFiles]
  split <;> rfl

theorem shows_onAll {m : ConnectionManagerWorld} {call : ManagedConnection → ConnectionWorld}
    (h : (m.findConnection serial).map ManagedConnection.world = some connection)
    (hcall : ∀ c : ManagedConnection, c.world = connection → call c = connection') :
    ((m.onAll call).findConnection serial).map ManagedConnection.world = some connection' := by
  obtain ⟨c, hc, hw⟩ := Option.map_eq_some_iff.mp h
  rw [ConnectionManagerWorld.findConnection_onAll, hc]
  exact congrArg some (hcall c hw)

namespace ScanOwner.Shows

theorem window_drainFiles {w : SharingWorld} (h : (window w serial).Shows v) :
    (window w.drainFiles serial).Shows v.drainFiles := by
  obtain ⟨scanner, connection, fileCount⟩ := v
  obtain ⟨rfl, hconnection, rfl⟩ := h
  by_cases hnone : w.shareScanner.pendingFiles = []
  · simp only [SharingWorld.drainFiles, ShareScanner.takeDiscoveredFiles,
      ScanView.drainFiles, shareScanner, hnone, publishSharedFiles_nil, ↓reduceIte]
    exact ⟨rfl, hconnection, (UInt32.add_zero _).symm⟩
  · simp only [SharingWorld.drainFiles, ShareScanner.takeDiscoveredFiles, hnone, ↓reduceIte]
    exact ⟨rfl, shows_onAll hconnection fun c hc => hc ▸ rfl, rfl⟩

theorem window_drainScanEnd {w : SharingWorld} (h : (window w serial).Shows v) :
    (window w.drainScanEnd serial).Shows v.drainScanEnd := by
  obtain ⟨scanner, connection, fileCount⟩ := v
  obtain ⟨rfl, hconnection, rfl⟩ := h
  by_cases hf : w.shareScanner.scanFinished = true
  · simp only [SharingWorld.drainScanEnd, ShareScanner.takeScanFinished, hf, ↓reduceIte,
      ScanView.drainScanEnd, shareScanner]
    exact ⟨rfl, shows_onAll hconnection fun c hc => hc ▸ rfl, rfl⟩
  · simp only [SharingWorld.drainScanEnd, ShareScanner.takeScanFinished, hf,
      ScanView.drainScanEnd, shareScanner]
    exact ⟨rfl, hconnection, rfl⟩

theorem window_threadSteps {w : SharingWorld} (h : (window w serial).Shows v)
    (between : List FileSystem) :
    (window (between.foldl SharingWorld.threadStep w) serial).Shows (v.threadSteps between) := by
  rw [SharingWorld.foldl_threadStep]
  obtain ⟨scanner, connection, fileCount⟩ := v
  obtain ⟨rfl, hconnection, rfl⟩ := h
  exact ⟨rfl, hconnection, rfl⟩

theorem probe_drainFiles {p : Probe} (h : (probe p).Shows v) :
    (probe p.drainFiles).Shows v.drainFiles := by
  obtain ⟨scanner, connection, fileCount⟩ := v
  obtain ⟨rfl, hconnection, rfl⟩ := h
  cases hconnection
  by_cases hnone : p.scanner.pendingFiles = []
  · simp only [Probe.drainFiles, ShareScanner.takeDiscoveredFiles,
      ScanView.drainFiles, shareScanner, hnone, publishSharedFiles_nil, ↓reduceIte]
    exact ⟨rfl, rfl, (UInt32.add_zero _).symm⟩
  · simp only [Probe.drainFiles, ShareScanner.takeDiscoveredFiles, hnone, ↓reduceIte]
    exact ⟨rfl, rfl, rfl⟩

theorem probe_drainScanEnd {p : Probe} (h : (probe p).Shows v) :
    (probe p.drainScanEnd).Shows v.drainScanEnd := by
  obtain ⟨scanner, connection, fileCount⟩ := v
  obtain ⟨rfl, hconnection, rfl⟩ := h
  cases hconnection
  by_cases hf : p.scanner.scanFinished = true
  · simp only [Probe.drainScanEnd, ShareScanner.takeScanFinished, hf, ↓reduceIte,
      ScanView.drainScanEnd, shareScanner]
    exact ⟨rfl, rfl, rfl⟩
  · simp only [Probe.drainScanEnd, ShareScanner.takeScanFinished, hf,
      ScanView.drainScanEnd, shareScanner]
    exact ⟨rfl, rfl, rfl⟩

theorem probe_threadSteps {p : Probe} (h : (probe p).Shows v) (between : List FileSystem) :
    (probe (between.foldl Probe.threadStep p)).Shows (v.threadSteps between) := by
  induction between generalizing p v with
  | nil => exact h
  | cons fs between ih =>
    refine ih (p := p.threadStep fs) (v := v.threadSteps [fs]) ⟨?_, h.connection, h.fileCount⟩
    exact congrArg (ShareScanner.threadStep fs) h.scanner

theorem handle {o : ScanOwner} (h : o.Shows v) (e : ScanEvent) :
    (o.handle e).Shows (v.handle e) := by
  cases o with
  | window w serial =>
    cases e with
    | threadStep fs => exact h.window_threadSteps [fs]
    | idleTick between =>
      exact (h.window_drainFiles.window_threadSteps between).window_drainScanEnd
  | probe p =>
    cases e with
    | threadStep fs => exact h.probe_threadSteps [fs]
    | idleTick between => exact (h.probe_drainFiles.probe_threadSteps between).probe_drainScanEnd

end ScanOwner.Shows

namespace ScanView

/-- The watched connection has been told of every file the owner has been handed over. -/
structure Progress (start v : ScanView) (taken found : List SharedFile) : Prop where
  handedOver : taken ++ v.scanner.pendingFiles = found
  published : ∃ later, v.connection.history = start.connection.history ++ later ∧
    later.flatMap ConnectionOccurrence.nodesSet =
      taken.map start.connection.sharedFileNode
  connection : v.connection.toServerConnection = { start.connection.toServerConnection with
    publishedFileCount := v.connection.publishedFileCount }
  fileCount : v.fileCount = start.fileCount + UInt32.ofNat taken.length
  finished : v.scanner.FinishedIsEnded

/-- The end has been seen by an earlier tick. -/
structure Over (v : ScanView) : Prop where
  thread : v.scanner.thread = .ended
  scanFinished : v.scanner.scanFinished = false

theorem Progress.threadSteps (h : Progress start v taken found)
    (between : List FileSystem) : Progress start (v.threadSteps between) taken
      (found ++ v.scanner.foundBy between) := by
  refine ⟨?_, h.published, h.connection, h.fileCount, h.finished.foldl_threadStep between⟩
  rw [ScanView.threadSteps, ShareScanner.foldl_threadStep_pendingFiles, ← List.append_assoc,
    h.handedOver]

theorem Progress.drainFiles (h : Progress start v taken found)
    (hc : start.connection.isConnected = true) :
    Progress start v.drainFiles found found := by
  obtain ⟨htaken, ⟨earlier, hearlier, hnodes⟩, hconnection, hcount, hfinished⟩ := h
  have hconnected : v.connection.isConnected = true := by
    rw [hconnection]
    exact hc
  have hnode : v.connection.sharedFileNode = start.connection.sharedFileNode := by
    rw [hconnection]
    rfl
  obtain ⟨later, hlater, hnew⟩ :=
    ConnectionWorld.publishSharedFiles_nodes hconnected v.scanner.pendingFiles
  refine ⟨List.append_nil _, ⟨earlier ++ later, ?_, ?_⟩, ?_, ?_, hfinished⟩
  · rw [← List.append_assoc, ← hearlier]
    exact hlater
  · rw [List.flatMap_append, hnodes, hnew, hnode, ← List.map_append, htaken]
  · refine (ConnectionWorld.publishSharedFiles_toServerConnection ..).trans ?_
    rw [hconnection]
    rfl
  · change v.fileCount + _ = _
    rw [hcount, ← htaken, List.length_append, UInt32.ofNat_add, UInt32.add_assoc]

theorem Progress.drainScanEnd (h : Progress start v taken found)
    (hf : v.scanner.scanFinished = false) :
    Progress start v.drainScanEnd taken found := by
  have hv : v.drainScanEnd.connection = v.connection := by
    simp only [ScanView.drainScanEnd, hf]
    rfl
  refine ⟨h.handedOver, ?_, ?_, h.fileCount, fun ht => by cases ht⟩
  · rw [hv]
    exact h.published
  · rw [hv]
    exact h.connection

theorem Over.handle (h : Over v) (e : ScanEvent) : Over (v.handle e) := by
  have hstays (between : List FileSystem) : Over (v.threadSteps between) := by
    rw [ScanView.threadSteps, ShareScanner.foldl_threadStep_of_ended h.thread]
    exact h
  cases e with
  | threadStep fs => exact hstays [fs]
  | idleTick between =>
    have hended : v.drainFiles.scanner.thread = .ended := h.thread
    have hthread : (v.drainFiles.threadSteps between).scanner.thread = .ended := by
      rw [ScanView.threadSteps, ShareScanner.foldl_threadStep_of_ended hended]
      exact hended
    exact ⟨hthread, rfl⟩

/-- A step of the scan adds what it finds, or is the tick that sees the end. -/
theorem Progress.handle (h : Progress start v taken found)
    (hc : start.connection.isConnected = true) (e : ScanEvent)
    (o : ScanOwner) (ho : o.shareScanner = v.scanner) :
    Over (v.handle e) ∨
      ∃ taken', Progress start (v.handle e) taken' (found ++ o.foundDuring e) := by
  cases e with
  | threadStep fs =>
    rw [ScanOwner.foundDuring, ho, ← List.append_nil v.scanner.found]
    exact .inr ⟨taken, h.threadSteps [fs]⟩
  | idleTick between =>
    have hsteps := (h.drainFiles hc).threadSteps between
    cases hf : (v.drainFiles.threadSteps between).scanner.scanFinished with
    | true => exact .inl ⟨hsteps.finished hf, rfl⟩
    | false =>
      rw [ScanOwner.foundDuring, ho, ← ShareScanner.foundBy_taken v.scanner [] between]
      exact .inr ⟨found, hsteps.drainScanEnd hf⟩

theorem Progress.run {o : ScanOwner} (ho : o.Shows v)
    (h : Over v ∨ ∃ taken, Progress start v taken found)
    (hc : start.connection.isConnected = true) (es : List ScanEvent) :
    ∃ v', (ScanOwner.machine.run o es).Shows v' ∧
      (Over v' ∨ ∃ taken, Progress start v' taken (found ++ o.discovered es)) := by
  induction es generalizing o v found with
  | nil =>
    rw [ScanOwner.discovered, List.append_nil]
    exact ⟨v, ho, h⟩
  | cons e es ih =>
    rw [ScanOwner.discovered, ← List.append_assoc]
    apply ih (ho.handle e)
    rcases h with h | ⟨taken, h⟩
    · exact .inl (h.handle e)
    · exact h.handle hc e o ho.scanner

theorem Progress.nodes_drainScanEnd (h : Progress start v taken found)
    (hc : start.connection.isConnected = true) (hf : v.scanner.scanFinished = true) :
    nodesSetSince start.connection v.drainScanEnd.connection =
      taken.map start.connection.sharedFileNode ++
        [(nodeFileCount, fileCountNode (start.fileCount + UInt32.ofNat taken.length))] := by
  obtain ⟨later, hlater, hnodes⟩ := h.published
  have hconnected : v.connection.isConnected = true := by
    rw [h.connection]
    exact hc
  have hhistory : v.drainScanEnd.connection.history = start.connection.history ++
      (later ++ [.sent {
        what := .setData
        fields := []
        nodes := [(nodeFileCount, fileCountNode v.fileCount)] }]) := by
    rw [← List.append_assoc, ← hlater]
    simp only [ScanView.drainScanEnd, hf, if_true, ConnectionWorld.publishSharedFileCount,
      hconnected]
    rfl
  rw [nodesSetSince_append hhistory, List.flatMap_append, hnodes, h.fileCount]
  rfl

end ScanView

theorem Probe.listen_shareDirectory (p : Probe) (answer : ListenAnswer) :
    (p.listen answer).shareDirectory = p.shareDirectory := by
  simp only [listen]
  split <;> rfl

theorem ShareScanner.startScan_fresh {s : ShareScanner} (h : s.shareDirectory ≠ "")
    (fs : FileSystem) : (s.startScan fs true).pendingFiles = [] ∧
      (s.startScan fs true).scanFinished = false := by
  simp only [ShareScanner.startScan, ShareScanner.stopScan_shareDirectory, if_neg h, if_true]
  exact ⟨trivial, trivial⟩

namespace ScanOwner

theorem startScan_fresh {o : ScanOwner} (h : o.Scans) (answer : ListenAnswer) (fs : FileSystem) :
    (o.startScan answer fs).shareScanner.pendingFiles = [] ∧
      (o.startScan answer fs).shareScanner.scanFinished = false := by
  cases o with
  | window w serial =>
    obtain ⟨he, hd⟩ := h
    simp only [startScan, SharingWorld.startSharing, he, if_neg hd, shareScanner]
    apply ShareScanner.startScan_fresh
    rw [SharingWorld.listen_shareDirectory]
    exact hd
  | probe p =>
    obtain ⟨hs, hd⟩ := h
    rw [startScan, Probe.startScan, if_pos ⟨hs, hd⟩]
    apply ShareScanner.startScan_fresh
    rw [Probe.printf, Probe.listen_shareDirectory]
    exact hd

theorem discovered_append (o : ScanOwner) (es : List ScanEvent) (e : ScanEvent) :
    o.discovered (es ++ [e]) = o.discovered es ++ (machine.run o es).foundDuring e := by
  induction es generalizing o with
  | nil => exact List.append_nil _
  | cons e' es ih =>
    rw [List.cons_append, discovered, ih, discovered, List.append_assoc]
    rfl

end ScanOwner

theorem addInt32_fileCount (fileCount : Int32) :
    ((Message.ofWhat ()).addInt32 fieldFileCount fileCount).findInt32 fieldFileCount =
      some fileCount := by
  rw [Message.findInt32, Message.addInt32, Message.items_add_self]
  rfl

theorem toInt32_toInt_iff (start : UInt32) (n : Nat) :
    (start + UInt32.ofNat n).toInt32.toInt = n ↔ start = 0 ∧ n < 2 ^ 31 := by
  have hsum : (start + UInt32.ofNat n).toNat = (start.toNat + n) % 2 ^ 32 := by
    rw [UInt32.toNat_add, UInt32.toNat_ofNat']
    exact Nat.add_mod_mod ..
  have hsigned (x : UInt32) : x.toInt32.toInt =
      if 2 * x.toNat < 2 ^ 32 then (x.toNat : Int) else x.toNat - (2 ^ 32 : Nat) :=
    BitVec.toInt_eq_toNat_cond _
  have hlt := start.toNat_lt
  rw [hsigned, hsum, ← UInt32.toNat_inj, UInt32.toNat_zero]
  omega

namespace FinishedScan

/-- The nodes that have been published when the end has been seen, counted as the owner counts. -/
theorem nodes_after (s : FinishedScan) : ∃ taken connection',
    s.after.connection = some connection' ∧
      s.discovered = taken ++ s.before.shareScanner.foundBy s.between ∧
        nodesSetSince s.connection connection' = taken.map s.connection.sharedFileNode ++
          [(nodeFileCount, fileCountNode (s.start.fileCount + UInt32.ofNat taken.length))] := by
  obtain ⟨hpending, hunfinished⟩ := ScanOwner.startScan_fresh s.scans s.answer s.fs
  let start : ScanView := ⟨s.start.shareScanner, s.connection, s.start.fileCount⟩
  have hstart : start.Progress start [] [] := by
    refine ⟨hpending, ⟨[], (List.append_nil _).symm, rfl⟩, rfl, (UInt32.add_zero _).symm, ?_⟩
    intro hf
    cases hunfinished.symm.trans hf
  obtain ⟨v, hv, hor⟩ := ScanView.Progress.run ⟨rfl, s.started, rfl⟩ (.inr ⟨[], hstart⟩)
    s.connected s.es
  have hend : (v.drainFiles.threadSteps s.between).scanner.scanFinished = true := by
    have hseen : s.before.seesEnd s.between = true := s.finished
    rw [ScanOwner.seesEnd, before, hv.scanner] at hseen
    exact hseen
  rcases hor with hover | ⟨handedOver, hprogress⟩
  · -- the flag has been taken already
    have hended : v.drainFiles.scanner.thread = .ended := hover.thread
    rw [ScanView.threadSteps, ShareScanner.foldl_threadStep_of_ended hended] at hend
    cases hover.scanFinished.symm.trans hend
  · have hafter := (hprogress.drainFiles s.connected).threadSteps s.between
    have hnodes := hafter.nodes_drainScanEnd s.connected hend
    refine ⟨_, _, (hv.handle (.idleTick s.between)).connection, ?_, hnodes⟩
    rw [FinishedScan.discovered, ScanOwner.discovered_append]
    rfl

theorem countIsReal_iff (s : FinishedScan) : s.CountIsReal ↔ s.CountsAll := by
  obtain ⟨taken, connection', hconnection, hdiscovered, hnodes⟩ := s.nodes_after
  constructor
  · intro h
    obtain ⟨fileCount, hcount, hall⟩ := h connection' hconnection
    rw [hnodes] at hall
    have hlength := congrArg List.length hall
    rw [hdiscovered] at hlength hcount hall
    simp only [List.length_append, List.length_map, List.length_singleton] at hlength
    have hbetween : s.before.shareScanner.foundBy s.between = [] :=
      List.eq_nil_of_length_eq_zero (by omega)
    rw [hbetween, List.append_nil] at hcount hall
    have hread := congrArg (List.map fun node => node.2.findInt32 fieldFileCount)
      (List.append_cancel_left hall)
    simp only [List.map_cons, List.map_nil, fileCountNode, addInt32_fileCount, List.cons.injEq,
      Option.some.injEq, and_true] at hread
    rw [← hread] at hcount
    obtain ⟨hstart, hfits⟩ := (toInt32_toInt_iff _ _).mp hcount
    refine ⟨hbetween, hstart, ?_⟩
    rwa [hdiscovered, hbetween, List.append_nil]
  · rintro ⟨hbetween, hstart, hfits⟩ c hc
    rw [hconnection] at hc
    cases hc
    rw [hbetween, List.append_nil] at hdiscovered
    rw [hdiscovered] at hfits ⊢
    exact ⟨_, (toInt32_toInt_iff _ _).mpr ⟨hstart, hfits⟩, hnodes⟩

end FinishedScan

/-- A window that is logged in on one server. -/
def loggedInWindow : SharingWorld :=
  SharingWorld.machine.run (.opened (.ofFiles []))
    [.setFileSharingEnabled true, .setShareDirectory "/share",
      .connection { call := .addConnection "a.example" 2960 },
      .connection { call := .sessionConnected 0 "a.example" }]

/-- The whole scan falls between the two locks of one tick. -/
def hiddenScan : FinishedScan where
  owner := .window loggedInWindow 0
  answer := {}
  fs := oneFileFolder
  es := []
  between := List.replicate 6 oneFileFolder
  connection := ((ScanOwner.window loggedInWindow 0).startScan {} oneFileFolder).connection.get
    (by decide)
  scans := ⟨by decide, by decide⟩
  started := (Option.some_get _).symm
  connected := by decide
  finished := by decide

theorem hidden_file_is_not_counted : ¬ ∀ s : FinishedScan, s.CountIsReal := by
  intro h
  have hbetween := (hiddenScan.countIsReal_iff.mp (h hiddenScan)).between
  exact absurd hbetween (by decide)

/-- The count that is published when the end is seen is that of the files found, all of them
published, exactly if the thread finds none between the two locks of that tick, the owner has
counted from zero and the count fits. -/
theorem published_file_count (s : FinishedScan) : s.CountIsReal ↔ s.CountsAll := s.countIsReal_iff

end HiTuxShare
