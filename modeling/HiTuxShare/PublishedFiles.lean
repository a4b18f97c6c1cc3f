import HiTuxShare.ConnectionIdentity
import HiTuxShare.Probe
import HiTuxShare.ScannerThread

namespace HiTuxShare
set_option autoImplicit true

namespace ShareScanner

/-- What the next step of the thread adds to the pending files. -/
def found (s : ShareScanner) : List SharedFile :=
  match s.thread with
  | .adding file _ => [file]
  | _ => []

/-- What the thread finds on its next steps. -/
def foundBy (s : ShareScanner) : List FileSystem → List SharedFile
  | [] => []
  | fs :: rest => s.found ++ (s.threadStep fs).foundBy rest

theorem threadStep_taken (s : ShareScanner) (fs : FileSystem) (files : List SharedFile) :
    ShareScanner.threadStep fs { s with pendingFiles := files } =
      { s.threadStep fs with pendingFiles := files ++ s.found } := by
  simp only [threadStep]
  cases ht : s.thread with
  | starting | ended => simp only [found, ht, List.append_nil]
  | adding file opened => simp only [found, ht]
  | claiming file opened =>
    simp only [found, ht, List.append_nil]
    split <;> rfl
  | scanning opened =>
    simp only [found, ht, List.append_nil]
    cases opened with
    | nil => rfl
    | cons directory outer =>
      dsimp only
      split
      · rfl
      · split <;> rfl

theorem threadStep_pendingFiles (s : ShareScanner) (fs : FileSystem) :
    (s.threadStep fs).pendingFiles = s.pendingFiles ++ s.found :=
  congrArg ShareScanner.pendingFiles (s.threadStep_taken fs s.pendingFiles)

theorem foldl_threadStep_pendingFiles (s : ShareScanner) (between : List FileSystem) :
    (between.foldl (fun s fs => s.threadStep fs) s).pendingFiles =
      s.pendingFiles ++ s.foundBy between := by
  induction between generalizing s with
  | nil => exact (List.append_nil _).symm
  | cons fs between ih =>
    rw [List.foldl_cons, ih, threadStep_pendingFiles, foundBy, List.append_assoc]

theorem foundBy_taken (s : ShareScanner) (files : List SharedFile) (between : List FileSystem) :
    ShareScanner.foundBy { s with pendingFiles := files } between = s.foundBy between := by
  induction between generalizing s files with
  | nil => rfl
  | cons fs between ih =>
    rw [foundBy, foundBy, threadStep_taken, ih]
    rfl

/-- The flag is set by the last step of the thread. -/
def FinishedIsEnded (s : ShareScanner) : Prop := s.scanFinished = true → s.thread = .ended

theorem FinishedIsEnded.threadStep (h : FinishedIsEnded s) (fs : FileSystem) :
    FinishedIsEnded (s.threadStep fs) := by
  by_cases hended : s.thread = .ended
  · rw [threadStep_of_ended fs hended]
    exact h
  · have hrunning : s.scanFinished ≠ true := fun hf => hended (h hf)
    rw [ShareScanner.threadStep]
    cases ht : s.thread with
    | ended => exact absurd ht hended
    | scanning opened =>
      cases opened with
      | nil => exact fun _ => rfl
      | cons directory outer =>
        dsimp only
        split
        · exact fun hf => absurd hf hrunning
        · split <;> exact fun hf => absurd hf hrunning
    | claiming file opened =>
      dsimp only
      split <;> exact fun hf => absurd hf hrunning
    | _ => exact fun hf => absurd hf hrunning

theorem FinishedIsEnded.foldl_threadStep (h : FinishedIsEnded s) (between : List FileSystem) :
    FinishedIsEnded (between.foldl (fun s fs => s.threadStep fs) s) := by
  apply List.foldlRecOn between _ h
  intro s hs fs _
  exact hs.threadStep fs

theorem foldl_threadStep_of_ended {s : ShareScanner} (h : s.thread = .ended)
    (between : List FileSystem) : between.foldl (fun s fs => s.threadStep fs) s = s :=
  foldl_eq_self fun fs _ => threadStep_of_ended fs h

end ShareScanner

/-- The node a file is published under. -/
def ServerConnection.sharedFileNode (c : ServerConnection) (file : SharedFile) :
    String × NodeMessage := (c.filesNodePath ++ file.fileName, fileNode file)

namespace ConnectionWorld

theorem publishBatches_nodes (w : ConnectionWorld) (batch : List (String × NodeMessage))
    (files : List SharedFile) : ∃ later, (w.publishBatches batch files).history =
        w.history ++ later ∧
      later.flatMap ConnectionOccurrence.nodesSet =
        batch ++ files.map w.sharedFileNode := by
  induction files generalizing w batch with
  | nil =>
    rw [publishBatches]
    split
    · next hb => exact ⟨[], (List.append_nil _).symm, by simp [hb]⟩
    · refine ⟨_, rfl, ?_⟩
      rw [List.flatMap_singleton, List.map_nil, List.append_nil]
      rfl
  | cons file files ih =>
    rw [publishBatches]
    split
    · obtain ⟨later, hlater, hnodes⟩ := ih (({ w with
        publishedFileCount := w.publishedFileCount + 1 } : ConnectionWorld).setDataNodes
          (batch ++ [(w.filesNodePath ++ file.fileName, fileNode file)])) []
      refine ⟨_, hlater.trans (List.append_assoc ..), ?_⟩
      rw [List.flatMap_append, hnodes, List.flatMap_singleton]
      simp only [ConnectionOccurrence.nodesSet, List.append_assoc, List.cons_append,
        List.nil_append, List.map_cons]
      rfl
    · obtain ⟨later, hlater, hnodes⟩ := ih { w with
        publishedFileCount := w.publishedFileCount + 1 }
          (batch ++ [(w.filesNodePath ++ file.fileName, fileNode file)])
      refine ⟨later, hlater, ?_⟩
      rw [hnodes, List.append_assoc, List.map_cons]
      rfl

theorem publishSharedFiles_nodes {w : ConnectionWorld} (h : w.isConnected = true)
    (files : List SharedFile) : ∃ later, (w.publishSharedFiles files).history =
        w.history ++ later ∧
      later.flatMap ConnectionOccurrence.nodesSet =
        files.map w.sharedFileNode := by
  rw [publishSharedFiles, if_pos h]
  exact w.publishBatches_nodes [] files

end ConnectionWorld

end HiTuxShare
