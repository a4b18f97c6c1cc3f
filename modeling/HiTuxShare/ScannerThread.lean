import HiTuxShare.ShareScanner
import Mathlib.Logic.Function.Iterate

namespace HiTuxShare
set_option autoImplicit true

namespace ShareScanner

/-- The file that is added even if the thread is told to abort now. -/
def inHand (s : ShareScanner) : List SharedFile :=
  match s.thread with
  | .claiming file _ => if file.fileName ∈ s.claimedNames then [] else [file]
  | .adding file _ => [file]
  | _ => []

/-- No file is on its way from the thread to the owner of the scanner. -/
def NothingBuffered (s : ShareScanner) : Prop := s.pendingFiles ++ s.inHand = []

instance : DecidablePred NothingBuffered := fun s =>
  inferInstanceAs (Decidable (s.pendingFiles ++ s.inHand = []))

theorem enterDirectory_length (fs : FileSystem) (directoryPath relativePath : String)
    (opened : List OpenDirectory) :
    (enterDirectory fs directoryPath relativePath opened).length ≤ opened.length + 1 := by
  rw [enterDirectory]
  split
  · exact Nat.le_succ _
  · split
    · exact Nat.le_succ _
    · exact Nat.le_refl _

/-- One step of a thread that has been told to abort: it comes nearer to its end, and finds no
file it has not found yet. -/
theorem threadStep_aborting (fs : FileSystem) {s : ShareScanner} (h : s.shouldAbort = true) :
    (s.threadStep fs).shouldAbort = true ∧
      stepsToEnd (s.threadStep fs).thread ≤ stepsToEnd s.thread - 1 ∧
      (s.threadStep fs).pendingFiles ++ (s.threadStep fs).inHand = s.pendingFiles ++ s.inHand := by
  cases ht : s.thread with
  | starting =>
    have hlength := enterDirectory_length fs s.shareDirectory "" []
    simp only [threadStep, ht, inHand]
    refine ⟨h, ?_, trivial⟩
    simp only [List.length_nil] at hlength
    simp only [stepsToEnd]
    omega
  | scanning opened =>
    cases opened with
    | nil =>
      simp only [threadStep, ht, inHand]
      exact ⟨h, Nat.zero_le _, trivial⟩
    | cons directory outer =>
      cases hu : directory.unread with
      | nil =>
        simp only [threadStep, ht, hu, inHand]
        exact ⟨h, Nat.le_refl _, trivial⟩
      | cons entryName unread =>
        simp only [threadStep, ht, hu, h, inHand, ↓reduceIte]
        exact ⟨trivial, Nat.le_refl _, trivial⟩
  | claiming file opened =>
    by_cases hc : file.fileName ∈ s.claimedNames
    · simp only [threadStep, ht, hc, inHand, ↓reduceIte]
      exact ⟨h, Nat.le_succ _, trivial⟩
    · simp only [threadStep, ht, hc, inHand, ↓reduceIte]
      exact ⟨h, Nat.le_refl _, trivial⟩
  | adding file opened =>
    simp only [threadStep, ht, inHand, List.append_nil]
    exact ⟨h, Nat.le_refl _, trivial⟩
  | ended =>
    simp only [threadStep, ht, inHand]
    exact ⟨h, Nat.le_refl _, trivial⟩

theorem stepsToEnd_eq_zero (h : stepsToEnd position = 0) : position = .ended := by
  cases position with
  | ended => rfl
  | _ => cases h

theorem iterate_aborting (fs : FileSystem) {s : ShareScanner} (h : s.shouldAbort = true)
    (hn : stepsToEnd s.thread ≤ n) : ((threadStep fs)^[n] s).thread = .ended ∧
      ((threadStep fs)^[n] s).pendingFiles = s.pendingFiles ++ s.inHand := by
  induction n generalizing s with
  | zero =>
    have hended := stepsToEnd_eq_zero (Nat.le_zero.mp hn)
    refine ⟨hended, ?_⟩
    simp [inHand, hended]
  | succ n ih =>
    obtain ⟨habort, hsteps, hfiles⟩ := threadStep_aborting fs h
    rw [Function.iterate_succ_apply, ← hfiles]
    exact ih habort (by omega)

/-- Without a thread there is nothing to join. -/
def Settled (s : ShareScanner) : Prop := s.threadRunning = false → s.thread = .ended

theorem inHand_of_ended {s : ShareScanner} (h : s.thread = .ended) : s.inHand = [] := by
  simp only [inHand, h]

theorem threadStep_of_ended (fs : FileSystem) {s : ShareScanner} (h : s.thread = .ended) :
    s.threadStep fs = s := by
  simp only [threadStep, h]

theorem threadStep_frame (fs : FileSystem) (s : ShareScanner) :
    (s.threadStep fs).shareDirectory = s.shareDirectory ∧
      (s.threadStep fs).threadRunning = s.threadRunning ∧
      (s.threadStep fs).shouldAbort = s.shouldAbort := by
  rw [threadStep]
  split
  · exact ⟨rfl, rfl, rfl⟩
  · exact ⟨rfl, rfl, rfl⟩
  · split
    · exact ⟨rfl, rfl, rfl⟩
    · split <;> exact ⟨rfl, rfl, rfl⟩
  · split <;> exact ⟨rfl, rfl, rfl⟩
  · exact ⟨rfl, rfl, rfl⟩
  · exact ⟨rfl, rfl, rfl⟩

theorem foldl_threadStep_shareDirectory (s : ShareScanner) (between : List FileSystem) :
    (between.foldl (fun s fs => s.threadStep fs) s).shareDirectory = s.shareDirectory := by
  induction between generalizing s with
  | nil => rfl
  | cons fs between ih => exact (ih _).trans (threadStep_frame fs s).1

theorem join_shareDirectory (fs : FileSystem) (s : ShareScanner) :
    (s.join fs).shareDirectory = s.shareDirectory :=
  Function.Iterate.rec (fun s' => s'.shareDirectory = s.shareDirectory) rfl
    (fun s' hs => (threadStep_frame fs s').1.trans hs) _

theorem stopScan_shareDirectory (fs : FileSystem) (s : ShareScanner) :
    (s.stopScan fs).shareDirectory = s.shareDirectory := by
  rw [stopScan]
  split
  · exact join_shareDirectory fs { s with shouldAbort := true }
  · rfl

theorem Settled.threadStep (h : Settled s) (fs : FileSystem) : Settled (s.threadStep fs) := by
  intro hr
  rw [(threadStep_frame fs s).2.1] at hr
  rw [threadStep_of_ended fs (h hr)]
  exact h hr

theorem stopScan_spec (fs : FileSystem) {s : ShareScanner} (h : Settled s) :
    (s.stopScan fs).thread = .ended ∧ (s.stopScan fs).threadRunning = false ∧
      (s.stopScan fs).pendingFiles = s.pendingFiles ++ s.inHand := by
  rw [stopScan]
  split
  · obtain ⟨hended, hfiles⟩ := iterate_aborting fs (s := { s with shouldAbort := true }) rfl
      (Nat.le_refl _)
    exact ⟨hended, rfl, hfiles⟩
  · next hr =>
    have hr := Bool.eq_false_of_not_eq_true hr
    rw [inHand_of_ended (h hr), List.append_nil]
    exact ⟨h hr, hr, rfl⟩

theorem Settled.stopScan (h : Settled s) (fs : FileSystem) : Settled (s.stopScan fs) :=
  fun _ => (stopScan_spec fs h).1

theorem Settled.startScan (h : Settled s) (fs : FileSystem) (created : Bool) :
    Settled (s.startScan fs created) := by
  have hstopped := stopScan_spec fs h
  simp only [ShareScanner.startScan]
  split
  · exact fun _ => hstopped.1
  · split
    · exact fun hr => by cases hr
    · exact fun _ => hstopped.1

end ShareScanner

end HiTuxShare
