import HiTuxShare.DownloadEvents
import Mathlib.Data.List.Induction

namespace HiTuxShare
set_option autoImplicit true

/-- The files of the whole system by path, with their contents. -/
abbrev Files := String → Option (List UInt8)

namespace Files

/-- What a session does to the files. `fopen(.., "wb")` empties a file that is there already. -/
def step (files : Files) : Occurrence → Files
  | .opened path => Function.update files path (some [])
  | .wrote path bytes => Function.update files path ((files path).map (· ++ bytes))
  | .removed path => Function.update files path none
  | _ => files

def replay (initial : Files) (history : List Occurrence) : Files := history.foldl step initial

@[simp] theorem replay_append (initial : Files) (history : List Occurrence)
    (occurrence : Occurrence) :
    replay initial (history ++ [occurrence]) = (replay initial history).step occurrence := by
  simp only [replay, List.foldl_append, List.foldl_cons, List.foldl_nil]

theorem step_opened_of_ne (files : Files) {path path' : String} (h : path' ≠ path) :
    files.step (.opened path) path' = files path' := Function.update_of_ne h ..

theorem step_wrote_of_ne (files : Files) (bytes : List UInt8) {path path' : String}
    (h : path' ≠ path) : files.step (.wrote path bytes) path' = files path' :=
  Function.update_of_ne h ..

theorem step_removed_of_ne (files : Files) {path path' : String} (h : path' ≠ path) :
    files.step (.removed path) path' = files path' := Function.update_of_ne h ..

theorem step_wrote_isSome (files : Files) (path : String) (bytes : List UInt8) (path' : String) :
    (files.step (.wrote path bytes) path').isSome = (files path').isSome := by
  by_cases h : path' = path
  · subst h
    simp [step]
  · rw [step_wrote_of_ne _ _ h]

end Files

/-- Every path a history removes was created in it before and had not been reported. -/
def OnlyOwnRemoved (history : List Occurrence) : Prop :=
  ∀ before path after, history = before ++ .removed path :: after →
    .opened path ∈ before ∧ .downloadFileCompleted path ∉ before

theorem OnlyOwnRemoved.snoc (h : OnlyOwnRemoved history)
    (hr : ∀ path, occurrence = .removed path →
      .opened path ∈ history ∧ .downloadFileCompleted path ∉ history) :
    OnlyOwnRemoved (history ++ [occurrence]) := by
  intro before path after he
  cases after using List.reverseRecOn with
  | nil =>
    obtain ⟨rfl, ho⟩ := List.append_inj' he rfl
    exact hr path (List.singleton_inj.mp ho)
  | append_singleton after last =>
    rw [← List.cons_append, ← List.append_assoc] at he
    exact h before path after (List.append_inj' he rfl).1

/-- Occurrences that have nothing to do with the files. -/
def Occurrence.isAside : Occurrence → Bool
  | .opened _ | .wrote _ _ | .removed _ | .downloadFileCompleted _ => false
  | _ => true

namespace DownloadWorld

/-- Nothing happens to any file, and the open file stays what it is. -/
structure Aside (w w' : DownloadWorld) : Prop where
  outputFile : w'.outputFile = w.outputFile
  outputPath : w'.outputPath = w.outputPath
  history : ∃ notes, w'.history = w.history ++ notes ∧ ∀ o ∈ notes, o.isAside = true

theorem Aside.trans (h : Aside w w') (h' : Aside w' w'') : Aside w w'' := by
  obtain ⟨notes, hh, hn⟩ := h.history
  obtain ⟨notes', hh', hn'⟩ := h'.history
  refine ⟨h'.outputFile.trans h.outputFile, h'.outputPath.trans h.outputPath, notes ++ notes', ?_,
    ?_⟩
  · rw [hh', hh, List.append_assoc]
  · intro o hm
    rcases List.mem_append.mp hm with hm | hm
    · exact hn o hm
    · exact hn' o hm

theorem aside_of_history {w w' : DownloadWorld} (hf : w'.outputFile = w.outputFile)
    (hp : w'.outputPath = w.outputPath) (hh : w'.history = w.history) : Aside w w' :=
  ⟨hf, hp, [], hh.trans (List.append_nil _).symm, fun _ hm => by cases hm⟩

theorem aside_note (w : DownloadWorld) (occurrence : Occurrence)
    (h : occurrence.isAside = true) :
    Aside w (w.note occurrence) :=
  ⟨rfl, rfl, [occurrence], rfl, fun _ hm => List.mem_singleton.mp hm ▸ h⟩

theorem aside_setState (w : DownloadWorld) (state : DownloadState) :
    Aside w (w.setState state) := by
  rw [setState]
  split
  · exact aside_of_history rfl rfl rfl
  · exact ⟨rfl, rfl, [.downloadStateChanged state], rfl, fun _ hm => List.mem_singleton.mp hm ▸ rfl⟩

theorem aside_fail (w : DownloadWorld) (reason : String) : Aside w (w.fail reason) := by
  have hset : Aside { w with errorText := reason } (w.fail reason) := aside_setState ..
  exact ⟨hset.outputFile, hset.outputPath, hset.history⟩

theorem aside_connect (os : OperatingSystem) (w : DownloadWorld) (hostName : String)
    (port : Nat) : Aside w (w.connect os hostName port).1 := by
  have hrate : Aside (w.note .threadStarted) (w.note .threadStarted).setRatePolicy := by
    rw [setRatePolicy]
    split
    · exact aside_note _ _ rfl
    · exact aside_of_history rfl rfl rfl
  have hthread := (aside_note w _ rfl).trans hrate
  rw [connect]
  split
  · exact aside_fail ..
  · split
    · exact hthread.trans ((aside_note _ _ rfl).trans (aside_fail ..))
    · exact hthread.trans ((aside_note _ _ rfl).trans (aside_setState ..))

theorem aside_start (os : OperatingSystem) (w : DownloadWorld) (hostName : String) (port : Nat)
    (remoteSessionId localSessionId localUserName : String) : Aside w
      (w.start os hostName port remoteSessionId localSessionId localUserName).1 := by
  rw [start]
  split
  · exact aside_of_history rfl rfl rfl
  · split
    · exact aside_fail ..
    · have hconnect :=
        aside_connect os { w with remoteSessionId, localSessionId, localUserName } hostName port
      exact ⟨hconnect.outputFile, hconnect.outputPath, hconnect.history⟩

theorem aside_requestFiles (mungeMode : Int32) (w : DownloadWorld) :
    Aside w (w.requestFiles mungeMode) :=
  (aside_setState ..).trans ((aside_note _ _ rfl).trans (aside_note _ _ rfl))

theorem aside_chatter [MuscleText] (os : OperatingSystem) (w : DownloadWorld)
    (h : IsChatter message) : Aside w (w.messageReceived os message) := by
  have hnote : Aside w (w.note (.received message)) := aside_note w _ rfl
  rw [messageReceived]
  cases hw : message.what with
  | fileHeader => exact (h.not_header hw).elim
  | fileData => exact (h.not_data hw).elim
  | rejected => exact (h.not_rejected hw).elim
  | notifyQueued => exact hnote.trans (aside_setState ..)
  | peerId =>
    simp only [peerIdentified]
    split
    · split
      · exact hnote.trans (aside_of_history rfl rfl rfl)
      · exact hnote
    · exact hnote
  | _ => exact hnote

end DownloadWorld

end HiTuxShare
