import HiTuxShare.DownloadContainment

namespace HiTuxShare
set_option autoImplicit true

/-- The occurrences in which a file is opened, written or reported. -/
def Occurrence.isFileWork : Occurrence → Bool
  | .opened _ | .wrote _ _ | .downloadFileCompleted _ => true
  | _ => false

namespace DownloadWorld

/-- The state is the same as before, and no file has been worked on. -/
structure Unmoved (w w' : DownloadWorld) : Prop where
  state : w'.state = w.state
  history : ∃ later, w'.history = w.history ++ later ∧ ∀ o ∈ later, o.isFileWork = false

theorem Unmoved.refl (w : DownloadWorld) : Unmoved w w :=
  ⟨rfl, [], (List.append_nil _).symm, fun _ hm => by cases hm⟩

theorem Unmoved.trans (h : Unmoved w w') (h' : Unmoved w' w'') : Unmoved w w'' := by
  obtain ⟨later, hh, hl⟩ := h.history
  obtain ⟨later', hh', hl'⟩ := h'.history
  refine ⟨h'.state.trans h.state, later ++ later', ?_, ?_⟩
  · rw [hh', hh, List.append_assoc]
  · intro o hm
    rcases List.mem_append.mp hm with hm | hm
    · exact hl o hm
    · exact hl' o hm

theorem Unmoved.isFinished (h : Unmoved w w') (hf : w.isFinished = true) :
    w'.isFinished = true := by
  rwa [FileDownload.isFinished, h.state]

theorem unmoved_received (w : DownloadWorld) (message : TransferMessage) :
    Unmoved w (w.note (.received message)) :=
  ⟨rfl, [.received message], rfl, fun _ hm => List.mem_singleton.mp hm ▸ rfl⟩

theorem unmoved_peerIdentified (w : DownloadWorld) (message : TransferMessage) :
    Unmoved w (w.peerIdentified message) := by
  rw [peerIdentified]
  split
  · split
    · exact ⟨rfl, (Unmoved.refl w).history⟩
    · exact .refl w
  · exact .refl w

/-- What may reach a finished download: no connection that comes up, no notice of a queue and no
header a file can be made for. -/
def LateIsHarmless [MuscleText] (w : DownloadWorld) (e : DownloadEvent) : Prop :=
  w.isFinished = true →
    match e.callback with
    | .sessionConnected => False
    | .messageReceived message => message.what ≠ .notifyQueued ∧
        (message.what = .fileHeader → ∀ header, readFileHeader message = some header →
          w.newOutputFile e.os header.fileName ((message.findString fieldPath).getD "") = none)
    | _ => True

variable [MuscleText]

theorem newOutputFile_congr {w w' : DownloadWorld}
    (hd : w'.downloadDirectory = w.downloadDirectory) (hr : w'.retainFilePaths = w.retainFilePaths)
    (hl : w'.ledger.disk = w.ledger.disk) (os : OperatingSystem) (fileName relativePath : String) :
    w'.newOutputFile os fileName relativePath = w.newOutputFile os fileName relativePath := by
  have hdirectory : w'.outputDirectory relativePath = w.outputDirectory relativePath := by
    rw [FileDownload.outputDirectory, hd, hr, FileDownload.outputDirectory]
  have hexists : w'.pathExists os = w.pathExists os := by
    funext path
    rw [pathExists, hl, pathExists]
  rw [newOutputFile, outputPathFor, hdirectory, hexists, newOutputFile, outputPathFor]

theorem handleFileHeader_of_finished {w : DownloadWorld} (hf : w.isFinished = true)
    (hclosed : w.outputFile = none) (hr : readFileHeader message = some header)
    (os : OperatingSystem) :
    (w.newOutputFile os header.fileName ((message.findString fieldPath).getD "") = none →
      Unmoved w (w.handleFileHeader os message)) ∧
    ((w.handleFileHeader os message).isFinished = true →
      w.newOutputFile os header.fileName ((message.findString fieldPath).getD "") = none) := by
  have hfinish : w.finishCurrentFile os = w := finishCurrentFile_of_closed os hclosed
  have hopened : w.openedBy os header message =
      w.newOutputFile os header.fileName ((message.findString fieldPath).getD "") := by
    rw [openedBy, hfinish]
    exact newOutputFile_congr rfl rfl rfl ..
  rw [← hopened]
  cases ho : w.openedBy os header message with
  | none =>
    rw [handleFileHeader_refused hr ho, hfinish,
      abort_of_finished (w := w.announce header message) os _ hf]
    exact ⟨fun _ => ⟨rfl, (Unmoved.refl w).history⟩, fun _ => rfl⟩
  | some path =>
    rw [(handleFileHeader_opened hr ho).1]
    constructor
    · intro h
      cases h
    · intro h
      cases h

theorem messageReceived_of_finished {w : DownloadWorld} (hf : w.isFinished = true)
    (hclosed : w.outputFile = none) (os : OperatingSystem) (message : TransferMessage) :
    (LateIsHarmless w ⟨.messageReceived message, os⟩ →
      Unmoved w (w.messageReceived os message)) ∧
    ((w.messageReceived os message).isFinished = true →
      LateIsHarmless w ⟨.messageReceived message, os⟩) := by
  have hreceived := unmoved_received w message
  rcases message_cases message with hw | hw | hw | hw
  · rw [messageReceived_header os w hw]
    cases hr : readFileHeader message with
    | none =>
      rw [handleFileHeader_malformed os _ hr,
        finishCurrentFile_of_closed (w := w.note _) os hclosed,
        abort_of_finished (w := w.note _) os _ hf]
      refine ⟨fun _ => hreceived, fun _ _ => ⟨by simp [hw], fun _ header hh => ?_⟩⟩
      rw [hr] at hh
      cases hh
    | some header =>
      obtain ⟨hharmless, hkept⟩ := handleFileHeader_of_finished
        (w := w.note (.received message)) hf hclosed hr os
      have hdisk : (w.note (.received message)).ledger.disk = w.ledger.disk := by
        rw [note_ledger]
        exact (w.ledger.receive_frame message).1
      have hsame : (w.note (.received message)).newOutputFile os = w.newOutputFile os := by
        funext fileName relativePath
        apply newOutputFile_congr
        · rfl
        · rfl
        · exact hdisk
      rw [hsame] at hharmless hkept
      constructor
      · intro h
        exact hreceived.trans (hharmless ((h hf).2 hw header hr))
      · intro h _
        refine ⟨by simp [hw], fun _ header' hh => ?_⟩
        obtain rfl := Option.some.inj (hr.symm.trans hh)
        exact hkept h
  · rw [messageReceived_data os w hw, handleFileData_closed os (w.note _) hclosed]
    exact ⟨fun _ => hreceived, fun _ _ => ⟨by simp [hw], by simp [hw]⟩⟩
  · rw [messageReceived_rejected os w hw, abort_of_finished (w := w.note _) os _ hf]
    exact ⟨fun _ => hreceived, fun _ _ => ⟨by simp [hw], by simp [hw]⟩⟩
  · by_cases hq : message.what = .notifyQueued
    · refine ⟨fun h => ((h hf).1 hq).elim, fun h => ?_⟩
      simp only [messageReceived, hq, setState_toFileDownload] at h
      cases h
    · refine ⟨fun _ => hreceived.trans ?_, fun _ _ => ⟨hq, fun hh => (hw.not_header hh).elim⟩⟩
      rw [messageReceived]
      cases hm : message.what with
      | fileHeader => exact (hw.not_header hm).elim
      | fileData => exact (hw.not_data hm).elim
      | rejected => exact (hw.not_rejected hm).elim
      | notifyQueued => exact (hq hm).elim
      | peerId => exact unmoved_peerIdentified ..
      | _ => exact .refl _

/-- A callback leaves a finished download finished exactly if it is harmless, and then it leaves
it alone. -/
theorem handle_of_finished {w : DownloadWorld} (hf : w.isFinished = true)
    (hclosed : w.outputFile = none) (e : DownloadEvent) :
    (LateIsHarmless w e → Unmoved w (w.handle e)) ∧
      ((w.handle e).isFinished = true → LateIsHarmless w e) := by
  obtain ⟨callback, os⟩ := e
  cases callback with
  | sessionConnected =>
    refine ⟨fun h => (h hf).elim, fun h => ?_⟩
    rw [show (w.handle ⟨.sessionConnected, os⟩).toFileDownload = _ from
      requestFiles_toFileDownload mungeModeXor w] at h
    cases h
  | sessionDisconnected =>
    refine ⟨fun _ => ?_, fun _ _ => trivial⟩
    change Unmoved w (w.sessionDisconnected os)
    rw [sessionDisconnected_finished os hf]
    exact .refl w
  | messageReceived message => exact messageReceived_of_finished hf hclosed os message
  | abort reason =>
    refine ⟨fun _ => ?_, fun _ _ => trivial⟩
    change Unmoved w (w.abort os reason)
    rw [abort_of_finished os reason hf]
    exact .refl w

end DownloadWorld

/-- A download is cancelled while its connection comes up, and the news of it is already queued. -/
theorem late_connection_revives_download :
    ¬ ∀ [MuscleText] (request : DownloadRequest) (os : OperatingSystem) (es : List DownloadEvent),
      DownloadWorld.machine.Absorbs (fun w => w.isFinished = true) DownloadWorld.Unmoved
        (request.started os) es := by
  intro h
  let _ := asciiText
  have hunmoved := h notesRequest {} [⟨.abort "Cancelled", {}⟩, ⟨.sessionConnected, {}⟩]
    [⟨.abort "Cancelled", {}⟩] [⟨.sessionConnected, {}⟩] [] rfl (by decide +kernel)
  exact absurd hunmoved.state (by decide +kernel)

/-- A finished download stays finished and silent through the rest of a run exactly if nothing
reaches it late that it still acts on. -/
theorem terminal_states_absorb [MuscleText] (request : DownloadRequest) (os : OperatingSystem)
    (es : List DownloadEvent) :
    DownloadWorld.machine.Absorbs (fun w => w.isFinished = true) DownloadWorld.Unmoved
        (request.started os) es ↔
      DownloadWorld.machine.EveryStep DownloadWorld.LateIsHarmless (request.started os) es := by
  rw [EventMachine.absorbs_iff_everyStep .refl (fun _ _ _ => .trans)
    (fun _ _ hf h => h.isFinished hf)]
  refine EventMachine.everyStep_congr_of_invariant (J := DownloadWorld.Booked)
    (fun _ e h => h.handle e) ?_ (started_booked request os) es
  intro w e h
  constructor
  · intro hunmoved hf
    exact (DownloadWorld.handle_of_finished hf (h.finishedClosed hf) e).2
      ((hunmoved hf).isFinished hf) hf
  · intro hlate hf
    exact (DownloadWorld.handle_of_finished hf (h.finishedClosed hf) e).1 hlate

end HiTuxShare
