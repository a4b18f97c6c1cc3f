import HiTuxShare.DownloadBookkeeping
import HiTuxShare.DownloadFiles

namespace HiTuxShare
set_option autoImplicit true

/-- What the disk holds, and which of it the session may still touch. -/
structure Tidy (initial : Files) (w : DownloadWorld) : Prop where
  preexisting : ∀ path content, initial path = some content →
    Files.replay initial w.history path = some content
  removals : OnlyOwnRemoved w.history
  opened : ∀ path, .opened path ∈ w.history → initial path = none
  reported : ∀ path, .downloadFileCompleted path ∈ w.history →
    (Files.replay initial w.history path).isSome = true
  outputPath : w.outputPath ≠ "" →
    .opened w.outputPath ∈ w.history ∧ .downloadFileCompleted w.outputPath ∉ w.history
  outputFile : ∀ path, w.outputFile = some path → w.outputPath = path ∧ path ≠ "" ∧
    (Files.replay initial w.history path).isSome = true
  /-- The two sources `stat` answers from agree with the disk. -/
  stat : ∀ path, ((w.ledger.disk.get? path).isSome || (initial path).isSome) =
    (Files.replay initial w.history path).isSome

/-- The machine as it answers with these files on its disk before the session. -/
def OperatingSystem.withFiles (initial : Files) (os : OperatingSystem) : OperatingSystem :=
  { os with fileExists := fun path => (initial path).isSome }

/-- A callback on that machine. -/
def DownloadEvent.withFiles (initial : Files) (e : DownloadEvent) : DownloadEvent :=
  { e with os := e.os.withFiles initial }

/-- Every file from before is as it was, and nothing was removed but what the session had made
and not delivered. -/
structure NoCollateralDamage (initial : Files) (history : List Occurrence) : Prop where
  preexisting : ∀ path content, initial path = some content →
    Files.replay initial history path = some content
  removals : OnlyOwnRemoved history

namespace Occurrence

theorem step_of_isAside {o : Occurrence} (h : o.isAside = true) (files : Files) :
    files.step o = files := by
  cases o <;> first | rfl | cases h

theorem disk_step_of_isAside {o : Occurrence} (h : o.isAside = true) (l : Ledger) :
    (l.step o).disk = l.disk := by
  cases o with
  | received message => exact (l.receive_frame message).1
  | _ => first | rfl | cases h

end Occurrence

/-- Nothing but an occurrence that is aside has been added. -/
theorem OnlyOwnRemoved.append (h : OnlyOwnRemoved history)
    (hn : ∀ o ∈ notes, o.isAside = true) : OnlyOwnRemoved (history ++ notes) := by
  induction notes using List.reverseRecOn with
  | nil => rwa [List.append_nil]
  | append_singleton notes o ih =>
    rw [← List.append_assoc]
    refine (ih fun o' hm => hn o' (List.mem_append_left _ hm)).snoc ?_
    rintro path rfl
    cases hn _ (List.mem_append_right _ (List.mem_singleton_self _))

theorem replay_append_aside {notes : List Occurrence} (hn : ∀ o ∈ notes, o.isAside = true)
    (initial : Files) (history : List Occurrence) :
    Files.replay initial (history ++ notes) = Files.replay initial history ∧
      (Ledger.replay (history ++ notes)).disk = (Ledger.replay history).disk := by
  induction notes using List.reverseRecOn with
  | nil => simp only [List.append_nil, and_self]
  | append_singleton notes o ih =>
    have ho := hn o (List.mem_append_right _ (List.mem_singleton_self _))
    rw [← List.append_assoc, Files.replay_append, Ledger.replay_append,
      Occurrence.step_of_isAside ho, Occurrence.disk_step_of_isAside ho]
    exact ih fun o' hm => hn o' (List.mem_append_left _ hm)

theorem mem_append_aside {notes : List Occurrence} (hn : ∀ o ∈ notes, o.isAside = true)
    (ho : o.isAside = false) : o ∈ history ++ notes ↔ o ∈ history := by
  refine ⟨fun hm => (List.mem_append.mp hm).resolve_right ?_, List.mem_append_left _⟩
  intro hm
  rw [hn o hm] at ho
  cases ho

namespace Tidy

open DownloadWorld

theorem aside (h : Tidy initial w) (ha : Aside w w') : Tidy initial w' := by
  obtain ⟨notes, hh, hn⟩ := ha.history
  obtain ⟨hfiles, hdisk⟩ := replay_append_aside hn initial w.history
  refine ⟨?_, ?_, ?_, ?_, ?_, ?_, ?_⟩
  · rw [hh, hfiles]
    exact h.preexisting
  · rw [hh]
    exact h.removals.append hn
  · intro path hm
    rw [hh, mem_append_aside hn rfl] at hm
    exact h.opened path hm
  · intro path hm
    rw [hh, mem_append_aside hn rfl] at hm
    rw [hh, hfiles]
    exact h.reported path hm
  · rw [hh, ha.outputPath, mem_append_aside hn rfl, mem_append_aside hn rfl]
    exact h.outputPath
  · rw [hh, hfiles, ha.outputFile, ha.outputPath]
    exact h.outputFile
  · intro path
    rw [DownloadWorld.ledger, hh, hfiles, hdisk]
    exact h.stat path

theorem close (h : Tidy initial w) : Tidy initial w.closeOutputFile :=
  ⟨h.preexisting, h.removals, h.opened, h.reported, h.outputPath, fun path ho => (by cases ho),
    h.stat⟩

theorem forget (h : Tidy initial w) (hclosed : w.outputFile = none) :
    Tidy initial w.forgetCurrentFile := by
  refine ⟨h.preexisting, h.removals, h.opened, h.reported, fun hp => (hp rfl).elim, ?_, h.stat⟩
  intro path ho
  rw [show w.outputFile = some path from ho] at hclosed
  cases hclosed

theorem initial_outputPath (h : Tidy initial w) (hp : w.outputPath ≠ "") :
    initial w.outputPath = none := h.opened _ (h.outputPath hp).1

theorem discard (h : Tidy initial w) (hclosed : w.outputFile = none) (hp : w.outputPath ≠ "") :
    Tidy initial (w.note (.removed w.outputPath)) := by
  have hown := h.outputPath hp
  have hinit := h.initial_outputPath hp
  refine ⟨?_, ?_, ?_, ?_, ?_, ?_, ?_⟩
  · intro path content hi
    have hne : path ≠ w.outputPath := by
      rintro rfl
      rw [hinit] at hi
      cases hi
    rw [note, Files.replay_append, Files.step_removed_of_ne _ hne]
    exact h.preexisting path content hi
  · apply h.removals.snoc
    rintro path ⟨⟩
    exact hown
  · intro path hm
    exact h.opened path (by simpa [note] using hm)
  · intro path hm
    have hm' : .downloadFileCompleted path ∈ w.history := by simpa [note] using hm
    have hne : path ≠ w.outputPath := by
      rintro rfl
      exact hown.2 hm'
    rw [note, Files.replay_append, Files.step_removed_of_ne _ hne]
    exact h.reported path hm'
  · intro _
    simpa [note] using hown
  · intro path ho
    rw [show w.outputFile = some path from ho] at hclosed
    cases hclosed
  · intro path
    rw [note_ledger, Ledger.step, Ledger.discard, Hashtable.get?_remove, note,
      Files.replay_append]
    by_cases hpath : path = w.outputPath
    · subst hpath
      simp [Files.step, hinit]
    · rw [if_neg hpath, Files.step_removed_of_ne _ hpath]
      exact h.stat path

/-- Reporting a file gives up the path it was written under. -/
theorem complete (h : Tidy initial w) (ho : w.outputFile = some path) :
    Tidy initial w.closeOutputFile.reportCompleted.forgetCurrentFile := by
  obtain ⟨rfl, hne, hsome⟩ := h.outputFile path ho
  have hfiles : Files.replay initial w.closeOutputFile.reportCompleted.history =
      Files.replay initial w.history := Files.replay_append ..
  refine ⟨?_, ?_, ?_, ?_, fun hp => (hp rfl).elim, fun path ho => (by cases ho), ?_⟩
  · intro path content hi
    exact (congrFun hfiles path).trans (h.preexisting path content hi)
  · apply h.removals.snoc
    intro path hr
    cases hr
  · intro path hm
    apply h.opened path
    simpa [forgetCurrentFile, reportCompleted, closeOutputFile, note] using hm
  · intro path hm
    change (Files.replay initial w.closeOutputFile.reportCompleted.history path).isSome = true
    rw [hfiles]
    rcases List.mem_append.mp hm with hm | hm
    · exact h.reported path hm
    · cases List.mem_singleton.mp hm
      exact hsome
  · intro path
    change (_ || _) = (Files.replay initial w.closeOutputFile.reportCompleted.history path).isSome
    rw [forgetCurrentFile_ledger, reportCompleted_ledger, hfiles]
    exact h.stat path

theorem pathExists (h : Tidy initial w) (os : OperatingSystem) (path : String) :
    w.pathExists (os.withFiles initial) path = (Files.replay initial w.history path).isSome :=
  h.stat path

theorem of_free (h : Tidy initial w) (hfree : Files.replay initial w.history path = none) :
    initial path = none ∧ .downloadFileCompleted path ∉ w.history := by
  constructor
  · by_contra hi
    obtain ⟨content, hc⟩ := Option.ne_none_iff_exists'.mp hi
    rw [h.preexisting path content hc] at hfree
    cases hfree
  · intro hm
    have hsome := h.reported path hm
    rw [hfree] at hsome
    cases hsome

theorem openFile (h : Tidy initial w) (hne : path ≠ "")
    (hfree : Files.replay initial w.history path = none) :
    Tidy initial ({ w with outputFile := some path, outputPath := path }.note (.opened path)) := by
  obtain ⟨hinit, hunreported⟩ := h.of_free hfree
  refine ⟨?_, ?_, ?_, ?_, ?_, ?_, ?_⟩
  · intro path' content hi
    have hpath : path' ≠ path := by
      rintro rfl
      rw [hinit] at hi
      cases hi
    rw [note, Files.replay_append, Files.step_opened_of_ne _ hpath]
    exact h.preexisting path' content hi
  · apply h.removals.snoc
    intro path' hr
    cases hr
  · intro path' hm
    rcases List.mem_append.mp hm with hm | hm
    · exact h.opened path' hm
    · cases List.mem_singleton.mp hm
      exact hinit
  · intro path' hm
    have hm' : .downloadFileCompleted path' ∈ w.history := by simpa [note] using hm
    have hpath : path' ≠ path := by
      rintro rfl
      exact hunreported hm'
    rw [note, Files.replay_append, Files.step_opened_of_ne _ hpath]
    exact h.reported path' hm'
  · intro _
    simpa [note] using hunreported
  · intro path' ho
    cases ho
    refine ⟨rfl, hne, ?_⟩
    rw [note, Files.replay_append, Files.step, Function.update_self]
    rfl
  · intro path'
    rw [note_ledger, note, Files.replay_append]
    by_cases hpath : path' = path
    · subst hpath
      simp [Files.step, Ledger.step]
    · rw [Files.step_opened_of_ne _ hpath, Ledger.step, Hashtable.get?_put_of_ne _ _ hpath]
      exact h.stat path'

theorem append_isSome (l : Ledger) (path : String) (bytes : List UInt8) (path' : String) :
    ((l.append path bytes).disk.get? path').isSome = (l.disk.get? path').isSome := by
  rw [Ledger.append]
  split
  · next file hd =>
    by_cases hpath : path' = path
    · subst hpath
      rw [Hashtable.get?_put_self, hd]
      rfl
    · rw [Hashtable.get?_put_of_ne _ _ hpath]
  · rfl

theorem write (h : Tidy initial w) (ho : w.outputFile = some path) (bytes : List UInt8) :
    Tidy initial (w.note (.wrote path bytes)) := by
  obtain ⟨rfl, hne, -⟩ := h.outputFile path ho
  have hinit := h.initial_outputPath hne
  have hsome (path : String) : (Files.replay initial (w.note (.wrote w.outputPath bytes)).history
      path).isSome = (Files.replay initial w.history path).isSome := by
    rw [note, Files.replay_append, Files.step_wrote_isSome]
  refine ⟨?_, ?_, ?_, ?_, ?_, ?_, ?_⟩
  · intro path content hi
    have hpath : path ≠ w.outputPath := by
      rintro rfl
      rw [hinit] at hi
      cases hi
    rw [note, Files.replay_append, Files.step_wrote_of_ne _ _ hpath]
    exact h.preexisting path content hi
  · apply h.removals.snoc
    intro path hr
    cases hr
  · intro path hm
    exact h.opened path (by simpa [note] using hm)
  · intro path hm
    rw [hsome]
    exact h.reported path (by simpa [note] using hm)
  · intro hp
    simpa [note] using h.outputPath hp
  · intro path hf
    rw [hsome]
    exact h.outputFile path hf
  · intro path
    rw [hsome, note_ledger, Ledger.step, append_isSome]
    exact h.stat path

theorem remove (h : Tidy initial w) (hclosed : w.outputFile = none) (hp : w.outputPath ≠ "")
    (os : OperatingSystem) : Tidy initial (w.remove os w.outputPath) := by
  rw [DownloadWorld.remove]
  split
  · exact h
  · exact h.discard hclosed hp

theorem abort (h : Tidy initial w) (os : OperatingSystem) (reason : String) :
    Tidy initial (w.abort os reason) := by
  have hclosed := (h.aside (aside_note w .threadShutDown rfl)).close
  rw [DownloadWorld.abort]
  split
  · exact h
  · refine aside ?_ (aside_fail ..)
    rw [discardOutputFile]
    split
    · next hp => exact hclosed.remove rfl hp os
    · exact hclosed

theorem finishCurrentFile (h : Tidy initial w) (os : OperatingSystem) :
    Tidy initial (w.finishCurrentFile os) := by
  rw [DownloadWorld.finishCurrentFile]
  split
  · exact h
  · next path ho =>
    split
    · exact h.complete ho
    · obtain ⟨rfl, hne, -⟩ := h.outputFile path ho
      have hremoved := h.close.remove rfl hne os
      apply hremoved.forget
      rw [remove_toFileDownload]
      rfl

theorem handleFileHeader [MuscleText] (h : Tidy initial w) (os : OperatingSystem)
    (message : TransferMessage) :
    Tidy initial (w.handleFileHeader (os.withFiles initial) message) := by
  have hfinish := h.finishCurrentFile (os.withFiles initial)
  cases hr : readFileHeader message with
  | none =>
    rw [handleFileHeader_malformed _ w hr]
    exact hfinish.abort ..
  | some header =>
    have hann : Tidy initial
        ((w.finishCurrentFile (os.withFiles initial)).announce header message) :=
      hfinish.aside (aside_of_history rfl rfl rfl)
    cases ho : w.openedBy (os.withFiles initial) header message with
    | none =>
      rw [handleFileHeader_refused hr ho]
      exact hann.abort ..
    | some path =>
      have hunused := (outputPathFor_eq_some (Option.filter_eq_some_iff.mp ho).1).2
      have hfree := (unusedPath_eq_some hunused).1
      rw [hann.pathExists, Option.isSome_eq_false_iff, Option.isNone_iff_eq_none] at hfree
      simp only [DownloadWorld.handleFileHeader, hr, openOutputFile_of_some ho]
      exact (hann.openFile (unusedPath_ne_empty hunused) hfree).aside (aside_setState ..)

theorem writeChunk (h : Tidy initial w) (ho : w.outputFile = some path) (os : OperatingSystem)
    (bytes : List UInt8) : Tidy initial (w.writeChunk os path bytes) := by
  by_cases ht : (os.fwrite bytes).length = bytes.length
  · have hwrote : Tidy initial (w.wroteChunk os path bytes) := by
      have hcounted := (h.write ho bytes).aside (aside_note _ .downloadProgress rfl)
      exact hcounted.aside (aside_of_history rfl rfl rfl)
    rw [writeChunk_taken ht]
    split
    · exact hwrote.finishCurrentFile os
    · exact hwrote
  · rw [writeChunk_refused ht]
    exact (h.write ho _).abort os _

theorem handleFileData (h : Tidy initial w) (os : OperatingSystem) (message : TransferMessage) :
    Tidy initial (w.handleFileData os message) := by
  rw [DownloadWorld.handleFileData]
  split
  · exact h
  · next path ho =>
    split
    · exact h.finishCurrentFile os
    · split
      · split
        · exact h.writeChunk ho os _
        · exact h.abort os _
      · exact h.abort os _

theorem messageReceived [MuscleText] (h : Tidy initial w) (os : OperatingSystem)
    (message : TransferMessage) :
    Tidy initial (w.messageReceived (os.withFiles initial) message) := by
  have hr := h.aside (aside_note w (.received message) rfl)
  rcases message_cases message with hw | hw | hw | hw
  · rw [messageReceived_header _ w hw]
    exact hr.handleFileHeader os message
  · rw [messageReceived_data _ w hw]
    exact hr.handleFileData _ message
  · rw [messageReceived_rejected _ w hw]
    exact hr.abort ..
  · exact h.aside (aside_chatter _ w hw)

theorem sessionDisconnected (h : Tidy initial w) (os : OperatingSystem) :
    Tidy initial (w.sessionDisconnected os) := by
  rw [DownloadWorld.sessionDisconnected]
  split
  · exact h
  · split
    · exact h.abort ..
    · have hset (state : DownloadState) := h.close.aside (aside_setState w.closeOutputFile state)
      generalize (if 0 < w.completedFileCount then DownloadState.finished else .failed) = state
      dsimp only
      split
      · exact (hset state).aside (aside_of_history rfl rfl rfl)
      · exact hset state

theorem handle [MuscleText] (h : Tidy initial w) (e : DownloadEvent) :
    Tidy initial (w.handle (e.withFiles initial)) := by
  obtain ⟨callback, os⟩ := e
  cases callback with
  | sessionConnected => exact h.aside (aside_requestFiles ..)
  | sessionDisconnected => exact h.sessionDisconnected _
  | messageReceived message => exact h.messageReceived os message
  | abort reason => exact h.abort ..

end Tidy

theorem tidy_started (initial : Files) (request : DownloadRequest) (os : OperatingSystem) :
    Tidy initial (request.started os) := by
  have hfresh := newDownload_isFresh request
  have hnew : Tidy initial { request.newDownload with history := [] } := by
    refine ⟨fun path content hi => hi, ?_, ?_, ?_, fun hp => (hp hfresh.outputPath).elim, ?_,
      fun path => rfl⟩
    · intro before path after he
      cases before <;> cases he
    · intro path hm
      cases hm
    · intro path hm
      cases hm
    · intro path ho
      rw [hfresh.outputFile] at ho
      cases ho
  exact hnew.aside (DownloadWorld.aside_start ..)

theorem Tidy.run [MuscleText] (h : Tidy initial w) (es : List DownloadEvent) :
    Tidy initial (DownloadWorld.machine.run w (es.map (DownloadEvent.withFiles initial))) := by
  induction es generalizing w with
  | nil => exact h
  | cons e es ih => exact ih (h.handle e)

/-- Whatever the peer sends and whenever the session ends, it harms no file but its own. -/
theorem no_collateral_damage [MuscleText] (initial : Files) (request : DownloadRequest)
    (os : OperatingSystem) (es : List DownloadEvent) : NoCollateralDamage initial
      (DownloadWorld.machine.run (request.started os)
        (es.map (DownloadEvent.withFiles initial))).history :=
  have h := (tidy_started initial request os).run es
  ⟨h.preexisting, h.removals⟩

end HiTuxShare
