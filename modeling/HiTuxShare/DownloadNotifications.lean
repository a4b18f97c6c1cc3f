import HiTuxShare.DownloadEvents
import HiTuxShare.DownloadManager

namespace HiTuxShare
set_option autoImplicit true

namespace DownloadWorld

/-- Histories only grow, and the listener hears of every change of state. -/
structure Announced (w w' : DownloadWorld) : Prop where
  requestedFiles : w'.requestedFiles = w.requestedFiles
  history : ∃ later, w'.history = w.history ++ later ∧
    (w'.state = w.state ∨ w'.state ≠ .idle ∧ .downloadStateChanged w'.state ∈ later)

theorem Announced.trans (h : Announced w w') (h' : Announced w' w'') : Announced w w'' := by
  obtain ⟨later, hh, hs⟩ := h.history
  obtain ⟨later', hh', hs'⟩ := h'.history
  refine ⟨h'.requestedFiles.trans h.requestedFiles, later ++ later', ?_, ?_⟩
  · rw [hh', hh, List.append_assoc]
  · rcases hs' with hs' | ⟨hne, hm⟩
    · rw [hs']
      exact hs.imp_right fun hs => ⟨hs.1, List.mem_append_left _ hs.2⟩
    · exact .inr ⟨hne, List.mem_append_right _ hm⟩

theorem announced_of_history {w w' : DownloadWorld} (hr : w'.requestedFiles = w.requestedFiles)
    (hs : w'.state = w.state) (hh : w'.history = w.history) : Announced w w' :=
  ⟨hr, [], hh.trans (List.append_nil _).symm, .inl hs⟩

theorem Announced.refl (w : DownloadWorld) : Announced w w := announced_of_history rfl rfl rfl

theorem announced_note (w : DownloadWorld) (occurrence : Occurrence) :
    Announced w (w.note occurrence) := ⟨rfl, [occurrence], rfl, .inl rfl⟩

theorem announced_setState (w : DownloadWorld) (hs : state ≠ .idle) :
    Announced w (w.setState state) := by
  rw [setState]
  split
  · exact .refl w
  · exact ⟨rfl, [.downloadStateChanged state], rfl, .inr ⟨hs, List.mem_singleton_self _⟩⟩

theorem announced_fail (w : DownloadWorld) (reason : String) : Announced w (w.fail reason) := by
  have hset : Announced { w with errorText := reason } (w.fail reason) :=
    announced_setState _ (by decide)
  exact ⟨hset.requestedFiles, hset.history⟩

theorem announced_remove (os : OperatingSystem) (w : DownloadWorld) (path : String) :
    Announced w (remove os w path) := by
  rw [remove]
  split
  · exact .refl w
  · exact announced_note ..

theorem announced_discardOutputFile (os : OperatingSystem) (w : DownloadWorld) :
    Announced w (w.discardOutputFile os) := by
  rw [discardOutputFile]
  split
  · exact announced_remove ..
  · exact .refl w

theorem announced_abort (os : OperatingSystem) (w : DownloadWorld) (reason : String) :
    Announced w (w.abort os reason) := by
  rw [abort]
  split
  · exact .refl w
  · have hshut : Announced w (w.note .threadShutDown).closeOutputFile :=
      (announced_note ..).trans (announced_of_history rfl rfl rfl)
    exact hshut.trans ((announced_discardOutputFile ..).trans (announced_fail ..))

theorem announced_finishCurrentFile (os : OperatingSystem) (w : DownloadWorld) :
    Announced w (w.finishCurrentFile os) := by
  have hforget (w : DownloadWorld) : Announced w w.forgetCurrentFile :=
    announced_of_history rfl rfl rfl
  rw [finishCurrentFile]
  split
  · exact .refl w
  · split
    · have hreport : Announced w w.closeOutputFile.reportCompleted :=
        ⟨rfl, [.downloadFileCompleted w.outputPath], rfl, .inl rfl⟩
      exact hreport.trans (hforget _)
    · have hclose : Announced w w.closeOutputFile := announced_of_history rfl rfl rfl
      exact hclose.trans ((announced_remove ..).trans (hforget _))

theorem announced_openOutputFile [MuscleText] (os : OperatingSystem) (w : DownloadWorld)
    (fileName relativePath : String) :
    Announced w (w.openOutputFile os fileName relativePath).1 := by
  rw [openOutputFile]
  split
  · exact .refl w
  · split
    · exact .refl w
    · next candidate _ _ => exact ⟨rfl, [.opened candidate], rfl, .inl rfl⟩

theorem announced_handleFileHeader [MuscleText] (os : OperatingSystem) (w : DownloadWorld)
    (message : TransferMessage) : Announced w (w.handleFileHeader os message) := by
  have hfinish := announced_finishCurrentFile os w
  rw [handleFileHeader]
  split
  · exact hfinish.trans (announced_abort ..)
  · next header _ =>
    have hannounce : Announced w ((w.finishCurrentFile os).announce header message) :=
      ⟨hfinish.requestedFiles, hfinish.history⟩
    have hopen := hannounce.trans (announced_openOutputFile os _ header.fileName
      ((message.findString fieldPath).getD ""))
    split
    · next w' ho =>
      rw [ho] at hopen
      exact hopen.trans (announced_setState _ (by decide))
    · next w' ho =>
      rw [ho] at hopen
      exact hopen.trans (announced_abort ..)

theorem announced_writeChunk (os : OperatingSystem) (w : DownloadWorld) (path : String)
    (bytes : List UInt8) : Announced w (w.writeChunk os path bytes) := by
  have hwrote := announced_note w (.wrote path (os.fwrite bytes))
  rw [writeChunk]
  split
  · exact hwrote.trans (announced_abort ..)
  · have hcount : Announced w
        ((w.note (.wrote path (os.fwrite bytes))).countBytes os bytes.length) :=
      hwrote.trans ⟨rfl, [.downloadProgress], rfl, .inl rfl⟩
    dsimp only
    split
    · exact hcount.trans (announced_finishCurrentFile ..)
    · exact hcount

theorem announced_handleFileData (os : OperatingSystem) (w : DownloadWorld)
    (message : TransferMessage) : Announced w (w.handleFileData os message) := by
  rw [handleFileData]
  split
  · exact .refl w
  · split
    · exact announced_finishCurrentFile ..
    · split
      · split
        · exact announced_writeChunk ..
        · exact announced_abort ..
      · exact announced_abort ..

theorem announced_messageReceived [MuscleText] (os : OperatingSystem) (w : DownloadWorld)
    (message : TransferMessage) : Announced w (w.messageReceived os message) := by
  have hreceived := announced_note w (.received message)
  rw [messageReceived]
  cases message.what with
  | fileHeader => exact hreceived.trans (announced_handleFileHeader ..)
  | fileData => exact hreceived.trans (announced_handleFileData ..)
  | peerId =>
    simp only [peerIdentified]
    split
    · split
      · exact hreceived.trans (announced_of_history rfl rfl rfl)
      · exact hreceived
    · exact hreceived
  | notifyQueued => exact hreceived.trans (announced_setState _ (by decide))
  | rejected => exact hreceived.trans (announced_abort ..)
  | _ => exact hreceived

theorem announced_requestFiles (mungeMode : Int32) (w : DownloadWorld) :
    Announced w (w.requestFiles mungeMode) :=
  (announced_setState _ (by decide)).trans ((announced_note ..).trans (announced_note ..))

theorem announced_hangUp (w : DownloadWorld) : Announced w w.hangUp := by
  have hclose : Announced w w.closeOutputFile := announced_of_history rfl rfl rfl
  refine hclose.trans (announced_setState _ ?_)
  split <;> decide

theorem explainHangUp_frame (w : DownloadWorld) :
    w.explainHangUp.state = w.state ∧ w.explainHangUp.requestedFiles = w.requestedFiles ∧
      w.explainHangUp.history = w.history := by
  rw [explainHangUp]
  split
  · exact ⟨rfl, rfl, rfl⟩
  · exact ⟨rfl, rfl, rfl⟩

theorem of_hangsUp {w : DownloadWorld} (h : w.hangsUp callback = true) :
    w.isFinished = false ∧ w.outputFile = none := by
  cases callback with
  | sessionDisconnected => simpa [hangsUp] using h
  | _ => cases h

theorem untouched_hangUp {w : DownloadWorld} (hclosed : w.outputFile = none) :
    Untouched w w.hangUp := by
  have hclose : w.closeOutputFile = w := by
    obtain ⟨download, history⟩ := w
    exact congrArg (fun outputFile => DownloadWorld.mk { download with outputFile } history)
      hclosed.symm
  rw [hangUp, hclose]
  exact untouched_setState ..

theorem untouched_explainHangUp (w : DownloadWorld) : Untouched w w.explainHangUp := by
  rw [explainHangUp]
  split <;> exact ⟨by constructor <;> rfl, rfl⟩

theorem sessionDisconnected_hangsUp {w : DownloadWorld} (os : OperatingSystem)
    (h : w.hangsUp .sessionDisconnected = true) :
    w.sessionDisconnected os = w.hangUp.explainHangUp := by
  obtain ⟨hf, hclosed⟩ := of_hangsUp h
  rw [sessionDisconnected, if_neg (Bool.eq_false_iff.mp hf), if_neg (not_not.mpr hclosed)]
  rfl

theorem announced_sessionDisconnected (os : OperatingSystem) (w : DownloadWorld) :
    Announced w (w.sessionDisconnected os) := by
  apply sessionDisconnected_cases (P := Announced w)
  · exact .refl w
  · exact announced_abort ..
  · intro hf ho
    rw [sessionDisconnected_hangsUp os (by simp [hangsUp, hf, ho])]
    obtain ⟨hstate, hrequested, hhistory⟩ := explainHangUp_frame w.hangUp
    exact (announced_hangUp w).trans (announced_of_history hrequested hstate hhistory)

theorem announced_handle [MuscleText] (w : DownloadWorld) (e : DownloadEvent) :
    Announced w (w.handle e) := by
  obtain ⟨callback, os⟩ := e
  cases callback with
  | sessionConnected => exact announced_requestFiles ..
  | sessionDisconnected => exact announced_sessionDisconnected ..
  | messageReceived message => exact announced_messageReceived ..
  | abort reason => exact announced_abort ..

theorem announced_connect (os : OperatingSystem) (w : DownloadWorld) (hostName : String)
    (port : Nat) : Announced w (w.connect os hostName port).1 := by
  have hthread : Announced w (w.note .threadStarted).setRatePolicy := by
    rw [setRatePolicy]
    split
    · exact (announced_note ..).trans (announced_note ..)
    · exact announced_note ..
  rw [connect]
  split
  · exact announced_fail ..
  · split
    · exact hthread.trans ((announced_note ..).trans (announced_fail ..))
    · exact hthread.trans ((announced_note ..).trans (announced_setState _ (by decide)))

theorem announced_start (os : OperatingSystem) (w : DownloadWorld) (hostName : String) (port : Nat)
    (remoteSessionId localSessionId localUserName : String) : Announced w
      (w.start os hostName port remoteSessionId localSessionId localUserName).1 := by
  rw [start]
  split
  · exact .refl w
  · split
    · exact announced_fail ..
    · have hconnect := announced_connect os
        { w with remoteSessionId, localSessionId, localUserName } hostName port
      exact ⟨hconnect.requestedFiles, hconnect.history⟩

theorem connect_state_ne_idle (os : OperatingSystem) (w : DownloadWorld) (hostName : String)
    (port : Nat) : (w.connect os hostName port).1.state ≠ .idle := by
  rw [connect]
  split
  · rw [fail_state]
    decide
  · split
    · rw [fail_state]
      decide
    · rw [setState_state]
      decide

/-- A start that has files to ask for leaves no download idle, whether it gets through or not. -/
theorem start_state_ne_idle {w : DownloadWorld} (hne : w.requestedFiles ≠ [])
    (os : OperatingSystem) (hostName : String) (port : Nat)
    (remoteSessionId localSessionId localUserName : String) :
    (w.start os hostName port remoteSessionId localSessionId localUserName).1.state ≠ .idle := by
  rw [start, if_neg hne]
  split
  · rw [fail_state]
    decide
  · apply connect_state_ne_idle

theorem setState_threadStarted (w : DownloadWorld) (state : DownloadState) :
    .threadStarted ∈ (w.setState state).history ↔ .threadStarted ∈ w.history := by
  rw [setState]
  split
  · rfl
  · simp [note]

theorem discardOutputFile_threadStarted (os : OperatingSystem) (w : DownloadWorld) :
    .threadStarted ∈ (w.discardOutputFile os).history ↔ .threadStarted ∈ w.history := by
  rw [discardOutputFile]
  split
  · rw [remove]
    split
    · rfl
    · simp [note]
  · rfl

theorem abort_threadStarted (os : OperatingSystem) (w : DownloadWorld) (reason : String) :
    .threadStarted ∈ (w.abort os reason).history ↔ .threadStarted ∈ w.history := by
  rw [abort]
  split
  · rfl
  · rw [fail, setState_threadStarted]
    change .threadStarted ∈ ((w.note .threadShutDown).closeOutputFile.discardOutputFile os).history
      ↔ _
    rw [discardOutputFile_threadStarted]
    simp [closeOutputFile, note]

theorem abort_isFinished (os : OperatingSystem) (w : DownloadWorld) (reason : String) :
    (w.abort os reason).isFinished = true := by
  cases hf : w.isFinished with
  | true => rwa [abort_of_finished os reason hf]
  | false =>
    rw [abort_toFileDownload os reason hf]
    rfl

end DownloadWorld

end HiTuxShare
