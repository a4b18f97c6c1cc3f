import HiTuxShare.DownloadManager

namespace HiTuxShare
set_option autoImplicit true

/-- The text of an error of the messaging library is never empty. -/
structure OperatingSystem.NamesErrors (os : OperatingSystem) : Prop where
  startInternalThread : os.startInternalThread ≠ some ""
  addNewConnectSession : os.addNewConnectSession ≠ some ""

/-- A download whose listener asks for the error text whenever it hears of a failure. -/
structure ListenedDownload extends DownloadWorld where
  failureTexts : List String := []

inductive ListenedCall where
  | start (hostName : String) (port : Nat)
      (remoteSessionId localSessionId localUserName : String)
  | callback (callback : DownloadCallback)

structure ListenedEvent where
  call : ListenedCall
  os : OperatingSystem := {}

theorem DownloadWorld.rejectionReason_ne_empty (message : TransferMessage) :
    rejectionReason message ≠ "" := by
  rw [rejectionReason]
  split
  · split
    · simp
    · decide
  · decide

namespace ListenedDownload

open DownloadWorld (rejectionReason peerIdentity fileList)

/-- What the listener does not hear of. -/
def silently (l : ListenedDownload) (call : DownloadWorld → DownloadWorld) : ListenedDownload :=
  { l with toDownloadWorld := call l.toDownloadWorld }

def setState (l : ListenedDownload) (state : DownloadState) : ListenedDownload :=
  if state = l.state then l
  else
    { l with
      toDownloadWorld := l.toDownloadWorld.setState state
      failureTexts :=
        if state = .failed then l.failureTexts ++ [l.errorText] else l.failureTexts }

def fail (l : ListenedDownload) (reason : String) : ListenedDownload :=
  { l with errorText := reason }.setState .failed

def abort (os : OperatingSystem) (l : ListenedDownload) (reason : String) : ListenedDownload :=
  if l.isFinished then l
  else
    (l.silently fun w => (w.note .threadShutDown).closeOutputFile.discardOutputFile os).fail reason

def handleFileHeader [MuscleText] (os : OperatingSystem) (l : ListenedDownload)
    (message : TransferMessage) : ListenedDownload :=
  let l := l.silently (DownloadWorld.finishCurrentFile os)
  match readFileHeader message with
  | none => l.abort os "Peer sent a malformed file header"
  | some header =>
    match (l.announce header message).openOutputFile os header.fileName
        ((message.findString fieldPath).getD "") with
    | (w, true) => (l.silently fun _ => w).setState .transferring
    | (w, false) =>
      (l.silently fun _ => w).abort os ("Could not create a file for " ++ header.fileName)

def writeChunk (os : OperatingSystem) (l : ListenedDownload) (path : String)
    (bytes : List UInt8) : ListenedDownload :=
  let l := l.silently fun w => w.note (.wrote path (os.fwrite bytes))
  if (os.fwrite bytes).length ≠ bytes.length then l.abort os "Could not write to disk"
  else
    let l := l.silently fun w => w.countBytes os bytes.length
    if 0 ≤ l.currentFileSize ∧ l.currentFileSize ≤ l.currentFileBytesDone then
      l.silently (DownloadWorld.finishCurrentFile os)
    else l

def handleFileData (os : OperatingSystem) (l : ListenedDownload) (message : TransferMessage) :
    ListenedDownload :=
  match l.outputFile with
  | none => l
  | some path =>
    match message.findData fieldData with
    | none => l.silently (DownloadWorld.finishCurrentFile os)
    | some data =>
      if passesChecksum message data then
        match unmunge message data with
        | some bytes => l.writeChunk os path bytes
        | none => l.abort os "Peer used a data encoding we do not understand"
      else l.abort os "Checksum mismatch -- the data arrived corrupted"

def messageReceived [MuscleText] (os : OperatingSystem) (l : ListenedDownload)
    (message : TransferMessage) : ListenedDownload :=
  let l := l.silently fun w => w.note (.received message)
  match message.what with
  | .fileHeader => l.handleFileHeader os message
  | .fileData => l.handleFileData os message
  | .peerId => l.silently fun w => w.peerIdentified message
  | .notifyQueued => l.setState .queuedRemotely
  | .rejected => l.abort os (rejectionReason message)
  | _ => l

def sessionConnected (l : ListenedDownload) : ListenedDownload :=
  (l.setState .requesting).silently fun w =>
    (w.note (.sent (peerIdentity w.toFileDownload))).note
      (.sent (fileList mungeModeXor w.toFileDownload))

def sessionDisconnected (os : OperatingSystem) (l : ListenedDownload) : ListenedDownload :=
  if l.isFinished then l
  else if l.outputFile ≠ none then l.abort os "Peer disconnected during transfer"
  else
    ((l.silently DownloadWorld.closeOutputFile).setState
      (if 0 < l.completedFileCount then .finished else .failed)).silently
        DownloadWorld.explainHangUp

def connect (os : OperatingSystem) (l : ListenedDownload) (hostName : String) (port : Nat) :
    ListenedDownload :=
  match os.startInternalThread with
  | some text => l.fail text
  | none =>
    let l := l.silently fun w => (w.note .threadStarted).setRatePolicy
    match os.addNewConnectSession with
    | some text => (l.silently fun w => w.note .threadShutDown).fail text
    | none =>
      (l.silently fun w => w.note (.connectSessionAdded hostName port)).setState .connecting

def start (os : OperatingSystem) (l : ListenedDownload) (hostName : String) (port : Nat)
    (remoteSessionId localSessionId localUserName : String) : ListenedDownload :=
  if l.requestedFiles = [] then l
  else if hostName = "" ∨ port = 0 then l.fail "Peer is not accepting connections"
  else connect os { l with remoteSessionId, localSessionId, localUserName } hostName port

def handle [MuscleText] (l : ListenedDownload) (e : ListenedEvent) : ListenedDownload :=
  match e.call with
  | .start hostName port remoteSessionId localSessionId localUserName =>
    l.start e.os hostName port remoteSessionId localSessionId localUserName
  | .callback .sessionConnected => l.sessionConnected
  | .callback .sessionDisconnected => l.sessionDisconnected e.os
  | .callback (.messageReceived message) => l.messageReceived e.os message
  | .callback (.abort reason) => l.abort e.os reason

def machine [MuscleText] : EventMachine ListenedDownload ListenedEvent := ⟨handle⟩

section

theorem setState_toDownloadWorld (l : ListenedDownload) (state : DownloadState) :
    (l.setState state).toDownloadWorld = l.toDownloadWorld.setState state := by
  rw [setState, DownloadWorld.setState]
  split <;> rfl

theorem fail_toDownloadWorld (l : ListenedDownload) (reason : String) :
    (l.fail reason).toDownloadWorld = l.toDownloadWorld.fail reason := setState_toDownloadWorld ..

theorem abort_toDownloadWorld (os : OperatingSystem) (l : ListenedDownload) (reason : String) :
    (l.abort os reason).toDownloadWorld = l.toDownloadWorld.abort os reason := by
  rw [abort, DownloadWorld.abort]
  split
  · rfl
  · exact fail_toDownloadWorld ..

theorem handleFileHeader_toDownloadWorld [MuscleText] (os : OperatingSystem)
    (l : ListenedDownload) (message : TransferMessage) :
    (l.handleFileHeader os message).toDownloadWorld =
      l.toDownloadWorld.handleFileHeader os message := by
  rw [handleFileHeader, DownloadWorld.handleFileHeader]
  cases readFileHeader message with
  | none => exact abort_toDownloadWorld ..
  | some header =>
    dsimp only [silently]
    cases ((l.toDownloadWorld.finishCurrentFile os).announce header message).openOutputFile os
      header.fileName ((message.findString fieldPath).getD "") with
    | mk w opened =>
      cases opened with
      | true => exact setState_toDownloadWorld ..
      | false => exact abort_toDownloadWorld ..

theorem writeChunk_toDownloadWorld (os : OperatingSystem) (l : ListenedDownload) (path : String)
    (bytes : List UInt8) :
    (l.writeChunk os path bytes).toDownloadWorld = l.toDownloadWorld.writeChunk os path bytes := by
  rw [writeChunk, DownloadWorld.writeChunk]
  split
  · exact abort_toDownloadWorld ..
  · dsimp only
    split
    · next hfull => exact (if_pos hfull).symm
    · next hmore => exact (if_neg hmore).symm

theorem handleFileData_toDownloadWorld (os : OperatingSystem) (l : ListenedDownload)
    (message : TransferMessage) : (l.handleFileData os message).toDownloadWorld =
      l.toDownloadWorld.handleFileData os message := by
  rw [handleFileData, DownloadWorld.handleFileData]
  cases l.outputFile with
  | none => rfl
  | some path =>
    cases message.findData fieldData with
    | none => rfl
    | some data =>
      dsimp only
      split
      · cases unmunge message data with
        | none => exact abort_toDownloadWorld ..
        | some bytes => exact writeChunk_toDownloadWorld ..
      · exact abort_toDownloadWorld ..

theorem messageReceived_toDownloadWorld [MuscleText] (os : OperatingSystem)
    (l : ListenedDownload) (message : TransferMessage) :
    (l.messageReceived os message).toDownloadWorld =
      l.toDownloadWorld.messageReceived os message := by
  rw [messageReceived, DownloadWorld.messageReceived]
  cases message.what with
  | fileHeader => exact handleFileHeader_toDownloadWorld ..
  | fileData => exact handleFileData_toDownloadWorld ..
  | notifyQueued => exact setState_toDownloadWorld ..
  | rejected => exact abort_toDownloadWorld ..
  | _ => rfl

theorem sessionConnected_toDownloadWorld (l : ListenedDownload) :
    l.sessionConnected.toDownloadWorld = l.toDownloadWorld.sessionConnected := by
  simp only [sessionConnected, silently, setState_toDownloadWorld]
  rfl

theorem sessionDisconnected_toDownloadWorld (os : OperatingSystem) (l : ListenedDownload) :
    (l.sessionDisconnected os).toDownloadWorld = l.toDownloadWorld.sessionDisconnected os := by
  rw [sessionDisconnected, DownloadWorld.sessionDisconnected]
  split
  · rfl
  · split
    · exact abort_toDownloadWorld ..
    · exact congrArg DownloadWorld.explainHangUp (setState_toDownloadWorld ..)

theorem connect_toDownloadWorld (os : OperatingSystem) (l : ListenedDownload) (hostName : String)
    (port : Nat) : (l.connect os hostName port).toDownloadWorld =
      (l.toDownloadWorld.connect os hostName port).1 := by
  rw [connect, DownloadWorld.connect]
  cases os.startInternalThread with
  | some text => exact fail_toDownloadWorld ..
  | none =>
    cases os.addNewConnectSession with
    | some text => exact fail_toDownloadWorld ..
    | none => exact setState_toDownloadWorld ..

theorem start_toDownloadWorld (os : OperatingSystem) (l : ListenedDownload) (hostName : String)
    (port : Nat) (remoteSessionId localSessionId localUserName : String) :
    (l.start os hostName port remoteSessionId localSessionId localUserName).toDownloadWorld =
      (l.toDownloadWorld.start os hostName port remoteSessionId localSessionId
        localUserName).1 := by
  rw [start, DownloadWorld.start]
  split
  · rfl
  · split
    · exact fail_toDownloadWorld ..
    · exact connect_toDownloadWorld ..

theorem handle_toDownloadWorld [MuscleText] (l : ListenedDownload) (e : ListenedEvent) :
    (l.handle e).toDownloadWorld = match e.call with
      | .start hostName port remoteSessionId localSessionId localUserName =>
        (l.toDownloadWorld.start e.os hostName port remoteSessionId localSessionId
          localUserName).1
      | .callback callback => l.toDownloadWorld.handle ⟨callback, e.os⟩ := by
  obtain ⟨call, os⟩ := e
  cases call with
  | start => exact start_toDownloadWorld ..
  | callback callback =>
    cases callback with
    | sessionConnected => exact l.sessionConnected_toDownloadWorld
    | sessionDisconnected => exact sessionDisconnected_toDownloadWorld os l
    | messageReceived message => exact messageReceived_toDownloadWorld os l message
    | abort reason => exact abort_toDownloadWorld os l reason

/-- Whenever the listener heard of a failure there was a text for it. -/
def Explains (l : ListenedDownload) : Prop := "" ∉ l.failureTexts

/-- The peer does not hang up on a download that has no file yet and nothing to say about it; and
whoever aborts one says why. -/
def IsExplained (l : ListenedDownload) (e : ListenedEvent) : Prop :=
  match e.call with
  | .callback .sessionDisconnected => ¬(l.isFinished = false ∧ l.outputFile = none ∧
      l.completedFileCount = 0 ∧ l.errorText = "")
  | .callback (.abort reason) => l.isFinished = true ∨ reason ≠ ""
  | _ => True

theorem setState_explains {l : ListenedDownload} (h : Explains l) :
    Explains (l.setState state) ↔ (state = .failed → l.state ≠ .failed → l.errorText ≠ "") := by
  rw [setState]
  by_cases hsame : state = l.state
  · rw [if_pos hsame]
    exact iff_of_true h fun hfailed hnew => absurd (hsame.symm.trans hfailed) hnew
  · rw [if_neg hsame]
    by_cases hfailed : state = .failed
    · have hnew : l.state ≠ .failed := fun hs => hsame (hfailed.trans hs.symm)
      simp only [Explains, hfailed, if_true, List.mem_append, List.mem_singleton, not_or]
      exact ⟨fun ht _ _ he => ht.2 he.symm, fun ht => ⟨h, fun he => ht trivial hnew he.symm⟩⟩
    · simp only [Explains, if_neg hfailed]
      exact iff_of_true h fun hf => absurd hf hfailed

theorem fail_explains_iff {l : ListenedDownload} (h : Explains l) :
    Explains (l.fail reason) ↔ (l.state ≠ .failed → reason ≠ "") := by
  have hsaid : Explains { l with errorText := reason } := h
  rw [fail, setState_explains hsaid]
  exact ⟨fun ht => ht rfl, fun ht _ => ht⟩

theorem abort_explains_iff {l : ListenedDownload} (os : OperatingSystem) (h : Explains l) :
    Explains (l.abort os reason) ↔ l.isFinished = true ∨ reason ≠ "" := by
  rw [abort]
  by_cases hf : l.isFinished = true
  · rw [if_pos hf]
    exact iff_of_true h (.inl hf)
  · rw [if_neg hf]
    let shut := l.silently fun w => (w.note .threadShutDown).closeOutputFile.discardOutputFile os
    have hrecord : shut.toFileDownload = { l.toFileDownload with outputFile := none } :=
      DownloadWorld.discardOutputFile_toFileDownload ..
    have hrunning : shut.state ≠ .failed := by
      rw [hrecord]
      intro hfailed
      exact hf (by rw [FileDownload.isFinished, hfailed]; rfl)
    have hshut : Explains shut := h
    rw [fail_explains_iff hshut]
    exact ⟨fun ht => .inr (ht hrunning), fun ht _ => ht.resolve_left hf⟩

theorem abort_explains {l : ListenedDownload} (os : OperatingSystem) (h : Explains l)
    (hreason : reason ≠ "") : Explains (l.abort os reason) :=
  (abort_explains_iff os h).mpr (.inr hreason)

theorem fail_explains {l : ListenedDownload} (h : Explains l) (hreason : reason ≠ "") :
    Explains (l.fail reason) := (fail_explains_iff h).mpr fun _ => hreason

theorem setState_explains_of_ne {l : ListenedDownload} (h : Explains l) (hs : state ≠ .failed) :
    Explains (l.setState state) := (setState_explains h).mpr fun hf => absurd hf hs

theorem handleFileHeader_explains [MuscleText] {l : ListenedDownload} (os : OperatingSystem)
    (h : Explains l) (message : TransferMessage) : Explains (l.handleFileHeader os message) := by
  simp only [handleFileHeader]
  split
  · exact abort_explains os h (by decide)
  · split
    · exact setState_explains_of_ne h (by decide)
    · exact abort_explains os h (by simp)

theorem handleFileData_explains {l : ListenedDownload} (os : OperatingSystem) (h : Explains l)
    (message : TransferMessage) : Explains (l.handleFileData os message) := by
  rw [handleFileData]
  split
  · exact h
  · split
    · exact h
    · split
      · split
        · simp only [writeChunk]
          split
          · exact abort_explains os h (by decide)
          · split
            · exact h
            · exact h
        · exact abort_explains os h (by decide)
      · exact abort_explains os h (by decide)

theorem messageReceived_explains [MuscleText] {l : ListenedDownload} (os : OperatingSystem)
    (h : Explains l) (message : TransferMessage) : Explains (l.messageReceived os message) := by
  have hreceived : Explains (l.silently fun w => w.note (.received message)) := h
  simp only [messageReceived]
  split
  · exact handleFileHeader_explains os hreceived message
  · exact handleFileData_explains os hreceived message
  · exact h
  · exact setState_explains_of_ne hreceived (by decide)
  · exact abort_explains os hreceived (DownloadWorld.rejectionReason_ne_empty message)
  · exact h

theorem start_explains {l : ListenedDownload} {os : OperatingSystem} (h : Explains l)
    (hos : os.NamesErrors) (hostName : String) (port : Nat)
    (remoteSessionId localSessionId localUserName : String) :
    Explains (l.start os hostName port remoteSessionId localSessionId localUserName) := by
  rw [start]
  split
  · exact h
  · split
    · exact fail_explains h (by decide)
    · have hseeded : Explains { l with remoteSessionId, localSessionId, localUserName } := h
      rw [connect]
      split
      · next text htext =>
        exact fail_explains hseeded fun he => hos.startInternalThread (he ▸ htext)
      · dsimp only
        split
        · next text htext =>
          exact fail_explains h fun he => hos.addNewConnectSession (he ▸ htext)
        · exact setState_explains_of_ne h (by decide)

/-- The text comes too late when nothing was said before. -/
theorem sessionDisconnected_explains_iff {l : ListenedDownload} (os : OperatingSystem)
    (h : Explains l) : Explains (l.sessionDisconnected os) ↔
      ¬(l.isFinished = false ∧ l.outputFile = none ∧ l.completedFileCount = 0 ∧
        l.errorText = "") := by
  rw [sessionDisconnected]
  by_cases hf : l.isFinished = true
  · rw [if_pos hf]
    exact iff_of_true h fun hsilent => absurd (hf.symm.trans hsilent.1) (by decide)
  · rw [if_neg hf]
    by_cases ho : l.outputFile = none
    · rw [if_neg (not_not.mpr ho)]
      have hclosed : Explains (l.silently DownloadWorld.closeOutputFile) := h
      have hrunning : l.state ≠ .failed := by
        intro hfailed
        exact hf (by rw [FileDownload.isFinished, hfailed]; rfl)
      apply (setState_explains hclosed).trans
      by_cases hcount : l.completedFileCount = 0
      · have hnone : ¬0 < l.completedFileCount := by
          rw [hcount]
          decide
        rw [if_neg hnone]
        constructor
        · exact fun ht hsilent => ht rfl hrunning hsilent.2.2.2
        · exact fun ht _ _ htext => ht ⟨Bool.eq_false_iff.mpr hf, ho, hcount, htext⟩
      · have hsome : 0 < l.completedFileCount := UInt32.pos_iff_ne_zero.mpr hcount
        rw [if_pos hsome]
        exact iff_of_true (fun hfailed => absurd hfailed (by decide))
          fun hsilent => hcount hsilent.2.2.1
    · rw [if_pos ho]
      exact iff_of_true (abort_explains os h (by decide)) fun hsilent => ho hsilent.2.1

theorem handle_explains_iff [MuscleText] {l : ListenedDownload} {e : ListenedEvent}
    (h : Explains l) (hos : e.os.NamesErrors) : Explains (l.handle e) ↔ IsExplained l e := by
  obtain ⟨call, os⟩ := e
  cases call with
  | start hostName port remoteSessionId localSessionId localUserName =>
    apply iff_of_true _ trivial
    exact start_explains h hos hostName port remoteSessionId localSessionId localUserName
  | callback callback =>
    cases callback with
    | sessionConnected => exact iff_of_true (setState_explains_of_ne h (by decide)) trivial
    | sessionDisconnected => exact sessionDisconnected_explains_iff os h
    | messageReceived message => exact iff_of_true (messageReceived_explains os h message) trivial
    | abort reason => exact abort_explains_iff os h

/-- Whatever a download has been through: from now on every failure has a text when the listener
hears of it, exactly if no peer hangs up on a download that has nothing to show for it. -/
theorem explains_iff [MuscleText] (download : FileDownload) {es : List ListenedEvent}
    (hos : ∀ e ∈ es, e.os.NamesErrors) :
    machine.EveryState Explains { download with history := [] } es ↔
      machine.EveryStep IsExplained { download with history := [] } es := by
  apply EventMachine.everyState_iff_everyStep_of_kind _ _ hos
  · exact fun l e hos h => handle_explains_iff h hos
  · exact List.not_mem_nil

end

section
attribute [local instance] asciiText

def oneFileRequested : FileDownload where
  downloadDirectory := "/downloads"
  requestedFiles := [⟨"notes.txt", "", 10⟩]

theorem quiet_namesErrors : OperatingSystem.NamesErrors {} :=
  ⟨(Option.some_ne_none "").symm, (Option.some_ne_none "").symm⟩

/-- The peer refuses. -/
def refusal : List ListenedEvent := [
  { call := .start "peer" 7000 "2" "1" "binky" },
  { call := .callback .sessionConnected },
  { call := .callback (.messageReceived { what := .rejected, fields := [] }) }]

theorem explains_refusal :
    machine.EveryState Explains { oneFileRequested with history := [] } refusal := by
  apply (explains_iff oneFileRequested _).mpr
  · exact ⟨trivial, trivial, trivial, trivial⟩
  · simp only [refusal, List.forall_mem_cons]
    exact ⟨quiet_namesErrors, quiet_namesErrors, quiet_namesErrors, List.forall_mem_nil _⟩

/-- The peer hangs up at once. -/
def hangUpAtOnce : List ListenedEvent := [
  { call := .start "peer" 7000 "2" "1" "binky" },
  { call := .callback .sessionConnected },
  { call := .callback .sessionDisconnected }]

theorem hang_up_is_not_explained :
    ¬machine.EveryState Explains { oneFileRequested with history := [] } hangUpAtOnce := by
  intro h
  have htexts : (machine.run { oneFileRequested with history := [] } hangUpAtOnce).failureTexts =
      [""] := by decide
  exact h.last (htexts ▸ List.mem_singleton_self "")

end

end ListenedDownload

end HiTuxShare
