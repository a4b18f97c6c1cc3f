import HiTuxShare.DownloadEvents

namespace HiTuxShare
set_option autoImplicit true

def Occurrence.isMessage : Occurrence → Bool
  | .received _ => true
  | .sent _ => true
  | _ => false

def Occurrence.sent? : Occurrence → Option TransferMessage
  | .sent message => some message
  | _ => none

namespace DownloadWorld

/-- What went over the connection, both ways. -/
def messages (w : DownloadWorld) : List Occurrence := w.history.filter Occurrence.isMessage

def sentMessages (w : DownloadWorld) : List TransferMessage :=
  w.messages.filterMap Occurrence.sent?

theorem messages_note (w : DownloadWorld) (h : occurrence.isMessage = true) :
    (w.note occurrence).messages = w.messages ++ [occurrence] := by
  rw [messages, note, List.filter_append, List.filter_cons_of_pos h]
  rfl

theorem messages_note_quiet (w : DownloadWorld) (h : occurrence.isMessage = false) :
    (w.note occurrence).messages = w.messages := by
  rw [messages, note, List.filter_append, List.filter_cons_of_neg (by simp [h])]
  exact List.append_nil _

@[simp] theorem setState_messages (w : DownloadWorld) (state : DownloadState) :
    (w.setState state).messages = w.messages := by
  rw [setState]
  split
  · rfl
  · exact messages_note_quiet _ rfl

@[simp] theorem remove_messages (os : OperatingSystem) (w : DownloadWorld) (path : String) :
    (remove os w path).messages = w.messages := by
  rw [remove]
  split
  · rfl
  · exact messages_note_quiet _ rfl

@[simp] theorem fail_messages (w : DownloadWorld) (reason : String) :
    (w.fail reason).messages = w.messages := setState_messages ..

@[simp] theorem abort_messages (os : OperatingSystem) (w : DownloadWorld) (reason : String) :
    (w.abort os reason).messages = w.messages := by
  have hdown : (w.note .threadShutDown).closeOutputFile.messages = w.messages :=
    messages_note_quiet w rfl
  rw [abort]
  split
  · rfl
  · rw [fail_messages, discardOutputFile]
    split
    · rw [remove_messages, hdown]
    · exact hdown

@[simp] theorem finishCurrentFile_messages (os : OperatingSystem) (w : DownloadWorld) :
    (w.finishCurrentFile os).messages = w.messages := by
  rw [finishCurrentFile]
  split
  · rfl
  · split
    · exact messages_note_quiet _ rfl
    · exact remove_messages os w.closeOutputFile w.outputPath

@[simp] theorem handleFileHeader_messages [MuscleText] (os : OperatingSystem) (w : DownloadWorld)
    (message : TransferMessage) : (w.handleFileHeader os message).messages = w.messages := by
  cases hr : readFileHeader message with
  | none => rw [handleFileHeader_malformed os w hr, abort_messages, finishCurrentFile_messages]
  | some header =>
    have hann : ((w.finishCurrentFile os).announce header message).messages = w.messages :=
      finishCurrentFile_messages os w
    cases ho : w.openedBy os header message with
    | none => rw [handleFileHeader_refused hr ho, abort_messages, hann]
    | some path =>
      simp only [handleFileHeader, hr, openOutputFile_of_some ho, setState_messages]
      exact (messages_note_quiet _ rfl).trans hann

theorem writeChunk_messages (os : OperatingSystem) (w : DownloadWorld) (path : String)
    (bytes : List UInt8) : (w.writeChunk os path bytes).messages = w.messages := by
  have hwrote : (w.note (.wrote path (os.fwrite bytes))).messages = w.messages :=
    messages_note_quiet _ rfl
  have hcount : ((w.note (.wrote path (os.fwrite bytes))).countBytes os bytes.length).messages =
      w.messages := (messages_note_quiet _ rfl).trans hwrote
  rw [writeChunk]
  simp only
  split
  · rw [abort_messages, hwrote]
  · split
    · rw [finishCurrentFile_messages, hcount]
    · exact hcount

@[simp] theorem handleFileData_messages (os : OperatingSystem) (w : DownloadWorld)
    (message : TransferMessage) : (w.handleFileData os message).messages = w.messages := by
  rw [handleFileData]
  split
  · rfl
  · split
    · exact finishCurrentFile_messages ..
    · split
      · split
        · exact writeChunk_messages ..
        · exact abort_messages ..
      · exact abort_messages ..

theorem messageReceived_messages [MuscleText] (os : OperatingSystem) (w : DownloadWorld)
    (message : TransferMessage) :
    (w.messageReceived os message).messages = w.messages ++ [.received message] := by
  have hr : (w.note (.received message)).messages = w.messages ++ [.received message] :=
    messages_note _ rfl
  rw [messageReceived]
  split
  · rw [handleFileHeader_messages, hr]
  · rw [handleFileData_messages, hr]
  · rw [peerIdentified]
    split
    · split <;> exact hr
    · exact hr
  · rw [setState_messages, hr]
  · rw [abort_messages, hr]
  · exact hr

theorem setRatePolicy_messages (w : DownloadWorld) : w.setRatePolicy.messages = w.messages := by
  rw [setRatePolicy]
  split
  · exact messages_note_quiet _ rfl
  · rfl

theorem start_messages (os : OperatingSystem) (w : DownloadWorld) (hostName : String) (port : Nat)
    (remoteSessionId localSessionId localUserName : String) :
    (w.start os hostName port remoteSessionId localSessionId localUserName).1.messages =
      w.messages := by
  have hthread (w : DownloadWorld) : (w.note .threadStarted).setRatePolicy.messages = w.messages :=
    (setRatePolicy_messages _).trans (messages_note_quiet w rfl)
  rw [start]
  split
  · rfl
  · split
    · exact fail_messages ..
    · rw [connect]
      split
      · exact fail_messages ..
      · split
        · exact (fail_messages ..).trans ((messages_note_quiet _ rfl).trans (hthread _))
        · exact (setState_messages ..).trans ((messages_note_quiet _ rfl).trans (hthread _))

theorem requestFiles_messages (mungeMode : Int32) (w : DownloadWorld) :
    (w.requestFiles mungeMode).messages = w.messages ++
      [.sent (peerIdentity (w.setState .requesting).toFileDownload),
        .sent (fileList mungeMode (w.setState .requesting).toFileDownload)] := by
  rw [requestFiles]
  rw [messages_note _ rfl, messages_note _ rfl, setState_messages, List.append_assoc]
  rfl

end DownloadWorld

end HiTuxShare
