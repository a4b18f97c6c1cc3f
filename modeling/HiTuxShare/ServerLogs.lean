import HiTuxShare.ChatEcho
import HiTuxShare.ConnectedServers
import HiTuxShare.LogFiles

namespace HiTuxShare
set_option autoImplicit true

/-- A line of another user. -/
def ConnectionOccurrence.isRemoteChat : ConnectionOccurrence → Bool
  | .chatMessageReceived type _ _ => type = .remoteUserChatMessage
  | _ => false

/-- Everything else. -/
abbrev ConnectionOccurrence.IsLocal (o : ConnectionOccurrence) : Prop := o.isRemoteChat = false

open ConnectionOccurrence

namespace ConnectionWorld

theorem setConnectionState_local (w : ConnectionWorld) (state : ConnectionState) :
    DoesOnly IsLocal w (w.setConnectionState state) := by
  rw [setConnectionState]
  split
  · exact .refl _ w
  · exact .one rfl rfl

theorem shutdownInternalThread_local (w : ConnectionWorld) :
    DoesOnly IsLocal w w.shutdownInternalThread := by
  rw [shutdownInternalThread]
  split
  · exact .one rfl rfl
  · exact .refl _ w

theorem disconnectFromServer_local (w : ConnectionWorld) :
    DoesOnly IsLocal w w.disconnectFromServer := by
  have hcleared : DoesOnly IsLocal w ({ w.shutdownInternalThread with
      users := .empty
      localSessionId := ""
      hasPublishedIdentity := false
      loginTime := 0
      queryActive := false }.note .queryResultsCleared) :=
    w.shutdownInternalThread_local.trans (.one rfl rfl)
  rw [disconnectFromServer]
  split
  · exact (hcleared.note rfl).trans (setConnectionState_local ..)
  · exact hcleared

theorem dial_local (w : ConnectionWorld) (network : NetworkAnswer) :
    DoesOnly IsLocal w (w.dial network).1 := by
  simp only [dial]
  cases network.startInternalThread with
  | some text => exact .one rfl rfl
  | none =>
    have hstarted : DoesOnly IsLocal w
        ({ w with internalThreadRunning := true }.note .threadStarted) := .one rfl rfl
    cases network.addNewConnectSession with
    | some text => exact (hstarted.trans (shutdownInternalThread_local _)).note rfl
    | none => exact ((hstarted.note rfl).trans (setConnectionState_local ..)).note rfl

theorem connectToServer_local (w : ConnectionWorld) (network : NetworkAnswer)
    (hostName : String) (port : UInt16) :
    DoesOnly IsLocal w (w.connectToServer network hostName port).1 := by
  simp only [connectToServer]
  split
  · exact w.disconnectFromServer_local
  · apply w.disconnectFromServer_local.trans
    apply DoesOnly.trans _ (dial_local _ network)
    exact .of_history_eq _ rfl

theorem stopQuery_local (w : ConnectionWorld) : DoesOnly IsLocal w w.stopQuery := by
  have hstopped : DoesOnly IsLocal w { w with queryActive := false } := .of_history_eq _ rfl
  simp only [stopQuery]
  split
  · exact .refl _ w
  · split
    · exact (((hstopped.note rfl).note rfl).note rfl).note rfl
    · exact (hstopped.note rfl).note rfl

theorem startQuery_local (w : ConnectionWorld) (sessionExpression fileExpression : String) :
    DoesOnly IsLocal w (w.startQuery sessionExpression fileExpression) := by
  simp only [startQuery]
  split
  · exact .refl _ w
  · exact ((w.stopQuery_local.note rfl).note rfl).trans (.one rfl rfl)

/-- The network layer tells the connection something that makes it pass on a line of chat. -/
def bringsChat [MuscleLibrary] (w : ConnectionWorld) (report : NetworkReport) (now : UInt64) :
    Bool :=
  ((w.handle ⟨report.call, {}, now⟩).history.drop w.history.length).any (·.isRemoteChat)

end ConnectionWorld

namespace ChatLogger
variable [MuscleText]

theorem log_isEnabled (logger : ChatLogger) (answer : LogAnswer) (message : ChatMessage) :
    (logger.log answer message).1.isEnabled = logger.isEnabled := by
  rw [log]
  split
  · rfl
  · simp only [ensureFileOpen]
    split
    · rfl
    · split
      · rfl
      · split <;> rfl

theorem isEnabled_of_log {logger : ChatLogger}
    (h : (logger.log answer message).2 = some entry) : logger.isEnabled = true := by
  rw [log] at h
  split at h
  · cases h
  · next hon => exact Bool.eq_true_of_not_eq_false hon

end ChatLogger

namespace ChatWindowWorld

/-- Each line of a remote user is in a file that is named for the server it came from, and no file
has lines from two servers. -/
structure OneFilePerServer [QtWidgets] (w : ChatWindowWorld) : Prop where
  named : ∀ line ∈ w.remoteLines, ∃ directory, ∃ answer : LogAnswer,
    line.entry.path = logPath directory line.serverAddress answer.todaysDate
  apart : ∀ line ∈ w.remoteLines, ∀ line' ∈ w.remoteLines, line.entry.path = line'.entry.path →
    line.serverAddress = line'.serverAddress

/-- The next line of this server belongs where the logger will put it. -/
def ReadyFor [QtWidgets] (w : ChatWindowWorld) (serverAddress : String) : Prop :=
  w.chatLogger.isEnabled = true →
    logName w.chatLogger.serverName = logName serverAddress ∧
      ∀ line ∈ w.remoteLines, logName line.serverAddress = logName serverAddress →
        line.serverAddress = serverAddress

instance [QtWidgets] (w : ChatWindowWorld) (serverAddress : String) :
    Decidable (w.ReadyFor serverAddress) := inferInstanceAs (Decidable (_ → _ ∧ _))

/-- What is needed from step to step. -/
structure LogsWell [QtWidgets] (w : ChatWindowWorld) : Prop extends OneFilePerServer w where
  wellNamed : w.chatLogger.WellNamed

/-- No line of a remote user has been logged in between. -/
structure SameRemote [QtWidgets] (w w' : ChatWindowWorld) : Prop where
  remoteLines : w'.remoteLines = w.remoteLines
  wellNamed : w.chatLogger.WellNamed → w'.chatLogger.WellNamed

/-- Nor has the logger been told anything. -/
structure SameLogger [QtWidgets] (w w' : ChatWindowWorld) : Prop extends SameRemote w w' where
  serverName : w'.chatLogger.serverName = w.chatLogger.serverName
  isEnabled : w'.chatLogger.isEnabled = w.chatLogger.isEnabled

section
variable [QtWidgets]

theorem SameLogger.readyFor (h : SameLogger w w') (hready : w.ReadyFor serverAddress) :
    w'.ReadyFor serverAddress := by
  rw [ReadyFor, h.isEnabled, h.serverName, h.remoteLines]
  exact hready

theorem SameRemote.of_eq {w w' : ChatWindowWorld} (hlines : w'.remoteLines = w.remoteLines)
    (hlogger : w'.chatLogger = w.chatLogger) : SameRemote w w' :=
  ⟨hlines, fun h => hlogger ▸ h⟩

theorem SameLogger.of_eq {w w' : ChatWindowWorld} (hlines : w'.remoteLines = w.remoteLines)
    (hlogger : w'.chatLogger = w.chatLogger) : SameLogger w w' :=
  ⟨.of_eq hlines hlogger, congrArg _ hlogger, congrArg _ hlogger⟩

theorem SameRemote.refl (w : ChatWindowWorld) : SameRemote w w := .of_eq rfl rfl

theorem SameRemote.trans (h : SameRemote w w') (h' : SameRemote w' w'') : SameRemote w w'' :=
  ⟨h'.remoteLines.trans h.remoteLines, fun hnamed => h'.wellNamed (h.wellNamed hnamed)⟩

theorem SameLogger.trans (h : SameLogger w w') (h' : SameLogger w' w'') : SameLogger w w'' :=
  ⟨h.toSameRemote.trans h'.toSameRemote, h'.serverName.trans h.serverName,
    h'.isEnabled.trans h.isEnabled⟩

theorem LogsWell.of_same (h : LogsWell w) (hsame : SameRemote w w') : LogsWell w' := by
  refine ⟨⟨?_, ?_⟩, hsame.wellNamed h.wellNamed⟩
  · rw [hsame.remoteLines]
    exact h.named
  · rw [hsame.remoteLines]
    exact h.apart

theorem setConnections_same (w : ChatWindowWorld) (connections : ConnectionManagerWorld) :
    SameRemote w { w with connections } := .of_eq rfl rfl

theorem appendLocalLine_same (w : ChatWindowWorld) (type : LogMessageType) (text : String) :
    SameLogger w (w.appendLocalLine type text) := .of_eq rfl rfl

theorem populateServerList_same (w : ChatWindowWorld) : SameLogger w w.populateServerList := by
  rw [populateServerList]
  split
  · exact .of_eq rfl rfl
  · exact .of_eq rfl rfl

theorem setFilter_same (w : ChatWindowWorld) (filter : UserFilterSet) (kind : FilterCommand) :
    SameRemote w (w.setFilter filter kind) := by
  cases kind <;> exact .of_eq rfl rfl

theorem localSessionIdAssigned_same (w : ChatWindowWorld) (serverAddress sessionId : String) :
    SameLogger w (w.localSessionIdAssigned serverAddress sessionId) := by
  have hremembered : SameLogger w
      { w with settings := w.settings.rememberServer serverAddress } := .of_eq rfl rfl
  exact (hremembered.trans (populateServerList_same _)).trans (appendLocalLine_same ..)

end

section
variable [QtWidgets] [MuscleText]

theorem log_same {w : ChatWindowWorld} {a : WindowAnswers} {message : ChatMessage}
    {source : Option String} (h : (w.log a message source).remoteLines = w.remoteLines) :
    SameLogger w (w.log a message source) :=
  ⟨⟨h, fun hnamed => hnamed.log _ message⟩, (w.chatLogger.log_names _ message).2,
    w.chatLogger.log_isEnabled _ message⟩

theorem log_none_same (w : ChatWindowWorld) (a : WindowAnswers) (message : ChatMessage) :
    SameLogger w (w.log a message none) := log_same (List.append_nil _)

theorem echo_same (w : ChatWindowWorld) (a : WindowAnswers) (message : ChatMessage) :
    SameLogger w (w.echo a message) := by
  have happended : SameLogger w (w.appendChatMessage message) := .of_eq rfl rfl
  exact happended.trans (log_none_same _ a message)

omit [MuscleText] in
/-- Only lines of the same server share their file with the new one. -/
theorem OneFilePerServer.snoc {w w' : ChatWindowWorld} (h : OneFilePerServer w)
    (hlines : w'.remoteLines = w.remoteLines ++ [line]) {answer : LogAnswer}
    (hpath : line.entry.path = logPath directory line.serverAddress answer.todaysDate)
    (hsame : ∀ line' ∈ w.remoteLines, line'.entry.path = line.entry.path →
      line'.serverAddress = line.serverAddress) : OneFilePerServer w' where
  named := by
    rw [hlines]
    intro line' hm
    rcases List.mem_append.mp hm with hm | hm
    · exact h.named line' hm
    · cases List.mem_singleton.mp hm
      exact ⟨directory, answer, hpath⟩
  apart := by
    rw [hlines]
    intro line₁ hm₁ line₂ hm₂ heq
    rcases List.mem_append.mp hm₁ with hm₁ | hm₁
    · rcases List.mem_append.mp hm₂ with hm₂ | hm₂
      · exact h.apart line₁ hm₁ line₂ hm₂ heq
      · cases List.mem_singleton.mp hm₂
        exact hsame line₁ hm₁ heq
    · cases List.mem_singleton.mp hm₁
      rcases List.mem_append.mp hm₂ with hm₂ | hm₂
      · exact (hsame line₂ hm₂ heq.symm).symm
      · rw [List.mem_singleton.mp hm₂]

omit [MuscleText] in
theorem ReadyFor.snoc {w w' : ChatWindowWorld} (hready : w.ReadyFor serverAddress)
    (hlines : w'.remoteLines = w.remoteLines ++ [⟨serverAddress, entry⟩])
    (hserver : w'.chatLogger.serverName = w.chatLogger.serverName)
    (hon : w'.chatLogger.isEnabled = w.chatLogger.isEnabled) : w'.ReadyFor serverAddress := by
  intro henabled
  obtain ⟨hname, hothers⟩ := hready (hon ▸ henabled)
  rw [hserver, hlines]
  refine ⟨hname, fun line hm => ?_⟩
  rcases List.mem_append.mp hm with hm | hm
  · exact hothers line hm
  · rw [List.mem_singleton.mp hm]
    exact fun _ => rfl

theorem LogsWell.log {w : ChatWindowWorld} (h : LogsWell w) (hready : w.ReadyFor serverAddress)
    (a : WindowAnswers) (message : ChatMessage) :
    LogsWell (w.log a message (some serverAddress)) ∧
      (w.log a message (some serverAddress)).ReadyFor serverAddress := by
  cases hentry : (w.chatLogger.log (a.logging w.logCalls) message).2 with
  | none =>
    have hlines : (w.log a message (some serverAddress)).remoteLines = w.remoteLines := by
      simp only [ChatWindowWorld.log, hentry]
      exact List.append_nil _
    have hsame := log_same hlines
    exact ⟨h.of_same hsame.toSameRemote, hsame.readyFor hready⟩
  | some entry =>
    obtain ⟨hname, hothers⟩ := hready (ChatLogger.isEnabled_of_log hentry)
    have hlines : (w.log a message (some serverAddress)).remoteLines =
        w.remoteLines ++ [⟨serverAddress, entry⟩] := by
      simp only [ChatWindowWorld.log, hentry]
      rfl
    have hpath : entry.path = logPath w.chatLogger.directory serverAddress
        (a.logging w.logCalls).todaysDate := by
      rw [ChatLogger.log_path h.wellNamed hentry, logPath, hname, logPath]
    have hsame : ∀ line ∈ w.remoteLines, line.entry.path = entry.path →
        line.serverAddress = serverAddress := by
      intro line hm heq
      obtain ⟨directory, answer, hline⟩ := h.named line hm
      apply hothers line hm
      exact logName_of_logPath_eq answer.todaysDate_isDateText
        (a.logging w.logCalls).todaysDate_isDateText (hline.symm.trans (heq.trans hpath))
    constructor
    · exact ⟨h.toOneFilePerServer.snoc hlines hpath hsame,
        h.wellNamed.log (a.logging w.logCalls) message⟩
    · exact hready.snoc hlines (w.chatLogger.log_names (a.logging w.logCalls) message).2
        (w.chatLogger.log_isEnabled (a.logging w.logCalls) message)

variable [QtLibrary] [MuscleLibrary] [CaseInsensitivePatterns]

omit [QtLibrary] in
theorem LogsWell.chatMessageReceived {w : ChatWindowWorld} (h : LogsWell w)
    (hready : w.ReadyFor serverAddress) (a : WindowAnswers) (message : ChatMessage)
    (hremote : message.type = .remoteUserChatMessage) :
    LogsWell (w.chatMessageReceived a serverAddress message) ∧
      (w.chatMessageReceived a serverAddress message).ReadyFor serverAddress := by
  simp only [ChatWindowWorld.chatMessageReceived, hremote, true_and]
  split
  · exact ⟨h, hready⟩
  · have happended (message : ChatMessage) : LogsWell (w.appendChatMessage message) :=
      h.of_same (.of_eq rfl rfl)
    rw [if_pos trivial]
    exact (happended _).log hready a _

theorem callback_same (w : ChatWindowWorld) (a : WindowAnswers) (serverAddress : String)
    (ho : o.IsLocal) : SameLogger w (w.callback a serverAddress o) := by
  cases o with
  | localSessionIdAssigned sessionId hostName => exact w.localSessionIdAssigned_same ..
  | userUpdated user isNewUser =>
    rw [callback]
    split
    · exact w.appendLocalLine_same ..
    · exact .of_eq rfl rfl
  | userLeft user => exact w.appendLocalLine_same ..
  | chatMessageReceived type text details =>
    have hlocal : ¬type = .remoteUserChatMessage := of_decide_eq_false ho
    simp only [callback, chatMessageReceived, hlocal, false_and, if_false]
    exact w.echo_same a _
  | _ => exact .of_eq rfl rfl

theorem hear_quiet_same (w : ChatWindowWorld) (a : WindowAnswers) {m : ConnectionManagerWorld}
    (h : ∀ o ∈ w.connections.occurrencesSince m, o.2.IsLocal) : SameRemote w (w.hear a m) := by
  apply List.foldlRecOn (motive := SameRemote w)
  · exact w.setConnections_same m
  · exact fun w' hw' o hm => hw'.trans (w'.callback_same a _ (h o hm)).toSameRemote

theorem hear_same (w : ChatWindowWorld) (a : WindowAnswers) {m : ConnectionManagerWorld}
    (h : w.connections.Grows IsLocal m) : SameRemote w (w.hear a m) :=
  w.hear_quiet_same a h.occurrencesSince

theorem LogsWell.callback {w : ChatWindowWorld} (h : LogsWell w)
    (hready : w.ReadyFor serverAddress) (a : WindowAnswers)
    (hserver : o.isRemoteChat = true → serverAddress' = serverAddress) :
    LogsWell (w.callback a serverAddress' o) ∧
      (w.callback a serverAddress' o).ReadyFor serverAddress := by
  cases hremote : o.isRemoteChat with
  | false =>
    have hsame := w.callback_same a serverAddress' hremote
    exact ⟨h.of_same hsame.toSameRemote, hsame.readyFor hready⟩
  | true =>
    cases hserver hremote
    cases o with
    | chatMessageReceived type text details =>
      exact h.chatMessageReceived hready a _ (of_decide_eq_true hremote)
    | _ => cases hremote

theorem LogsWell.hear {w : ChatWindowWorld} (h : LogsWell w) (a : WindowAnswers)
    {m : ConnectionManagerWorld} (hserver : ∀ o ∈ w.connections.occurrencesSince m,
      o.2.isRemoteChat = true → o.1.world.serverAddress = serverAddress)
    (hready : w.ReadyFor serverAddress) : LogsWell (w.hear a m) := by
  have hheard : LogsWell (w.hear a m) ∧ (w.hear a m).ReadyFor serverAddress := by
    apply List.foldlRecOn (motive := fun w' : ChatWindowWorld =>
      LogsWell w' ∧ w'.ReadyFor serverAddress)
    · exact ⟨h.of_same (w.setConnections_same m), hready⟩
    · rintro w' ⟨hw', hready'⟩ o hm
      exact hw'.callback hready' a (hserver o hm)
  exact hheard.1

omit [MuscleText] [QtLibrary] [CaseInsensitivePatterns] in
theorem pingUser_sameRemote (w : ChatWindowWorld) (a : WindowAnswers) (target : String) :
    SameRemote w (w.pingUser a target) := by
  apply pingUser_induct (P := SameRemote w)
  · exact fun _ => .of_eq rfl rfl
  · exact .refl w
  · exact fun w' user h => h.trans (w'.setConnections_same _)

omit [QtLibrary] [MuscleLibrary] [CaseInsensitivePatterns] in
theorem sendChatToEveryone_sameRemote (w : ChatWindowWorld) (a : WindowAnswers) (text : String)
    (isAction : Bool) : SameRemote w (w.sendChatToEveryone a text isAction) := by
  simp only [sendChatToEveryone]
  split
  · exact .of_eq rfl rfl
  · exact (w.setConnections_same _).trans (echo_same _ a _).toSameRemote

omit [CaseInsensitivePatterns] in
theorem sendPrivateMessage_sameRemote (w : ChatWindowWorld) (a : WindowAnswers)
    (target text : String) : SameRemote w (w.sendPrivateMessage a target text) := by
  apply sendPrivateMessage_induct (P := SameRemote w)
  · exact fun _ => .of_eq rfl rfl
  · exact .refl w
  · intro w' user h
    apply h.trans
    exact (w'.setConnections_same _).trans (echo_same _ a _).toSameRemote

omit [QtLibrary] [MuscleLibrary] [CaseInsensitivePatterns] in
theorem handleFilterCommand_sameRemote (w : ChatWindowWorld) (kind : FilterCommand)
    (argument : String) : SameRemote w (w.handleFilterCommand kind argument) := by
  simp only [handleFilterCommand]
  split
  · exact .of_eq rfl rfl
  · split
    · exact (w.setFilter_same _ kind).trans (appendLocalLine_same ..).toSameRemote
    · exact (w.setFilter_same _ kind).trans (appendLocalLine_same ..).toSameRemote

omit [QtLibrary] [MuscleLibrary] [CaseInsensitivePatterns] [MuscleText] in
theorem changeAliases_sameRemote (w : ChatWindowWorld) (aliases : ChatAliases) (text : String) :
    SameRemote w
      (({ w with aliases }.appendLocalLine .informationMessage text).saveAliases) := by
  have hchanged : SameRemote w { w with aliases } := .of_eq rfl rfl
  have hsaved (w : ChatWindowWorld) : SameRemote w w.saveAliases := .of_eq rfl rfl
  exact (hchanged.trans (appendLocalLine_same ..).toSameRemote).trans (hsaved _)

omit [QtLibrary] [MuscleLibrary] [CaseInsensitivePatterns] in
theorem handleUnaliasCommand_sameRemote (w : ChatWindowWorld) (argument : String) :
    SameRemote w (w.handleUnaliasCommand argument) := by
  simp only [handleUnaliasCommand]
  split
  · exact .of_eq rfl rfl
  · exact w.changeAliases_sameRemote _ _

omit [QtLibrary] [MuscleLibrary] [CaseInsensitivePatterns] in
theorem handleAliasCommand_sameRemote (w : ChatWindowWorld) (target argument : String) :
    SameRemote w (w.handleAliasCommand target argument) := by
  rw [handleAliasCommand, listAliases]
  split
  · split
    · exact .of_eq rfl rfl
    · apply List.foldlRecOn (motive := SameRemote w)
      · exact .of_eq rfl rfl
      · exact fun w' h pair _ => h.trans (.of_eq rfl rfl)
  · split
    · exact .of_eq rfl rfl
    · exact w.changeAliases_sameRemote _ _

theorem addConnection_sameRemote (w : ChatWindowWorld) (a : WindowAnswers)
    (network : NetworkAnswer) (serverAddress : String) (port : UInt16) : SameRemote w
      (w.hear a (w.connections.addConnection network serverAddress port).1) := by
  apply w.hear_same a
  apply ConnectionManagerWorld.addConnection_grows
  exact ConnectionWorld.connectToServer_local ..

theorem connectToConfiguredServer_sameRemote (w : ChatWindowWorld) (a : WindowAnswers) :
    SameRemote w (w.connectToConfiguredServer a) := by
  simp only [connectToConfiguredServer]
  split
  · exact .of_eq rfl rfl
  · split
    · exact .of_eq rfl rfl
    · let w₁ : ChatWindowWorld := { w with
        connections := w.connections.setLocalUserName w.getUserName
        settings := w.settings.rememberUserName w.getUserName }
      have hnamed : SameRemote w w₁ := .of_eq rfl rfl
      exact hnamed.trans (w₁.addConnection_sameRemote a ..)

theorem startQuery_sameRemote (w : ChatWindowWorld) (a : WindowAnswers) :
    SameRemote w (w.startQuery a) := by
  rw [startQuery]
  split
  · exact .of_eq rfl rfl
  · apply w.hear_same a
    apply w.connections.onAll_grows
    intro c
    split
    · exact c.world.startQuery_local ..
    · exact .refl _ _

theorem stopQuery_sameRemote (w : ChatWindowWorld) (a : WindowAnswers) :
    SameRemote w (w.hear a w.connections.stopQueryOnAll) := by
  apply w.hear_same a
  exact w.connections.onAll_grows _ fun c => c.world.stopQuery_local

theorem disconnectAll_sameRemote (w : ChatWindowWorld) (a : WindowAnswers) :
    SameRemote w (w.hear a w.connections.disconnectAll) := by
  apply w.hear_same a
  exact w.connections.onAll_grows _ fun c => c.world.disconnectFromServer_local

omit [MuscleText] [QtLibrary] [MuscleLibrary] [CaseInsensitivePatterns] in
theorem handleNickCommand_sameRemote (w : ChatWindowWorld) (userName : String) :
    SameRemote w (w.handleNickCommand userName) := by
  rw [handleNickCommand]
  split <;> exact .of_eq rfl rfl

theorem handleCommand_sameRemote (w : ChatWindowWorld) (a : WindowAnswers)
    (command : ChatCommand) : SameRemote w (w.handleCommand a command) := by
  rw [handleCommand]
  split
  · exact w.sendChatToEveryone_sameRemote a _ _
  · exact w.sendChatToEveryone_sameRemote a _ _
  · exact w.handleNickCommand_sameRemote _
  · exact .of_eq rfl rfl
  · exact .of_eq rfl rfl
  · split
    · exact .of_eq rfl rfl
    · exact w.sendPrivateMessage_sameRemote a _ _
  · split
    · exact .of_eq rfl rfl
    · exact w.pingUser_sameRemote a _
  · split
    · have hbox : SameRemote w (w.setServerAddressBox command.argument) := .of_eq rfl rfl
      exact hbox.trans (connectToConfiguredServer_sameRemote _ a)
    · exact w.connectToConfiguredServer_sameRemote a
  · exact w.disconnectAll_sameRemote a
  · split
    · have hfield : SameRemote w (w.setQueryField command.argument) := .of_eq rfl rfl
      exact hfield.trans (startQuery_sameRemote _ a)
    · exact w.startQuery_sameRemote a
  · exact w.stopQuery_sameRemote a
  · exact w.handleFilterCommand_sameRemote _ _
  · exact w.handleFilterCommand_sameRemote _ _
  · exact w.handleFilterCommand_sameRemote _ _
  · exact w.handleAliasCommand_sameRemote _ _
  · exact w.handleUnaliasCommand_sameRemote _
  · exact .of_eq rfl rfl
  · exact .of_eq rfl rfl
  · exact .refl w
  · exact .refl w
  · exact .refl w
  · exact .refl w

variable [Environment]

omit [QtLibrary] [MuscleLibrary] [CaseInsensitivePatterns] in
theorem applySettings_sameRemote (w : ChatWindowWorld) : SameRemote w w.applySettings :=
  ⟨rfl, fun h => ((h.setLogDirectory _).setServerName _).setEnabled _⟩

theorem connectAdditionalServer_sameRemote (w : ChatWindowWorld) (a : WindowAnswers)
    (text : String) : SameRemote w (w.connectAdditionalServer a text) := by
  have hsaved (w : ChatWindowWorld) : SameRemote w w.saveExtraServers := .of_eq rfl rfl
  simp only [connectAdditionalServer]
  split
  · exact .refl w
  · split
    · exact .of_eq rfl rfl
    · split
      · exact .of_eq rfl rfl
      · apply (w.addConnection_sameRemote a ..).trans
        exact (applySettings_sameRemote _).trans (hsaved _)

omit [QtLibrary] [MuscleLibrary] [CaseInsensitivePatterns] in
theorem showSettings_sameRemote (w : ChatWindowWorld) (dialog : SettingsDialog) :
    SameRemote w (w.showSettings dialog) := by
  have hsettings (settings : ApplicationSettings) : SameRemote w { w with settings } :=
    .of_eq rfl rfl
  have hsaved (w : ChatWindowWorld) : SameRemote w w.save := .of_eq rfl rfl
  exact ((hsettings _).trans (applySettings_sameRemote _)).trans (hsaved _)

omit [MuscleText] [QtLibrary] [MuscleLibrary] [CaseInsensitivePatterns] [Environment] in
theorem serverListReceived_sameRemote (w : ChatWindowWorld)
    (serversToAdd serversToRemove : List String) :
    SameRemote w (w.serverListReceived serversToAdd serversToRemove) := by
  have hsettings (settings : ApplicationSettings) :
      SameRemote w (save { w with settings }) := .of_eq rfl rfl
  simp only [serverListReceived]
  split
  · exact .of_eq rfl rfl
  · exact ((hsettings _).trans (populateServerList_same _).toSameRemote).trans
      (appendLocalLine_same ..).toSameRemote

omit [MuscleText] [QtLibrary] [MuscleLibrary] [CaseInsensitivePatterns] [Environment] in
theorem statusEdited_sameRemote (w : ChatWindowWorld) (text : String) :
    SameRemote w (w.statusEdited text) := by
  simp only [statusEdited]
  split <;> exact .of_eq rfl rfl

omit [MuscleText] [QtLibrary] [MuscleLibrary] [CaseInsensitivePatterns] [Environment] in
theorem loadSettings_sameRemote (w : ChatWindowWorld) : SameRemote w w.loadSettings := by
  have hlater : SameRemote w.populateServerList w.loadSettings := .of_eq rfl rfl
  exact w.populateServerList_same.toSameRemote.trans hlater

omit [MuscleText] [QtLibrary] [MuscleLibrary] [CaseInsensitivePatterns] [Environment] in
theorem unloaded_sameRemote (w : ChatWindowWorld) : SameRemote w w.unloaded := by
  refine ⟨rfl, fun _ file hfile => ?_⟩
  cases hfile

theorem start_sameRemote (w : ChatWindowWorld) (a : WindowAnswers) : SameRemote w (w.start a) := by
  have hintroduced (w : ChatWindowWorld) :
      SameRemote w (w.introduce a.pseudoRandomNumber) := .of_eq rfl rfl
  have hgreeted (w : ChatWindowWorld) : SameRemote w w.greet := .of_eq rfl rfl
  have hextras (w : ChatWindowWorld) : SameRemote w (w.restoreExtraServers a) := by
    apply List.foldlRecOn (motive := SameRemote w)
    · exact .refl w
    · exact fun w' h serverAddress _ => h.trans (w'.addConnection_sameRemote a ..)
  have hloaded := (w.unloaded_sameRemote.trans (loadSettings_sameRemote _)).trans (hintroduced _)
  have happlied := (hloaded.trans (applySettings_sameRemote _)).trans (hgreeted _)
  rw [start]
  split
  · exact (happlied.trans (hextras _)).trans (connectToConfiguredServer_sameRemote _ a)
  · exact happlied.trans (hextras _)

theorem restart_sameRemote (w : ChatWindowWorld) (a : WindowAnswers) :
    SameRemote w (w.restart a) := by
  have hclosed : SameRemote w w.closeEvent := .of_eq rfl rfl
  exact hclosed.trans (start_sameRemote _ a)

omit [MuscleText] [QtLibrary] [CaseInsensitivePatterns] [Environment] in
/-- What is heard of one connection comes from the server it has been dialled to. -/
theorem networkReported_heard {w : ChatWindowWorld} {a : WindowAnswers} {report : NetworkReport}
    (hc : w.connections.getAt index = some c)
    (h : o ∈ w.connections.occurrencesSince
      (w.connections.onConnection index fun c => c.handle ⟨report.call, {}, a.now⟩)) :
    o.1.world.serverAddress = c.world.serverAddress ∧
      o.2 ∈ (c.world.handle ⟨report.call, {}, a.now⟩).history.drop c.world.history.length := by
  obtain ⟨c', occurrence⟩ := o
  obtain ⟨place, hc', ho⟩ := ConnectionManagerWorld.mem_occurrencesSince.mp h
  have hget := w.connections.getAt_onConnection index place
    fun c => c.handle ⟨report.call, {}, a.now⟩
  rw [ConnectionManagerWorld.getAt, hc'] at hget
  by_cases hplace : index = place
  · subst hplace
    rw [hc, Option.map_some, if_pos rfl] at hget
    cases hget
    rw [ConnectionManagerWorld.historyAt_eq hc] at ho
    exact ⟨c.world.handle_report_serverAddress report a.now, ho⟩
  · simp only [hplace, if_false, Option.map_id'] at hget
    rw [ConnectionManagerWorld.historyAt_eq hget.symm, List.drop_length] at ho
    cases ho

omit [MuscleText] [QtLibrary] [MuscleLibrary] [CaseInsensitivePatterns] [Environment] in
theorem exists_getAt_of_heard {w : ChatWindowWorld} {call : ConnectionWorld → ConnectionWorld}
    (h : o ∈ w.connections.occurrencesSince (w.connections.onConnection index call)) :
    ∃ c, w.connections.getAt index = some c := by
  obtain ⟨c', occurrence⟩ := o
  obtain ⟨place, hc', ho⟩ := ConnectionManagerWorld.mem_occurrencesSince.mp h
  have hget := w.connections.getAt_onConnection index place call
  rw [ConnectionManagerWorld.getAt, hc'] at hget
  by_cases hplace : index = place
  · subst hplace
    cases hc : w.connections.getAt index with
    | none =>
      rw [hc] at hget
      cases hget
    | some c => exact ⟨c, rfl⟩
  · simp only [hplace, if_false, Option.map_id'] at hget
    rw [ConnectionManagerWorld.historyAt_eq hget.symm, List.drop_length] at ho
    cases ho

/-- A connection that passes on a line of a remote user does so while the logger is ready for its
server. -/
def LogsApart (w : ChatWindowWorld) (e : WindowEvent) : Prop :=
  match e.call with
  | .networkReported index report => ∀ c ∈ w.connections.getAt index,
    c.world.bringsChat report e.answers.now = true → w.ReadyFor c.world.serverAddress
  | _ => True

omit [Environment] in
theorem LogsWell.networkReported {w : ChatWindowWorld} (h : LogsWell w) (a : WindowAnswers)
    (index : Nat) (report : NetworkReport)
    (hready : ∀ c ∈ w.connections.getAt index,
      c.world.bringsChat report a.now = true → w.ReadyFor c.world.serverAddress) :
    LogsWell (w.networkReported a index report) := by
  let m := w.connections.onConnection index fun c => c.handle ⟨report.call, {}, a.now⟩
  by_cases hchat : ∃ o ∈ w.connections.occurrencesSince m, o.2.isRemoteChat = true
  · obtain ⟨o, hm, hremote⟩ := hchat
    obtain ⟨c, hc⟩ := exists_getAt_of_heard hm
    have hbrings : c.world.bringsChat report a.now = true :=
      List.any_eq_true.mpr ⟨o.2, (networkReported_heard hc hm).2, hremote⟩
    apply h.hear a _ (hready c hc hbrings)
    exact fun o' hm' _ => (networkReported_heard hc hm').1
  · have hquiet : ∀ o ∈ w.connections.occurrencesSince m, o.2.IsLocal := by
      intro o hm
      exact Bool.eq_false_iff.mpr fun hremote => hchat ⟨o, hm, hremote⟩
    exact h.of_same (w.hear_quiet_same a hquiet)

theorem handle_logsWell {w : ChatWindowWorld} (h : LogsWell w) (e : WindowEvent)
    (hapart : LogsApart w e) : LogsWell (w.handle e) := by
  obtain ⟨call, a⟩ := e
  cases call with
  | networkReported index report => exact h.networkReported a index report hapart
  | handleUserInput input =>
    simp only [handle, handleUserInput]
    exact h.of_same (w.handleCommand_sameRemote a _)
  | connectButtonClicked =>
    simp only [handle, connectButtonClicked]
    split
    · exact h.of_same (w.connectToConfiguredServer_sameRemote a)
    · exact h.of_same (w.disconnectAll_sameRemote a)
  | connectAdditionalServer text => exact h.of_same (w.connectAdditionalServer_sameRemote a text)
  | disconnectAll => exact h.of_same (w.disconnectAll_sameRemote a)
  | queryButtonClicked =>
    simp only [handle, queryButtonClicked]
    split
    · exact h.of_same (w.stopQuery_sameRemote a)
    · exact h.of_same (w.startQuery_sameRemote a)
  | queryFieldReturnPressed => exact h.of_same (w.startQuery_sameRemote a)
  | userStatusEdited text => exact h.of_same (w.statusEdited_sameRemote text)
  | showSettings dialog => exact h.of_same (w.showSettings_sameRemote dialog)
  | serverListReceived serversToAdd serversToRemove =>
    exact h.of_same (w.serverListReceived_sameRemote serversToAdd serversToRemove)
  | sharingCalled call =>
    simp only [handle, sharingCalled]
    split
    · exact h.of_same (w.setConnections_same _)
    · exact h
  | restart => exact h.of_same (w.restart_sameRemote a)
  | _ => exact h.of_same (.of_eq rfl rfl)

theorem new_logsWell (settingsFile : ApplicationSettings) (a : WindowAnswers) :
    LogsWell (new settingsFile a) := by
  have hempty : LogsWell { settings := settingsFile, settingsFile } :=
    ⟨⟨fun _ hm => absurd hm List.not_mem_nil, fun _ hm => absurd hm List.not_mem_nil⟩,
      fun _ hfile => nomatch hfile⟩
  exact hempty.of_same (start_sameRemote _ a)

/-- As long as the logger is ready for each server whose lines come in, no file has lines from two
servers. -/
theorem run_oneFilePerServer (settingsFile : ApplicationSettings) (a : WindowAnswers)
    (h : machine.EveryStep LogsApart (new settingsFile a) es) :
    machine.EveryState OneFilePerServer (new settingsFile a) es := by
  have hwell : machine.EveryState LogsWell (new settingsFile a) es := by
    apply EventMachine.everyState_of_invariant _ (new_logsWell settingsFile a) h
    exact fun w e hw hapart => handle_logsWell hw e hapart
  exact hwell.imp fun w hw => hw.toOneFilePerServer

end

section
attribute [local instance] plainWidgets asciiText plainQt plainLibrary plainPatterns noEnvironment

/-- Chat is logged, and the server is "a". -/
def loggingSettings : ApplicationSettings :=
  let settings : ApplicationSettings := .ofWhat ()
  ((settings.setServerAddress "a").setChatLoggingEnabled true).setLogDirectory "/logs"

/-- The session "2" says something on the server of the connection at that place. -/
def helloOn (index : Nat) : WindowEvent where
  call := .networkReported index (.messageReceived {
    what := .newChatText
    fields := [(fieldSession, .string "2"), (fieldText, .string "hello")] })
  answers := { logging := fun _ => { today := some ⟨2026, 3, 1⟩, timeOfDay := "12:00:00" } }

/-- Two servers, of which both are up and bring a line. -/
def linesOfTwoServers : List WindowEvent := [
  { call := .connectButtonClicked },
  { call := .connectAdditionalServer "b" },
  { call := .networkReported 0 (.sessionConnected "a") },
  { call := .networkReported 1 (.sessionConnected "b") },
  helloOn 0,
  helloOn 1]

theorem run_oneFilePerServer_hello :
    machine.EveryStep LogsApart (new loggingSettings {}) (linesOfTwoServers.take 5) ∧
      machine.EveryState OneFilePerServer (new loggingSettings {}) (linesOfTwoServers.take 5) := by
  have hapart : machine.EveryStep LogsApart (new loggingSettings {})
      (linesOfTwoServers.take 5) := by
    refine ⟨trivial, trivial, ?_, ?_, ?_, trivial⟩
    all_goals
      change ∀ c ∈ ConnectionManagerWorld.getAt _ _, _ → ReadyFor _ _
      decide
  exact ⟨hapart, run_oneFilePerServer loggingSettings {} hapart⟩

/-- Both lines are in the file of "a". -/
theorem two_servers_share_file :
    ¬machine.EveryState OneFilePerServer (new loggingSettings {}) linesOfTwoServers := by
  intro h
  have hlines : (machine.run (new loggingSettings {}) linesOfTwoServers).remoteLines.map
      (fun line => (line.serverAddress, line.entry.path)) =
        [("a", "/logs/a-2026-03-01.log"), ("b", "/logs/a-2026-03-01.log")] := by decide
  obtain ⟨line, rest, hline, hpair, hrest⟩ := List.map_eq_cons_iff.mp hlines
  obtain ⟨line', rest', rfl, hpair', -⟩ := List.map_eq_cons_iff.mp hrest
  have hsame := h.last.apart line (hline ▸ List.mem_cons_self) line'
    (hline ▸ List.mem_cons_of_mem _ List.mem_cons_self)
    ((congrArg Prod.snd hpair).trans (congrArg Prod.snd hpair').symm)
  have hapart : line.serverAddress ≠ line'.serverAddress := by
    rw [show line.serverAddress = "a" from congrArg Prod.fst hpair,
      show line'.serverAddress = "b" from congrArg Prod.fst hpair']
    decide
  exact hapart hsame

end

end ChatWindowWorld

end HiTuxShare
