import HiTuxShare.HostedNodes
import HiTuxShare.PublishedBatches

namespace HiTuxShare
set_option autoImplicit true

/-- The message that takes our files away. -/
def cleanUpMessage : ServerMessage := { toMessage := .ofWhat .removeData, keys := [allFileNodes] }

/-- The message that asks for the nodes of every user. -/
def subscribeMessage : ServerMessage :=
  { toMessage := (Message.ofWhat .setParameters).addBool subscribeAll true }

/-- What a query of ours subscribes to is a file. -/
def isQueryPath (name : String) : Bool :=
  startsWith name "SUBSCRIBE:/*/" &&
    ["/beshare/files/", "/beshare/fi*/"].any fun directory => directory.toList <:+: name.toList

namespace ServerMessage

/-- Files are asked for, and nothing else. -/
def isQuery (message : ServerMessage) : Bool :=
  message.fields.all fun field => isQueryPath field.1

/-- A message as our clients send them. One for other clients is addressed to somebody. -/
def isOurs (message : ServerMessage) : Bool :=
  match message.what with
  | .getParameters | .setData | .removeData | .ping | .noop => true
  | .setParameters => message = subscribeMessage || message.isQuery
  | .removeParameters => message.keys = [querySubscriptions]
  | .jettisonResults => message.keys = [queryResults]
  | .newChatText | .clientPing | .clientPong => !message.keys.isEmpty
  | _ => false

theorem isOurs_of_isQuery {message : ServerMessage} (hwhat : message.what = .setParameters)
    (h : message.isQuery = true) : message.isOurs = true := by
  rw [isOurs, hwhat, h, Bool.or_true]

theorem isQuery_addBool (h : isQueryPath subscription = true) : ServerMessage.isQuery
    { toMessage := (Message.ofWhat .setParameters).addBool subscription true } = true := by
  rw [isQuery, List.all_eq_true]
  intro field hm
  rw [List.mem_singleton.mp hm]
  exact h

theorem hasName_of_isQuery {message : ServerMessage} (h : message.isQuery = true) :
    message.hasName subscribeAll = false := by
  rw [Message.hasName, List.any_eq_false]
  intro field hm hname
  have hpath := List.all_eq_true.mp h field hm
  rw [of_decide_eq_true hname] at hpath
  exact absurd hpath (by decide)

end ServerMessage

namespace ConnectionOccurrence

def saysOurs : ConnectionOccurrence → Bool
  | .sent message => message.isOurs
  | _ => true

def isIdle : ConnectionOccurrence → Bool
  | .sent message =>
    message.isOurs &&
      match message.what with
      | .setData | .removeData => false
      | .setParameters => message.isQuery
      | _ => true
  | .chatMessageReceived type _ _ => type ≠ .remoteUserChatMessage
  | _ => true

/-- Nothing is said of our own nodes, the users are not asked for, nothing but a query is taken
back, and no line of chat is heard. -/
abbrev IsIdle (o : ConnectionOccurrence) : Prop := o.isIdle = true

/-- No nodes are set, and none removed. -/
structure LeavesNodes (o : ConnectionOccurrence) : Prop where
  ours : o.saysOurs = true
  sets_nothing : ∀ message, o = .sent message → message.what ≠ .setData
  removes_nothing : ∀ message, o = .sent message → message.what ≠ .removeData

theorem leavesNodes_sent {message : ServerMessage} (ho : message.isOurs = true)
    (hs : message.what ≠ .setData) (hr : message.what ≠ .removeData) :
    LeavesNodes (.sent message) where
  ours := ho
  sets_nothing := by
    rintro _ ⟨⟩
    exact hs
  removes_nothing := by
    rintro _ ⟨⟩
    exact hr

theorem IsIdle.saysOurs {o : ConnectionOccurrence} (h : o.IsIdle) : o.saysOurs = true := by
  cases o with
  | sent message => exact (Bool.and_eq_true_iff.mp h).1
  | _ => rfl

theorem IsIdle.leavesNodes {o : ConnectionOccurrence} (h : o.IsIdle) : o.LeavesNodes := by
  constructor
  · exact h.saysOurs
  · rintro message rfl hwhat
    simp [IsIdle, isIdle, hwhat] at h
  · rintro message rfl hwhat
    simp [IsIdle, isIdle, hwhat] at h

end ConnectionOccurrence

open ConnectionOccurrence

/-- All that a call says to the server of who we are and what we share. -/
inductive ClientStep (w : ConnectionWorld) (e : ServerConnectionEvent) : ConnectionWorld → Prop
  | idles (hidle : DoesOnly IsIdle w w')
      (hsame : w'.isConnected = true → w'.identity = w.identity) : ClientStep w e w'
  | saysName (he : w.endsSession e = false) (hc : w.isConnected = true)
      (h : w'.history = w.history ++ [.sent (setDataMessage [(nodeName, w'.nameNode)])])
      (hsame : w'.localUserStatus = w.localUserStatus) : ClientStep w e w'
  | saysStatus (he : w.endsSession e = false) (hc : w.isConnected = true)
      (h : w'.history = w.history ++ [.sent (setDataMessage [(nodeUserStatus, w'.userStatusNode)])])
      (hsame : w'.nameNode = w.nameNode) : ClientStep w e w'
  | saysCount (he : w.endsSession e = false) (hc : w.isConnected = true)
      (h : w'.history = w.history ++
        [.sent (setDataMessage [(nodeFileCount, fileCountNode fileCount)])])
      (hsame : w'.identity = w.identity) : ClientStep w e w'
  | shares (he : e.call = .publishSharedFiles files) (hc : w.isConnected = true)
      {groups : List (List (String × NodeMessage))}
      (h : w'.history = w.history ++ groups.map fun nodes => .sent (setDataMessage nodes))
      (hgroups : groups.flatten = files.map w.sharedFileNode)
      (hsame : w'.identity = w.identity) : ClientStep w e w'
  | cleansUp (he : w.endsSession e = false) (hc : w.isConnected = true)
      (h : w'.history = w.history ++ [.sent cleanUpMessage])
      (hsame : w'.identity = w.identity) : ClientStep w e w'
  | hearsLine (he : e.call = .messageReceived message) (hwhat : message.what = .newChatText)
      (hrunning : w.internalThreadRunning = true) : ClientStep w e (w.handleChatText message)
  | logsIn (he : e.call = .sessionConnected connectedTo) (h : w.internalThreadRunning = true) :
      ClientStep w e (w.sessionConnected e.now connectedTo)

/-- Who we are changes under a connection only by a call that publishes it. -/
def ConnectionWorld.KeepsInstallId (w : ConnectionWorld) (e : ServerConnectionEvent) : Prop :=
  ∀ installId, e.call = .setInstallId installId →
    w.isConnected = false ∨ installId = w.installId

theorem ServerConnection.nameNode_of_identity {c c' : ServerConnection}
    (h : c'.identity = c.identity) : c'.nameNode = c.nameNode := by
  simp only [identity, LocalIdentity.mk.injEq] at h
  rw [nameNode, nameNode, h.1, h.2.2.1, h.2.2.2]

theorem ServerConnection.userStatusNode_of_identity {c c' : ServerConnection}
    (h : c'.identity = c.identity) : c'.userStatusNode = c.userStatusNode := by
  simp only [identity, LocalIdentity.mk.injEq] at h
  rw [userStatusNode, userStatusNode, h.2.1]

/-- Whatever ends a connection is not said to the server. -/
theorem ClientStep.offline {w w' : ConnectionWorld} (h : DoesOnly IsIdle w w')
    (hoff : w'.isConnected = false) : ClientStep w e w' :=
  .idles h fun hc => absurd (hoff.symm.trans hc) Bool.false_ne_true

namespace ConnectionWorld

theorem setConnectionState_idle (w : ConnectionWorld) (state : ConnectionState) :
    DoesOnly IsIdle w (w.setConnectionState state) := by
  rw [setConnectionState]
  split
  · exact .refl _ w
  · exact .one rfl rfl

theorem shutdownInternalThread_idle (w : ConnectionWorld) :
    DoesOnly IsIdle w w.shutdownInternalThread := by
  rw [shutdownInternalThread]
  split
  · exact .one rfl rfl
  · exact .refl _ w

theorem disconnectFromServer_idle (w : ConnectionWorld) :
    DoesOnly IsIdle w w.disconnectFromServer := by
  have hcleared : DoesOnly IsIdle w ({ w.shutdownInternalThread with
      users := .empty
      localSessionId := ""
      hasPublishedIdentity := false
      loginTime := 0
      queryActive := false }.note .queryResultsCleared) :=
    w.shutdownInternalThread_idle.trans (.one rfl rfl)
  rw [disconnectFromServer]
  split
  · exact (hcleared.note rfl).trans (setConnectionState_idle ..)
  · exact hcleared

theorem dial_idle (w : ConnectionWorld) (network : NetworkAnswer) :
    DoesOnly IsIdle w (w.dial network).1 := by
  simp only [dial]
  cases network.startInternalThread with
  | some text => exact .one rfl rfl
  | none =>
    have hstarted : DoesOnly IsIdle w ({ w with internalThreadRunning := true }.note
        .threadStarted) := .one rfl rfl
    cases network.addNewConnectSession with
    | some text => exact (hstarted.trans (shutdownInternalThread_idle _)).note rfl
    | none => exact ((hstarted.note rfl).trans (setConnectionState_idle ..)).note rfl

theorem connectToServer_idle (w : ConnectionWorld) (network : NetworkAnswer)
    (hostName : String) (port : UInt16) :
    DoesOnly IsIdle w (w.connectToServer network hostName port).1 := by
  simp only [connectToServer]
  split
  · exact w.disconnectFromServer_idle
  · apply w.disconnectFromServer_idle.trans
    apply DoesOnly.trans _ (dial_idle _ network)
    exact .of_history_eq _ rfl

theorem sessionDisconnected_idle (w : ConnectionWorld) :
    DoesOnly IsIdle w w.sessionDisconnected := by
  apply DoesOnly.trans _ (setConnectionState_idle ..)
  exact .one rfl rfl

theorem sessionDetached_idle (w : ConnectionWorld) : DoesOnly IsIdle w w.sessionDetached := by
  rw [sessionDetached]
  split
  · apply DoesOnly.trans _ (setConnectionState_idle ..)
    exact .of_history_eq _ rfl
  · exact .refl _ w

theorem deliver_idle (w : ConnectionWorld) {callback : ConnectionWorld → ConnectionWorld}
    (h : DoesOnly IsIdle w (callback w)) : DoesOnly IsIdle w (w.deliver callback) := by
  rw [deliver]
  split
  · exact h
  · exact .refl _ w

/-- What happens without a word, to a connection that stays who it is. -/
def IdlesAsIs (w w' : ConnectionWorld) : Prop := DoesOnly IsIdle w w' ∧ w'.identity = w.identity

theorem IdlesAsIs.refl (w : ConnectionWorld) : IdlesAsIs w w := ⟨.refl _ w, rfl⟩

theorem IdlesAsIs.note {w w' : ConnectionWorld} (h : IdlesAsIs w w') (ho : IsIdle o) :
    IdlesAsIs w (w'.note o) := ⟨h.1.note ho, h.2⟩

theorem IdlesAsIs.step {w w' : ConnectionWorld} (h : IdlesAsIs w w') : ClientStep w e w' :=
  .idles h.1 fun _ => h.2

theorem stopQuery_idles (w : ConnectionWorld) : IdlesAsIs w w.stopQuery := by
  have hstopped : IdlesAsIs w { w with queryActive := false } := ⟨.of_history_eq _ rfl, rfl⟩
  simp only [stopQuery]
  split
  · exact .refl w
  · split
    · exact (((hstopped.note rfl).note rfl).note rfl).note rfl
    · exact (hstopped.note rfl).note rfl

/-- A query names its files by the server's root and their directory. -/
theorem isQueryPath_makeQuerySubscriptionPath (sessionExpression fileExpression : String)
    (isFirewalled : Bool) :
    isQueryPath (makeQuerySubscriptionPath sessionExpression fileExpression isFirewalled) =
      true := by
  have hpath : makeQuerySubscriptionPath sessionExpression fileExpression isFirewalled =
    "SUBSCRIBE:/*/" ++ sessionExpression ++ "/beshare/" ++
      (if isFirewalled then "files/" else "fi*/") ++ fileExpression := rfl
  have hstart : startsWith (makeQuerySubscriptionPath sessionExpression fileExpression
      isFirewalled) "SUBSCRIBE:/*/" = true := by
    rw [hpath, String.append_assoc, String.append_assoc, String.append_assoc]
    exact startsWith_append ..
  rw [isQueryPath, hstart, Bool.true_and, List.any_eq_true]
  cases isFirewalled with
  | true =>
    refine ⟨"/beshare/files/", List.mem_cons_self, decide_eq_true ?_⟩
    exact ⟨("SUBSCRIBE:/*/" ++ sessionExpression).toList, fileExpression.toList, by simp [hpath]⟩
  | false =>
    refine ⟨"/beshare/fi*/", List.mem_cons_of_mem _ List.mem_cons_self, decide_eq_true ?_⟩
    exact ⟨("SUBSCRIBE:/*/" ++ sessionExpression).toList, fileExpression.toList, by simp [hpath]⟩

theorem isIdle_setParameters (h : isQueryPath subscription = true) : IsIdle (.sent
    { toMessage := (Message.ofWhat .setParameters).addBool subscription true }) := by
  have hquery := ServerMessage.isQuery_addBool h
  exact Bool.and_eq_true_iff.mpr ⟨ServerMessage.isOurs_of_isQuery rfl hquery, hquery⟩

theorem startQuery_idles (w : ConnectionWorld) (sessionExpression fileExpression : String) :
    IdlesAsIs w (w.startQuery sessionExpression fileExpression) := by
  simp only [startQuery]
  split
  · exact .refl w
  · have hstopped := w.stopQuery_idles
    refine ⟨?_, hstopped.2⟩
    refine .trans (.note (.note hstopped.1 ?_) rfl) (.one rfl rfl)
    exact isIdle_setParameters (isQueryPath_makeQuerySubscriptionPath ..)

/-- What a login says, after what it says to us. -/
theorem sessionConnected_says (w : ConnectionWorld) (now : UInt64) (connectedTo : String) :
    ∃ quiet : List ConnectionOccurrence, (∀ o ∈ quiet, IsIdle o) ∧
      (w.sessionConnected now connectedTo).history = w.history ++ (quiet ++
        [.sent (setDataMessage [(nodeName, w.nameNode)]),
          .sent (setDataMessage [(nodeUserStatus, w.userStatusNode)]), .sent subscribeMessage,
          .sent { toMessage := .ofWhat .getParameters }]) := by
  refine ⟨(if .connected = w.connectionState then []
      else [.connectionStateChanged .connected]) ++
        [.chatMessageReceived .informationMessage ("Connected to " ++ connectedTo ++ ".")],
    fun o hm => ?_, ?_⟩
  · rcases List.mem_append.mp hm with hm | hm
    · split at hm
      · cases hm
      · rw [List.mem_singleton.mp hm]
        rfl
    · rw [List.mem_singleton.mp hm]
      rfl
  · rw [sessionConnected_history, List.append_assoc]
    rfl

theorem unpublishAllSharedFiles_step (w : ConnectionWorld) (he : w.endsSession e = false) :
    ClientStep w e w.unpublishAllSharedFiles := by
  by_cases hc : w.isConnected = true
  · apply ClientStep.cleansUp he hc
    · rw [unpublishAllSharedFiles_history, if_pos hc]
      rfl
    · rw [unpublishAllSharedFiles_toServerConnection]
      rfl
  · apply IdlesAsIs.step
    constructor
    · apply DoesOnly.of_history_eq
      rw [unpublishAllSharedFiles_history, if_neg hc, List.append_nil]
    · rw [unpublishAllSharedFiles_toServerConnection]
      rfl

variable [MuscleLibrary]

theorem messageReceived_idles (w : ConnectionWorld) (now : UInt64) {message : ServerMessage}
    (h : message.what ≠ .newChatText) : IdlesAsIs w (w.messageReceived now message) := by
  rw [messageReceived]
  split
  · apply handleDataItems_of_effect (I := IdlesAsIs w) _ (.refl w)
    intro nodePath _ w₁ w₂ heffect hidle
    cases heffect with
    | nothing => exact hidle
    | _ => exact ⟨hidle.1.trans (.one rfl rfl), hidle.2⟩
  · rw [handleParameters]
    split
    · exact ⟨.one rfl rfl, rfl⟩
    · exact .refl w
  · rw [handleResultPong]
    split
    · split
      · exact ⟨.one rfl rfl, rfl⟩
      · exact .refl w
    · exact .refl w
  · next hwhat => exact absurd hwhat h
  · rw [handlePing]
    split
    · exact ⟨.one rfl rfl, rfl⟩
    · exact .refl w
  · rw [handlePong]
    split
    · exact ⟨.one rfl rfl, rfl⟩
    · exact .refl w
  · exact .refl w

theorem handle_clientStep {w : ConnectionWorld} (h : w.KeepsInstallId e) :
    ClientStep w e (w.handle e) := by
  obtain ⟨call, network, now⟩ := e
  cases call with
  | connectToServer hostName port =>
    exact .offline (w.connectToServer_idle network hostName port)
      (isConnected_of_endsSession (w := w) rfl (by simp))
  | disconnectFromServer =>
    exact .offline w.disconnectFromServer_idle (isConnected_of_endsSession (w := w) rfl (by simp))
  | setInstallId installId =>
    refine .idles (.of_history_eq _ rfl) fun hc => ?_
    rcases h installId rfl with hoff | rfl
    · exact absurd (hoff.symm.trans hc) Bool.false_ne_true
    · rfl
  | setLocalUserName name =>
    simp only [handle, setLocalUserName]
    split
    · exact (IdlesAsIs.refl w).step
    · split
      · exact (IdlesAsIs.refl w).step
      · split
        · next hc => exact .saysName rfl hc rfl rfl
        · next hc => exact .idles (.of_history_eq _ rfl) fun hc' => absurd hc' hc
  | setLocalUserStatus status =>
    simp only [handle, setLocalUserStatus]
    split
    · exact (IdlesAsIs.refl w).step
    · split
      · next hc => exact .saysStatus rfl hc rfl rfl
      · next hc => exact .idles (.of_history_eq _ rfl) fun hc' => absurd hc' hc
  | sendChatText targetSessionId text =>
    simp only [handle, sendChatText]
    split
    · exact (IdlesAsIs.refl w).step
    · apply IdlesAsIs.step
      apply IdlesAsIs.note (.refl w)
      split <;> rfl
  | sendPing targetSessionId =>
    simp only [handle, sendPing]
    split
    · exact (IdlesAsIs.refl w).step
    · exact ((IdlesAsIs.refl w).note rfl).step
  | startQuery sessionExpression fileExpression =>
    exact (w.startQuery_idles sessionExpression fileExpression).step
  | stopQuery => exact w.stopQuery_idles.step
  | setFirewalled firewalled =>
    simp only [handle, setFirewalled]
    split
    · exact (IdlesAsIs.refl w).step
    · split
      · next hc =>
        have hstate := congrArg ServerConnection.identity
          (unpublishAllSharedFiles_toServerConnection { w with firewalled })
        have hsent := unpublishAllSharedFiles_history { w with firewalled }
        exact .cleansUp rfl hc.1 (hsent.trans (congrArg _ (if_pos hc.1))) hstate
      · exact IdlesAsIs.step ⟨.of_history_eq _ rfl, rfl⟩
  | setAdvertisedPort port =>
    simp only [handle, setAdvertisedPort]
    split
    · exact (IdlesAsIs.refl w).step
    · split
      · next hc => exact .saysName rfl hc rfl rfl
      · next hc => exact .idles (.of_history_eq _ rfl) fun hc' => absurd hc' hc
  | publishSharedFiles files =>
    simp only [handle, publishSharedFiles]
    split
    · next hc =>
      obtain ⟨groups, hhistory, hgroups⟩ := w.publishBatches_inBatches [] (by decide) files
      have hstate := congrArg ServerConnection.identity
        (w.publishBatches_toServerConnection [] files)
      exact .shares rfl hc hhistory hgroups.whole hstate
    · exact (IdlesAsIs.refl w).step
  | unpublishAllSharedFiles => exact w.unpublishAllSharedFiles_step rfl
  | publishSharedFileCount fileCount =>
    simp only [handle, publishSharedFileCount]
    split
    · next hc => exact .saysCount rfl hc rfl rfl
    · exact (IdlesAsIs.refl w).step
  | performIdleTasks idle =>
    simp only [handle, performIdleTasks]
    split
    · exact (IdlesAsIs.refl w).step
    · split
      · exact ((IdlesAsIs.refl w).note rfl).step
      · exact (IdlesAsIs.refl w).step
  | sessionConnected connectedTo =>
    simp only [handle, deliver]
    split
    · next hrunning => exact .logsIn rfl hrunning
    · exact (IdlesAsIs.refl w).step
  | sessionDisconnected =>
    refine .idles (w.deliver_idle w.sessionDisconnected_idle) fun _ => ?_
    simp only [handle, deliver]
    split
    · rw [sessionDisconnected_toServerConnection]
      rfl
    · rfl
  | sessionDetached =>
    refine .idles (w.deliver_idle w.sessionDetached_idle) fun _ => ?_
    simp only [handle, deliver]
    split
    · exact w.sessionDetached_identity
    · rfl
  | messageReceived message =>
    simp only [handle, deliver]
    split
    · next hrunning =>
      by_cases hwhat : message.what = .newChatText
      · rw [messageReceived, hwhat]
        exact .hearsLine rfl hwhat hrunning
      · exact (w.messageReceived_idles now hwhat).step
    · exact (IdlesAsIs.refl w).step

end ConnectionWorld

end HiTuxShare
