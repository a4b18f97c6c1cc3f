import HiTuxShare.AnsweredUsers
import HiTuxShare.SessionSteps

namespace HiTuxShare
set_option autoImplicit true

open MuscleLibrary

/-- A subscriber's records of a publisher. -/
def ConnectionWorld.seenUsers (seats : Seats) (w : ConnectionWorld) (n : Nat) : Option UserRecord :=
  (w.users.findUser (seats.sessionOf n)).map UserRecord.unplaced

theorem ConnectionWorld.seenUsers_unplaced (seats : Seats) (w : ConnectionWorld) (n : Nat) :
    (w.seenUsers seats n).map UserRecord.unplaced = w.seenUsers seats n := by
  rw [seenUsers, Option.map_map]
  rfl

section
variable [MuscleLibrary]

/-- A message of the server that is about others: of a publisher it says at most that there is a
directory of files, or none any more, and of a known one. -/
structure ServerMessage.IsAboutOthers (seats : Seats) (w : ConnectionWorld)
    (message : ServerMessage) : Prop where
  updated : ∀ node ∈ message.updatedNodes, ∀ n, nodeOwner node.1 = some (seats.sessionOf n) →
    (nodeAt node.1 = some .files ∨ nodeAt node.1 = some .fires) ∧
      (w.users.findUser (seats.sessionOf n)).isSome = true
  removed : ∀ nodePath ∈ message.removedDataItems, ∀ n,
    getPathDepth nodePath = fileInfoDepth ∨ isUserGone nodePath = false ∨
      extractSessionId nodePath ≠ seats.sessionOf n

namespace ConnectionWorld

/-- What a subscriber does by itself: it logs in when it is not connected, is given a session ID
that is not the publisher's, and is told of others. -/
structure AdmitsOwn (seats : Seats) (w : ConnectionWorld) (e : ServerConnectionEvent) : Prop where
  login : ∀ connectedTo, e.call = .sessionConnected connectedTo → w.isConnected = false
  assigned : ∀ sessionId, w.assignedSessionId e = some sessionId →
    ∀ n, seats.sessionOf n ≠ sessionId
  others : ∀ message, e.call = .messageReceived message → message.what = .resultDataItems →
    message.IsAboutOthers seats w

theorem internalThreadRunning_handle (w : ConnectionWorld) (e : ServerConnectionEvent)
    (hc : ∀ hostName port, e.call ≠ .connectToServer hostName port)
    (hd : e.call ≠ .disconnectFromServer) :
    (w.handle e).internalThreadRunning = w.internalThreadRunning := by
  obtain ⟨call, network, now⟩ := e
  cases call with
  | connectToServer hostName port => exact absurd rfl (hc hostName port)
  | disconnectFromServer => exact absurd rfl hd
  | setInstallId => rfl
  | setLocalUserName name =>
    simp only [handle, setLocalUserName]
    split
    · rfl
    · split
      · rfl
      · split <;> rfl
  | setLocalUserStatus status =>
    exact congrArg (·.internalThreadRunning) (w.setLocalUserStatus_toServerConnection status)
  | sendChatText targetSessionId text =>
    simp only [handle, sendChatText]
    split <;> rfl
  | sendPing targetSessionId =>
    simp only [handle, sendPing]
    split <;> rfl
  | startQuery sessionExpression fileExpression =>
    simp only [handle, startQuery, stopQuery]
    split
    · rfl
    · split
      · rfl
      · split <;> rfl
  | stopQuery =>
    simp only [handle, stopQuery]
    split
    · rfl
    · split <;> rfl
  | setFirewalled firewalled =>
    exact congrArg (·.internalThreadRunning) (w.setFirewalled_toServerConnection firewalled)
  | setAdvertisedPort port =>
    exact congrArg (·.internalThreadRunning) (w.setAdvertisedPort_toServerConnection port)
  | publishSharedFiles files =>
    exact congrArg (·.internalThreadRunning) (w.publishSharedFiles_toServerConnection files)
  | unpublishAllSharedFiles =>
    exact congrArg (·.internalThreadRunning) w.unpublishAllSharedFiles_toServerConnection
  | publishSharedFileCount fileCount =>
    exact congrArg (·.internalThreadRunning) (w.publishSharedFileCount_toServerConnection fileCount)
  | performIdleTasks idle =>
    simp only [handle, performIdleTasks]
    split
    · rfl
    · split <;> rfl
  | sessionConnected connectedTo =>
    simp only [handle, deliver]
    split
    · exact congrArg (·.internalThreadRunning)
        (w.sessionConnected_toServerConnection now connectedTo)
    · rfl
  | sessionDisconnected =>
    simp only [handle, deliver]
    split
    · exact congrArg (·.internalThreadRunning) w.sessionDisconnected_toServerConnection
    · rfl
  | sessionDetached =>
    simp only [handle, deliver, sessionDetached, setConnectionState]
    split
    · split
      · split <;> rfl
      · rfl
    · rfl
  | messageReceived message =>
    simp only [handle, deliver]
    split
    · rw [messageReceived]
      split
      · apply handleDataItems_of_effect (I := fun w' =>
          w'.internalThreadRunning = w.internalThreadRunning) _ rfl
        intro nodePath _ w₁ w₂ heffect h
        rw [heffect.toServerConnection]
        exact h
      · rw [handleParameters]; split <;> rfl
      · rw [handleResultPong]; split <;> first | rfl | (split <;> rfl)
      · rw [handleChatText]; split <;> first | rfl | (split <;> rfl)
      · rw [handlePing]; split <;> rfl
      · rw [handlePong]; split <;> rfl
      · rfl
    · rfl

/-- All that a connection does in one call, by what it is to the server and to a reader of chat. -/
inductive ClientWord (w : ConnectionWorld) (e : ServerConnectionEvent) : ConnectionOccurrence → Prop
  | idles (h : o.IsIdle) : ClientWord w e o
  | sets (nodes : List (String × NodeMessage)) : ClientWord w e (.sent (setDataMessage nodes))
  | cleansUp : ClientWord w e (.sent cleanUpMessage)
  | subscribes (he : e.call = .sessionConnected connectedTo)
      (hrunning : w.internalThreadRunning = true) : ClientWord w e (.sent subscribeMessage)
  | hears (he : e.call = .messageReceived message) (hwhat : message.what = .newChatText)
      (text : String) (details : ChatDetails) :
      ClientWord w e (.chatMessageReceived .remoteUserChatMessage text details)

theorem handle_words (w : ConnectionWorld) (e : ServerConnectionEvent) :
    DoesOnly (ClientWord w e) w (w.handle e) := by
  by_cases hinstall : ∃ installId, e.call = .setInstallId installId
  · obtain ⟨installId, he⟩ := hinstall
    apply DoesOnly.of_history_eq
    rw [handle, he]
    rfl
  have hkeeps : w.KeepsInstallId e := fun installId he => absurd ⟨installId, he⟩ hinstall
  have hstep := handle_clientStep hkeeps
  generalize w.handle e = w' at hstep
  cases hstep with
  | idles hidle hsame => exact hidle.imp fun o ho => .idles ho
  | saysName _ _ h _ | saysStatus _ _ h _ | saysCount _ _ h _ => exact .one h (.sets _)
  | shares _ _ h _ _ =>
    refine ⟨_, h, fun o hm => ?_⟩
    obtain ⟨nodes, -, rfl⟩ := List.mem_map.mp hm
    exact .sets nodes
  | cleansUp _ _ h _ => exact .one h .cleansUp
  | hearsLine he hwhat hrunning =>
    rw [handleChatText]
    split
    · split
      · exact .refl _ w
      · exact .one rfl (.hears he hwhat _ _)
    · exact .refl _ w
  | @logsIn connectedTo he hrunning =>
    obtain ⟨quiet, hidle, hhistory⟩ := w.sessionConnected_says e.now connectedTo
    refine ⟨_, hhistory, fun o hm => ?_⟩
    rcases List.mem_append.mp hm with hm | hm
    · exact .idles (hidle o hm)
    · simp only [List.mem_cons, List.not_mem_nil, or_false] at hm
      rcases hm with rfl | rfl | rfl | rfl
      · exact .sets _
      · exact .sets _
      · exact .subscribes he hrunning
      · exact .idles rfl

/-- The users are asked for at a login, and nowhere else. -/
theorem handle_leavesUsers (w : ConnectionWorld) (e : ServerConnectionEvent)
    (hlogin : ¬∃ connectedTo, e.call = .sessionConnected connectedTo ∧
      w.internalThreadRunning = true) :
    ∀ o ∈ occurrencesOf w e, o.leavesUsers = true := by
  intro o hm
  cases (w.handle_words e).drop o hm with
  | idles h => exact h.leavesUsers
  | subscribes he hrunning => exact absurd ⟨_, he, hrunning⟩ hlogin
  | _ => rfl

theorem handle_saysOurs (w : ConnectionWorld) (e : ServerConnectionEvent) :
    ∀ o ∈ occurrencesOf w e, o.saysOurs = true := by
  intro o hm
  cases (w.handle_words e).drop o hm with
  | idles h => exact h.saysOurs
  | subscribes he hrunning => decide
  | _ => rfl

theorem handle_keepsSession (w : ConnectionWorld) (e : ServerConnectionEvent)
    (hends : w.endsSession e = false) (hm : ∀ message, e.call ≠ .messageReceived message) :
    (w.handle e).users = w.users ∧ (w.handle e).localSessionId = w.localSessionId := by
  have hsession {w' : ConnectionWorld} {active : Bool}
      (h : w'.session = { w.session with queryActive := active }) :
      w'.users = w.users ∧ w'.localSessionId = w.localSessionId :=
    ⟨congrArg SessionState.users h, congrArg SessionState.localSessionId h⟩
  by_cases hp : e.call.isPublication = true
  · exact hsession (w.handle_publication e hp).1
  obtain ⟨call, network, now⟩ := e
  cases call with
  | connectToServer hostName port => cases hends
  | disconnectFromServer => cases hends
  | sendChatText targetSessionId text =>
    simp only [handle, sendChatText]
    split <;> exact ⟨rfl, rfl⟩
  | sendPing targetSessionId =>
    simp only [handle, sendPing]
    split <;> exact ⟨rfl, rfl⟩
  | startQuery sessionExpression fileExpression =>
    have hs := w.startQuery_session sessionExpression fileExpression
    split at hs
    · exact hsession hs
    · exact hsession hs
  | stopQuery => exact hsession w.stopQuery_session
  | sessionConnected connectedTo =>
    change (w.deliver _).users = _ ∧ (w.deliver _).localSessionId = _
    rw [deliver_off hends]
    exact ⟨rfl, rfl⟩
  | sessionDisconnected =>
    change (w.deliver _).users = _ ∧ (w.deliver _).localSessionId = _
    rw [deliver_off hends]
    exact ⟨rfl, rfl⟩
  | sessionDetached =>
    change (w.deliver _).users = _ ∧ (w.deliver _).localSessionId = _
    rw [deliver_off hends]
    exact ⟨rfl, rfl⟩
  | messageReceived message => exact absurd rfl (hm message)
  | _ => exact absurd rfl hp

theorem messageReceived_localSessionId (w : ConnectionWorld) (now : UInt64)
    {message : ServerMessage} (h : message.what ≠ .resultParameters) :
    (w.messageReceived now message).localSessionId = w.localSessionId := by
  rw [messageReceived]
  split
  · exact congrArg SessionState.localSessionId (w.handleDataItems_session message)
  · next hwhat => exact absurd hwhat h
  · rw [handleResultPong]
    split
    · split <;> rfl
    · rfl
  · rw [handleChatText]
    split
    · split <;> rfl
    · rfl
  · rw [handlePing]
    split <;> rfl
  · rw [handlePong]
    split <;> rfl
  · rfl

/-- A session that ends takes its users with it, unless there was none. -/
theorem users_of_endsSession (w : ConnectionWorld) (e : ServerConnectionEvent)
    (hends : w.endsSession e = true) (he : ∀ connectedTo, e.call ≠ .sessionConnected connectedTo) :
    (w.handle e).users = .empty ∧ (w.handle e).localSessionId = "" ∨
      w.handle e = w ∧ w.isConnected = false := by
  obtain ⟨call, network, now⟩ := e
  cases call with
  | connectToServer hostName port =>
    obtain ⟨state, -, hs⟩ := w.connectToServer_session network hostName port
    exact .inl ⟨congrArg SessionState.users hs, congrArg SessionState.localSessionId hs⟩
  | disconnectFromServer =>
    exact .inl ⟨congrArg SessionState.users w.disconnectFromServer_session,
      congrArg SessionState.localSessionId w.disconnectFromServer_session⟩
  | sessionConnected connectedTo => exact absurd rfl (he connectedTo)
  | sessionDisconnected =>
    have hrunning : w.internalThreadRunning = true := hends
    simp only [handle, deliver, hrunning, if_true]
    exact .inl ⟨congrArg SessionState.users w.sessionDisconnected_session,
      congrArg SessionState.localSessionId w.sessionDisconnected_session⟩
  | sessionDetached =>
    have hrunning : w.internalThreadRunning = true := hends
    simp only [handle, deliver, hrunning, if_true]
    by_cases hd : w.connectionState = .disconnected
    · refine .inr ⟨w.sessionDetached_of_down hd, decide_eq_false ?_⟩
      rw [hd]
      decide
    · exact .inl ⟨congrArg SessionState.users (w.sessionDetached_session hd),
        congrArg SessionState.localSessionId (w.sessionDetached_session hd)⟩
  | _ => cases hends

/-- The directories of files say nothing but whether a user can be reached. -/
theorem foldl_writeInto_of_directories {nodes : List (String × NodeMessage)}
    {known : Option UserRecord}
    (h : ∀ node ∈ nodes, nodeOwner node.1 = some sessionId →
      (nodeAt node.1 = some .files ∨ nodeAt node.1 = some .fires) ∧ known.isSome = true) :
    (nodes.foldl (writeInto sessionId) known).map UserRecord.unplaced =
      known.map UserRecord.unplaced := by
  induction nodes generalizing known with
  | nil => rfl
  | cons node nodes ih =>
    rw [List.foldl_cons, writeInto]
    split
    · next howner =>
      obtain ⟨hdirectory, hknown⟩ := h node List.mem_cons_self howner
      obtain ⟨user, rfl⟩ := Option.isSome_iff_exists.mp hknown
      rw [ih fun node' hm ho => ⟨(h node' (List.mem_cons_of_mem node hm) ho).1, rfl⟩]
      rcases hdirectory with hfiles | hfires
      · rw [UserRecord.write, hfiles]
        rfl
      · rw [UserRecord.write, hfires]
        rfl
    · exact ih fun node' hm => h node' (List.mem_cons_of_mem node hm)

theorem seenUsers_of_others {seats : Seats} (hseats : seats.IsProper) (w : ConnectionWorld)
    (hstranger : ∀ n, seats.sessionOf n ≠ w.localSessionId) (now : UInt64)
    {message : ServerMessage}
    (h : message.what = .resultDataItems → message.IsAboutOthers seats w) :
    (w.messageReceived now message).seenUsers seats = w.seenUsers seats := by
  funext n
  have hid : seats.sessionOf n ≠ "" := (hseats.plain n).tail.head.1
  rw [seenUsers, w.messageReceived_findUser now message hid (hstranger n), readMessage]
  split
  · next hwhat =>
    rw [foldl_dropInto_of_stays fun nodePath hm => (h hwhat).removed nodePath hm n, seenUsers]
    exact foldl_writeInto_of_directories fun node hm => (h hwhat).updated node hm n
  · rfl

theorem seenUsers_handle {seats : Seats} (hseats : seats.IsProper) (w : ConnectionWorld)
    (hstranger : ∀ n, seats.sessionOf n ≠ w.localSessionId) (he : w.AdmitsOwn seats e)
    (hends : w.endsSession e = false) :
    (w.handle e).seenUsers seats = w.seenUsers seats ∧
      ∀ n, seats.sessionOf n ≠ (w.handle e).localSessionId := by
  by_cases hm : ∃ message, e.call = .messageReceived message
  · obtain ⟨message, hcall⟩ := hm
    have hhandle : w.handle e = w.deliver fun w => w.messageReceived e.now message := by
      rw [handle, hcall]
    rw [hhandle, deliver]
    split
    · next hrunning =>
      refine ⟨w.seenUsers_of_others hseats hstranger e.now (he.others message hcall), fun n => ?_⟩
      by_cases hwhat : message.what = .resultParameters
      · rw [messageReceived, hwhat]
        change seats.sessionOf n ≠ (w.handleParameters message).localSessionId
        rw [handleParameters]
        split
        · next localSessionId serverHostName hroot =>
          apply he.assigned localSessionId
          rw [assignedSessionId, hcall]
          exact (if_pos ⟨hrunning, hwhat⟩).trans (by rw [hroot]; rfl)
        · exact hstranger n
      · rw [w.messageReceived_localSessionId e.now hwhat]
        exact hstranger n
    · exact ⟨rfl, hstranger⟩
  · have hother : ∀ message, e.call ≠ .messageReceived message := fun message hcall =>
      hm ⟨message, hcall⟩
    obtain ⟨husers, hlocal⟩ := w.handle_keepsSession e hends hother
    constructor
    · funext n
      rw [seenUsers, seenUsers, husers]
    · rw [hlocal]
      exact hstranger

end ConnectionWorld

end

end HiTuxShare
