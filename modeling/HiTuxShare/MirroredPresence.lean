import HiTuxShare.PlainRelay
import HiTuxShare.PublisherNodes
import HiTuxShare.SubscriberSteps

namespace HiTuxShare
set_option autoImplicit true

open MuscleLibrary

/-- The server tells of nodes, or passes on what is not its own. -/
def ServerMessage.IsNews (message : ServerMessage) : Prop :=
  message.what = .resultDataItems ∨ message.what.isRelayed = true

section
variable [MuscleLibrary]

theorem IsLeftOver.forall_mem {P : ServerMessage → Prop} (h : IsLeftOver kept queue)
    (hdata : ∀ message : ServerMessage, message.what = .resultDataItems → P message)
    (hqueue : ∀ message ∈ queue, P message) : ∀ message ∈ kept, P message := by
  induction h with
  | nil => exact hqueue
  | same h ih =>
    rw [List.forall_mem_cons] at hqueue ⊢
    exact ⟨hqueue.1, ih hqueue.2⟩
  | part hpart h ih =>
    rw [List.forall_mem_cons] at hqueue ⊢
    exact ⟨hdata _ hpart.what.1, ih hqueue.2⟩
  | gone hgone h ih => exact ih (List.forall_mem_cons.mp hqueue).2

variable [MuscleRelay]

namespace ServerState

variable {seats : Seats}

theorem what_news (hserves : MuscleRelay.Serves seats) {state : ServerState}
    (ho : state.side.Hears o) (hm : message ∈ state.news o) : message.what = .resultDataItems ∨
      message.what.isRelayed = true ∧
        ∃ sent : ServerMessage, o = .sent sent ∧ message.what = sent.what := by
  have hdata {nodes : List (String × NodeMessage)} (hsets : (setDataMessage nodes).SetsNodes)
      (hm : message ∈ state.news (.sent (setDataMessage nodes))) :
      message.what = .resultDataItems := ((brings_setData hserves state hsets).what message hm).1
  cases ho with
  | name c => exact .inl (hdata (setsNodes_one .name _) hm)
  | userStatus c hname => exact .inl (hdata (setsNodes_one .userStatus _) hm)
  | fileCount count hname => exact .inl (hdata (setsNodes_one .fileCount _) hm)
  | files c hfiles hnodup hname => exact .inl (hdata (setsNodes_files hfiles hnodup) hm)
  | cleanUp => exact .inl ((hserves.tellsRemoved state cleanUpMessage rfl).what _ hm).1
  | other hleaves => exact .inr (what_news_of_leaves hserves hleaves hm)

theorem isNews_newsOfAll (hserves : MuscleRelay.Serves seats) {state : ServerState}
    (hears : state.HearsAll occurrences) (hm : message ∈ state.newsOfAll occurrences) :
    message.IsNews := by
  induction occurrences generalizing state with
  | nil => cases hm
  | cons o later ih =>
    rcases List.mem_append.mp hm with hm | hm
    · exact (what_news hserves hears.1 hm).imp_right And.left
    · exact ih hears.2 hm

theorem forall_mem_queue (hserves : MuscleRelay.Serves seats) {P : ServerMessage → Prop}
    (hdata : ∀ message : ServerMessage, message.what = .resultDataItems → P message)
    {state : ServerState} (ho : o.saysOurs = true) (hqueue : ∀ message ∈ inFlight, P message) :
    ∀ message ∈ state.queue inFlight o, P message := by
  cases o with
  | sent sent =>
    have hours : sent.isOurs = true := ho
    intro message hm
    rcases List.mem_append.mp hm with hm | hm
    · by_cases hj : sent.what = .jettisonResults
      · exact (hserves.jettisons state sent inFlight hours hj).forall_mem hdata hqueue
          message hm
      · rw [hserves.keeps state sent inFlight hours hj] at hm
        exact hqueue message hm
    · by_cases hanswers : sent.what = .setParameters ∧
          (MuscleRelay.side (MuscleRelay.heed state sent)).hearsUsers = true
      · exact hdata message
          ((hserves.answers state sent hours hanswers.1 hanswers.2).what message hm).1
      · rw [not_and_or, Bool.not_eq_true] at hanswers
        rw [hserves.answersNothing state sent hours hanswers] at hm
        cases hm
  | _ => exact hqueue

theorem forall_mem_queueAll (hserves : MuscleRelay.Serves seats) {P : ServerMessage → Prop}
    (hdata : ∀ message : ServerMessage, message.what = .resultDataItems → P message)
    {state : ServerState} (hothers : ∀ o ∈ occurrences, o.saysOurs = true)
    (hqueue : ∀ message ∈ inFlight, P message) :
    ∀ message ∈ state.queueAll inFlight occurrences, P message := by
  induction occurrences generalizing state inFlight with
  | nil => exact hqueue
  | cons o later ih =>
    exact ih (fun o' hm => hothers o' (List.mem_cons_of_mem o hm))
      (forall_mem_queue hserves hdata (hothers o List.mem_cons_self) hqueue)

theorem side_forget (hserves : MuscleRelay.Serves seats) (state : ServerState) :
    state.forget.side = { state.side with hearsUsers := false, patterns := [] } :=
  hserves.forgets state

end ServerState

end

namespace SharedServer

/-- What a subscriber sees of a publisher, with what it is still to be told. -/
structure IsMirrored [MuscleLibrary] [MuscleRelay] (seats : Seats) (s : SharedServer) : Prop where
  publisher : s.source.IsSound
  catchesUp : s.CatchesUp (tellUsers seats) (ConnectionWorld.seenUsers seats)
    fun p => p.server.shownUsers seats
  connected : s.source.server.hearsUsers = s.replica.isConnected
  running : s.source.server.hearsUsers = true → s.replica.internalThreadRunning = true
  silent : s.source.server.hearsUsers = false → s.inFlight = []
  news : ∀ message ∈ s.inFlight, message.IsNews
  stranger : ∀ n, seats.sessionOf n ≠ s.replica.localSessionId

section
variable [MuscleLibrary] [MuscleRelay]

/-- What either side does by itself. -/
def Admits (seats : Seats) (s : SharedServer) : SharedServerEvent → Prop
  | .publisher e => s.source.Admits e
  | .arrival _ => True
  | .subscriber e => s.replica.AdmitsOwn seats e

theorem IsMirrored.publishes {seats : Seats} (hserves : MuscleRelay.Serves seats)
    (hseats : seats.IsProper) (hlibrary : MuscleLibrary.ReadsPaths)
    (hspared : MuscleServer.SparesUsers) {s : SharedServer} (h : s.IsMirrored seats)
    (he : s.source.Admits e) :
    IsMirrored seats (handle s (.publisher e)) := by
  obtain ⟨hears, hsound⟩ := h.publisher.handle hserves hspared he
  have hosted : (s.source.hosted e).side.hearsUsers = s.source.server.hearsUsers := by
    rw [Publisher.hosted]
    split
    · rw [Publisher.side_endSession hserves]
      rfl
    · rfl
  have hsame : (s.source.handle e).server.hearsUsers = s.source.server.hearsUsers := by
    rw [Publisher.server, Publisher.handle, ServerState.side_afterAll hserves hears]
    exact hosted
  have hended : (if s.source.endsSession e then s.source.state.newsOfEnd else []).foldl
      (tellUsers seats) (s.source.server.shownUsers seats) =
        (s.source.hosted e).side.shownUsers seats := by
    rw [Publisher.hosted]
    split
    · exact ServerState.tellUsers_endSession hserves hseats hlibrary h.publisher.server
    · rfl
  constructor
  · exact hsound
  · apply h.catchesUp.send
    rw [Publisher.news, List.foldl_append, hended]
    exact ServerState.tellUsers_newsOfAll hserves hseats hlibrary hspared
      (h.publisher.hosted hserves e) hears
  · exact hsame.trans h.connected
  · exact fun hh => h.running (hsame.symm.trans hh)
  · intro hdeaf
    have hdeaf : s.source.server.hearsUsers = false := hsame.symm.trans hdeaf
    have hend : s.source.state.newsOfEnd = [] := (hserves.silent s.source.state hdeaf).2
    change s.inFlight ++ s.source.news e = []
    rw [h.silent hdeaf, Publisher.news, hend,
      ServerState.newsOfAll_of_deaf hserves hears (hosted.trans hdeaf), ite_self]
    rfl
  · intro message hm
    rcases List.mem_append.mp hm with hm | hm
    · exact h.news message hm
    · rcases List.mem_append.mp hm with hm | hm
      · split at hm
        · exact .inl ((hserves.tellsEnd s.source.state).what message hm).1
        · cases hm
      · exact ServerState.isNews_newsOfAll hserves hears hm
  · exact h.stranger

theorem IsMirrored.read_messageReceived {seats : Seats} {s : SharedServer}
    (h : s.IsMirrored seats) (hm : message ∈ s.inFlight) (now : UInt64) :
    read now s.replica message = s.replica.messageReceived now message := by
  have hears : s.source.server.hearsUsers = true := by
    by_contra hdeaf
    rw [h.silent (Bool.eq_false_iff.mpr hdeaf)] at hm
    cases hm
  exact if_pos (h.running hears)

theorem IsMirrored.read_seenUsers {seats : Seats} (hseats : seats.IsProper) {s : SharedServer}
    (h : s.IsMirrored seats) (hm : message ∈ s.inFlight) (now : UInt64) :
    (read now s.replica message).seenUsers seats =
      tellUsers seats (s.replica.seenUsers seats) message := by
  funext n
  have hid : seats.sessionOf n ≠ "" := (hseats.plain n).tail.head.1
  rw [h.read_messageReceived hm now, ConnectionWorld.seenUsers,
    s.replica.messageReceived_findUser now message hid (h.stranger n), tellUsers,
    ConnectionWorld.seenUsers, readMessage_unplaced]

theorem IsMirrored.arrives {seats : Seats} (hseats : seats.IsProper) {s : SharedServer}
    (h : s.IsMirrored seats) (now : UInt64) : IsMirrored seats (handle s (.arrival now)) := by
  change IsMirrored seats (s.arrive (read now))
  have hcatches := h.catchesUp.arrive fun message hm => h.read_seenUsers hseats hm now
  rw [FifoLink.arrive] at hcatches ⊢
  split at hcatches
  · exact h
  · next message later hfirst =>
    have hm : message ∈ s.inFlight := hfirst ▸ List.mem_cons_self
    have hother : message.what ≠ .resultParameters := by
      rintro hwhat
      rcases h.news message hm with hdata | hrelayed
      · cases hwhat.symm.trans hdata
      · rw [hwhat] at hrelayed
        cases hrelayed
    have hstays : s.replica.endsSession { call := .messageReceived message, now } = false := rfl
    constructor
    · exact h.publisher
    · exact hcatches
    · exact h.connected.trans (ConnectionWorld.isConnected_handle hstays).symm
    · exact fun hears => (s.replica.internalThreadRunning_handle _ (by simp) (by simp)).trans
        (h.running hears)
    · intro hdeaf
      cases (h.silent hdeaf).symm.trans hfirst
    · exact fun message' hm => h.news message' (hfirst ▸ List.mem_cons_of_mem message hm)
    · intro n
      have hsame : (read now s.replica message).localSessionId = s.replica.localSessionId := by
        simp only [read, ConnectionWorld.handle, ConnectionWorld.deliver]
        split
        · exact s.replica.messageReceived_localSessionId now hother
        · rfl
      exact hsame.symm ▸ h.stranger n

/-- Before a login, and after a session, nobody is seen. -/
theorem IsMirrored.unseen {seats : Seats} {s : SharedServer} (h : s.IsMirrored seats)
    (hoff : s.replica.isConnected = false) : s.replica.seenUsers seats = fun _ => none := by
  have hdeaf : s.source.server.hearsUsers = false := h.connected.trans hoff
  rw [h.catchesUp.agrees (h.silent hdeaf)]
  funext n
  exact if_neg fun hn => Bool.false_ne_true (hdeaf.symm.trans hn.1)

omit [MuscleLibrary] in
theorem isSound_of_node {p : Publisher} (h : p.IsSound) {state : ServerState}
    (hnode : state.side.node = p.server.node ∧ state.side.hasSet = p.server.hasSet) :
    Publisher.IsSound { p with state } := by
  constructor
  · exact ServerState.isSound_of_node h.server hnode
  · intro hoff
    obtain ⟨hnone, hset⟩ := h.offline hoff
    exact ⟨hnode.1.trans hnone, hnode.2.trans hset⟩
  · exact fun hon => (congrFun hnode.1 nodeName).trans (h.name hon)
  · exact fun hon => (congrFun hnode.1 nodeUserStatus).trans (h.userStatus hon)

/-- A subscriber that goes on as it is. -/
theorem IsMirrored.goesOn {seats : Seats} (hserves : MuscleRelay.Serves seats)
    (hseats : seats.IsProper) (hlibrary : MuscleLibrary.ReadsPaths) {s : SharedServer}
    (h : s.IsMirrored seats) (he : s.replica.AdmitsOwn seats e)
    (hends : s.replica.endsSession e = false) : IsMirrored seats (handle s (.subscriber e)) := by
  have hothers : ∀ o ∈ occurrencesOf s.replica e, o.leavesUsers = true := by
    apply s.replica.handle_leavesUsers
    rintro ⟨connectedTo, hcall, hrunning⟩
    rw [ServerConnection.endsSession, hcall, hrunning] at hends
    cases hends
  have hhandle : handle s (.subscriber e) =
      { source := { s.source with state := s.source.state.heedAll (occurrencesOf s.replica e) }
        inFlight := s.source.state.queueAll s.inFlight (occurrencesOf s.replica e)
        replica := s.replica.handle e } := by
    simp only [handle, hends, Bool.false_eq_true, if_false]
  have hside := ServerState.side_heedAll hserves s.source.state hothers
  have hsame : (s.source.state.heedAll (occurrencesOf s.replica e)).side.hearsUsers =
      s.source.server.hearsUsers := by
    rw [hside]
    rfl
  have hseen := s.replica.seenUsers_handle hseats h.stranger he hends
  rw [hhandle]
  constructor
  · exact isSound_of_node h.publisher (ServerState.node_heedAll hserves s.source.state hothers)
  · change (s.source.state.queueAll s.inFlight _).foldl (tellUsers seats)
      ((s.replica.handle e).seenUsers seats) = _
    rw [hseen.1]
    exact ServerState.tellUsers_queueAll hserves hseats hlibrary h.publisher.server hothers
      (s.replica.seenUsers_unplaced seats) h.catchesUp
  · exact (hsame.trans h.connected).trans (ConnectionWorld.isConnected_handle hends).symm
  · intro hears
    refine (s.replica.internalThreadRunning_handle e ?_ ?_).trans
      (h.running (hsame.symm.trans hears))
    · intro hostName port hcall
      rw [ServerConnection.endsSession, hcall] at hends
      cases hends
    · intro hcall
      rw [ServerConnection.endsSession, hcall] at hends
      cases hends
  · intro hnone
    have hnone : s.source.server.hearsUsers = false := hsame.symm.trans hnone
    change s.source.state.queueAll s.inFlight _ = []
    rw [h.silent hnone]
    exact ServerState.queueAll_of_deaf hserves hnone hothers
  · exact ServerState.forall_mem_queueAll hserves (fun _ hwhat => .inl hwhat)
      (s.replica.handle_saysOurs e) h.news
  · exact hseen.2

/-- A subscriber that leaves, or is left. -/
theorem IsMirrored.leaves {seats : Seats} (hserves : MuscleRelay.Serves seats)
    (hseats : seats.IsProper) {s : SharedServer} (h : s.IsMirrored seats)
    (hends : s.replica.endsSession e = true)
    (hlogin : ∀ connectedTo, e.call ≠ .sessionConnected connectedTo) :
    IsMirrored seats (handle s (.subscriber e)) := by
  have hothers : ∀ o ∈ occurrencesOf s.replica e, o.leavesUsers = true := by
    apply s.replica.handle_leavesUsers
    rintro ⟨connectedTo, hcall, -⟩
    exact hlogin connectedTo hcall
  have hforgot := ServerState.side_forget hserves s.source.state
  have hside := ServerState.side_heedAll hserves s.source.state.forget hothers
  have hdeaf : (s.source.state.forget.heedAll
      (occurrencesOf s.replica e)).side.hearsUsers = false := by rw [hside, hforgot]
  have hnothing : s.source.state.forget.queueAll [] (occurrencesOf s.replica e) = [] :=
    ServerState.queueAll_of_deaf hserves (by rw [hforgot]) hothers
  have hhandle : handle s (.subscriber e) =
      { source := { s.source with
          state := s.source.state.forget.heedAll (occurrencesOf s.replica e) }
        inFlight := []
        replica := s.replica.handle e } := by
    simp only [handle, hends, if_true, hnothing]
  have hgone : (s.replica.handle e).seenUsers seats = (fun _ => none) ∧
      ∀ n, seats.sessionOf n ≠ (s.replica.handle e).localSessionId := by
    rcases s.replica.users_of_endsSession e hends hlogin with ⟨husers, hlocal⟩ | ⟨hsame, hoff⟩
    · constructor
      · funext n
        rw [ConnectionWorld.seenUsers, husers]
        rfl
      · intro n
        rw [hlocal]
        exact (hseats.plain n).tail.head.1
    · rw [hsame]
      exact ⟨h.unseen hoff, h.stranger⟩
  rw [hhandle]
  constructor
  · apply isSound_of_node h.publisher
    rw [hside, hforgot]
    exact ⟨rfl, rfl⟩
  · change (s.replica.handle e).seenUsers seats = _
    rw [hgone.1]
    exact (ServerSide.shownUsers_of_deaf hdeaf seats).symm
  · exact hdeaf.trans (ConnectionWorld.isConnected_of_endsSession hends hlogin).symm
  · exact fun hears => absurd (hdeaf.symm.trans hears) Bool.false_ne_true
  · exact fun _ => rfl
  · exact fun message hm => absurd hm List.not_mem_nil
  · exact hgone.2

/-- A subscriber that comes, or comes back. -/
theorem IsMirrored.comes {seats : Seats} (hserves : MuscleRelay.Serves seats)
    (hseats : seats.IsProper) (hlibrary : MuscleLibrary.ReadsPaths) {s : SharedServer}
    (h : s.IsMirrored seats) (hoff : s.replica.isConnected = false)
    (hcall : e.call = .sessionConnected connectedTo)
    (hrunning : s.replica.internalThreadRunning = true) :
    IsMirrored seats (handle s (.subscriber e)) := by
  have hconnection : s.replica.handle e = s.replica.sessionConnected e.now connectedTo := by
    rw [ConnectionWorld.handle, hcall]
    exact if_pos hrunning
  have hends : s.replica.endsSession e = true := by
    rw [ServerConnection.endsSession, hcall, hrunning]
  obtain ⟨quiet, hidle, hsaid⟩ := s.replica.sessionConnected_says e.now connectedTo
  rw [← hconnection] at hsaid
  let before : List ConnectionOccurrence := quiet ++
    [.sent (setDataMessage [(nodeName, s.replica.nameNode)]),
      .sent (setDataMessage [(nodeUserStatus, s.replica.userStatusNode)])]
  let later : List ConnectionOccurrence := [.sent { toMessage := .ofWhat .getParameters }]
  have hwords : occurrencesOf s.replica e = before ++ .sent subscribeMessage :: later := by
    rw [occurrencesOf_append hsaid]
    simp only [before, later, List.append_assoc, List.cons_append, List.nil_append]
  have hbefore : ∀ o ∈ before, o.leavesUsers = true := by
    intro o hm
    rcases List.mem_append.mp hm with hm | hm
    · exact (hidle o hm).leavesUsers
    · rcases List.mem_pair.mp hm with rfl | rfl <;> rfl
  have hlater : ∀ o ∈ later, o.leavesUsers = true := by
    intro o hm
    rw [List.mem_singleton.mp hm]
    rfl
  have hforgot := ServerState.side_forget hserves s.source.state
  have hdeaf : s.source.state.forget.side.hearsUsers = false := by rw [hforgot]
  have hnode : s.source.state.forget.side.node = s.source.server.node ∧
      s.source.state.forget.side.hasSet = s.source.server.hasSet := by
    rw [hforgot]
    exact ⟨rfl, rfl⟩
  have hsound : s.source.state.forget.side.IsSound :=
    ServerState.isSound_of_node h.publisher.server hnode
  have hhandle : handle s (.subscriber e) =
      { source := { s.source with
          state := s.source.state.forget.heedAll (occurrencesOf s.replica e) }
        inFlight := s.source.state.forget.queueAll [] (occurrencesOf s.replica e)
        replica := s.replica.handle e } := by
    simp only [handle, hends, if_true]
  have hsession := s.replica.sessionConnected_session e.now connectedTo
  rw [← hconnection] at hsession
  have hheeded : (s.source.state.forget.heedAll (occurrencesOf s.replica e)).side =
      { s.source.state.forget.side with
        hearsUsers := true
        patterns :=
          (s.source.state.forget.heedAll (occurrencesOf s.replica e)).side.patterns } := by
    rw [hwords, ServerState.heedAll_append]
    refine (ServerState.side_heedAll hserves _ hlater).trans ?_
    rw [ServerState.side_heed_subscribe hserves, ServerState.side_heedAll hserves _ hbefore]
    rfl
  have hears : (s.source.state.forget.heedAll
      (occurrencesOf s.replica e)).side.hearsUsers = true := by rw [hheeded]
  have hconnected : (s.replica.handle e).isConnected = true :=
    ConnectionWorld.isConnected_of_sessionConnected hcall hrunning
  rw [hhandle]
  constructor
  · apply isSound_of_node h.publisher
    rw [hheeded]
    exact hnode
  · change (s.source.state.forget.queueAll [] (occurrencesOf s.replica e)).foldl
      (tellUsers seats) ((s.replica.handle e).seenUsers seats) = _
    have hseen : (s.replica.handle e).seenUsers seats =
        s.source.state.forget.side.shownUsers seats := by
      rw [ServerSide.shownUsers_of_deaf hdeaf, ← h.unseen hoff]
      funext n
      have husers : (s.replica.handle e).users = s.replica.users :=
        congrArg SessionState.users hsession
      rw [ConnectionWorld.seenUsers, ConnectionWorld.seenUsers, husers]
    rw [hseen, hwords]
    exact ServerState.tellUsers_login hserves hseats hlibrary hsound hdeaf hbefore hlater
  · exact hears.trans hconnected.symm
  · intro _
    refine (s.replica.internalThreadRunning_handle e ?_ ?_).trans hrunning
    · intro hostName port hother
      cases hcall.symm.trans hother
    · intro hother
      cases hcall.symm.trans hother
  · exact fun hdeaf => absurd (hdeaf.symm.trans hears) Bool.false_ne_true
  · exact ServerState.forall_mem_queueAll hserves (fun _ hwhat => .inl hwhat)
      (s.replica.handle_saysOurs e) fun message hm => absurd hm List.not_mem_nil
  · have hlocal : (s.replica.handle e).localSessionId = s.replica.localSessionId :=
      congrArg SessionState.localSessionId hsession
    intro n
    rw [hlocal]
    exact h.stranger n

/-- Whatever happens, what is seen and what is still to come make up what is true. -/
theorem IsMirrored.handle {seats : Seats} (hserves : MuscleRelay.Serves seats)
    (hseats : seats.IsProper) (hlibrary : MuscleLibrary.ReadsPaths)
    (hspared : MuscleServer.SparesUsers) {s : SharedServer} (h : s.IsMirrored seats)
    {e : SharedServerEvent} (he : s.Admits seats e) :
    IsMirrored seats (SharedServer.handle s e) := by
  cases e with
  | publisher e => exact h.publishes hserves hseats hlibrary hspared he
  | arrival now => exact h.arrives hseats now
  | subscriber e =>
    have hadmits : s.replica.AdmitsOwn seats e := he
    cases hends : s.replica.endsSession e with
    | false => exact h.goesOn hserves hseats hlibrary hadmits hends
    | true =>
      by_cases hlogin : ∃ connectedTo, e.call = .sessionConnected connectedTo
      · obtain ⟨connectedTo, hcall⟩ := hlogin
        have hrunning : s.replica.internalThreadRunning = true := by
          rwa [ServerConnection.endsSession, hcall] at hends
        exact h.comes hserves hseats hlibrary (hadmits.login connectedTo hcall) hcall hrunning
      · exact h.leaves hserves hseats hends fun connectedTo hcall => hlogin ⟨connectedTo, hcall⟩

end

/-- Two clients that are not connected yet. -/
def new [MuscleRelay] : SharedServer := { source := {}, inFlight := [], replica := {} }

end SharedServer

section
variable [MuscleRelay]

/-- What a connection publishes of itself, and of its files the number that the server has. -/
def Publisher.record (seats : Seats) (p : Publisher) : UserRecord where
  sessionId := seats.sessionOf p.server.sessions
  hostName := seats.hostOf p.server.sessions
  userName := p.localUserName
  port := p.advertisedPort
  installId := p.installId
  clientVersion := hituxShareName ++ " v" ++ hituxShareVersionString
  userStatus := p.localUserStatus
  fileCount :=
    (((p.server.node nodeFileCount).bind fun data =>
      data.findInt32 fieldFileCount).map Int32.toUInt32).getD 0

theorem Publisher.IsSound.shownUsers {p : Publisher} (h : p.IsSound) (seats : Seats) (n : Nat) :
    p.server.shownUsers seats n =
      if p.server.hearsUsers = true ∧ p.isConnected = true ∧ n = p.server.sessions then
        some (p.record seats)
      else none := by
  rw [ServerSide.shownUsers]
  by_cases hn : n = p.server.sessions
  · subst hn
    cases hon : p.isConnected with
    | false =>
      rw [(h.offline hon).1]
      simp [shownUser]
    | true =>
      obtain ⟨hname, hport, hinstall, hversion, -⟩ := nameNode_fields p.toServerConnection
      have hstatus : p.userStatusNode.findString fieldUserStatus = some p.localUserStatus := rfl
      simp only [shownUser, h.name hon, h.userStatus hon, Option.map_some, Option.bind_some, hname,
        hport, hinstall, hversion, hstatus, Option.getD_some, and_true]
      rfl
  · rw [if_neg fun h => hn h.2, if_neg fun h => hn h.2.2]

end

end HiTuxShare
