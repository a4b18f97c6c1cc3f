import HiTuxShare.MirroredPresence
import HiTuxShare.QueriedFiles

namespace HiTuxShare
set_option autoImplicit true

open MuscleLibrary

/-- A message of the server that is about the files of others. -/
structure ServerMessage.IsAboutOtherFiles [MuscleLibrary] (seats : Seats)
    (message : ServerMessage) : Prop where
  updated : ∀ node ∈ message.updatedNodes, ∀ n fileName,
    ¬IsNodeOfFile (seats.sessionOf n) fileName node.1
  removed : ∀ nodePath ∈ message.removedDataItems, ∀ n fileName,
    ¬IsNodeOfFile (seats.sessionOf n) fileName nodePath

theorem IsLeftOver.exists_whole [MuscleLibrary] (h : IsLeftOver kept queue) (hm : message ∈ kept)
    (hwhat : message.what = .resultDataItems) :
    ∃ whole ∈ queue, whole.what = .resultDataItems ∧
      message.updatedNodes ⊆ whole.updatedNodes := by
  induction h with
  | nil => cases hm
  | same h ih =>
    rcases List.mem_cons.mp hm with rfl | hm
    · exact ⟨_, List.mem_cons_self, hwhat, fun _ hnode => hnode⟩
    · obtain ⟨whole, hwhole, hfewer⟩ := ih hm
      exact ⟨whole, List.mem_cons_of_mem _ hwhole, hfewer⟩
  | part hpart h ih =>
    rcases List.mem_cons.mp hm with rfl | hm
    · exact ⟨_, List.mem_cons_self, hpart.what.2, hpart.fewer⟩
    · obtain ⟨whole, hwhole, hfewer⟩ := ih hm
      exact ⟨whole, List.mem_cons_of_mem _ hwhole, hfewer⟩
  | gone hgone h ih =>
    obtain ⟨whole, hwhole, hfewer⟩ := ih hm
    exact ⟨whole, List.mem_cons_of_mem _ hwhole, hfewer⟩

/-- What is told of the files of others changes nothing of what is listed of a publisher's. -/
theorem ConnectionWorld.deliver_others [MuscleLibrary] {seats : Seats} (hseats : seats.IsProper)
    (w : ConnectionWorld) (now : UInt64) (message : ServerMessage)
    (h : message.what = .resultDataItems → message.IsAboutOtherFiles seats) :
    (w.deliver fun w => w.messageReceived now message).query = w.query ∧
      (w.deliver fun w => w.messageReceived now message).listedFiles seats =
        w.listedFiles seats ∧
      DoesOnly (·.asksNothing = true) w (w.deliver fun w => w.messageReceived now message) := by
  rw [deliver]
  split
  · obtain ⟨hquery, hlisted⟩ := w.messageReceived_listedFiles hseats now message
    refine ⟨hquery, hlisted.trans ?_, ?_⟩
    · funext n fileName
      rw [tellFiles]
      split
      · next hwhat =>
        have hdrops : message.removedDataItems.foldl (dropFile (seats.sessionOf n) fileName)
            (w.listedFiles seats n fileName) = w.listedFiles seats n fileName :=
          foldl_eq_self fun nodePath hm => if_neg ((h hwhat).removed nodePath hm n fileName)
        rw [hdrops]
        exact foldl_eq_self fun node hm =>
          if_neg fun hadded => (h hwhat).updated node hm n fileName hadded.1
      · rfl
    · by_cases hwhat : message.what = .resultDataItems
      · have hreads : w.messageReceived now message = w.handleDataItems message := by
          rw [messageReceived, hwhat]
        rw [hreads]
        apply handleDataItems_of_effect (I := DoesOnly (·.asksNothing = true) w) _ (.refl _ w)
        intro nodePath _ w₁ w₂ heffect hnothing
        cases heffect with
        | nothing => exact hnothing
        | _ => exact hnothing.trans (.one rfl rfl)
      · exact (w.messageReceived_leavesQuery now hwhat).2.imp
          fun o => ConnectionOccurrence.asksNothing_of_leavesQuery
  · exact ⟨rfl, rfl, .refl _ w⟩

namespace SharedServer

/-- What a subscriber has found of a publisher's files, with what it is still to be told. -/
structure IsListed [MuscleLibrary] [MuscleRelay] (seats : Seats) (s : SharedServer) : Prop where
  mirrored : s.IsMirrored seats
  holds : s.source.server.HoldsFilesOf s.source.toServerConnection
  catchesUp : s.CatchesUp (tellFiles seats s.replica.query) (ConnectionWorld.listedFiles seats)
    (Publisher.foundFiles seats s.replica.query)
  idle : s.replica.query = none → s.replica.listedFiles seats = fun _ _ => none
  asked : s.source.server.hearsUsers = true → s.replica.query = none →
    s.source.server.patterns = []
  offline : s.replica.isConnected = false → s.replica.listedFiles seats = fun _ _ => none

section
variable [MuscleLibrary] [MuscleRelay]

/-- What is still on its way of a former query and passes for a result of a new one is one. -/
def FindsAfresh (seats : Seats) (s : SharedServer) (e : ServerConnectionEvent) : Prop :=
  ∀ sessionExpression fileExpression, e.call = .startQuery sessionExpression fileExpression →
    ∀ message ∈ s.inFlight, message.what = .resultDataItems → ∀ node ∈ message.updatedNodes,
      ∀ n fileName, IsNodeOfFile (seats.sessionOf n) fileName node.1 →
        FileQuery.accepts ⟨queryPattern sessionExpression, queryPattern fileExpression⟩
          (seats.sessionOf n) fileName = true →
        (handle s (.subscriber e)).source.foundFiles seats
          (s.replica.handle e).query n fileName ≠ none

/-- What either side does by itself, where files matter. -/
def AdmitsFiles (seats : Seats) (s : SharedServer) : SharedServerEvent → Prop
  | .publisher e => s.source.Admits e ∧ s.source.LeavesNoFiles e
  | .arrival _ => True
  | .subscriber e => s.replica.AdmitsOwn seats e ∧ s.FindsAfresh seats e ∧
      ∀ message, e.call = .messageReceived message → message.what = .resultDataItems →
        message.IsAboutOtherFiles seats

theorem IsListed.publishes {seats : Seats} (hserves : MuscleRelay.Serves seats)
    (hseats : seats.IsProper) (hlibrary : MuscleLibrary.ReadsPaths)
    (hinflates : MuscleLibrary.LeavesFileNodes) (hspared : MuscleServer.SparesUsers)
    (hcovers : MuscleServer.CoversFiles) {s : SharedServer} (h : s.IsListed seats)
    (he : s.source.Admits e) (hleaves : s.source.LeavesNoFiles e) :
    IsListed seats (handle s (.publisher e)) := by
  obtain ⟨htold, hholds⟩ := h.mirrored.publisher.tellsFiles hserves hseats hlibrary hinflates
    hcovers s.replica.query h.holds he hleaves
  obtain ⟨hears, -⟩ := h.mirrored.publisher.handle hserves hspared he
  have hasked : (s.source.handle e).server.hearsUsers = s.source.server.hearsUsers ∧
      (s.source.handle e).server.patterns = s.source.server.patterns := by
    rw [Publisher.server, Publisher.handle, ServerState.side_afterAll hserves hears,
      Publisher.hosted]
    split
    · rw [Publisher.side_endSession hserves]
      exact ⟨rfl, rfl⟩
    · exact ⟨rfl, rfl⟩
  constructor
  · exact h.mirrored.publishes hserves hseats hlibrary hspared he
  · exact hholds
  · exact h.catchesUp.send htold
  · exact h.idle
  · exact fun hhears hidle => hasked.2.trans (h.asked (hasked.1.symm.trans hhears) hidle)
  · exact h.offline

theorem IsListed.arrives {seats : Seats} (hseats : seats.IsProper) {s : SharedServer}
    (h : s.IsListed seats) (now : UInt64) : IsListed seats (handle s (.arrival now)) := by
  have harrived : IsMirrored seats (s.arrive (read now)) := h.mirrored.arrives hseats now
  have hread (message : ServerMessage) (hm : message ∈ s.inFlight) :
      (read now s.replica message).query = s.replica.query ∧
        (read now s.replica message).listedFiles seats =
          tellFiles seats s.replica.query (s.replica.listedFiles seats) message := by
    rw [h.mirrored.read_messageReceived hm now]
    exact s.replica.messageReceived_listedFiles hseats now message
  have hcatches := h.catchesUp.arrive fun message hm => (hread message hm).2
  change IsListed seats (s.arrive (read now))
  rw [FifoLink.arrive] at hcatches harrived ⊢
  split at hcatches
  · exact h
  · next message later hfirst =>
    have hm : message ∈ s.inFlight := hfirst ▸ List.mem_cons_self
    have hmirrored : IsMirrored seats
        { s with inFlight := later, replica := read now s.replica message } := by
      rwa [hfirst] at harrived
    obtain ⟨hquery, hlisted⟩ := hread message hm
    constructor
    · exact hmirrored
    · exact h.holds
    · change FifoLink.CatchesUp (tellFiles seats (read now s.replica message).query) _
        (Publisher.foundFiles seats (read now s.replica message).query) _
      rw [hquery]
      exact hcatches
    · intro hidle
      have hidle : s.replica.query = none := hquery.symm.trans hidle
      rw [hlisted, hidle, h.idle hidle]
      exact foldl_tellFiles_none seats [message]
    · exact fun hears hidle => h.asked hears (hquery.symm.trans hidle)
    · intro hoff
      have hdeaf : s.source.server.hearsUsers = false := hmirrored.connected.trans hoff
      cases (h.mirrored.silent hdeaf).symm.trans hfirst

/-- Where nothing is said or heard of a query, the results stay as they are. -/
theorem IsListed.leavesQuery {seats : Seats} (hserves : MuscleRelay.Serves seats)
    {s : SharedServer} (h : s.IsListed seats) (hends : s.replica.endsSession e = false)
    (hmirrored : IsMirrored seats (handle s (.subscriber e)))
    (hquery : (s.replica.handle e).query = s.replica.query)
    (hlisted : (s.replica.handle e).listedFiles seats = s.replica.listedFiles seats)
    (hnothing : ∀ o ∈ occurrencesOf s.replica e, o.asksNothing = true) :
    IsListed seats (handle s (.subscriber e)) := by
  obtain ⟨hheeds, hanswers⟩ :=
    ServerState.heedAll_of_asksNothing hserves s.source.state s.inFlight hnothing
  have hhandle : handle s (.subscriber e) =
      { source := { s.source with state := s.source.state.heedAll (occurrencesOf s.replica e) }
        inFlight := s.inFlight
        replica := s.replica.handle e } := by
    simp only [handle, hends, Bool.false_eq_true, if_false, hanswers]
  rw [hhandle] at hmirrored ⊢
  have hserver : Publisher.server { s.source with
      state := s.source.state.heedAll (occurrencesOf s.replica e) } = s.source.server := hheeds
  constructor
  · exact hmirrored
  · rw [hserver]
    exact h.holds
  · rw [FifoLink.CatchesUp, Publisher.foundFiles, hserver, hquery, hlisted]
    exact h.catchesUp
  · exact fun hidle => hlisted.trans (h.idle (hquery.symm.trans hidle))
  · rw [hserver]
    exact fun hears hidle => h.asked hears (hquery.symm.trans hidle)
  · exact fun hoff =>
      hlisted.trans (h.offline ((ConnectionWorld.isConnected_handle hends).symm.trans hoff))

theorem isListed_of_nothing {seats : Seats} {s : SharedServer} (hmirrored : s.IsMirrored seats)
    (hholds : s.source.server.HoldsFilesOf s.source.toServerConnection)
    (hlisted : s.replica.listedFiles seats = fun _ _ => none)
    (hcoming : s.inFlight.foldl (tellFiles seats s.replica.query) (fun _ _ => none) =
      fun _ _ => none)
    (hfound : s.source.foundFiles seats s.replica.query = fun _ _ => none)
    (hasked : s.source.server.hearsUsers = true → s.source.server.patterns = []) :
    s.IsListed seats := by
  refine ⟨hmirrored, hholds, ?_, fun _ => hlisted, fun hears _ => hasked hears, fun _ => hlisted⟩
  rw [FifoLink.CatchesUp, hlisted, hcoming, hfound]

omit [MuscleLibrary] [MuscleRelay] in
theorem listedFiles_eq_none {seats : Seats} {w : ConnectionWorld}
    (h : w.listedFiles seats = fun _ _ => none) (n : Nat) (fileName : String) :
    w.listedFile (seats.sessionOf n) fileName = none := congrFun (congrFun h n) fileName

/-- What is told late of a former query is no more than what the new one finds. -/
theorem FindsAfresh.foundFiles {seats : Seats} {s : SharedServer} (h : s.FindsAfresh seats e)
    (hcall : e.call = .startQuery sessionExpression fileExpression)
    (hkept : IsLeftOver kept s.inFlight)
    (hlate : kept.foldl (tellFiles seats
      (some ⟨queryPattern sessionExpression, queryPattern fileExpression⟩)) (fun _ _ => none) n
        fileName ≠ none) :
    (handle s (.subscriber e)).source.foundFiles seats (s.replica.handle e).query n fileName ≠
      none := by
  obtain ⟨part, hm, hwhat, node, hnode, hfile, haccepts⟩ := exists_of_foldl_tellFiles rfl hlate
  obtain ⟨message, hwhole, hdata, hfewer⟩ := hkept.exists_whole hm hwhat
  exact h _ _ hcall message hwhole hdata node (hfewer hnode) n fileName hfile haccepts

/-- A new query takes the place of the old one and of its results. -/
theorem IsListed.startsQuery {seats : Seats} (hserves : MuscleRelay.Serves seats)
    (hseats : seats.IsProper) (hlibrary : MuscleLibrary.ReadsPaths)
    (hinflates : MuscleLibrary.LeavesFileNodes) {s : SharedServer} (h : s.IsListed seats)
    (hc : s.replica.isConnected = true)
    (hcall : e.call = .startQuery sessionExpression fileExpression)
    (hmirrored : IsMirrored seats (handle s (.subscriber e)))
    (hafresh : s.FindsAfresh seats e) : IsListed seats (handle s (.subscriber e)) := by
  have hends : s.replica.endsSession e = false := by rw [ServerConnection.endsSession, hcall]
  have hstarts : s.replica.handle e = s.replica.startQuery sessionExpression fileExpression := by
    rw [ConnectionWorld.handle, hcall]
  have hears : s.source.server.hearsUsers = true := h.mirrored.connected.trans hc
  obtain ⟨before, hstops, -⟩ := s.replica.stopQuery_spares.only
  obtain ⟨hforgets, hkept⟩ := ServerState.heedAll_stopQuery hserves s.source.state s.inFlight hc
    (fun hoff => h.asked hears (if_neg (Bool.eq_false_iff.mp hoff))) hstops
  have hsaid := s.replica.startQuery_history sessionExpression fileExpression hc
  rw [hstops, List.append_assoc, ← hstarts] at hsaid
  have hquery : (s.replica.handle e).query = some
      ⟨queryPattern sessionExpression, queryPattern fileExpression⟩ :=
    hstarts ▸ s.replica.startQuery_query sessionExpression fileExpression hc
  have hlisted : (s.replica.handle e).listedFiles seats = fun _ _ => none := by
    funext n fileName
    rw [ConnectionWorld.listedFiles, hstarts]
    exact s.replica.startQuery_listedFile _ _ hc fun hidle =>
      listedFiles_eq_none (h.idle hidle) n fileName
  have hnames := queryMessage_isQuery sessionExpression fileExpression s.replica.firewalled
  have hwhat : (queryMessage sessionExpression fileExpression s.replica.firewalled).what =
    .setParameters := rfl
  generalize queryMessage sessionExpression fileExpression s.replica.firewalled = message at *
  have hours := ServerMessage.isOurs_of_isQuery hwhat hnames
  -- the server as the new query finds it, and as the ping after the query does
  let state := s.source.state.heedAll before
  let later : List ConnectionOccurrence :=
    [.sent (queryPing s.replica.pingCount), .querySweepStateChanged true]
  have hlater : ∀ o ∈ later, o.asksNothing = true := by
    intro o hm
    rcases List.mem_pair.mp hm with rfl | rfl <;> rfl
  obtain ⟨hheeds, hanswers⟩ := ServerState.heedAll_of_asksNothing hserves
    (state.heed (.sent message)) (MuscleRelay.keep state message
      (s.source.state.queueAll s.inFlight before) ++ MuscleRelay.answer state message) hlater
  have hwords : occurrencesOf s.replica e = before ++ .sent message :: later :=
    occurrencesOf_append hsaid
  have hinFlight : (handle s (.subscriber e)).inFlight =
      s.source.state.queueAll s.inFlight before ++ MuscleRelay.answer state message := by
    simp only [handle, hends, Bool.false_eq_true, if_false]
    rw [hwords, ServerState.queueAll_append, ServerState.queueAll]
    refine hanswers.trans ?_
    rw [hserves.keeps state message _ hours (by rw [hwhat]; decide)]
  have hserver : (handle s (.subscriber e)).source.server =
      (state.heed (.sent message)).side := by
    simp only [handle, hends, Bool.false_eq_true, if_false]
    rw [Publisher.server, hwords, ServerState.heedAll_append]
    exact hheeds
  have hsound : state.side.IsSound := by
    apply ServerState.isSound_of_node h.mirrored.publisher.server
    rw [hforgets]
    exact ⟨rfl, rfl⟩
  have hholds : state.side.HoldsFilesOf s.source.toServerConnection := by
    rw [hforgets]
    exact h.holds
  have hnode : (state.heed (.sent message)).side.node = state.side.node := by
    apply congrArg ServerSide.node (hserves.subscribes state message hours hwhat)
  constructor
  · exact hmirrored
  · rw [hserver, ServerSide.HoldsFilesOf, hnode]
    exact hholds
  · have hfound : (handle s (.subscriber e)).source.foundFiles seats (s.replica.handle e).query =
        (state.heed (.sent message)).side.foundFile seats (s.replica.handle e).query
          s.source.toServerConnection := by
      rw [Publisher.foundFiles, hserver]
      rfl
    change (handle s (.subscriber e)).inFlight.foldl (tellFiles seats (s.replica.handle e).query)
      ((s.replica.handle e).listedFiles seats) = _
    rw [hinFlight, hlisted, List.foldl_append]
    refine (ServerState.tellFiles_query hserves hseats hlibrary hinflates _ hsound hholds ?_ ?_
      hnames hwhat ?_).trans hfound.symm
    · rw [hforgets]
      exact hears
    · rw [hforgets]
    · intro n fileName hlate
      rw [← hfound]
      rw [hquery] at hlate
      exact hafresh.foundFiles hcall hkept hlate
  · intro hidle
    cases hquery.symm.trans hidle
  · intro _ hidle
    cases hquery.symm.trans hidle
  · intro hoff
    have hstays := ConnectionWorld.isConnected_handle hends
    cases (hstays.trans hc).symm.trans hoff

theorem IsListed.stopsQuery {seats : Seats} (hserves : MuscleRelay.Serves seats)
    {s : SharedServer} (h : s.IsListed seats) (hcall : e.call = .stopQuery)
    (hmirrored : IsMirrored seats (handle s (.subscriber e))) :
    IsListed seats (handle s (.subscriber e)) := by
  have hends : s.replica.endsSession e = false := by rw [ServerConnection.endsSession, hcall]
  have hstops : s.replica.handle e = s.replica.stopQuery := by
    rw [ConnectionWorld.handle, hcall]
  have hquery : (s.replica.handle e).query = none := hstops ▸ s.replica.stopQuery_query
  have hreplica : (handle s (.subscriber e)).replica = s.replica.handle e := rfl
  have hserver : (handle s (.subscriber e)).source.server =
      (s.source.state.heedAll (occurrencesOf s.replica e)).side := by
    simp only [handle, hends, Bool.false_eq_true, if_false]
    rfl
  apply isListed_of_nothing hmirrored
  · have hothers := s.replica.handle_leavesUsers e (by
      rintro ⟨connectedTo, hlogin, -⟩
      cases hcall.symm.trans hlogin)
    rw [hserver, ServerSide.HoldsFilesOf,
      (ServerState.node_heedAll hserves s.source.state hothers).1]
    exact h.holds
  · funext n fileName
    rw [ConnectionWorld.listedFiles, hreplica, hstops]
    exact s.replica.stopQuery_listedFile fun hidle =>
      listedFiles_eq_none (h.idle hidle) n fileName
  · rw [hreplica, hquery]
    exact foldl_tellFiles_none seats _
  · rw [hreplica, hquery]
    funext n fileName
    exact if_neg fun hn => Bool.false_ne_true hn.2.1
  · intro hears
    have hc : s.replica.isConnected = true :=
      (ConnectionWorld.isConnected_handle hends).symm.trans (hmirrored.connected.symm.trans hears)
    obtain ⟨said, hsaid, -⟩ := s.replica.stopQuery_spares.only
    have hwords : occurrencesOf s.replica e = said := by
      rw [occurrencesOf, hstops, hsaid, List.drop_left]
    obtain ⟨hforgets, -⟩ := ServerState.heedAll_stopQuery hserves s.source.state s.inFlight hc
      (fun hoff => h.asked (h.mirrored.connected.trans hc) (if_neg (Bool.eq_false_iff.mp hoff)))
      hsaid
    rw [hserver, hwords, hforgets]

theorem IsListed.goesOn {seats : Seats} (hserves : MuscleRelay.Serves seats)
    (hseats : seats.IsProper) (hlibrary : MuscleLibrary.ReadsPaths)
    (hinflates : MuscleLibrary.LeavesFileNodes) {s : SharedServer} (h : s.IsListed seats)
    (he : s.AdmitsFiles seats (.subscriber e)) (hends : s.replica.endsSession e = false) :
    IsListed seats (handle s (.subscriber e)) := by
  obtain ⟨hadmits, hafresh, hothers⟩ := he
  have hmirrored := h.mirrored.goesOn hserves hseats hlibrary hadmits hends
  by_cases hstart : ∃ sessionExpression fileExpression,
      e.call = .startQuery sessionExpression fileExpression
  · obtain ⟨sessionExpression, fileExpression, hcall⟩ := hstart
    cases hc : s.replica.isConnected with
    | true => exact h.startsQuery hserves hseats hlibrary hinflates hc hcall hmirrored hafresh
    | false =>
      have hsame : s.replica.handle e = s.replica := by
        rw [ConnectionWorld.handle, hcall]
        exact if_pos hc
      apply h.leavesQuery hserves hends hmirrored
      · rw [hsame]
      · rw [hsame]
      · rw [occurrencesOf, hsame, List.drop_length]
        exact fun o hm => absurd hm List.not_mem_nil
  by_cases hstop : e.call = .stopQuery
  · exact h.stopsQuery hserves hstop hmirrored
  by_cases hmessage : ∃ message, e.call = .messageReceived message
  · obtain ⟨message, hcall⟩ := hmessage
    obtain ⟨hquery, hlisted, hnothing⟩ :=
      s.replica.deliver_others hseats e.now message (hothers message hcall)
    have hhandle : s.replica.handle e =
        s.replica.deliver fun w => w.messageReceived e.now message := by
      rw [ConnectionWorld.handle, hcall]
    rw [← hhandle] at hquery hlisted hnothing
    exact h.leavesQuery hserves hends hmirrored hquery hlisted hnothing.drop
  obtain ⟨hquery, hleaves⟩ := s.replica.handle_leavesQuery e hends
    (fun message hcall => hmessage ⟨message, hcall⟩)
    (fun _ _ hcall => hstart ⟨_, _, hcall⟩) hstop
  apply h.leavesQuery hserves hends hmirrored hquery
  · funext n fileName
    exact ConnectionWorld.listedFile_of_leavesQuery hleaves
  · exact fun o hm => ConnectionOccurrence.asksNothing_of_leavesQuery (hleaves.drop o hm)

theorem IsListed.leaves {seats : Seats} (hserves : MuscleRelay.Serves seats)
    (hseats : seats.IsProper) {s : SharedServer} (h : s.IsListed seats)
    (hends : s.replica.endsSession e = true)
    (hlogin : ∀ connectedTo, e.call ≠ .sessionConnected connectedTo) :
    IsListed seats (handle s (.subscriber e)) := by
  have hmirrored := h.mirrored.leaves hserves hseats hends hlogin
  have hdeaf : (handle s (.subscriber e)).source.server.hearsUsers = false :=
    hmirrored.connected.trans (ConnectionWorld.isConnected_of_endsSession hends hlogin)
  apply isListed_of_nothing hmirrored
  · have hothers := s.replica.handle_leavesUsers e (by
      rintro ⟨connectedTo, hcall, -⟩
      exact hlogin connectedTo hcall)
    have hserver : (handle s (.subscriber e)).source.server =
        (s.source.state.forget.heedAll (occurrencesOf s.replica e)).side := by
      simp only [handle, hends, if_true]
      rfl
    rw [hserver, ServerSide.HoldsFilesOf, (ServerState.node_heedAll hserves _ hothers).1,
      ServerState.side_forget hserves]
    exact h.holds
  · funext n fileName
    exact s.replica.listedFile_of_endsSession e hends hlogin fun hoff =>
      listedFiles_eq_none (h.offline hoff) n fileName
  · rw [hmirrored.silent hdeaf]
    rfl
  · exact ServerSide.foundFile_of_deaf hdeaf ..
  · exact fun hears => absurd (hdeaf.symm.trans hears) Bool.false_ne_true

/-- A subscriber that comes, or comes back, asks for no files yet. -/
theorem IsListed.comes {seats : Seats} (hserves : MuscleRelay.Serves seats)
    (hseats : seats.IsProper) (hlibrary : MuscleLibrary.ReadsPaths) {s : SharedServer}
    (h : s.IsListed seats) (hoff : s.replica.isConnected = false)
    (hcall : e.call = .sessionConnected connectedTo)
    (hrunning : s.replica.internalThreadRunning = true) :
    IsListed seats (handle s (.subscriber e)) := by
  have hends : s.replica.endsSession e = true := by
    rw [ServerConnection.endsSession, hcall, hrunning]
  have hconnection : s.replica.handle e = s.replica.sessionConnected e.now connectedTo := by
    rw [ConnectionWorld.handle, hcall]
    exact if_pos hrunning
  have hasksNoFiles : ∀ o ∈ occurrencesOf s.replica e, o.AsksNoFiles := by
    rw [occurrencesOf, hconnection]
    exact (s.replica.sessionConnected_asksNoFiles e.now connectedTo).drop
  have hforgot := ServerState.side_forget hserves s.source.state
  have hsound : s.source.state.forget.side.IsSound := by
    apply ServerState.isSound_of_node h.mirrored.publisher.server
    rw [hforgot]
    exact ⟨rfl, rfl⟩
  have hhandle : handle s (.subscriber e) =
      { source := { s.source with
          state := s.source.state.forget.heedAll (occurrencesOf s.replica e) }
        inFlight := s.source.state.forget.queueAll [] (occurrencesOf s.replica e)
        replica := s.replica.handle e } := by
    simp only [handle, hends, if_true]
  have hnothing : ([] : List ServerMessage).foldl (tellFiles seats (s.replica.handle e).query)
    (fun _ _ => none) = fun _ _ => none := rfl
  obtain ⟨htold, hpatterns, hnode⟩ := ServerState.tellFiles_queueAll hserves hseats hlibrary
    (s.replica.handle e).query hsound (by rw [hforgot]) hasksNoFiles hnothing
  apply isListed_of_nothing (h.mirrored.comes hserves hseats hlibrary hoff hcall hrunning)
  · have hsame : (handle s (.subscriber e)).source.server.node = s.source.server.node := by
      rw [hhandle]
      refine hnode.trans ?_
      rw [hforgot]
      rfl
    rw [ServerSide.HoldsFilesOf, hsame]
    exact h.holds
  · funext n fileName
    have hroutine : e.call.isRoutine = true := by rw [hcall]; rfl
    exact ConnectionWorld.listedFile_none (s.replica.handle_spares e hroutine).only
      (listedFiles_eq_none (h.offline hoff) n fileName)
  · rw [hhandle]
    exact htold
  · rw [hhandle]
    exact ServerSide.foundFile_of_noPatterns hpatterns ..
  · intro _
    rw [hhandle]
    exact hpatterns

theorem IsListed.handle {seats : Seats} (hserves : MuscleRelay.Serves seats)
    (hseats : seats.IsProper) (hlibrary : MuscleLibrary.ReadsPaths)
    (hinflates : MuscleLibrary.LeavesFileNodes) (hspared : MuscleServer.SparesUsers)
    (hcovers : MuscleServer.CoversFiles) {s : SharedServer} (h : s.IsListed seats)
    {e : SharedServerEvent} (he : s.AdmitsFiles seats e) : IsListed seats (handle s e) := by
  cases e with
  | publisher e => exact h.publishes hserves hseats hlibrary hinflates hspared hcovers he.1 he.2
  | arrival now => exact h.arrives hseats now
  | subscriber e =>
    cases hends : s.replica.endsSession e with
    | false => exact h.goesOn hserves hseats hlibrary hinflates he hends
    | true =>
      by_cases hlogin : ∃ connectedTo, e.call = .sessionConnected connectedTo
      · obtain ⟨connectedTo, hcall⟩ := hlogin
        have hrunning : s.replica.internalThreadRunning = true := by
          rwa [ServerConnection.endsSession, hcall] at hends
        exact h.comes hserves hseats hlibrary (he.1.login connectedTo hcall) hcall hrunning
      · exact h.leaves hserves hseats hends fun connectedTo hcall => hlogin ⟨connectedTo, hcall⟩

end

end SharedServer

end HiTuxShare
