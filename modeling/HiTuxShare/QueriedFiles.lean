import HiTuxShare.SubscriberSteps
import HiTuxShare.ToldFiles

namespace HiTuxShare
set_option autoImplicit true

open MuscleLibrary

/-- The message that asks for the results of a query. -/
def queryMessage (sessionExpression fileExpression : String) (isFirewalled : Bool) :
    ServerMessage :=
  { toMessage := (Message.ofWhat .setParameters).addBool
      (makeQuerySubscriptionPath (queryPattern sessionExpression) (queryPattern fileExpression)
        isFirewalled) true }

theorem queryMessage_isQuery (sessionExpression fileExpression : String) (isFirewalled : Bool) :
    (queryMessage sessionExpression fileExpression isFirewalled).isQuery = true :=
  ServerMessage.isQuery_addBool (ConnectionWorld.isQueryPath_makeQuerySubscriptionPath ..)

/-- No files are asked for. -/
inductive ConnectionOccurrence.AsksNoFiles : ConnectionOccurrence → Prop
  | nothing (h : o.asksNothing = true) : AsksNoFiles o
  | users : AsksNoFiles (.sent subscribeMessage)

namespace ConnectionWorld

theorem startQuery_history (w : ConnectionWorld) (sessionExpression fileExpression : String)
    (hc : w.isConnected = true) :
    (w.startQuery sessionExpression fileExpression).history = w.stopQuery.history ++
      [.sent (queryMessage sessionExpression fileExpression w.firewalled),
        .sent (queryPing w.pingCount), .querySweepStateChanged true] := by
  have hfirewalled : w.stopQuery.firewalled = w.firewalled :=
    congrArg FilesAndQuery.firewalled w.stopQuery_spares.kept
  have hcount : w.stopQuery.pingCount = w.pingCount :=
    congrArg FilesAndQuery.pingCount w.stopQuery_spares.kept
  have hon : ¬w.isConnected = false := by simp only [hc, reduceCtorEq, not_false_eq_true]
  rw [startQuery, if_neg hon, ← hfirewalled, ← hcount]
  change w.stopQuery.history ++ [_] ++ [_] ++ [_] = _
  rw [List.append_assoc, List.append_assoc]
  rfl

theorem listedFile_cleared (w : ConnectionWorld) (isSweeping : Bool) :
    ((w.note .queryResultsCleared).note (.querySweepStateChanged isSweeping)).listedFile
      sessionId fileName = none := by
  have hhistory :
      ((w.note .queryResultsCleared).note (.querySweepStateChanged isSweeping)).history =
      w.history ++ [.queryResultsCleared, .querySweepStateChanged isSweeping] := by
    change w.history ++ [_] ++ [_] = _
    rw [List.append_assoc]
    rfl
  rw [listedFile_append hhistory]
  rfl

/-- A query that ends takes its results with it. -/
theorem stopQuery_listedFile (w : ConnectionWorld)
    (hidle : w.query = none → w.listedFile sessionId fileName = none) :
    w.stopQuery.listedFile sessionId fileName = none := by
  simp only [stopQuery]
  split
  · next hoff => exact hidle (if_neg (Bool.eq_false_iff.mp hoff))
  · split
    · exact listedFile_cleared _ false
    · exact listedFile_cleared _ false

theorem stopQuery_history (w : ConnectionWorld) (hc : w.isConnected = true) :
    w.stopQuery.history = w.history ++ if w.queryActive then
      [.sent { toMessage := .ofWhat .removeParameters, keys := [querySubscriptions] },
        .sent { toMessage := .ofWhat .jettisonResults, keys := [queryResults] },
        .queryResultsCleared, .querySweepStateChanged false] else [] := by
  simp only [stopQuery]
  split
  · next hoff =>
    rw [hoff]
    exact (List.append_nil _).symm
  · next hactive =>
    rw [Bool.eq_true_of_not_eq_false hactive]
    split
    · change w.history ++ [_] ++ [_] ++ [_] ++ [_] = _
      simp only [List.append_assoc, List.cons_append, List.nil_append, if_true]
    · next hno => exact absurd hc hno

theorem stopQuery_query (w : ConnectionWorld) : w.stopQuery.query = none := by
  have hoff : w.stopQuery.queryActive = false :=
    congrArg SessionState.queryActive w.stopQuery_session
  exact if_neg (Bool.eq_false_iff.mp hoff)

theorem sessionConnected_asksNoFiles (w : ConnectionWorld) (now : UInt64) (connectedTo : String) :
    DoesOnly (·.AsksNoFiles) w (w.sessionConnected now connectedTo) := by
  refine ⟨_, w.sessionConnected_history now connectedTo, fun o hm => ?_⟩
  rcases List.mem_append.mp hm with hm | hm
  · split at hm
    · cases hm
    · rw [List.mem_singleton.mp hm]
      exact .nothing rfl
  · simp only [List.mem_cons, List.not_mem_nil, or_false] at hm
    rcases hm with rfl | rfl | rfl | rfl | rfl
    · exact .nothing rfl
    · exact .nothing rfl
    · exact .nothing rfl
    · exact .users
    · exact .nothing rfl

theorem startQuery_listedFile (w : ConnectionWorld) (sessionExpression fileExpression : String)
    (hc : w.isConnected = true)
    (hidle : w.query = none → w.listedFile sessionId fileName = none) :
    (w.startQuery sessionExpression fileExpression).listedFile sessionId fileName = none := by
  rw [listedFile_append (w.startQuery_history sessionExpression fileExpression hc),
    w.stopQuery_listedFile hidle]
  rfl

theorem startQuery_query (w : ConnectionWorld) (sessionExpression fileExpression : String)
    (hc : w.isConnected = true) :
    (w.startQuery sessionExpression fileExpression).query =
      some ⟨queryPattern sessionExpression, queryPattern fileExpression⟩ := by
  rw [ServerConnection.query, w.startQuery_replaces sessionExpression fileExpression hc]
  rfl

variable [MuscleLibrary]

/-- What a call in a session does that neither starts a query nor stops it. -/
theorem handle_leavesQuery (w : ConnectionWorld) (e : ServerConnectionEvent)
    (hends : w.endsSession e = false) (hm : ∀ message, e.call ≠ .messageReceived message)
    (hstart : ∀ sessionExpression fileExpression,
      e.call ≠ .startQuery sessionExpression fileExpression) (hstop : e.call ≠ .stopQuery) :
    (w.handle e).query = w.query ∧ DoesOnly (·.leavesQuery = true) w (w.handle e) := by
  have hsame : w.query = w.query ∧ DoesOnly (·.leavesQuery = true) w w := ⟨rfl, .refl _ w⟩
  have hsilent {w' : ConnectionWorld} (hq : w'.query = w.query) (hh : w'.history = w.history) :
      w'.query = w.query ∧ DoesOnly (·.leavesQuery = true) w w' := ⟨hq, .of_history_eq _ hh⟩
  have hone {w' : ConnectionWorld} {message : ServerMessage} (hq : w'.query = w.query)
      (hh : w'.history = w.history ++ [.sent message])
      (hs : ConnectionOccurrence.leavesQuery (.sent message) = true) :
      w'.query = w.query ∧ DoesOnly (·.leavesQuery = true) w w' := ⟨hq, .one hh hs⟩
  have hcleans (w' : ConnectionWorld) (hq : w'.query = w.query) (hh : w'.history = w.history) :
      w'.unpublishAllSharedFiles.query = w.query ∧
        DoesOnly (·.leavesQuery = true) w w'.unpublishAllSharedFiles := by
    constructor
    · rw [unpublishAllSharedFiles_toServerConnection]
      exact hq
    · have hsaid := w'.unpublishAllSharedFiles_history
      rw [hh] at hsaid
      split at hsaid
      · exact .one hsaid rfl
      · exact .of_history_eq _ (hsaid.trans (List.append_nil _))
  obtain ⟨call, network, now⟩ := e
  cases call with
  | connectToServer hostName port => cases hends
  | disconnectFromServer => cases hends
  | setInstallId => exact hsilent rfl rfl
  | setLocalUserName name =>
    simp only [handle, setLocalUserName]
    split
    · exact hsame
    · split
      · exact hsame
      · split
        · exact hone rfl rfl rfl
        · exact hsilent rfl rfl
  | setLocalUserStatus status =>
    simp only [handle, setLocalUserStatus]
    split
    · exact hsame
    · split
      · exact hone rfl rfl rfl
      · exact hsilent rfl rfl
  | sendChatText targetSessionId text =>
    simp only [handle, sendChatText]
    split
    · exact hsame
    · refine hone rfl rfl ?_
      split <;> rfl
  | sendPing targetSessionId =>
    simp only [handle, sendPing]
    split
    · exact hsame
    · exact hone rfl rfl rfl
  | startQuery sessionExpression fileExpression => exact absurd rfl (hstart _ _)
  | stopQuery => exact absurd rfl hstop
  | setFirewalled firewalled =>
    simp only [handle, setFirewalled]
    split
    · exact hsame
    · split
      · exact hcleans { w with firewalled } rfl rfl
      · exact hsilent rfl rfl
  | setAdvertisedPort port =>
    simp only [handle, setAdvertisedPort]
    split
    · exact hsame
    · split
      · exact hone rfl rfl rfl
      · exact hsilent rfl rfl
  | publishSharedFiles files =>
    simp only [handle, publishSharedFiles]
    split
    · constructor
      · rw [publishBatches_toServerConnection]
        rfl
      · apply (w.publishBatches_setData [] files).imp
        rintro _ ⟨message, rfl, hwhat⟩
        rw [ConnectionOccurrence.leavesQuery, ServerMessage.isOurs, hwhat]
        rfl
    · exact hsame
  | unpublishAllSharedFiles => exact hcleans w rfl rfl
  | publishSharedFileCount fileCount =>
    simp only [handle, publishSharedFileCount]
    split
    · exact hone rfl rfl rfl
    · exact hsame
  | performIdleTasks idle =>
    simp only [handle, performIdleTasks]
    split
    · exact hsame
    · split
      · exact hone rfl rfl rfl
      · exact hsame
  | sessionConnected connectedTo =>
    change (w.deliver _).query = _ ∧ DoesOnly _ w (w.deliver _)
    rw [deliver_off hends]
    exact hsame
  | sessionDisconnected =>
    change (w.deliver _).query = _ ∧ DoesOnly _ w (w.deliver _)
    rw [deliver_off hends]
    exact hsame
  | sessionDetached =>
    change (w.deliver _).query = _ ∧ DoesOnly _ w (w.deliver _)
    rw [deliver_off hends]
    exact hsame
  | messageReceived message => exact absurd rfl (hm message)

theorem listedFile_of_endsSession (w : ConnectionWorld) (e : ServerConnectionEvent)
    (hends : w.endsSession e = true)
    (hlogin : ∀ connectedTo, e.call ≠ .sessionConnected connectedTo)
    (hoff : w.isConnected = false → w.listedFile sessionId fileName = none) :
    (w.handle e).listedFile sessionId fileName = none := by
  have hroutine : e.call.isRoutine = true := by
    rw [ServerConnection.endsSession] at hends
    split at hends
    · next hcall => rw [hcall]; rfl
    · next hcall => rw [hcall]; rfl
    · next hcall => rw [hcall]; rfl
    · next hcall => rw [hcall]; rfl
    · next hcall => rw [hcall]; rfl
    · cases hends
  have honly := (w.handle_spares e hroutine).only
  cases hc : w.isConnected with
  | false => exact listedFile_none honly (hoff hc)
  | true =>
    have hup : w.connectionState = .connected := of_decide_eq_true hc
    have hnotDown : w.connectionState ≠ .disconnected := by
      intro hdown
      cases hup.symm.trans hdown
    have hdisconnects : Disconnects w (w.handle e) := by
      obtain ⟨call, network, now⟩ := e
      cases call with
      | connectToServer hostName port => exact w.connectToServer_disconnects network hostName port
      | disconnectFromServer => exact w.disconnectFromServer_disconnects
      | sessionConnected connectedTo => exact absurd rfl (hlogin connectedTo)
      | sessionDisconnected =>
        have hrunning : w.internalThreadRunning = true := hends
        simp only [handle, deliver, hrunning, if_true]
        exact setConnectionState_disconnects rfl (.one rfl rfl)
      | sessionDetached =>
        have hrunning : w.internalThreadRunning = true := hends
        simp only [handle, deliver, hrunning, if_true]
        rw [sessionDetached, if_pos hnotDown]
        exact setConnectionState_disconnects rfl (.of_history_eq _ rfl)
      | _ => cases hends
    obtain ⟨later, hlater, -, htold⟩ := hdisconnects
    rw [listedFile_append hlater]
    have hwords := honly.drop
    rw [hlater, List.drop_left] at hwords
    exact foldl_eq_of_reset (fun _ => rfl) (fun o hm => hearFile_none (hwords o hm))
      (htold hnotDown) _

end ConnectionWorld

section
variable [MuscleLibrary] [MuscleRelay]

namespace ServerSide

theorem foundFile_of_deaf {server : ServerSide} (h : server.hearsUsers = false) (seats : Seats)
    (query : Option FileQuery) (c : ServerConnection) :
    server.foundFile seats query c = fun _ _ => none := by
  funext n fileName
  apply if_neg
  rintro ⟨-, -, hnamed⟩
  rw [isSubscribed, h] at hnamed
  exact Bool.false_ne_true hnamed

theorem foundFile_of_noPatterns {server : ServerSide} (h : server.patterns = []) (seats : Seats)
    (query : Option FileQuery) (c : ServerConnection) :
    server.foundFile seats query c = fun _ _ => none := by
  funext n fileName
  apply if_neg
  rintro ⟨-, -, hnamed⟩
  rw [isSubscribed, isFileNode_filesNodePath, h] at hnamed
  simp at hnamed

omit [MuscleLibrary] in
theorem asks_query (seats : Seats) {server : ServerSide} (hears : server.hearsUsers = true)
    (hnone : server.patterns = []) (hfilesOnly : message.hasName subscribeAll = false)
    (nodePath : String) : server.asks seats message nodePath =
      (isFileNode nodePath &&
        isSubscribed seats { server with patterns := askedPatterns message ++ server.patterns }
          nodePath) := by
  rw [asks, isSubscribed, hnone, List.append_nil]
  cases hfile : isFileNode nodePath with
  | false => rw [if_neg Bool.false_ne_true, hfilesOnly, Bool.false_and]
  | true =>
    rw [if_pos rfl, hears]
    rfl

end ServerSide

namespace ServerState

variable {seats : Seats}

theorem heed_of_asksNothing (hserves : MuscleRelay.Serves seats)
    (state : ServerState) (inFlight : List ServerMessage) (ho : o.asksNothing = true) :
    (state.heed o).side = state.side ∧ state.queue inFlight o = inFlight := by
  cases o with
  | sent message =>
    obtain ⟨hours, hwhat⟩ := Bool.and_eq_true_iff.mp ho
    replace hwhat := of_decide_eq_true hwhat
    simp only [List.mem_cons, List.not_mem_nil, or_false, not_or] at hwhat
    obtain ⟨hsets, hremoves, htakes⟩ := hwhat
    refine ⟨hserves.ignores state message hours hsets hremoves, ?_⟩
    rw [queue, hserves.keeps state message inFlight hours htakes,
      hserves.answersNothing state message hours (.inl hsets), List.append_nil]
  | _ => exact ⟨rfl, rfl⟩

theorem heedAll_of_asksNothing (hserves : MuscleRelay.Serves seats) (state : ServerState)
    (inFlight : List ServerMessage) (h : ∀ o ∈ occurrences, o.asksNothing = true) :
    (state.heedAll occurrences).side = state.side ∧
      state.queueAll inFlight occurrences = inFlight := by
  induction occurrences generalizing state with
  | nil => exact ⟨rfl, rfl⟩
  | cons o later ih =>
    obtain ⟨hheed, hqueue⟩ :=
      heed_of_asksNothing hserves state inFlight (h o List.mem_cons_self)
    obtain ⟨hheeds, hqueues⟩ := ih (state.heed o) fun o' hm => h o' (List.mem_cons_of_mem o hm)
    rw [queueAll, hqueue]
    exact ⟨hheeds.trans hheed, hqueues⟩

/-- A query that ends is forgotten, and nothing more is told of it. -/
theorem heedAll_stopQuery (hserves : MuscleRelay.Serves seats) (state : ServerState)
    (inFlight : List ServerMessage) {w : ConnectionWorld} (hc : w.isConnected = true)
    (hidle : w.queryActive = false → state.side.patterns = [])
    (hsaid : w.stopQuery.history = w.history ++ said) :
    (state.heedAll said).side = { state.side with patterns := [] } ∧
      IsLeftOver (state.queueAll inFlight said) inFlight := by
  obtain rfl := List.append_cancel_left (hsaid.symm.trans (w.stopQuery_history hc))
  cases hactive : w.queryActive with
  | false =>
    constructor
    · change state.side = _
      rw [← hidle hactive]
    · exact .refl inFlight
  | true =>
    let removal : ServerMessage :=
      { toMessage := .ofWhat .removeParameters, keys := [querySubscriptions] }
    let rejection : ServerMessage :=
      { toMessage := .ofWhat .jettisonResults, keys := [queryResults] }
    have hremoved : MuscleRelay.keep state removal inFlight ++ MuscleRelay.answer state removal =
        inFlight := by
      rw [hserves.keeps state removal inFlight rfl (by decide),
        hserves.answersNothing state removal rfl (.inl (by decide)), List.append_nil]
    have hrejected : MuscleRelay.answer (MuscleRelay.heed state removal) rejection = [] :=
      hserves.answersNothing _ rejection rfl (.inl (by decide))
    constructor
    · change MuscleRelay.side (MuscleRelay.heed (MuscleRelay.heed state removal) rejection) = _
      rw [hserves.ignores _ rejection rfl (by decide) (by decide),
        hserves.unsubscribes state removal rfl rfl]
      rfl
    · change IsLeftOver (MuscleRelay.keep (MuscleRelay.heed state removal) rejection
        (MuscleRelay.keep state removal inFlight ++ MuscleRelay.answer state removal) ++
          MuscleRelay.answer (MuscleRelay.heed state removal) rejection) inFlight
      rw [hremoved, hrejected, List.append_nil]
      exact hserves.jettisons _ rejection inFlight rfl rfl

theorem tellFiles_subscribe (hserves : MuscleRelay.Serves seats) (hseats : seats.IsProper)
    (hlibrary : MuscleLibrary.ReadsPaths) (query : Option FileQuery)
    (known : Nat → String → Option FileResult) {state : ServerState} (h : state.side.IsSound) :
    (MuscleRelay.answer state subscribeMessage).foldl (tellFiles seats query) known = known := by
  have hears : (MuscleRelay.side (MuscleRelay.heed state subscribeMessage)).hearsUsers = true := by
    rw [hserves.subscribes state subscribeMessage (by decide) rfl]
    rfl
  have hbrings := hserves.answers state subscribeMessage (by decide) rfl hears
  funext n fileName
  rw [foldl_tellFiles_updates seats query hbrings.what]
  refine foldl_eq_self fun node hm => if_neg ?_
  rintro ⟨hnode, -⟩
  have hd : (MuscleRelay.side (MuscleRelay.heed state subscribeMessage)).isDirectory seats node.1 =
      false := by
    by_contra hd
    exact ServerSide.not_isNodeOfFile_directory hseats hlibrary
      (Bool.eq_true_of_not_eq_false hd) hnode
  obtain ⟨entry, ⟨hentry, hasked⟩, rfl⟩ := (hbrings.told node hd).mp hm
  have hhosted := h.hosted entry.1 (hentry ▸ Option.some_ne_none entry.2)
  have hfile := ServerSide.isFileNode_of_isNodeOfFile hseats hlibrary hhosted hnode
  rw [asks_subscribe, hfile] at hasked
  cases hasked

/-- Who asks for no files is told of none. -/
theorem tellFiles_queueAll (hserves : MuscleRelay.Serves seats) (hseats : seats.IsProper)
    (hlibrary : MuscleLibrary.ReadsPaths) (query : Option FileQuery)
    {known : Nat → String → Option FileResult} {state : ServerState} (h : state.side.IsSound)
    (hnone : state.side.patterns = []) (hothers : ∀ o ∈ occurrences, o.AsksNoFiles)
    (hcaught : inFlight.foldl (tellFiles seats query) known = known) :
    (state.queueAll inFlight occurrences).foldl (tellFiles seats query) known = known ∧
      (state.heedAll occurrences).side.patterns = [] ∧
      (state.heedAll occurrences).side.node = state.side.node := by
  induction occurrences generalizing state inFlight with
  | nil => exact ⟨hcaught, hnone, rfl⟩
  | cons o later ih =>
    have hlater : ∀ o' ∈ later, o'.AsksNoFiles := fun o' hm =>
      hothers o' (List.mem_cons_of_mem o hm)
    cases hothers o List.mem_cons_self with
    | nothing ho =>
      obtain ⟨hheed, hqueue⟩ := heed_of_asksNothing hserves state inFlight ho
      have hnode : (state.heed o).side.node = state.side.node ∧
          (state.heed o).side.hasSet = state.side.hasSet := by
        rw [hheed]
        exact ⟨rfl, rfl⟩
      obtain ⟨htold, hpatterns, hnodes⟩ := ih (isSound_of_node h hnode)
        ((congrArg ServerSide.patterns hheed).trans hnone) hlater (hqueue.symm ▸ hcaught)
      exact ⟨htold, hpatterns, hnodes.trans hnode.1⟩
    | users =>
      have hnode := node_heed_subscribe hserves state
      have hpatterns : (state.heed (.sent subscribeMessage)).side.patterns = [] := by
        rw [side_heed_subscribe hserves]
        exact hnone
      have hcaught' : (state.queue inFlight (.sent subscribeMessage)).foldl
          (tellFiles seats query) known = known := by
        rw [queue, hserves.keeps state subscribeMessage inFlight (by decide) (by decide),
          List.foldl_append,
          hcaught, tellFiles_subscribe hserves hseats hlibrary query known h]
      obtain ⟨htold, hpatterns, hnodes⟩ := ih (isSound_of_node h hnode) hpatterns hlater hcaught'
      exact ⟨htold, hpatterns, hnodes.trans hnode.1⟩

/-- A new query is told of all files there are that it names; what comes late of a former one adds
nothing to that. -/
theorem tellFiles_query (hserves : MuscleRelay.Serves seats) (hseats : seats.IsProper)
    (hlibrary : MuscleLibrary.ReadsPaths) (hinflates : MuscleLibrary.LeavesFileNodes)
    (query : Option FileQuery) {state : ServerState} {c : ServerConnection}
    (h : state.side.IsSound) (hholds : state.side.HoldsFilesOf c)
    (hears : state.side.hearsUsers = true) (hnone : state.side.patterns = [])
    (hquery : message.isQuery = true) (hwhat : message.what = .setParameters)
    {known : Nat → String → Option FileResult}
    (hknown : ∀ n fileName, known n fileName ≠ none →
      (state.heed (.sent message)).side.foundFile seats query c n fileName ≠ none) :
    (MuscleRelay.answer state message).foldl (tellFiles seats query) known =
      (state.heed (.sent message)).side.foundFile seats query c := by
  have hours := ServerMessage.isOurs_of_isQuery hwhat hquery
  have hfilesOnly := ServerMessage.hasName_of_isQuery hquery
  have hasks := state.side.asks_query seats hears hnone hfilesOnly
  have hheed : (state.heed (.sent message)).side =
      { state.side with patterns := askedPatterns message ++ state.side.patterns } := by
    have hside : (state.heed (.sent message)).side = _ :=
      hserves.subscribes state message hours hwhat
    rw [hside, hfilesOnly]
    rfl
  have hbrings : (state.heed (.sent message)).side.Brings seats
      (MuscleRelay.answer state message) _ :=
    hserves.answers state message hours hwhat ((congrArg ServerSide.hearsUsers hheed).trans hears)
  rw [hheed] at hbrings hknown ⊢
  apply hbrings.tellFiles hseats hlibrary hinflates query
  · exact hholds
  · exact fun entry hentry => h.hosted entry.1 (hentry.1 ▸ Option.some_ne_none entry.2)
  · rintro entry ⟨hentry, hasked⟩ -
    have hasked : state.side.asks seats message entry.1 = true := hasked
    rw [hasks, Bool.and_eq_true] at hasked
    exact ⟨hentry, hasked.2⟩
  · intro n fileName
    refine .inr ⟨fun hsome => ?_, hknown n fileName⟩
    obtain ⟨-, -, hnamed, hnode⟩ := ServerSide.foundFile_ne_none_iff.mp hsome
    obtain ⟨data, hdata⟩ := Option.ne_none_iff_exists'.mp hnode
    refine ⟨data, hdata, ?_⟩
    change state.side.asks seats message _ = true
    rw [hasks, isFileNode_filesNodePath, hnamed]
    rfl

end ServerState

end

end HiTuxShare
