import HiTuxShare.QuerySteps

namespace HiTuxShare
set_option autoImplicit true

open MuscleLibrary

def ConnectionOccurrence.ping? : ConnectionOccurrence → Option ServerMessage
  | .sent message => if message.what = .ping then some message else none
  | _ => none

/-- The answer to a ping is the ping, under the code for answers. -/
def ServerMessage.pong (ping : ServerMessage) : ServerMessage := { ping with what := .resultPong }

/-- A connection, and its pings that are still to be answered. They are numbered in the order they
were sent in, over all sessions. -/
structure QueryWorld extends ConnectionWorld where
  pings : List (ServerMessage × Nat) := []
  pingsSent : Nat := 0
  latestQuery : Option (String × String) := none

/-- The server answers the pings of a session in their order, and sends no other pong. -/
inductive QueryEvent where
  | connection (e : ServerConnectionEvent)
  | pong

namespace QueryWorld

def queryAfter (s : QueryWorld) (e : ServerConnectionEvent) : Option (String × String) :=
  match e.call with
  | .startQuery sessionExpression fileExpression =>
    if s.isConnected then some (queryPattern sessionExpression, queryPattern fileExpression)
    else s.latestQuery
  | _ => s.latestQuery

def isPong (e : ServerConnectionEvent) : Bool :=
  match e.call with
  | .messageReceived message => message.what = .resultPong
  | _ => false

/-- The number of the ping whose answer comes in. -/
def answered (s : QueryWorld) : QueryEvent → Option Nat
  | .connection _ => none
  | .pong => if s.internalThreadRunning then s.pings.head?.map Prod.snd else none

/-- The count of a late answer is below the one of the latest ping, as `int32` values. -/
def CountsInOrder (s : QueryWorld) (e : QueryEvent) : Prop :=
  ∀ number, s.answered e = some number →
    number + 1 = s.pingsSent ∨ Int32.ofNat number < Int32.ofNat (s.pingsSent - 1)

/-- The counter has counted all pings, the matchers are those of the latest query. -/
structure Numbered (s : QueryWorld) : Prop where
  pingCount : s.pingCount = Int32.ofNat s.pingsSent
  pings : ∀ ping ∈ s.pings, ping.2 < s.pingsSent ∧ ping.1 = queryPing (Int32.ofNat ping.2)
  query : s.queryActive = true → s.latestQuery = some (s.sessionMatcher, s.fileNameMatcher)

theorem numbered_new : Numbered {} := ⟨rfl, nofun, nofun⟩

/-- Logged in, with these pings on their way. -/
structure Online (s : QueryWorld) (waiting : List Nat) (count : Nat) : Prop where
  numbered : s.Numbered
  isConnected : s.isConnected = true
  internalThreadRunning : s.internalThreadRunning = true
  pings : s.pings.map Prod.snd = waiting
  pingsSent : s.pingsSent = count

theorem Online.answered {s : QueryWorld} (h : s.Online (number :: waiting) count) :
    s.answered .pong = some number := by
  rw [QueryWorld.answered, if_pos h.internalThreadRunning, ← List.head?_map, h.pings]
  rfl

theorem ofNat_sub_one {number : Nat} (h : 0 < number) :
    Int32.ofNat number - 1 = Int32.ofNat (number - 1) := by
  obtain ⟨before, rfl⟩ := Nat.exists_eq_succ_of_ne_zero h.ne'
  rw [Nat.succ_eq_add_one, Int32.ofNat_add, Nat.add_sub_cancel]
  exact Int32.add_sub_cancel _ _

theorem ofNat_lt_ofNat {number number' : Nat} (h : number < number') (hfits : number' < 2 ^ 31) :
    Int32.ofNat number < Int32.ofNat number' := by
  rw [Int32.lt_iff_toInt_lt, Int32.toInt_ofNat_of_lt hfits,
    Int32.toInt_ofNat_of_lt (h.trans hfits)]
  exact Int.ofNat_lt.mpr h

section
variable [MuscleLibrary]

def connectionEvent (s : QueryWorld) (e : ServerConnectionEvent) : QueryWorld :=
  let w := s.toConnectionWorld.handle e
  let sent := (w.history.drop s.history.length).filterMap ConnectionOccurrence.ping?
  { toConnectionWorld := w
    pings := (if s.endsSession e then [] else s.pings) ++ sent.zipIdx s.pingsSent
    pingsSent := s.pingsSent + sent.length
    latestQuery := s.queryAfter e }

def handle (s : QueryWorld) : QueryEvent → QueryWorld
  | .connection e => if isPong e then s else s.connectionEvent e
  | .pong =>
    match s.pings with
    | [] => s
    | (ping, _) :: pings =>
      { s with
        toConnectionWorld := s.toConnectionWorld.handle { call := .messageReceived ping.pong }
        pings }

def machine : EventMachine QueryWorld QueryEvent := ⟨handle⟩

/-- What the event makes the connection do. -/
def news (s : QueryWorld) (e : QueryEvent) : List ConnectionOccurrence :=
  (s.handle e).history.drop s.history.length

/-- Results are results of the latest query, and a sweep is over with the answer to its ping. -/
def Isolated (s : QueryWorld) (e : QueryEvent) : Prop :=
  (∀ result sharerName, .queryResultAdded result sharerName ∈ s.news e →
    ∃ query, s.latestQuery = some query ∧ matchesPattern query.1 result.sessionId = true ∧
      matchesPattern query.2 result.fileName = true) ∧
  ∀ number, s.answered e = some number → .querySweepStateChanged false ∈ s.news e →
    number + 1 = s.pingsSent

theorem pings_of_isOfQuery {later : List ConnectionOccurrence}
    (h : ∀ o ∈ later, ConnectionOccurrence.IsOfQuery c o) :
    later.filterMap ConnectionOccurrence.ping? = [] := by
  apply List.filterMap_eq_nil_iff.mpr
  intro o hm
  cases o with
  | sent message => exact if_neg (h _ hm)
  | _ => rfl

theorem connectionEvent_of_spares {s : QueryWorld} {e : ServerConnectionEvent}
    (h : ∀ sessionExpression fileExpression,
      e.call = .startQuery sessionExpression fileExpression → s.isConnected = false) :
    s.connectionEvent e = { s with
      toConnectionWorld := s.toConnectionWorld.handle e
      pings := if s.endsSession e then [] else s.pings } := by
  have hsent := pings_of_isOfQuery (s.toConnectionWorld.handle_sparesQuery e h).only.drop
  have hquery : s.queryAfter e = s.latestQuery := by
    rw [queryAfter]
    split
    · next sessionExpression fileExpression he =>
      exact if_neg (Bool.eq_false_iff.mp (h _ _ he))
    · rfl
  rw [connectionEvent, hsent, hquery]
  simp only [List.zipIdx_nil, List.append_nil, List.length_nil, Nat.add_zero]

theorem connectionEvent_of_startQuery {s : QueryWorld} {e : ServerConnectionEvent}
    (hc : s.isConnected = true) (he : e.call = .startQuery sessionExpression fileExpression) :
    s.connectionEvent e = {
      toConnectionWorld := s.toConnectionWorld.startQuery sessionExpression fileExpression
      pings := s.pings ++ [(queryPing s.pingCount, s.pingsSent)]
      pingsSent := s.pingsSent + 1
      latestQuery := some (queryPattern sessionExpression, queryPattern fileExpression) } := by
  obtain ⟨later, subscription, hhist, hroutine, hwhat⟩ :=
    s.startQuery_asks sessionExpression fileExpression hc
  have hhandle : s.toConnectionWorld.handle e =
      s.toConnectionWorld.startQuery sessionExpression fileExpression := by
    rw [ConnectionWorld.handle, he]
  have hnone := pings_of_isOfQuery (c := s.toServerConnection) fun o hm =>
    ConnectionWorld.isOfQuery_of_isRoutine _ (hroutine o hm)
  have hends : s.endsSession e = false := by rw [ServerConnection.endsSession, he]
  have hquery : s.queryAfter e =
      some (queryPattern sessionExpression, queryPattern fileExpression) := by
    rw [queryAfter, he]
    exact if_pos hc
  have hsent : ((s.toConnectionWorld.handle e).history.drop s.history.length).filterMap
      ConnectionOccurrence.ping? = [queryPing s.pingCount] := by
    have hasks : ConnectionOccurrence.ping? (.sent subscription) = none :=
      if_neg (hwhat ▸ by decide)
    rw [hhandle, hhist, List.drop_left, List.filterMap_append, hnone, List.nil_append,
      List.filterMap_cons_none hasks]
    rfl
  rw [connectionEvent, hsent, hquery, hends, hhandle]
  rfl

theorem Numbered.of_spares {s : QueryWorld} (h : s.Numbered) {w : ConnectionWorld}
    (hs : ConnectionWorld.SparesQuery s.toConnectionWorld w) {pings : List (ServerMessage × Nat)}
    (hp : ∀ ping ∈ pings, ping ∈ s.pings) :
    Numbered { s with toConnectionWorld := w, pings } := by
  constructor
  · exact hs.pingCount.trans h.pingCount
  · exact fun ping hm => h.pings ping (hp ping hm)
  · intro hactive
    rw [h.query (hs.queryActive hactive), hs.sessionMatcher, hs.fileNameMatcher]

theorem Numbered.connectionEvent {s : QueryWorld} (h : s.Numbered) (e : ServerConnectionEvent) :
    (s.connectionEvent e).Numbered := by
  by_cases hstart : ∃ sessionExpression fileExpression, s.isConnected = true ∧
      e.call = .startQuery sessionExpression fileExpression
  · obtain ⟨sessionExpression, fileExpression, hc, he⟩ := hstart
    have hfields := s.startQuery_replaces sessionExpression fileExpression hc
    rw [connectionEvent_of_startQuery hc he]
    constructor
    · rw [hfields]
      simp only [h.pingCount, Int32.ofNat_add]
      rfl
    · intro ping hm
      rcases List.mem_append.mp hm with hm | hm
      · obtain ⟨hlt, hping⟩ := h.pings ping hm
        exact ⟨Nat.lt_succ_of_lt hlt, hping⟩
      · rw [List.mem_singleton.mp hm, h.pingCount]
        exact ⟨Nat.lt_succ_self _, rfl⟩
    · intro _
      rw [hfields]
  · have hquiet : ∀ sessionExpression fileExpression,
        e.call = .startQuery sessionExpression fileExpression → s.isConnected = false := by
      intro sessionExpression fileExpression he
      exact Bool.eq_false_of_not_eq_true fun hc => hstart ⟨_, _, hc, he⟩
    have hspares := s.toConnectionWorld.handle_sparesQuery e hquiet
    rw [connectionEvent_of_spares hquiet]
    apply h.of_spares hspares
    intro ping hm
    split at hm
    · cases hm
    · exact hm

theorem Numbered.handle {s : QueryWorld} (h : s.Numbered) (e : QueryEvent) :
    (s.handle e).Numbered := by
  cases e with
  | connection e =>
    rw [QueryWorld.handle]
    split
    · exact h
    · exact h.connectionEvent e
  | pong =>
    rw [QueryWorld.handle]
    split
    · exact h
    · next ping number pings hp =>
      have hspares := s.toConnectionWorld.handle_sparesQuery
        { call := .messageReceived ping.pong } nofun
      apply h.of_spares hspares
      intro other hm
      rw [hp]
      exact List.mem_cons_of_mem _ hm

/-- What a pong comes to. -/
theorem news_of_pong {s : QueryWorld} (h : s.Numbered) (ha : s.answered .pong = some number) :
    number < s.pingsSent ∧ s.news .pong =
      if Int32.ofNat (s.pingsSent - 1) ≤ Int32.ofNat number then [.querySweepStateChanged false]
      else [] := by
  rw [answered] at ha
  split at ha
  · next hrunning =>
    obtain ⟨⟨ping, number⟩, hhead, rfl⟩ := Option.map_eq_some_iff.mp ha
    obtain ⟨pings, hp⟩ := List.head?_eq_some_iff.mp hhead
    obtain ⟨hlt, hping⟩ := h.pings _ (hp ▸ List.mem_cons_self)
    dsimp only at hlt hping ⊢
    refine ⟨hlt, ?_⟩
    have hreceived : s.toConnectionWorld.handle { call := .messageReceived ping.pong } =
          if s.pingCount - 1 ≤ Int32.ofNat number then
            s.toConnectionWorld.note (.querySweepStateChanged false)
          else s.toConnectionWorld := by
      simp only [ConnectionWorld.handle, ConnectionWorld.deliver, hrunning, if_true, hping]
      rfl
    have hpos : 0 < s.pingsSent := Nat.zero_lt_of_lt hlt
    simp only [news, QueryWorld.handle, hp, hreceived, h.pingCount, ofNat_sub_one hpos]
    split
    · exact List.drop_left
    · exact List.drop_length
  · cases ha

theorem results_of_query {s : QueryWorld} {e : QueryEvent} {result : FileResult}
    (h : .queryResultAdded result sharerName ∈ s.news e) :
    ConnectionOccurrence.IsOfQuery s.toServerConnection
      (.queryResultAdded result sharerName) := by
  have hnothing {w : ConnectionWorld}
      (hm : .queryResultAdded result sharerName ∈ w.history.drop w.history.length) : False := by
    rw [List.drop_length] at hm
    cases hm
  cases e with
  | connection e =>
    rw [news, QueryWorld.handle] at h
    split at h
    · exact (hnothing h).elim
    · exact s.toConnectionWorld.handle_results e h
  | pong =>
    rw [news, QueryWorld.handle] at h
    split at h
    · exact (hnothing h).elim
    · exact s.toConnectionWorld.handle_results _ h

theorem isolated_iff {s : QueryWorld} (h : s.Numbered) (e : QueryEvent) :
    s.Isolated e ↔ s.CountsInOrder e := by
  have hresults : ∀ result sharerName, .queryResultAdded result sharerName ∈ s.news e →
      ∃ query, s.latestQuery = some query ∧ matchesPattern query.1 result.sessionId = true ∧
        matchesPattern query.2 result.fileName = true := by
    intro result sharerName hm
    obtain ⟨hactive, hmatch⟩ := results_of_query hm
    exact ⟨_, h.query hactive, hmatch⟩
  rw [Isolated, and_iff_right hresults, CountsInOrder]
  apply forall_congr'
  intro number
  apply forall_congr'
  intro ha
  cases e with
  | connection e => cases ha
  | pong =>
    obtain ⟨hlt, hnews⟩ := news_of_pong h ha
    rw [hnews, ← Int32.not_le, or_comm, ← imp_iff_not_or]
    split
    · next hle => simp only [List.mem_singleton, hle]
    · next hgt => simp only [List.not_mem_nil, hgt]

/-- Queries are kept apart exactly if no late answer has a count that is not below the latest. -/
theorem queries_are_isolated (es : List QueryEvent) :
    machine.EveryStep Isolated {} es ↔ machine.EveryStep CountsInOrder {} es := by
  apply EventMachine.everyStep_congr_of_invariant (J := Numbered)
  · exact fun s e h => h.handle e
  · exact fun s e h => isolated_iff h e
  · exact numbered_new

/-- In the first 2^31 queries of a connection the counter does not come round. -/
theorem queries_are_isolated_below {es : List QueryEvent}
    (h : machine.EveryStep (fun s _ => s.pingsSent ≤ 2 ^ 31) {} es) :
    machine.EveryStep Isolated {} es := by
  apply EventMachine.EveryStep.imp_of_invariant (J := Numbered) _ _ _ h
  · exact fun s e hs => hs.handle e
  · intro s e hs hfits
    apply (isolated_iff hs e).mpr
    intro number ha
    cases e with
    | connection e => cases ha
    | pong =>
      have hlt := (news_of_pong hs ha).1
      rcases Nat.lt_or_ge number (s.pingsSent - 1) with hlate | hlast
      · exact .inr (ofNat_lt_ofNat hlate (by omega))
      · exact .inl (by omega)
  · exact numbered_new

/-- Everybody's files of one name. -/
def queryFor (fileName : String) : QueryEvent := .connection { call := .startQuery "*" fileName }

theorem Online.asks {s : QueryWorld} (h : s.Online waiting count) (fileName : String) :
    (s.handle (queryFor fileName)).Online (waiting ++ [count]) (count + 1) := by
  have hstart := connectionEvent_of_startQuery h.isConnected
    (e := { call := .startQuery "*" fileName }) rfl
  have hrunning : s.stopQuery.internalThreadRunning = true := by
    simp only [ConnectionWorld.stopQuery]
    split
    · exact h.internalThreadRunning
    · split <;> exact h.internalThreadRunning
  have hfields := s.startQuery_replaces "*" fileName h.isConnected
  refine ⟨h.numbered.handle _, ?_, ?_, ?_, ?_⟩
  · exact (ConnectionWorld.isConnected_handle rfl).trans h.isConnected
  · change (s.toConnectionWorld.startQuery "*" fileName).internalThreadRunning = true
    rw [hfields]
    exact hrunning
  · change (s.connectionEvent _).pings.map Prod.snd = _
    rw [hstart, List.map_append, h.pings, h.pingsSent]
    rfl
  · change (s.connectionEvent _).pingsSent = _
    rw [hstart, h.pingsSent]

theorem Online.answers {s : QueryWorld} (h : s.Online (number :: waiting) count) :
    (s.handle .pong).Online waiting count := by
  obtain ⟨⟨ping, _⟩, rest, hp, rfl, hrest⟩ := List.map_eq_cons_iff.mp h.pings
  have hhandle : s.handle .pong = { s with
      toConnectionWorld := s.toConnectionWorld.handle { call := .messageReceived ping.pong }
      pings := rest } := by
    simp only [QueryWorld.handle, hp]
  refine ⟨h.numbered.handle _, ?_, ?_, ?_, ?_⟩
  all_goals rw [hhandle]
  · exact (ConnectionWorld.isConnected_handle rfl).trans h.isConnected
  · simp only [ConnectionWorld.handle, ConnectionWorld.deliver, h.internalThreadRunning, if_true]
    change (s.toConnectionWorld.handleResultPong ping.pong).internalThreadRunning = true
    rw [ConnectionWorld.handleResultPong]
    split
    · split <;> exact h.internalThreadRunning
    · exact h.internalThreadRunning
  · exact hrest
  · exact h.pingsSent

theorem Online.sweeps {s : QueryWorld} (h : s.Online [] count) (queries : Nat) :
    (machine.run s (List.replicate queries [queryFor "notes", .pong]).flatten).Online []
      (count + queries) := by
  induction queries generalizing s count with
  | zero => exact h
  | succ queries ih =>
    rw [List.replicate_succ, List.flatten_cons, EventMachine.run_append, Nat.add_comm queries,
      ← Nat.add_assoc]
    exact ih (h.asks "notes").answers

end

/-- The pong of one query ends the sweep of the next one, across the overflow of the counter. -/
theorem late_pong_ends_sweep : ¬ ∀ (_ : MuscleLibrary) (es : List QueryEvent),
    machine.EveryStep Isolated {} es := by
  intro h
  let _ : MuscleLibrary := plainLibrary
  obtain ⟨queries, hqueries⟩ : ∃ queries, queries = 2 ^ 31 - 1 := ⟨_, rfl⟩
  let login : List QueryEvent := [.connection { call := .connectToServer "server" 2960 },
    .connection { call := .sessionConnected "server" }]
  have hsteps := h plainLibrary (login ++
    (List.replicate queries [queryFor "notes", .pong]).flatten ++
    [queryFor "notes", queryFor "letters", .pong])
  rw [EventMachine.everyStep_append, EventMachine.run_append] at hsteps
  have hlogin : (machine.run {} login).Online [] 0 :=
    ⟨EventMachine.run_of_invariant (fun _ e hs => hs.handle e) numbered_new, by decide,
      by decide, by decide, by decide⟩
  have hboth := ((hlogin.sweeps queries).asks "notes").asks "letters"
  have hlast := (isolated_iff hboth.numbered _).mp hsteps.2.2.2.1 _ hboth.answered
  rw [hboth.pingsSent, Nat.add_sub_cancel, Nat.zero_add] at hlast
  rcases hlast with hlast | hbelow
  · omega
  · subst hqueries
    exact absurd hbelow (by decide)

end QueryWorld

end HiTuxShare
