import HiTuxShare.ToldUsers

namespace HiTuxShare
set_option autoImplicit true

open MuscleLibrary

/-- The users are neither asked for nor given up. -/
def ConnectionOccurrence.leavesUsers : ConnectionOccurrence → Bool
  | .sent message => message.isOurs && (message.what ≠ .setParameters || message.isQuery)
  | _ => true

theorem ConnectionOccurrence.IsIdle.leavesUsers {o : ConnectionOccurrence} (h : o.IsIdle) :
    o.leavesUsers = true := by
  cases o with
  | sent message =>
    obtain ⟨hours, hidle⟩ := Bool.and_eq_true_iff.mp h
    rw [ConnectionOccurrence.leavesUsers, hours, Bool.true_and, Bool.or_eq_true,
      decide_eq_true_iff]
    by_cases hs : message.what = .setParameters
    · rw [hs] at hidle
      exact .inr hidle
    · exact .inl hs
  | _ => rfl

theorem ConnectionOccurrence.isOurs_of_leavesUsers {message : ServerMessage}
    (h : leavesUsers (.sent message) = true) : message.isOurs = true ∧
      (message.what = .setParameters → message.hasName subscribeAll = false) := by
  obtain ⟨hours, hidle⟩ := Bool.and_eq_true_iff.mp h
  refine ⟨hours, fun hs => ServerMessage.hasName_of_isQuery ?_⟩
  rwa [hs, Bool.or_eq_true, decide_eq_true_iff, or_iff_right (by decide)] at hidle

/-- The nodes of a user that are there, in the order in which our clients publish them. -/
def userNodes (node : String → Option NodeMessage) : List (String × NodeMessage) :=
  [nodeName, nodeUserStatus, nodeFileCount].filterMap fun nodePath =>
    (node nodePath).map (nodePath, ·)

theorem mem_userNodes {node : String → Option NodeMessage} {entry : String × NodeMessage} :
    entry ∈ userNodes node ↔ entry.1 ∈ [nodeName, nodeUserStatus, nodeFileCount] ∧
      node entry.1 = some entry.2 := by
  rw [userNodes, List.mem_filterMap]
  constructor
  · rintro ⟨nodePath, hp, hnode⟩
    obtain ⟨data, hdata, rfl⟩ := Option.map_eq_some_iff.mp hnode
    exact ⟨hp, hdata⟩
  · rintro ⟨hp, hm⟩
    exact ⟨entry.1, hp, Option.map_eq_some_iff.mpr ⟨entry.2, hm, rfl⟩⟩

theorem nodup_userNodes (node : String → Option NodeMessage) :
    ((userNodes node).map Prod.fst).Nodup := by
  have hsublist : ((userNodes node).map Prod.fst).Sublist
      [nodeName, nodeUserStatus, nodeFileCount] := by
    have hkept : (userNodes node).map Prod.fst = [nodeName, nodeUserStatus, nodeFileCount].filter
        fun nodePath => (node nodePath).isSome := by
      rw [userNodes, List.map_filterMap, ← List.filterMap_eq_filter]
      apply List.filterMap_congr
      intro nodePath _
      cases hn : node nodePath with
      | none => simp [Option.guard, hn]
      | some data => simp [Option.guard, hn]
    rw [hkept]
    exact List.filter_sublist
  exact List.Nodup.sublist hsublist (by decide)

theorem isHostedNode_userNodes {node : String → Option NodeMessage} (hm : entry ∈ userNodes node) :
    IsHostedNode entry.1 := by
  have hp := (mem_userNodes.mp hm).1
  simp only [List.mem_cons, List.not_mem_nil, or_false] at hp
  rcases hp with hp | hp | hp
  · exact hp ▸ .name
  · exact hp ▸ .userStatus
  · exact hp ▸ .fileCount

/-- A user is known by the nodes that are not of files. -/
theorem ServerSide.IsSound.mem_userNodes {server : ServerSide} (h : server.IsSound)
    {entry : String × NodeMessage} : entry ∈ userNodes server.node ↔
      server.node entry.1 = some entry.2 ∧ isFileNode entry.1 = false := by
  rw [HiTuxShare.mem_userNodes, and_comm]
  apply and_congr_right
  intro hdata
  have hhosted := h.hosted entry.1 (hdata ▸ Option.some_ne_none entry.2)
  constructor
  · intro hp
    revert hp
    generalize entry.1 = nodePath
    revert nodePath
    decide
  · intro hfile
    generalize entry.1 = nodePath at hhosted hfile
    cases hhosted with
    | name | userStatus | fileCount => simp
    | file c hplain => simp [isFileNode_filesNodePath] at hfile

section
variable [MuscleLibrary]

/-- Two nodes of which each is read into fields of its own. -/
theorem writeInto_comm (sessionId : String) {node node' : String × NodeMessage}
    (h : (nodeAt node.1).map UserNode.counted ≠ (nodeAt node'.1).map UserNode.counted)
    (known : Option UserRecord) :
    writeInto sessionId (writeInto sessionId known node) node' =
      writeInto sessionId (writeInto sessionId known node') node := by
  simp only [writeInto]
  by_cases ho : nodeOwner node.1 = some sessionId
  · by_cases ho' : nodeOwner node'.1 = some sessionId
    · simp only [if_pos ho, if_pos ho', Option.getD_some]
      exact congrArg some (UserRecord.write_comm _ h)
    · simp only [if_neg ho']
  · simp only [if_neg ho]

namespace ServerSide

/-- In whatever order the nodes of a user are told, the same is read. -/
theorem foldl_writeInto_placed {seats : Seats} (hseats : seats.IsProper)
    (hlibrary : MuscleLibrary.ReadsPaths) {server : ServerSide} {node : String → Option NodeMessage}
    {nodes : List (String × NodeMessage)}
    (hperm : nodes.Perm ((userNodes node).map (server.placed seats)))
    (sessionId : String) (known : Option UserRecord) :
    nodes.foldl (writeInto sessionId) known =
      ((userNodes node).map (server.placed seats)).foldl (writeInto sessionId) known := by
  symm
  apply hperm.symm.foldl_eq'
  intro first hm second hm' known
  obtain ⟨⟨nodePath, data⟩, hnode, rfl⟩ := List.mem_map.mp hm
  obtain ⟨⟨nodePath', data'⟩, hnode', rfl⟩ := List.mem_map.mp hm'
  obtain ⟨hp, hentry⟩ := HiTuxShare.mem_userNodes.mp hnode
  obtain ⟨hp', hentry'⟩ := HiTuxShare.mem_userNodes.mp hnode'
  by_cases he : nodePath = nodePath'
  · subst he
    have hsame : some data = some data' := hentry.symm.trans hentry'
    rw [Option.some.inj hsame]
  · apply writeInto_comm
    have hread : ∀ p ∈ [nodeName, nodeUserStatus, nodeFileCount],
        nodeAt (server.absolutePath seats p) = if p = nodeName then some .name
          else if p = nodeUserStatus then some .userStatus else some .fileCount := by
      obtain ⟨hname, hstatus, hcount⟩ := hseats.hostedNode server
      simp only [List.forall_mem_cons]
      exact ⟨(hname.node hlibrary).trans (by decide), (hstatus.node hlibrary).trans (by decide),
        (hcount.node hlibrary).trans (by decide), fun p hm => absurd hm List.not_mem_nil⟩
    have hapart : ∀ p ∈ [nodeName, nodeUserStatus, nodeFileCount],
        ∀ p' ∈ [nodeName, nodeUserStatus, nodeFileCount], p ≠ p' →
          (if p = nodeName then some .name
            else if p = nodeUserStatus then some .userStatus else some .fileCount).map
              UserNode.counted ≠
          (if p' = nodeName then some .name
            else if p' = nodeUserStatus then some .userStatus else some .fileCount).map
              UserNode.counted := by decide
    rw [placed, placed, hread _ hp, hread _ hp']
    exact hapart _ hp _ hp' he

/-- Whoever reads all nodes of a user for the first time knows the user. -/
theorem foldl_writeInto_userNodes {seats : Seats} (hseats : seats.IsProper)
    (hlibrary : MuscleLibrary.ReadsPaths) {server : ServerSide} (h : server.IsSound) :
    (((userNodes server.node).map (server.placed seats)).foldl
      (writeInto (seats.sessionOf server.sessions)) none).map UserRecord.unplaced =
        shownUser (seats.hostOf server.sessions) (seats.sessionOf server.sessions)
          server.node := by
  obtain ⟨hname, hstatus, hcount⟩ := hseats.hostedNode server
  cases hn : server.node nodeName with
  | none =>
    have hs := h.named.none_of_none hn nodeUserStatus
    have hc := h.named.none_of_none hn nodeFileCount
    simp [userNodes, hn, hs, hc, shownUser]
  | some data =>
    obtain ⟨c, rfl⟩ := h.name data hn
    have hread := UserRecord.readName_nameNode { sessionId := seats.sessionOf server.sessions } c
      (hname.hostName hlibrary)
    obtain ⟨huser, hport, hinstall, hversion, -⟩ := nameNode_fields c
    have hname' : userNode "name" = some .name := by decide
    have hstatus' : userNode "userstatus" = some .userStatus := by decide
    have hcount' : userNode "filecount" = some .fileCount := by decide
    cases hs : server.node nodeUserStatus <;> cases hc : server.node nodeFileCount
    all_goals
      simp only [userNodes, hn, hs, hc, List.filterMap_cons, List.filterMap_nil, Option.map_some,
        Option.map_none, List.map_cons, List.map_nil, List.foldl_cons, List.foldl_nil, placed,
        writeInto, hname.owner hlibrary, hstatus.owner hlibrary, hcount.owner hlibrary, if_true,
        Option.getD_some, Option.getD_none, UserRecord.write, hname.node hlibrary,
        hstatus.node hlibrary, hcount.node hlibrary, hname', hstatus', hcount',
        UserRecord.writeNode, hread, shownUser, huser, hport, hinstall, hversion, Option.bind_some,
        Option.bind_none, UserRecord.unplaced]

end ServerSide

theorem tellUsers_isLeftOf {part whole : ServerMessage} (h : part.IsLeftOf whole) (seats : Seats)
    (known : Nat → Option UserRecord) :
    tellUsers seats known part = tellUsers seats known whole := by
  have hwrite (sessionId : String) (known : Option UserRecord) (node : String × NodeMessage)
      (hp : decide (getPathDepth node.1 ≠ fileInfoDepth) = false) :
      writeInto sessionId known node = known := by
    apply if_neg
    rw [nodeOwner, if_pos (.inr (.inl (by simpa using hp)))]
    exact (Option.some_ne_none sessionId).symm
  have hdrop (sessionId : String) (known : Option UserRecord) (nodePath : String)
      (hp : decide (getPathDepth nodePath ≠ fileInfoDepth) = false) :
      dropInto sessionId known nodePath = known :=
    if_neg fun hd => of_decide_eq_false hp hd.1
  funext n
  rw [tellUsers, tellUsers, readMessage, readMessage, if_pos h.what.1, if_pos h.what.2,
    ← foldl_filter_eq (hwrite _), ← foldl_filter_eq (hdrop _), h.updated, h.removed,
    foldl_filter_eq (hwrite _), foldl_filter_eq (hdrop _)]

theorem IsLeftOver.foldl_tellUsers (h : IsLeftOver kept queue) (seats : Seats)
    {known : Nat → Option UserRecord} (hknown : ∀ n, (known n).map UserRecord.unplaced = known n) :
    kept.foldl (tellUsers seats) known = queue.foldl (tellUsers seats) known := by
  induction h generalizing known with
  | nil => rfl
  | same h ih => exact ih (tellUsers_unplaced seats known _)
  | part hpart h ih =>
    rw [List.foldl_cons, tellUsers_isLeftOf hpart]
    exact ih (tellUsers_unplaced seats known _)
  | gone hgone h ih =>
    have hnothing : tellUsers seats known { what := .resultDataItems, fields := [] } = known :=
      funext hknown
    rw [List.foldl_cons, ← tellUsers_isLeftOf hgone, hnothing]
    exact ih hknown

theorem IsLeftOver.eq_nil (h : IsLeftOver kept []) : kept = [] := by
  cases h
  rfl

variable [MuscleRelay]

namespace ServerState

variable {seats : Seats}

omit [MuscleLibrary] in
theorem asks_subscribe (seats : Seats) (server : ServerSide) (nodePath : String) :
    server.asks seats subscribeMessage nodePath = !isFileNode nodePath := by
  have hquery : askedPatterns subscribeMessage = [] := by decide
  have husers : subscribeMessage.hasName subscribeAll = true := by decide
  rw [ServerSide.asks, hquery, husers]
  cases isFileNode nodePath <;> rfl

/-- Who goes on hearing of the users changes at most what is asked of the files. -/
theorem side_heed (hserves : MuscleRelay.Serves seats) (state : ServerState)
    (ho : o.leavesUsers = true) : (state.heed o).side =
      { state.side with patterns := (state.heed o).side.patterns } := by
  cases o with
  | sent message =>
    obtain ⟨hours, hfilesOnly⟩ := ConnectionOccurrence.isOurs_of_leavesUsers ho
    by_cases hs : message.what = .setParameters
    · have hside : (state.heed (.sent message)).side = _ :=
        hserves.subscribes state message hours hs
      rw [hside, hfilesOnly hs]
      rfl
    · by_cases hr : message.what = .removeParameters
      · have hside : (state.heed (.sent message)).side = _ :=
          hserves.unsubscribes state message hours hr
        rw [hside]
        rfl
      · have hside : (state.heed (.sent message)).side = _ :=
          hserves.ignores state message hours hs hr
        rw [hside]
        rfl
  | _ => rfl

theorem side_heed_subscribe (hserves : MuscleRelay.Serves seats) (state : ServerState) :
    (state.heed (.sent subscribeMessage)).side = { state.side with hearsUsers := true } :=
  hserves.subscribes state subscribeMessage (by decide) rfl

theorem node_heed (hserves : MuscleRelay.Serves seats) (state : ServerState)
    (ho : o.leavesUsers = true) : (state.heed o).side.node = state.side.node ∧
      (state.heed o).side.hasSet = state.side.hasSet := by
  rw [side_heed hserves state ho]
  exact ⟨rfl, rfl⟩

theorem node_heed_subscribe (hserves : MuscleRelay.Serves seats) (state : ServerState) :
    (state.heed (.sent subscribeMessage)).side.node = state.side.node ∧
      (state.heed (.sent subscribeMessage)).side.hasSet = state.side.hasSet := by
  rw [side_heed_subscribe hserves]
  exact ⟨rfl, rfl⟩

omit [MuscleLibrary] [MuscleRelay] in
theorem isSound_of_node {server server' : ServerSide} (h : server.IsSound)
    (hnode : server'.node = server.node ∧ server'.hasSet = server.hasSet) : server'.IsSound := by
  obtain ⟨hnode, hset⟩ := hnode
  constructor
  · rw [ServerSide.HostsNodes, hnode]
    exact h.hosted
  · constructor
    · rw [hnode, hset]
      exact h.named.set
    · rw [hnode, hset]
      exact h.named.name
  · rw [hnode]
    exact h.name

theorem side_heedAll (hserves : MuscleRelay.Serves seats) (state : ServerState)
    (hothers : ∀ o ∈ occurrences, o.leavesUsers = true) : (state.heedAll occurrences).side =
      { state.side with patterns := (state.heedAll occurrences).side.patterns } := by
  induction occurrences generalizing state with
  | nil => rfl
  | cons o later ih =>
    rw [heedAll, List.foldl_cons, ← heedAll, ih (state.heed o)
      fun o' hm => hothers o' (List.mem_cons_of_mem o hm),
      side_heed hserves state (hothers o List.mem_cons_self)]

theorem node_heedAll (hserves : MuscleRelay.Serves seats) (state : ServerState)
    (hothers : ∀ o ∈ occurrences, o.leavesUsers = true) :
    (state.heedAll occurrences).side.node = state.side.node ∧
      (state.heedAll occurrences).side.hasSet = state.side.hasSet := by
  rw [side_heedAll hserves state hothers]
  exact ⟨rfl, rfl⟩

omit [MuscleLibrary] in
theorem heedAll_append (state : ServerState) (occurrences later : List ConnectionOccurrence) :
    state.heedAll (occurrences ++ later) = (state.heedAll occurrences).heedAll later :=
  List.foldl_append ..

theorem foldl_tellUsers_keep (hserves : MuscleRelay.Serves seats) (state : ServerState)
    {message : ServerMessage} (ho : ConnectionOccurrence.leavesUsers (.sent message) = true)
    (inFlight : List ServerMessage) {known : Nat → Option UserRecord}
    (hknown : ∀ n, (known n).map UserRecord.unplaced = known n) :
    (MuscleRelay.keep state message inFlight).foldl (tellUsers seats) known =
      inFlight.foldl (tellUsers seats) known := by
  obtain ⟨hours, -⟩ := ConnectionOccurrence.isOurs_of_leavesUsers ho
  by_cases hj : message.what = .jettisonResults
  · exact (hserves.jettisons state message inFlight hours hj).foldl_tellUsers seats hknown
  · rw [hserves.keeps state message inFlight hours hj]

/-- The files a query finds are nothing to the list of users. -/
theorem tellUsers_answer (hserves : MuscleRelay.Serves seats) (hseats : seats.IsProper)
    (hlibrary : MuscleLibrary.ReadsPaths) {state : ServerState} (h : state.side.IsSound)
    {message : ServerMessage} (ho : ConnectionOccurrence.leavesUsers (.sent message) = true) :
    (MuscleRelay.answer state message).foldl (tellUsers seats) (state.side.shownUsers seats) =
      state.side.shownUsers seats := by
  obtain ⟨hours, hfilesOnly⟩ := ConnectionOccurrence.isOurs_of_leavesUsers ho
  have hheed := side_heed hserves state ho
  have hsame : (state.heed (.sent message)).side.shownUsers seats =
      state.side.shownUsers seats := by
    rw [hheed]
    rfl
  by_cases hanswers : message.what = .setParameters ∧
      (state.heed (.sent message)).side.hearsUsers = true
  · obtain ⟨hs, hears⟩ := hanswers
    have hother := hfilesOnly hs
    have hbrings : (state.heed (.sent message)).side.Brings seats
      (MuscleRelay.answer state message) _ := hserves.answers state message hours hs hears
    have hsound := isSound_of_node h (node_heed hserves state ho)
    funext n
    rw [← hsame]
    apply hbrings.tellUsers hseats hlibrary (ServerSide.shownUsers_unplaced seats _) hsound.named
      hears n
    rw [foldl_writeInto_of_others, ServerSide.shownUsers_unplaced]
    intro node hm
    obtain ⟨hm, hd⟩ := List.mem_filter.mp hm
    obtain ⟨entry, ⟨hentry, hasked⟩, rfl⟩ := (hbrings.told node (by simpa using hd)).mp hm
    have hhosted := h.hosted entry.1 (hentry ▸ Option.some_ne_none entry.2)
    have hfile : isFileNode entry.1 = true := by
      by_contra hno
      rw [ServerSide.asks, if_neg hno, hother] at hasked
      exact Bool.false_ne_true hasked
    change nodeOwner (ServerSide.absolutePath seats _ entry.1) ≠ _
    generalize entry.1 = nodePath at hhosted hfile ⊢
    cases hhosted with
    | name | userStatus | fileCount => exact absurd hfile (by decide)
    | file c hplain =>
      have hpath := hseats.fileNode (state.heed (.sent message)).side c hplain
      exact fun howner => absurd ((hpath.owner hlibrary).symm.trans howner) (by simp)
  · have hnothing : MuscleRelay.answer state message = [] := by
      apply hserves.answersNothing state message hours
      rw [← Bool.not_eq_true, ← not_and_or]
      exact hanswers
    rw [hnothing]
    rfl

theorem tellUsers_queue (hserves : MuscleRelay.Serves seats) (hseats : seats.IsProper)
    (hlibrary : MuscleLibrary.ReadsPaths) {state : ServerState} (h : state.side.IsSound)
    (ho : o.leavesUsers = true) {known : Nat → Option UserRecord}
    (hknown : ∀ n, (known n).map UserRecord.unplaced = known n)
    (hcaught : inFlight.foldl (tellUsers seats) known = state.side.shownUsers seats) :
    (state.queue inFlight o).foldl (tellUsers seats) known =
      (state.heed o).side.shownUsers seats := by
  have hsame : (state.heed o).side.shownUsers seats = state.side.shownUsers seats := by
    rw [side_heed hserves state ho]
    rfl
  rw [hsame]
  cases o with
  | sent message =>
    rw [queue, List.foldl_append, foldl_tellUsers_keep hserves state ho inFlight hknown, hcaught,
      tellUsers_answer hserves hseats hlibrary h ho]
  | _ => exact hcaught

theorem tellUsers_queueAll (hserves : MuscleRelay.Serves seats) (hseats : seats.IsProper)
    (hlibrary : MuscleLibrary.ReadsPaths) {state : ServerState} (h : state.side.IsSound)
    (hothers : ∀ o ∈ occurrences, o.leavesUsers = true) {known : Nat → Option UserRecord}
    (hknown : ∀ n, (known n).map UserRecord.unplaced = known n)
    (hcaught : inFlight.foldl (tellUsers seats) known = state.side.shownUsers seats) :
    (state.queueAll inFlight occurrences).foldl (tellUsers seats) known =
      (state.heedAll occurrences).side.shownUsers seats := by
  induction occurrences generalizing state inFlight with
  | nil => exact hcaught
  | cons o later ih =>
    have ho := hothers o List.mem_cons_self
    apply ih _ fun o' hm => hothers o' (List.mem_cons_of_mem o hm)
    · exact tellUsers_queue hserves hseats hlibrary h ho hknown hcaught
    · exact isSound_of_node h (node_heed hserves state ho)

theorem tellUsers_subscribe (hserves : MuscleRelay.Serves seats) (hseats : seats.IsProper)
    (hlibrary : MuscleLibrary.ReadsPaths) {state : ServerState} (h : state.side.IsSound)
    (hdeaf : state.side.hearsUsers = false) :
    (MuscleRelay.answer state subscribeMessage).foldl (tellUsers seats)
      (state.side.shownUsers seats) =
        (state.heed (.sent subscribeMessage)).side.shownUsers seats := by
  have hside := side_heed_subscribe hserves state
  have hears : (state.heed (.sent subscribeMessage)).side.hearsUsers = true := by rw [hside]
  have hnode := node_heed_subscribe hserves state
  have hsound : (state.heed (.sent subscribeMessage)).side.IsSound := isSound_of_node h hnode
  have hbrings : (state.heed (.sent subscribeMessage)).side.Brings seats
    (MuscleRelay.answer state subscribeMessage) _ :=
      hserves.answers state subscribeMessage (by decide) rfl hears
  have htold := hbrings.perm (nodup_userNodes state.side.node) (fun entry => by
    rw [h.mem_userNodes, asks_subscribe, Bool.not_eq_eq_eq_not, Bool.not_true]
    rfl) fun entry hm => isHostedNode_userNodes hm
  funext n
  apply hbrings.tellUsers hseats hlibrary (ServerSide.shownUsers_unplaced seats _) hsound.named
    hears n
  rw [ServerSide.foldl_writeInto_placed hseats hlibrary htold,
    ServerSide.shownUsers_of_deaf hdeaf]
  by_cases hn : n = (state.heed (.sent subscribeMessage)).side.sessions
  · subst hn
    rw [← hnode.1, ServerSide.foldl_writeInto_userNodes hseats hlibrary hsound]
    exact (if_pos ⟨hears, rfl⟩).symm
  · have hother : (state.heed (.sent subscribeMessage)).side.shownUsers seats n = none :=
      if_neg fun he => hn he.2
    rw [hother, foldl_writeInto_of_others]
    · rfl
    · intro node hm howner
      obtain ⟨entry, hentry, rfl⟩ := List.mem_map.mp hm
      obtain ⟨hp, -⟩ := HiTuxShare.mem_userNodes.mp hentry
      obtain ⟨hname, hstatus, hcount⟩ :=
        hseats.hostedNode (state.heed (.sent subscribeMessage)).side
      have howners : ∀ p ∈ [nodeName, nodeUserStatus, nodeFileCount],
          nodeOwner (ServerSide.absolutePath seats (state.heed (.sent subscribeMessage)).side p) =
            some (seats.sessionOf (state.heed (.sent subscribeMessage)).side.sessions) := by
        simp only [List.forall_mem_cons]
        exact ⟨hname.owner hlibrary, hstatus.owner hlibrary, hcount.owner hlibrary,
          fun p hm => absurd hm List.not_mem_nil⟩
      exact hn (hseats.injective (Option.some.inj ((howners _ hp).symm.trans howner)).symm)

omit [MuscleLibrary] in
theorem queueAll_append (state : ServerState) (inFlight : List ServerMessage)
    (occurrences later : List ConnectionOccurrence) :
    state.queueAll inFlight (occurrences ++ later) =
      (state.heedAll occurrences).queueAll (state.queueAll inFlight occurrences) later := by
  induction occurrences generalizing state inFlight with
  | nil => rfl
  | cons o occurrences ih =>
    rw [List.cons_append, queueAll, queueAll, ih]
    rfl

/-- A login asks for the users once. -/
theorem tellUsers_login (hserves : MuscleRelay.Serves seats) (hseats : seats.IsProper)
    (hlibrary : MuscleLibrary.ReadsPaths) {state : ServerState} (h : state.side.IsSound)
    (hdeaf : state.side.hearsUsers = false) {before later : List ConnectionOccurrence}
    (hbefore : ∀ o ∈ before, o.leavesUsers = true) (hlater : ∀ o ∈ later, o.leavesUsers = true) :
    (state.queueAll [] (before ++ .sent subscribeMessage :: later)).foldl (tellUsers seats)
        (state.side.shownUsers seats) =
      (state.heedAll (before ++ .sent subscribeMessage :: later)).side.shownUsers seats := by
  have hside := side_heedAll hserves state hbefore
  have hsound : (state.heedAll before).side.IsSound :=
    isSound_of_node h (node_heedAll hserves state hbefore)
  have hdeaf' : (state.heedAll before).side.hearsUsers = false := by
    rw [hside]
    exact hdeaf
  have hunplaced := state.side.shownUsers_unplaced seats
  have hcaught : [].foldl (tellUsers seats) (state.side.shownUsers seats) =
    state.side.shownUsers seats := rfl
  have hnothing := tellUsers_queueAll hserves hseats hlibrary h hbefore hunplaced hcaught
  have hsubscribed : ((state.heedAll before).queue (state.queueAll [] before)
      (.sent subscribeMessage)).foldl (tellUsers seats) (state.side.shownUsers seats) =
        ((state.heedAll before).heed (.sent subscribeMessage)).side.shownUsers seats := by
    rw [queue, hserves.keeps _ _ _ (by decide) (by decide), List.foldl_append, hnothing,
      tellUsers_subscribe hserves hseats hlibrary hsound hdeaf']
  have hsound' : ((state.heedAll before).heed (.sent subscribeMessage)).side.IsSound :=
    isSound_of_node hsound (node_heed_subscribe hserves (state.heedAll before))
  rw [queueAll_append, queueAll, heedAll_append]
  exact tellUsers_queueAll hserves hseats hlibrary hsound' hlater hunplaced hsubscribed

theorem queueAll_of_deaf (hserves : MuscleRelay.Serves seats) {state : ServerState}
    (hdeaf : state.side.hearsUsers = false) (hothers : ∀ o ∈ occurrences, o.leavesUsers = true) :
    state.queueAll [] occurrences = [] := by
  induction occurrences generalizing state with
  | nil => rfl
  | cons o later ih =>
    have ho := hothers o List.mem_cons_self
    have hdeaf' : (state.heed o).side.hearsUsers = false := by
      rw [side_heed hserves state ho]
      exact hdeaf
    have hnothing : state.queue [] o = [] := by
      cases o with
      | sent message =>
        obtain ⟨hours, -⟩ := ConnectionOccurrence.isOurs_of_leavesUsers ho
        rw [queue, hserves.answersNothing state message hours (.inr hdeaf'), List.append_nil]
        by_cases hj : message.what = .jettisonResults
        · exact (hserves.jettisons state message [] hours hj).eq_nil
        · exact hserves.keeps state message [] hours hj
      | _ => rfl
    rw [queueAll, hnothing]
    exact ih hdeaf' fun o' hm => hothers o' (List.mem_cons_of_mem o hm)

end ServerState

end

end HiTuxShare
