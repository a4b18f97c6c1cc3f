import HiTuxShare.MirroredUsers

namespace HiTuxShare
set_option autoImplicit true

open MuscleLibrary

/-- What one of our clients leaves on its server. -/
structure ServerSide.IsSound (server : ServerSide) : Prop where
  hosted : server.HostsNodes
  named : server.IsNamed
  name : ∀ data, server.node nodeName = some data → ∃ c : ServerConnection, data = c.nameNode

namespace ServerSide

theorem isSound_empty {server : ServerSide} (h : server.node = fun _ => none)
    (hset : server.hasSet = false) : server.IsSound := by
  have hnone (nodePath : String) : server.node nodePath = none := congrFun h nodePath
  constructor
  · exact fun nodePath hp => absurd (hnone nodePath) hp
  · constructor
    · exact fun nodePath hp => absurd (hnone nodePath) hp
    · exact fun hs => absurd (hset.symm.trans hs) Bool.false_ne_true
  · intro data hdata
    cases (hnone nodeName).symm.trans hdata

theorem node_withNodes_self (server : ServerSide) (nodePath : String) (data : NodeMessage) :
    (server.withNodes [(nodePath, data)]).node nodePath = some data := Function.update_self ..

theorem node_withNodes_of_ne (server : ServerSide) (data : NodeMessage)
    (h : nodePath ≠ nodePath') :
    (server.withNodes [(nodePath', data)]).node nodePath = server.node nodePath :=
  Function.update_of_ne h _ _

theorem node_withNodes_of_notMem (server : ServerSide) {nodes : List (String × NodeMessage)}
    (h : nodePath ∉ nodes.map Prod.fst) :
    (server.withNodes nodes).node nodePath = server.node nodePath := by
  induction nodes generalizing server with
  | nil => rfl
  | cons entry nodes ih =>
    rw [List.map_cons, List.mem_cons, not_or] at h
    exact (ih (server.withNodes [entry]) h.2).trans (server.node_withNodes_of_ne entry.2 h.1)

theorem node_withNodes_of_mem (server : ServerSide) {nodes : List (String × NodeMessage)}
    (hnodup : (nodes.map Prod.fst).Nodup) (hm : entry ∈ nodes) :
    (server.withNodes nodes).node entry.1 = some entry.2 := by
  induction nodes generalizing server with
  | nil => cases hm
  | cons first nodes ih =>
    rw [List.map_cons, List.nodup_cons] at hnodup
    rcases List.mem_cons.mp hm with rfl | hm
    · refine (node_withNodes_of_notMem (server.withNodes [entry]) hnodup.1).trans ?_
      exact server.node_withNodes_self ..
    · exact ih (server.withNodes [first]) hnodup.2 hm

theorem node_withNodes_ne_none (server : ServerSide) (nodes : List (String × NodeMessage))
    (nodePath : String) : (server.withNodes nodes).node nodePath ≠ none ↔
      nodePath ∈ nodes.map Prod.fst ∨ server.node nodePath ≠ none := by
  induction nodes generalizing server with
  | nil => exact (or_iff_right List.not_mem_nil).symm
  | cons entry nodes ih =>
    refine (ih (server.withNodes [entry])).trans ?_
    rw [List.map_cons, List.mem_cons]
    by_cases hp : nodePath = entry.1
    · subst hp
      have hset : (server.withNodes [entry]).node entry.1 = some entry.2 :=
        server.node_withNodes_self ..
      simp [hset]
    · have hkept : (server.withNodes [entry]).node nodePath = server.node nodePath :=
        server.node_withNodes_of_ne entry.2 hp
      simp [hp, hkept]

theorem IsNamed.withNodes {server : ServerSide} (h : server.IsNamed)
    {nodes : List (String × NodeMessage)}
    (hnamed : nodeName ∈ nodes.map Prod.fst ∨ server.node nodeName ≠ none) :
    (server.withNodes nodes).IsNamed := by
  constructor
  · intro nodePath hp
    rcases (server.node_withNodes_ne_none nodes nodePath).mp hp with hm | hp
    · cases nodes with
      | nil => cases hm
      | cons node nodes => exact Bool.or_true _
    · exact Bool.or_eq_true_iff.mpr (.inl (h.set nodePath hp))
  · exact fun _ => (server.node_withNodes_ne_none nodes nodeName).mpr hnamed

/-- Nodes that bring a name, or need none. -/
theorem IsSound.withNodes {server : ServerSide} (h : server.IsSound)
    {nodes : List (String × NodeMessage)}
    (hhosted : ∀ nodePath ∈ nodes.map Prod.fst, IsHostedNode nodePath)
    (hnamed : nodeName ∈ nodes.map Prod.fst ∨ server.node nodeName ≠ none)
    (hname : ∀ data, (server.withNodes nodes).node nodeName = some data →
      ∃ c : ServerConnection, data = c.nameNode) : (server.withNodes nodes).IsSound := by
  constructor
  · intro nodePath hp
    rcases (server.node_withNodes_ne_none nodes nodePath).mp hp with hm | hp
    · exact hhosted nodePath hm
    · exact h.hosted nodePath hp
  · exact h.named.withNodes hnamed
  · exact hname

theorem notMem_of_shares {c : ServerConnection} {files : List (String × NodeMessage)}
    (hfiles : c.Shares files) (h : isFileNode nodePath = false) :
    nodePath ∉ files.map Prod.fst := by
  intro hm
  obtain ⟨node, hnode, rfl⟩ := List.mem_map.mp hm
  obtain ⟨file, -, rfl⟩ := hfiles node hnode
  exact absurd (isFileNode_filesNodePath c file.fileName) (Bool.eq_false_iff.mp h)

theorem node_without (server : ServerSide) (gone : String → Bool) (nodePath : String) :
    (server.without gone).node nodePath =
      if gone nodePath = true then none else server.node nodePath := rfl

theorem ne_none_of_without {server : ServerSide} (h : (server.without gone).node nodePath ≠ none) :
    server.node nodePath ≠ none := by
  rw [node_without] at h
  intro hnone
  rw [hnone] at h
  exact h (ite_self none)

section
variable [MuscleServer]

theorem covers_cleanUp (hspared : MuscleServer.SparesUsers)
    (hp : nodePath ∈ [nodeName, nodeUserStatus, nodeFileCount]) :
    cleanUpMessage.keys.any (MuscleServer.covers · nodePath) = false := by
  rw [cleanUpMessage, List.any_cons, hspared nodePath hp]
  rfl

/-- The nodes that stay when a client takes its files away. -/
def cleaned (server : ServerSide) : ServerSide :=
  server.without fun nodePath => cleanUpMessage.keys.any (MuscleServer.covers · nodePath)

theorem node_cleaned (hspared : MuscleServer.SparesUsers) (server : ServerSide)
    (hp : nodePath ∈ [nodeName, nodeUserStatus, nodeFileCount]) :
    server.cleaned.node nodePath = server.node nodePath := by
  rw [cleaned, node_without, covers_cleanUp hspared hp]
  rfl

theorem IsSound.cleaned (hspared : MuscleServer.SparesUsers) {server : ServerSide}
    (h : server.IsSound) : server.cleaned.IsSound := by
  have hkept : server.cleaned.node nodeName = server.node nodeName :=
    server.node_cleaned hspared (by simp)
  constructor
  · exact fun nodePath hp => h.hosted nodePath (ne_none_of_without hp)
  · constructor
    · exact fun nodePath hp => h.named.set nodePath (ne_none_of_without hp)
    · intro hset
      rw [hkept]
      exact h.named.name hset
  · intro data hdata
    exact h.name data (hkept.symm.trans hdata)

end

theorem shownUsers_of_deaf {server : ServerSide} (h : server.hearsUsers = false) (seats : Seats) :
    server.shownUsers seats = fun _ => none := by
  funext n
  exact if_neg fun hn => Bool.false_ne_true (h.symm.trans hn.1)

end ServerSide

section
variable [MuscleLibrary] [MuscleRelay]

namespace ServerState

variable {seats : Seats}

omit [MuscleLibrary] [MuscleRelay] in
theorem setsNodes_one (h : IsHostedNode nodePath) (data : NodeMessage) :
    (setDataMessage [(nodePath, data)]).SetsNodes where
  what := rfl
  hosted node hm := by rwa [List.mem_singleton.mp hm]
  nodup := List.nodup_singleton nodePath

omit [MuscleLibrary] [MuscleRelay] in
theorem setsNodes_files {c : ServerConnection} {files : List (String × NodeMessage)}
    (hfiles : c.Shares files) (hnodup : (files.map Prod.fst).Nodup) :
    (setDataMessage files).SetsNodes where
  what := rfl
  hosted node hm := by
    obtain ⟨file, hplain, rfl⟩ := hfiles node hm
    exact .file c hplain
  nodup := hnodup

theorem side_after_setData (hserves : MuscleRelay.Serves seats) (state : ServerState)
    {nodes : List (String × NodeMessage)} (hsets : (setDataMessage nodes).SetsNodes) :
    (state.after (.sent (setDataMessage nodes))).side = state.side.withNodes nodes :=
  hserves.sets state (setDataMessage nodes) hsets

theorem brings_setData (hserves : MuscleRelay.Serves seats) (state : ServerState)
    {nodes : List (String × NodeMessage)} (hsets : (setDataMessage nodes).SetsNodes) :
    (state.side.withNodes nodes).Brings seats (state.news (.sent (setDataMessage nodes)))
      fun entry => entry ∈ nodes ∧ state.side.isSubscribed seats entry.1 = true := by
  have hbrings := hserves.tellsSet state (setDataMessage nodes) hsets
  rw [hserves.sets state _ hsets] at hbrings
  exact hbrings

theorem side_after_cleanUp (hserves : MuscleRelay.Serves seats) (state : ServerState) :
    (state.after (.sent cleanUpMessage)).side = state.side.cleaned :=
  hserves.removes state cleanUpMessage rfl

theorem side_after_other (hserves : MuscleRelay.Serves seats) (state : ServerState)
    (h : o.LeavesNodes) : (state.after o).side = state.side := by
  cases o with
  | sent message =>
    exact hserves.spares state message h.ours (h.sets_nothing message rfl)
      (h.removes_nothing message rfl)
  | _ => rfl

/-- Where nodes are left alone, others are told what is meant for them. -/
theorem what_news_of_leaves (hserves : MuscleRelay.Serves seats) {state : ServerState}
    (h : o.LeavesNodes) (hm : message ∈ state.news o) : message.what.isRelayed = true ∧
      ∃ sent : ServerMessage, o = .sent sent ∧ message.what = sent.what := by
  cases o with
  | sent sent =>
    obtain ⟨hwhat, hrelayed⟩ := hserves.passesOn state sent h.ours (h.sets_nothing sent rfl)
      (h.removes_nothing sent rfl) message hm
    exact ⟨hwhat ▸ hrelayed, sent, rfl, hwhat⟩
  | _ => cases hm

omit [MuscleLibrary] [MuscleRelay] in
theorem what_ne_of_isRelayed {message : ServerMessage} (h : message.what.isRelayed = true) :
    message.what ≠ .resultDataItems := by
  intro hwhat
  rw [hwhat] at h
  cases h

/-- What a publisher does is about its nodes at most. -/
theorem side_after (hserves : MuscleRelay.Serves seats) {state : ServerState}
    (ho : state.side.Hears o) : (state.after o).side = { state.side with
      node := (state.after o).side.node
      hasSet := (state.after o).side.hasSet } := by
  cases ho with
  | name c =>
    rw [side_after_setData hserves state (setsNodes_one .name _)]
    rfl
  | userStatus c hname =>
    rw [side_after_setData hserves state (setsNodes_one .userStatus _)]
    rfl
  | fileCount count hname =>
    rw [side_after_setData hserves state (setsNodes_one .fileCount _)]
    rfl
  | files c hfiles hnodup hname =>
    rw [side_after_setData hserves state (setsNodes_files hfiles hnodup)]
    rfl
  | cleanUp =>
    rw [side_after_cleanUp hserves]
    rfl
  | other hleaves => rw [side_after_other hserves state hleaves]

theorem news_of_deaf (hserves : MuscleRelay.Serves seats) {state : ServerState}
    (h : state.side.hearsUsers = false) (o : ConnectionOccurrence) : state.news o = [] := by
  cases o with
  | sent message => exact (hserves.silent state h).1 message
  | _ => rfl

theorem isSound_after (hserves : MuscleRelay.Serves seats) (hspared : MuscleServer.SparesUsers)
    {state : ServerState} (h : state.side.IsSound) (ho : state.side.Hears o) :
    (state.after o).side.IsSound := by
  cases ho with
  | name c =>
    rw [side_after_setData hserves state (setsNodes_one .name _)]
    refine h.withNodes (fun nodePath hm => ?_) (.inl List.mem_cons_self) fun data hdata => ?_
    · cases List.mem_singleton.mp hm
      exact .name
    · have hset := state.side.node_withNodes_self nodeName c.nameNode
      exact ⟨c, Option.some.inj (hdata.symm.trans hset)⟩
  | userStatus c hname =>
    rw [side_after_setData hserves state (setsNodes_one .userStatus _)]
    refine h.withNodes (fun nodePath hm => ?_) (.inr hname) fun data hdata => h.name data ?_
    · cases List.mem_singleton.mp hm
      exact .userStatus
    · have hother : nodeName ≠ nodeUserStatus := by decide
      exact (state.side.node_withNodes_of_ne c.userStatusNode hother).symm.trans hdata
  | fileCount count hname =>
    rw [side_after_setData hserves state (setsNodes_one .fileCount _)]
    refine h.withNodes (fun nodePath hm => ?_) (.inr hname) fun data hdata => h.name data ?_
    · cases List.mem_singleton.mp hm
      exact .fileCount
    · have hother : nodeName ≠ nodeFileCount := by decide
      exact (state.side.node_withNodes_of_ne (fileCountNode count) hother).symm.trans hdata
  | @files c files hfiles hnodup hname =>
    rw [side_after_setData hserves state (setsNodes_files hfiles hnodup)]
    refine h.withNodes (fun nodePath hm => ?_) (.inr hname) fun data hdata => h.name data ?_
    · obtain ⟨node, hnode, rfl⟩ := List.mem_map.mp hm
      obtain ⟨file, hplain, rfl⟩ := hfiles node hnode
      exact .file c hplain
    · have hother : nodeName ∉ files.map Prod.fst :=
        ServerSide.notMem_of_shares hfiles (by decide)
      exact (state.side.node_withNodes_of_notMem hother).symm.trans hdata
  | cleanUp =>
    rw [side_after_cleanUp hserves]
    exact h.cleaned hspared
  | other hleaves =>
    rw [side_after_other hserves state hleaves]
    exact h

/-- A client says its words in an order in which the server can take them. -/
def HearsAll (state : ServerState) : List ConnectionOccurrence → Prop
  | [] => True
  | o :: later => state.side.Hears o ∧ (state.after o).HearsAll later

omit [MuscleLibrary] in
theorem afterAll_append (state : ServerState) (occurrences later : List ConnectionOccurrence) :
    state.afterAll (occurrences ++ later) = (state.afterAll occurrences).afterAll later :=
  List.foldl_append ..

omit [MuscleLibrary] in
theorem HearsAll.append {state : ServerState} (h : state.HearsAll occurrences)
    (hlater : (state.afterAll occurrences).HearsAll later) :
    state.HearsAll (occurrences ++ later) := by
  induction occurrences generalizing state with
  | nil => exact hlater
  | cons o occurrences ih => exact ⟨h.1, ih h.2 hlater⟩

theorem side_afterAll (hserves : MuscleRelay.Serves seats) {state : ServerState}
    (hears : state.HearsAll occurrences) : (state.afterAll occurrences).side = { state.side with
      node := (state.afterAll occurrences).side.node
      hasSet := (state.afterAll occurrences).side.hasSet } := by
  induction occurrences generalizing state with
  | nil => rfl
  | cons o later ih =>
    rw [afterAll, List.foldl_cons, ← afterAll, ih hears.2, side_after hserves hears.1]

theorem newsOfAll_of_deaf (hserves : MuscleRelay.Serves seats) {state : ServerState}
    (hears : state.HearsAll occurrences) (h : state.side.hearsUsers = false) :
    state.newsOfAll occurrences = [] := by
  induction occurrences generalizing state with
  | nil => rfl
  | cons o later ih =>
    rw [newsOfAll, news_of_deaf hserves h o, List.nil_append]
    apply ih hears.2
    rw [side_after hserves hears.1]
    exact h

theorem isSound_afterAll (hserves : MuscleRelay.Serves seats) (hspared : MuscleServer.SparesUsers)
    {state : ServerState} (h : state.side.IsSound) (hears : state.HearsAll occurrences) :
    (state.afterAll occurrences).side.IsSound := by
  induction occurrences generalizing state with
  | nil => exact h
  | cons o later ih => exact ih (isSound_after hserves hspared h hears.1) hears.2

theorem hearsAll_of_leaves (hserves : MuscleRelay.Serves seats) (state : ServerState)
    (h : ∀ o ∈ occurrences, o.LeavesNodes) :
    state.HearsAll occurrences ∧ (state.afterAll occurrences).side = state.side := by
  induction occurrences generalizing state with
  | nil => exact ⟨trivial, rfl⟩
  | cons o later ih =>
    have ho := h o List.mem_cons_self
    obtain ⟨hears, hafter⟩ := ih (state.after o) fun o hm => h o (List.mem_cons_of_mem _ hm)
    exact ⟨⟨.other ho, hears⟩, hafter.trans (side_after_other hserves state ho)⟩

theorem tellUsers_userNode (hserves : MuscleRelay.Serves seats) (hseats : seats.IsProper)
    (hlibrary : MuscleLibrary.ReadsPaths) (state : ServerState) (hc : ArePlain [clause])
    (hhosted : IsHostedNode ("beshare/" ++ clause))
    (hfile : isFileNode ("beshare/" ++ clause) = false) (data : NodeMessage)
    (hnamed : (state.side.withNodes [("beshare/" ++ clause, data)]).IsNamed)
    (hrecord : some (((shownUser (seats.hostOf state.side.sessions)
        (seats.sessionOf state.side.sessions) state.side.node).getD
          { sessionId := seats.sessionOf state.side.sessions }).write
            ⟨state.side.absolutePath seats ("beshare/" ++ clause), data⟩).unplaced =
      shownUser (seats.hostOf state.side.sessions) (seats.sessionOf state.side.sessions)
        (Function.update state.side.node ("beshare/" ++ clause) (some data))) :
    (state.news (.sent (setDataMessage [("beshare/" ++ clause, data)]))).foldl
      (tellUsers seats) (state.side.shownUsers seats) =
        (state.side.withNodes [("beshare/" ++ clause, data)]).shownUsers seats := by
  cases hears : state.side.hearsUsers with
  | false =>
    have hdeaf : (state.side.withNodes [("beshare/" ++ clause, data)]).hearsUsers = false := hears
    rw [news_of_deaf hserves hears, List.foldl_nil, ServerSide.shownUsers_of_deaf hears,
      ServerSide.shownUsers_of_deaf hdeaf]
  | true =>
    funext n
    have hnodup : ([("beshare/" ++ clause, data)].map Prod.fst).Nodup := List.nodup_singleton _
    have hbrings := brings_setData hserves state (setsNodes_one hhosted data)
    have hsubscribed : state.side.isSubscribed seats ("beshare/" ++ clause) = true := by
      rw [ServerSide.isSubscribed, hfile, hears]
      rfl
    have htold := hbrings.perm hnodup
      (fun entry => and_iff_left_of_imp fun hm => by rwa [List.mem_singleton.mp hm])
      fun entry hm => by rwa [List.mem_singleton.mp hm]
    apply hbrings.tellUsers hseats hlibrary (state.side.shownUsers_unplaced seats) hnamed hears n
    have howner : nodeOwner (ServerSide.placed seats (state.side.withNodes
        [("beshare/" ++ clause, data)]) ("beshare/" ++ clause, data)).1 =
          some (seats.sessionOf state.side.sessions) :=
      (hseats.userNode state.side hc).owner hlibrary
    rw [List.perm_singleton.mp htold, List.foldl_cons, List.foldl_nil, writeInto]
    by_cases hn : n = state.side.sessions
    · subst hn
      rw [if_pos howner, ServerSide.shownUsers, if_pos ⟨hears, rfl⟩]
      exact hrecord.trans (if_pos ⟨hears, rfl⟩).symm
    · rw [if_neg fun h => hn (hseats.injective (Option.some.inj (howner.symm.trans h)).symm),
        ServerSide.shownUsers, if_neg fun h => hn h.2]
      exact (if_neg fun h => hn h.2).symm

theorem tellUsers_name (hserves : MuscleRelay.Serves seats) (hseats : seats.IsProper)
    (hlibrary : MuscleLibrary.ReadsPaths) {state : ServerState} (h : state.side.IsSound)
    (c : ServerConnection) :
    (state.news (.sent (setDataMessage [(nodeName, c.nameNode)]))).foldl (tellUsers seats)
      (state.side.shownUsers seats) =
        (state.side.withNodes [(nodeName, c.nameNode)]).shownUsers seats := by
  have hplain : ArePlain ["name"] := by simp [ArePlain]
  have hpath := hseats.userNode state.side hplain
  obtain ⟨hname, hport, hinstall, hversion, -⟩ := nameNode_fields c
  apply tellUsers_userNode hserves hseats hlibrary state hplain .name (by decide)
  · exact h.named.withNodes (.inl List.mem_cons_self)
  · rw [UserRecord.write, hpath.node hlibrary]
    change some (UserRecord.unplaced (UserRecord.readName _ _ c.nameNode)) =
      shownUser _ _ (Function.update state.side.node nodeName (some c.nameNode))
    rw [UserRecord.readName_nameNode _ c (hpath.hostName hlibrary)]
    simp only [shownUser, Function.update_self, Option.map_some, hname, hport, hinstall,
      hversion, Option.getD_some, UserRecord.unplaced,
      Function.update_of_ne (show nodeUserStatus ≠ nodeName by decide),
      Function.update_of_ne (show nodeFileCount ≠ nodeName by decide)]
    cases hknown : state.side.node nodeName with
    | none =>
      rw [h.named.none_of_none hknown, h.named.none_of_none hknown]
      rfl
    | some data => rfl

/-- A user whose name is there says something else. -/
theorem tellUsers_userStatus (hserves : MuscleRelay.Serves seats) (hseats : seats.IsProper)
    (hlibrary : MuscleLibrary.ReadsPaths) {state : ServerState} (h : state.side.IsSound)
    (hnamed : state.side.node nodeName ≠ none) (c : ServerConnection) :
    (state.news (.sent (setDataMessage [(nodeUserStatus, c.userStatusNode)]))).foldl
      (tellUsers seats) (state.side.shownUsers seats) =
        (state.side.withNodes [(nodeUserStatus, c.userStatusNode)]).shownUsers seats := by
  have hplain : ArePlain ["userstatus"] := by simp [ArePlain]
  obtain ⟨data, hdata⟩ := Option.ne_none_iff_exists'.mp hnamed
  apply tellUsers_userNode hserves hseats hlibrary state hplain .userStatus (by decide)
  · exact h.named.withNodes (.inr hnamed)
  · rw [UserRecord.write, (hseats.userNode state.side hplain).node hlibrary]
    change some (UserRecord.unplaced (UserRecord.writeNode _ .userStatus _ c.userStatusNode)) =
      shownUser _ _ (Function.update state.side.node nodeUserStatus (some c.userStatusNode))
    simp only [shownUser, Function.update_self,
      Function.update_of_ne (show nodeName ≠ nodeUserStatus by decide),
      Function.update_of_ne (show nodeFileCount ≠ nodeUserStatus by decide), hdata]
    rfl

theorem tellUsers_fileCount (hserves : MuscleRelay.Serves seats) (hseats : seats.IsProper)
    (hlibrary : MuscleLibrary.ReadsPaths) {state : ServerState} (h : state.side.IsSound)
    (hnamed : state.side.node nodeName ≠ none) (count : UInt32) :
    (state.news (.sent (setDataMessage [(nodeFileCount, fileCountNode count)]))).foldl
      (tellUsers seats) (state.side.shownUsers seats) =
        (state.side.withNodes [(nodeFileCount, fileCountNode count)]).shownUsers seats := by
  have hplain : ArePlain ["filecount"] := by simp [ArePlain]
  obtain ⟨data, hdata⟩ := Option.ne_none_iff_exists'.mp hnamed
  apply tellUsers_userNode hserves hseats hlibrary state hplain .fileCount (by decide)
  · exact h.named.withNodes (.inr hnamed)
  · rw [UserRecord.write, (hseats.userNode state.side hplain).node hlibrary]
    change some (UserRecord.unplaced (UserRecord.writeNode _ .fileCount _ (fileCountNode count))) =
      shownUser _ _ (Function.update state.side.node nodeFileCount (some (fileCountNode count)))
    simp only [shownUser, Function.update_self,
      Function.update_of_ne (show nodeName ≠ nodeFileCount by decide),
      Function.update_of_ne (show nodeUserStatus ≠ nodeFileCount by decide), hdata]
    rfl

/-- The files of a user are nothing to the list of users. -/
theorem tellUsers_files (hserves : MuscleRelay.Serves seats) (hseats : seats.IsProper)
    (hlibrary : MuscleLibrary.ReadsPaths) {state : ServerState} (h : state.side.IsSound)
    {c : ServerConnection} {files : List (String × NodeMessage)} (hfiles : c.Shares files)
    (hnodup : (files.map Prod.fst).Nodup) (hnamed : state.side.node nodeName ≠ none) :
    (state.news (.sent (setDataMessage files))).foldl (tellUsers seats)
      (state.side.shownUsers seats) = (state.side.withNodes files).shownUsers seats := by
  have hsame : (state.side.withNodes files).shownUsers seats = state.side.shownUsers seats := by
    apply ServerSide.shownUsers_congr
    · rfl
    · rfl
    · intro nodePath hp
      apply state.side.node_withNodes_of_notMem
      apply ServerSide.notMem_of_shares hfiles
      revert nodePath
      decide
  cases hears : state.side.hearsUsers with
  | false => rw [news_of_deaf hserves hears, hsame, List.foldl_nil]
  | true =>
    funext n
    have hbrings := brings_setData hserves state (setsNodes_files hfiles hnodup)
    apply hbrings.tellUsers hseats hlibrary (state.side.shownUsers_unplaced seats) _ hears n
    · rw [foldl_writeInto_of_others, hsame, state.side.shownUsers_unplaced seats]
      intro node hm
      obtain ⟨hm, hd⟩ := List.mem_filter.mp hm
      obtain ⟨entry, ⟨hentry, -⟩, rfl⟩ := (hbrings.told node (by simpa using hd)).mp hm
      obtain ⟨file, hplain, rfl⟩ := hfiles entry hentry
      have hpath := hseats.fileNode state.side c hplain
      exact fun ho => absurd ((hpath.owner hlibrary).symm.trans ho) (by simp)
    · exact h.named.withNodes (.inr hnamed)

/-- News of nodes that are gone from a user who keeps the name. -/
theorem tellUsers_cleanUp (hserves : MuscleRelay.Serves seats) (hseats : seats.IsProper)
    (hlibrary : MuscleLibrary.ReadsPaths) (hspared : MuscleServer.SparesUsers)
    {state : ServerState} (h : state.side.IsSound) :
    (state.news (.sent cleanUpMessage)).foldl (tellUsers seats) (state.side.shownUsers seats) =
      state.side.cleaned.shownUsers seats := by
  have hsame : state.side.cleaned.shownUsers seats = state.side.shownUsers seats :=
    ServerSide.shownUsers_congr seats rfl rfl fun _ hp => state.side.node_cleaned hspared hp
  funext n
  rw [hsame]
  apply (hserves.tellsRemoved state cleanUpMessage rfl).tellUsers_stays hseats hlibrary
  · exact fun nodePath hgone => h.hosted nodePath hgone.1
  · rintro ⟨⟨-, hcovered, -⟩, -⟩
    rw [ServerSide.covers_cleanUp hspared (by simp)] at hcovered
    exact Bool.false_ne_true hcovered

omit [MuscleRelay] in
/-- What is not about nodes is not read into the registry. -/
theorem tellUsers_relayed (seats : Seats) (server : ServerSide)
    {message : ServerMessage} (h : message.what ≠ .resultDataItems) :
    tellUsers seats (server.shownUsers seats) message = server.shownUsers seats := by
  funext n
  rw [tellUsers, readMessage, if_neg h, server.shownUsers_unplaced seats]

/-- A subscriber who is told all there is to be told knows what the server knows. -/
theorem tellUsers_news (hserves : MuscleRelay.Serves seats) (hseats : seats.IsProper)
    (hlibrary : MuscleLibrary.ReadsPaths) (hspared : MuscleServer.SparesUsers)
    {state : ServerState} (h : state.side.IsSound) (ho : state.side.Hears o) :
    (state.news o).foldl (tellUsers seats) (state.side.shownUsers seats) =
      (state.after o).side.shownUsers seats := by
  cases ho with
  | name c =>
    rw [side_after_setData hserves state (setsNodes_one .name _)]
    exact tellUsers_name hserves hseats hlibrary h c
  | userStatus c hname =>
    rw [side_after_setData hserves state (setsNodes_one .userStatus _)]
    exact tellUsers_userStatus hserves hseats hlibrary h hname c
  | fileCount count hname =>
    rw [side_after_setData hserves state (setsNodes_one .fileCount _)]
    exact tellUsers_fileCount hserves hseats hlibrary h hname count
  | files c hfiles hnodup hname =>
    rw [side_after_setData hserves state (setsNodes_files hfiles hnodup)]
    exact tellUsers_files hserves hseats hlibrary h hfiles hnodup hname
  | cleanUp =>
    rw [side_after_cleanUp hserves]
    exact tellUsers_cleanUp hserves hseats hlibrary hspared h
  | other hleaves =>
    rw [side_after_other hserves state hleaves]
    refine foldl_eq_self fun message hm => tellUsers_relayed seats state.side ?_
    exact what_ne_of_isRelayed (what_news_of_leaves hserves hleaves hm).1

theorem tellUsers_endSession (hserves : MuscleRelay.Serves seats) (hseats : seats.IsProper)
    (hlibrary : MuscleLibrary.ReadsPaths) {state : ServerState} (h : state.side.IsSound) :
    state.newsOfEnd.foldl (tellUsers seats) (state.side.shownUsers seats) =
      state.endSession.side.shownUsers seats := by
  have hside : state.endSession.side = _ := hserves.ends state
  have hended (n : Nat) : state.endSession.side.shownUsers seats n = none := by
    rw [hside, ServerSide.shownUsers]
    exact ite_self none
  have htakes : state.side.Takes seats state.newsOfEnd _ := hserves.tellsEnd state
  funext n
  rw [hended]
  by_cases hgone : (state.side.node nodeName ≠ none ∧
      state.side.isSubscribed seats nodeName = true) ∧ n = state.side.sessions
  · obtain ⟨hname, rfl⟩ := hgone
    exact htakes.tellUsers_gone hseats hlibrary hname
  · rw [htakes.tellUsers_stays hseats hlibrary (fun nodePath hg => h.hosted nodePath hg.1) hgone,
      ServerSide.shownUsers]
    split
    · next hears =>
      have hnobody : state.side.node nodeName = none := by
        by_contra hname
        refine hgone ⟨⟨hname, ?_⟩, hears.2⟩
        rw [ServerSide.isSubscribed, hears.1]
        rfl
      rw [shownUser, hnobody]
      rfl
    · rfl

theorem tellUsers_newsOfAll (hserves : MuscleRelay.Serves seats) (hseats : seats.IsProper)
    (hlibrary : MuscleLibrary.ReadsPaths) (hspared : MuscleServer.SparesUsers)
    {state : ServerState} (h : state.side.IsSound) (hears : state.HearsAll occurrences) :
    (state.newsOfAll occurrences).foldl (tellUsers seats) (state.side.shownUsers seats) =
      (state.afterAll occurrences).side.shownUsers seats := by
  induction occurrences generalizing state with
  | nil => rfl
  | cons o later ih =>
    rw [newsOfAll, List.foldl_append, tellUsers_news hserves hseats hlibrary hspared h hears.1,
      ih (isSound_after hserves hspared h hears.1) hears.2]
    rfl

end ServerState

end

end HiTuxShare
