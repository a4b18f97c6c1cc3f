import HiTuxShare.ToldUsers

namespace HiTuxShare
set_option autoImplicit true

open MuscleLibrary

theorem occurrencesOf_append [MuscleLibrary] {w : ConnectionWorld} {e : ServerConnectionEvent}
    (h : (w.handle e).history = w.history ++ later) : occurrencesOf w e = later := by
  rw [occurrencesOf, h, List.drop_left]

namespace Publisher

/-- What the server has of a publisher is what the publisher says of itself now. -/
structure IsSound [MuscleRelay] (p : Publisher) : Prop where
  server : p.server.IsSound
  offline : p.isConnected = false → p.server.node = (fun _ => none) ∧ p.server.hasSet = false
  name : p.isConnected = true → p.server.node nodeName = some p.nameNode
  userStatus : p.isConnected = true → p.server.node nodeUserStatus = some p.userStatusNode

/-- The number that names an installation is not set anew under a connection, and the files that are
published together have names that make paths, each its own. -/
structure Admits [MuscleRelay] (p : Publisher) (e : ServerConnectionEvent) : Prop where
  installId : p.toConnectionWorld.KeepsInstallId e
  plain : ∀ files, e.call = .publishSharedFiles files → ∀ file ∈ files, ArePlain [file.fileName]
  nodup : ∀ files, e.call = .publishSharedFiles files → (files.map SharedFile.fileName).Nodup

section
variable [MuscleLibrary] [MuscleRelay]

variable {seats : Seats}

theorem hearsAll_files (hserves : MuscleRelay.Serves seats) {c : ServerConnection}
    {groups : List (List (String × NodeMessage))} (hshares : c.Shares groups.flatten)
    (hnodup : (groups.flatten.map Prod.fst).Nodup) {state : ServerState}
    (hname : state.side.node nodeName ≠ none) :
    state.HearsAll (groups.map fun nodes => .sent (setDataMessage nodes)) ∧
      ∀ nodePath, isFileNode nodePath = false →
        (state.afterAll (groups.map fun nodes => .sent (setDataMessage nodes))).side.node
          nodePath = state.side.node nodePath := by
  induction groups generalizing state with
  | nil => exact ⟨trivial, fun _ _ => rfl⟩
  | cons nodes groups ih =>
    rw [List.flatten_cons] at hshares hnodup
    rw [List.map_append] at hnodup
    have hfiles : c.Shares nodes := fun node hm => hshares node (List.mem_append_left _ hm)
    have hkept (nodePath : String) (hp : isFileNode nodePath = false) :
        (state.after (.sent (setDataMessage nodes))).side.node nodePath =
          state.side.node nodePath := by
      rw [ServerState.side_after_setData hserves state
        (ServerState.setsNodes_files hfiles hnodup.of_append_left)]
      exact state.side.node_withNodes_of_notMem (ServerSide.notMem_of_shares hfiles hp)
    have hname' : (state.after (.sent (setDataMessage nodes))).side.node nodeName ≠ none := by
      rwa [hkept nodeName (by decide)]
    obtain ⟨hears, hlater⟩ := ih (fun node hm => hshares node (List.mem_append_right _ hm))
      hnodup.of_append_right hname'
    refine ⟨⟨.files c hfiles hnodup.of_append_left hname, hears⟩, fun nodePath hp => ?_⟩
    exact (hlater nodePath hp).trans (hkept nodePath hp)

theorem side_endSession (hserves : MuscleRelay.Serves seats) (state : ServerState) :
    state.endSession.side =
      { state.side with
        sessions := state.side.sessions + 1
        node := fun _ => none
        hasSet := false } :=
  hserves.ends state

theorem IsSound.hosted (hserves : MuscleRelay.Serves seats) {p : Publisher} (h : p.IsSound)
    (e : ServerConnectionEvent) : (p.hosted e).side.IsSound := by
  rw [Publisher.hosted]
  split
  · rw [side_endSession hserves]
    exact ServerSide.isSound_empty rfl rfl
  · exact h.server

/-- A login says the name before all else. -/
theorem IsSound.logsIn (hserves : MuscleRelay.Serves seats) {p : Publisher} (h : p.IsSound)
    (hspared : MuscleServer.SparesUsers)
    (he : e.call = .sessionConnected connectedTo) (hrunning : p.internalThreadRunning = true) :
    (p.hosted e).HearsAll (occurrencesOf p.toConnectionWorld e) ∧ (p.handle e).IsSound := by
  have hhandle : p.toConnectionWorld.handle e =
      p.toConnectionWorld.sessionConnected e.now connectedTo := by
    rw [ConnectionWorld.handle, he]
    exact if_pos hrunning
  obtain ⟨quiet, hidle, hsaid⟩ :=
    p.toConnectionWorld.sessionConnected_says e.now connectedTo
  rw [← hhandle] at hsaid
  have hserver := p.toConnectionWorld.sessionConnected_toServerConnection e.now connectedTo
  rw [← hhandle] at hserver
  obtain ⟨hquiet, hsame⟩ := ServerState.hearsAll_of_leaves hserves (p.hosted e)
    fun o hm => (hidle o hm).leavesNodes
  have hname : (((p.hosted e).afterAll quiet).after
      (.sent (setDataMessage [(nodeName, p.nameNode)]))).side.node nodeName =
        some p.nameNode := by
    rw [ServerState.side_after_setData hserves _ (ServerState.setsNodes_one .name _)]
    exact ServerSide.node_withNodes_self ..
  have hears : (p.hosted e).HearsAll (occurrencesOf p.toConnectionWorld e) := by
    rw [occurrencesOf_append hsaid]
    refine hquiet.append ⟨.name p.toServerConnection, .userStatus p.toServerConnection ?_,
      .other (ConnectionOccurrence.leavesNodes_sent (by decide) (by decide) (by decide)),
      .other (ConnectionOccurrence.leavesNodes_sent (by decide) (by decide) (by decide)), trivial⟩
    rw [hname]
    exact Option.some_ne_none _
  have hends : p.endsSession e = true := by rw [ServerConnection.endsSession, he, hrunning]
  have hidentity : (p.handle e).identity = p.identity := by
    rw [ServerConnection.identity, Publisher.handle, hserver]
    rfl
  have hafter : (p.handle e).server = (((p.hosted e).side.withNodes
      [(nodeName, p.nameNode)]).withNodes [(nodeUserStatus, p.userStatusNode)]) := by
    have hrest : ∀ o ∈ [ConnectionOccurrence.sent subscribeMessage,
        .sent { toMessage := .ofWhat .getParameters }], o.LeavesNodes := by
      intro o hm
      rcases List.mem_pair.mp hm with rfl | rfl
      · exact ConnectionOccurrence.leavesNodes_sent (by decide) (by decide) (by decide)
      · exact ConnectionOccurrence.leavesNodes_sent (by decide) (by decide) (by decide)
    rw [Publisher.server, Publisher.handle, occurrencesOf_append hsaid,
      ServerState.afterAll_append]
    refine (ServerState.hearsAll_of_leaves hserves _ hrest).2.trans ?_
    rw [ServerState.side_after_setData hserves _ (ServerState.setsNodes_one .userStatus _),
      ServerState.side_after_setData hserves _ (ServerState.setsNodes_one .name _), hsame]
  refine ⟨hears, ?_, fun hoff => ?_, fun _ => ?_, fun _ => ?_⟩
  · exact ServerState.isSound_afterAll hserves hspared (h.hosted hserves e) hears
  · have hon : (p.handle e).isConnected = true :=
      ConnectionWorld.isConnected_of_sessionConnected he hrunning
    exact absurd (hoff.symm.trans hon) Bool.false_ne_true
  · have hother : nodeName ≠ nodeUserStatus := by decide
    rw [hafter, ServerConnection.nameNode_of_identity hidentity,
      ServerSide.node_withNodes_of_ne _ _ hother, ServerSide.node_withNodes_self]
  · rw [hafter, ServerConnection.userStatusNode_of_identity hidentity,
      ServerSide.node_withNodes_self]

/-- A call in a session leaves the name and the status that are there then. -/
theorem IsSound.says (hserves : MuscleRelay.Serves seats) {p : Publisher} (h : p.IsSound)
    (hspared : MuscleServer.SparesUsers) (hends : p.endsSession e = false)
    (hc : p.isConnected = true)
    (hsaid : (p.toConnectionWorld.handle e).history = p.history ++ said)
    (hears : p.state.HearsAll said)
    (hname : (p.state.afterAll said).side.node nodeName =
      some (p.toConnectionWorld.handle e).nameNode)
    (hstatus : (p.state.afterAll said).side.node nodeUserStatus =
      some (p.toConnectionWorld.handle e).userStatusNode) :
    (p.hosted e).HearsAll (occurrencesOf p.toConnectionWorld e) ∧ (p.handle e).IsSound := by
  have hhosted : p.hosted e = p.state := if_neg (Bool.eq_false_iff.mp hends)
  have hserver : (p.handle e).server = (p.state.afterAll said).side := by
    rw [Publisher.server, Publisher.handle, occurrencesOf_append hsaid, hhosted]
  rw [occurrencesOf_append hsaid, hhosted]
  refine ⟨hears, ?_, fun hoff => ?_, fun _ => ?_, fun _ => ?_⟩
  · rw [hserver]
    exact ServerState.isSound_afterAll hserves hspared h.server hears
  · have hon : (p.handle e).isConnected = true :=
      (ConnectionWorld.isConnected_handle hends).trans hc
    exact absurd (hoff.symm.trans hon) Bool.false_ne_true
  · rw [hserver]
    exact hname
  · rw [hserver]
    exact hstatus

/-- A call that says nothing of who we are. -/
theorem IsSound.idles (hserves : MuscleRelay.Serves seats) {p : Publisher} (h : p.IsSound)
    (hended : p.endsSession e = true → (p.toConnectionWorld.handle e).isConnected = false)
    (hleaves : DoesOnly ConnectionOccurrence.LeavesNodes p.toConnectionWorld
      (p.toConnectionWorld.handle e))
    (hsame : (p.toConnectionWorld.handle e).isConnected = true →
      (p.toConnectionWorld.handle e).identity = p.identity) :
    (p.hosted e).HearsAll (occurrencesOf p.toConnectionWorld e) ∧ (p.handle e).IsSound := by
  obtain ⟨hears, hafter⟩ := ServerState.hearsAll_of_leaves hserves (p.hosted e) hleaves.drop
  have hserver : (p.handle e).server = (p.hosted e).side := hafter
  have honline (hon : (p.toConnectionWorld.handle e).isConnected = true) :
      p.hosted e = p.state ∧ p.isConnected = true := by
    have hends : p.endsSession e = false := by
      by_contra hends
      exact Bool.false_ne_true ((hended (Bool.eq_true_of_not_eq_false hends)).symm.trans hon)
    exact ⟨if_neg (Bool.eq_false_iff.mp hends),
      (ConnectionWorld.isConnected_handle hends).symm.trans hon⟩
  refine ⟨hears, ?_, fun hoff => ?_, fun hon => ?_, fun hon => ?_⟩
  · rw [hserver]
    exact h.hosted hserves e
  · rw [hserver, Publisher.hosted]
    split
    · rw [side_endSession hserves]
      exact ⟨rfl, rfl⟩
    · next hends =>
      have hsame : (p.handle e).isConnected = p.isConnected :=
        ConnectionWorld.isConnected_handle (Bool.eq_false_iff.mpr hends)
      exact h.offline (hsame.symm.trans hoff)
  · obtain ⟨hhosted, hc⟩ := honline hon
    rw [hserver, hhosted]
    refine (h.name hc).trans ?_
    exact congrArg some (ServerConnection.nameNode_of_identity (hsame hon)).symm
  · obtain ⟨hhosted, hc⟩ := honline hon
    rw [hserver, hhosted]
    refine (h.userStatus hc).trans ?_
    exact congrArg some (ServerConnection.userStatusNode_of_identity (hsame hon)).symm

/-- What a publisher does to its nodes the server can take, and what has been said of who we are
stays true or is said anew. -/
theorem IsSound.handle (hserves : MuscleRelay.Serves seats) {p : Publisher} (h : p.IsSound)
    (hspared : MuscleServer.SparesUsers) (hadmits : p.Admits e) :
    (p.hosted e).HearsAll (occurrencesOf p.toConnectionWorld e) ∧ (p.handle e).IsSound := by
  by_cases hlogin : ∃ connectedTo, e.call = .sessionConnected connectedTo ∧
      p.internalThreadRunning = true
  · obtain ⟨connectedTo, he, hrunning⟩ := hlogin
    exact h.logsIn hserves hspared he hrunning
  have hended (hends : p.endsSession e = true) :
      (p.toConnectionWorld.handle e).isConnected = false := by
    apply ConnectionWorld.isConnected_of_endsSession hends
    intro connectedTo he
    rw [ServerConnection.endsSession, he] at hends
    exact hlogin ⟨connectedTo, he, hends⟩
  have hnamed (hc : p.isConnected = true) : p.state.side.node nodeName ≠ none :=
    (h.name hc).symm ▸ Option.some_ne_none p.nameNode
  have hset {nodePath : String} (hhosted : IsHostedNode nodePath) (data : NodeMessage) :
      (p.state.afterAll [.sent (setDataMessage [(nodePath, data)])]).side =
        p.state.side.withNodes [(nodePath, data)] :=
    ServerState.side_after_setData hserves p.state (ServerState.setsNodes_one hhosted data)
  have hstep := ConnectionWorld.handle_clientStep hadmits.installId
  generalize hw : p.toConnectionWorld.handle e = w at hstep
  cases hstep with
  | idles hidle hsame =>
    subst hw
    exact h.idles hserves hended (hidle.imp fun o ho => ho.leavesNodes) hsame
  | saysName hends hc hsaid hsame =>
    subst hw
    have hother : nodeUserStatus ≠ nodeName := by decide
    refine h.says hserves hspared hends hc hsaid
      ⟨.name (p.toConnectionWorld.handle e).toServerConnection, trivial⟩ ?_ ?_
    · rw [hset .name]
      exact ServerSide.node_withNodes_self ..
    · rw [hset .name, ServerSide.node_withNodes_of_ne _ _ hother]
      refine (h.userStatus hc).trans ?_
      rw [ServerConnection.userStatusNode, ServerConnection.userStatusNode, hsame]
  | saysStatus hends hc hsaid hsame =>
    subst hw
    have hother : nodeName ≠ nodeUserStatus := by decide
    refine h.says hserves hspared hends hc hsaid
      ⟨.userStatus (p.toConnectionWorld.handle e).toServerConnection (hnamed hc), trivial⟩ ?_ ?_
    · rw [hset .userStatus, ServerSide.node_withNodes_of_ne _ _ hother, hsame]
      exact h.name hc
    · rw [hset .userStatus]
      exact ServerSide.node_withNodes_self ..
  | @saysCount _ fileCount hends hc hsaid hsame =>
    subst hw
    have hother : nodeName ≠ nodeFileCount := by decide
    have hother' : nodeUserStatus ≠ nodeFileCount := by decide
    refine h.says hserves hspared hends hc hsaid ⟨.fileCount fileCount (hnamed hc), trivial⟩ ?_ ?_
    · rw [hset .fileCount, ServerSide.node_withNodes_of_ne _ _ hother]
      refine (h.name hc).trans ?_
      rw [ServerConnection.nameNode_of_identity hsame]
    · rw [hset .fileCount, ServerSide.node_withNodes_of_ne _ _ hother']
      refine (h.userStatus hc).trans ?_
      rw [ServerConnection.userStatusNode_of_identity hsame]
  | @shares files _ he hc groups hsaid hgroups hsame =>
    subst hw
    have hends : p.endsSession e = false := by rw [ServerConnection.endsSession, he]
    have hshares : p.Shares groups.flatten := by
      rw [hgroups]
      intro node hm
      obtain ⟨file, hfile, rfl⟩ := List.mem_map.mp hm
      exact ⟨file, hadmits.plain files he file hfile, rfl⟩
    have hnodup : (groups.flatten.map Prod.fst).Nodup := by
      have hpaths := (hadmits.nodup files he).map (append_left_injective p.filesNodePath)
      rw [hgroups, List.map_map]
      rw [List.map_map] at hpaths
      exact hpaths
    obtain ⟨hears, hkept⟩ := hearsAll_files hserves hshares hnodup (hnamed hc)
    refine h.says hserves hspared hends hc hsaid hears ?_ ?_
    · refine (hkept nodeName (by decide)).trans ((h.name hc).trans ?_)
      rw [ServerConnection.nameNode_of_identity hsame]
    · refine (hkept nodeUserStatus (by decide)).trans ((h.userStatus hc).trans ?_)
      rw [ServerConnection.userStatusNode_of_identity hsame]
  | cleansUp hends hc hsaid hsame =>
    subst hw
    have hcleaned : (p.state.afterAll [.sent cleanUpMessage]).side = p.state.side.cleaned :=
      ServerState.side_after_cleanUp hserves p.state
    refine h.says hserves hspared hends hc hsaid ⟨.cleanUp, trivial⟩ ?_ ?_
    · rw [hcleaned, p.state.side.node_cleaned hspared (by simp)]
      refine (h.name hc).trans ?_
      rw [ServerConnection.nameNode_of_identity hsame]
    · rw [hcleaned, p.state.side.node_cleaned hspared (by simp)]
      refine (h.userStatus hc).trans ?_
      rw [ServerConnection.userStatusNode_of_identity hsame]
  | @hearsLine message he hwhat hrunning =>
    have hsame : (p.toConnectionWorld.handleChatText message).identity = p.identity ∧
        DoesOnly ConnectionOccurrence.LeavesNodes p.toConnectionWorld
          (p.toConnectionWorld.handleChatText message) := by
      rw [ConnectionWorld.handleChatText]
      split
      · split
        · exact ⟨rfl, .refl _ _⟩
        · exact ⟨rfl, .one rfl ⟨rfl, (fun _ h => by cases h), (fun _ h => by cases h)⟩⟩
      · exact ⟨rfl, .refl _ _⟩
    rw [← hw] at hsame
    exact h.idles hserves hended hsame.2 fun _ => hsame.1
  | logsIn he hrunning => exact absurd ⟨_, he, hrunning⟩ hlogin

end

end Publisher

end HiTuxShare
