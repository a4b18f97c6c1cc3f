import HiTuxShare.ConnectionFrames

namespace HiTuxShare
set_option autoImplicit true

open MuscleLibrary

/-- The ping that a query sends after its subscription. -/
def queryPing (count : Int32) : ServerMessage :=
  { toMessage := (Message.ofWhat .ping).addInt32 fieldCount count }

/-- A query without a pattern is for everything. -/
def queryPattern (expression : String) : String := if expression ≠ "" then expression else "*"

namespace ConnectionWorld

/-- A new query asks for its results and then for the answer that marks their end. -/
theorem startQuery_asks (w : ConnectionWorld) (sessionExpression fileExpression : String)
    (hc : w.isConnected = true) :
    ∃ later subscription, (w.startQuery sessionExpression fileExpression).history =
        w.history ++ (later ++ [.sent subscription, .sent (queryPing w.pingCount),
          .querySweepStateChanged true]) ∧
      (∀ o ∈ later, o.isRoutine = true) ∧ subscription.what = .setParameters := by
  obtain ⟨later, hlater, hroutine⟩ := w.stopQuery_spares.only
  have hcount : w.stopQuery.pingCount = w.pingCount :=
    congrArg FilesAndQuery.pingCount w.stopQuery_spares.kept
  have hon : ¬w.isConnected = false := by simp only [hc, reduceCtorEq, not_false_eq_true]
  let subscription : ServerMessage :=
    { toMessage := (Message.ofWhat .setParameters).addBool
        (makeQuerySubscriptionPath (queryPattern sessionExpression)
          (queryPattern fileExpression) w.stopQuery.firewalled) true }
  refine ⟨later, subscription, ?_, hroutine, rfl⟩
  rw [startQuery, if_neg hon, ← List.append_assoc, ← hlater, ← hcount]
  change w.stopQuery.history ++ [_] ++ [_] ++ [_] = _
  rw [List.append_assoc, List.append_assoc]
  rfl

theorem startQuery_replaces (w : ConnectionWorld) (sessionExpression fileExpression : String)
    (hc : w.isConnected = true) :
    (w.startQuery sessionExpression fileExpression).toServerConnection =
      { w.stopQuery.toServerConnection with
        pingCount := w.pingCount + 1
        queryActive := true
        sessionMatcher := queryPattern sessionExpression
        fileNameMatcher := queryPattern fileExpression } := by
  have hcount : w.stopQuery.pingCount = w.pingCount :=
    congrArg FilesAndQuery.pingCount w.stopQuery_spares.kept
  have hon : ¬w.isConnected = false := by simp only [hc, reduceCtorEq, not_false_eq_true]
  rw [startQuery, if_neg hon, ← hcount]
  rfl

end ConnectionWorld

section
variable [MuscleLibrary]

/-- Not the start of a query, and no result but for the one we have. -/
def ConnectionOccurrence.IsOfQuery (c : ServerConnection) : ConnectionOccurrence → Prop
  | .sent message => message.what ≠ .ping
  | .queryResultAdded result _ =>
    c.queryActive = true ∧ matchesPattern c.sessionMatcher result.sessionId = true ∧
      matchesPattern c.fileNameMatcher result.fileName = true
  | _ => True

namespace ConnectionWorld

/-- The query goes on as it is, or ends. -/
structure SparesQuery (w w' : ConnectionWorld) : Prop where
  pingCount : w'.pingCount = w.pingCount
  sessionMatcher : w'.sessionMatcher = w.sessionMatcher
  fileNameMatcher : w'.fileNameMatcher = w.fileNameMatcher
  queryActive : w'.queryActive = true → w.queryActive = true
  only : DoesOnly (·.IsOfQuery w.toServerConnection) w w'

theorem isOfQuery_of_isRoutine {o : ConnectionOccurrence} (c : ServerConnection)
    (h : o.isRoutine = true) : o.IsOfQuery c := by
  cases o with
  | sent message =>
    have hwhat : message.what ≠ .ping := of_decide_eq_true ((Bool.and_eq_true _ _).mp h).2
    exact hwhat
  | queryResultAdded result sharerName => cases h
  | _ => trivial

theorem Spares.query {w w' : ConnectionWorld} (h : Spares w w') : SparesQuery w w' :=
  ⟨congrArg FilesAndQuery.pingCount h.kept, congrArg FilesAndQuery.sessionMatcher h.kept,
    congrArg FilesAndQuery.fileNameMatcher h.kept, h.queryActive,
    h.only.imp fun _ => isOfQuery_of_isRoutine _⟩

theorem SparesQuery.refl (w : ConnectionWorld) : SparesQuery w w := (Spares.refl w).query

theorem SparesQuery.trans {w w' w'' : ConnectionWorld} (h : SparesQuery w w')
    (h' : SparesQuery w' w'') : SparesQuery w w'' := by
  refine ⟨h'.pingCount.trans h.pingCount, h'.sessionMatcher.trans h.sessionMatcher,
    h'.fileNameMatcher.trans h.fileNameMatcher, fun ha => h.queryActive (h'.queryActive ha), ?_⟩
  apply h.only.trans (h'.only.imp _)
  intro o ho
  cases o with
  | queryResultAdded result sharerName =>
    obtain ⟨hactive, hsession, hfile⟩ := ho
    exact ⟨h.queryActive hactive, h.sessionMatcher ▸ hsession, h.fileNameMatcher ▸ hfile⟩
  | _ => exact ho

theorem unpublishAllSharedFiles_sparesQuery (w : ConnectionWorld) :
    SparesQuery w w.unpublishAllSharedFiles := by
  have hsent : ServerCommand.removeData ≠ .ping := by decide
  simp only [unpublishAllSharedFiles]
  split
  · exact ⟨rfl, rfl, rfl, id, .one rfl hsent⟩
  · exact ⟨rfl, rfl, rfl, id, .of_history_eq _ rfl⟩

theorem setFirewalled_sparesQuery (w : ConnectionWorld) (firewalled : Bool) :
    SparesQuery w (w.setFirewalled firewalled) := by
  have hset : SparesQuery w { w with firewalled } := ⟨rfl, rfl, rfl, id, .of_history_eq _ rfl⟩
  simp only [setFirewalled]
  split
  · exact .refl w
  · split
    · exact hset.trans (unpublishAllSharedFiles_sparesQuery _)
    · exact hset

theorem publishSharedFiles_sparesQuery (w : ConnectionWorld) (files : List SharedFile) :
    SparesQuery w (w.publishSharedFiles files) := by
  rw [publishSharedFiles]
  split
  · have hs := w.publishBatches_toServerConnection [] files
    refine ⟨?_, ?_, ?_, ?_, (w.publishBatches_setData [] files).imp ?_⟩
    · rw [hs]
    · rw [hs]
    · rw [hs]
    · rw [hs]
      exact id
    · rintro _ ⟨message, rfl, hwhat⟩
      rw [ConnectionOccurrence.IsOfQuery, hwhat]
      decide
  · exact .refl w

theorem handleFileNode_sparesQuery (w : ConnectionWorld) (sessionId nodePath : String)
    (data : NodeMessage) : SparesQuery w (w.handleFileNode sessionId nodePath data) := by
  rw [handleFileNode]
  split
  · exact .refl w
  · next hactive =>
    split
    · exact .refl w
    · next fileName hname =>
      split
      · exact .refl w
      · next hmatch =>
        rw [not_or, Bool.not_eq_false, Bool.not_eq_false] at hmatch
        split
        · exact .refl w
        · exact ⟨rfl, rfl, rfl, id, .one rfl ⟨Bool.eq_true_of_not_eq_false hactive, hmatch⟩⟩

theorem handleUserNode_spares (w : ConnectionWorld) (sessionId nodePath : String)
    (data : NodeMessage) : Spares w (w.handleUserNode sessionId nodePath data) := by
  have hupdate (user : UserRecord) : Spares w (w.updateUser sessionId user) :=
    ⟨rfl, id, .one rfl rfl⟩
  cases hname : getPathClause userNameDepth nodePath with
  | none =>
    rw [handleUserNode, hname]
    exact .refl w
  | some nodeName =>
    rw [w.handleUserNode_eq sessionId data hname]
    split
    · exact hupdate _
    · split
      · exact hupdate _
      · exact .refl w

theorem handleNodeUpdated_sparesQuery (w : ConnectionWorld) (nodePath : String)
    (data : NodeMessage) : SparesQuery w (w.handleNodeUpdated nodePath data) := by
  simp only [handleNodeUpdated]
  split
  · exact .refl w
  · split
    · exact .refl w
    · split
      · exact w.handleFileNode_sparesQuery _ nodePath data
      · split
        · exact .refl w
        · exact (w.handleUserNode_spares _ nodePath data).query

theorem handleNodeRemoved_sparesQuery (w : ConnectionWorld) (nodePath : String) :
    SparesQuery w (w.handleNodeRemoved nodePath) := by
  simp only [handleNodeRemoved]
  split
  · split
    · split
      · exact Spares.query ⟨rfl, id, .one rfl rfl⟩
      · exact .refl w
    · exact .refl w
  · split
    · exact .refl w
    · split
      · exact .refl w
      · split
        · exact Spares.query ⟨rfl, id, .one rfl rfl⟩
        · exact .refl w

theorem handleDataItems_sparesQuery (w : ConnectionWorld) (message : ServerMessage) :
    SparesQuery w (w.handleDataItems message) := by
  rw [handleDataItems]
  apply List.foldlRecOn message.updatedNodes
  · apply List.foldlRecOn message.removedDataItems
    · exact .refl w
    · intro w' h nodePath _
      exact h.trans (w'.handleNodeRemoved_sparesQuery nodePath)
  · intro w' h node _
    exact h.trans (w'.handleNodeUpdated_sparesQuery node.1 node.2)

theorem handle_sparesQuery (w : ConnectionWorld) (e : ServerConnectionEvent)
    (h : ∀ sessionExpression fileExpression,
      e.call = .startQuery sessionExpression fileExpression → w.isConnected = false) :
    SparesQuery w (w.handle e) := by
  by_cases hroutine : e.call.isRoutine = true
  · exact (w.handle_spares e hroutine).query
  obtain ⟨call, network, now⟩ := e
  cases call with
  | startQuery sessionExpression fileExpression =>
    simp only [handle, startQuery]
    rw [if_pos (h _ _ rfl)]
    exact .refl w
  | setFirewalled firewalled => exact w.setFirewalled_sparesQuery firewalled
  | publishSharedFiles files => exact w.publishSharedFiles_sparesQuery files
  | unpublishAllSharedFiles => exact w.unpublishAllSharedFiles_sparesQuery
  | messageReceived message =>
    simp only [handle, deliver]
    split
    · by_cases hwhat : message.what = .resultDataItems
      · rw [messageReceived, hwhat]
        exact w.handleDataItems_sparesQuery message
      · exact (w.messageReceived_spares now hwhat).query
    · exact .refl w
  | _ => exact absurd rfl hroutine

/-- Whatever happens, a result that is shown is one of the query we have. -/
theorem handle_results (w : ConnectionWorld) (e : ServerConnectionEvent) {result : FileResult}
    (h : .queryResultAdded result sharerName ∈ (w.handle e).history.drop w.history.length) :
    ConnectionOccurrence.IsOfQuery w.toServerConnection
      (.queryResultAdded result sharerName) := by
  by_cases hstart : ∃ sessionExpression fileExpression, w.isConnected = true ∧
      e.call = .startQuery sessionExpression fileExpression
  · obtain ⟨sessionExpression, fileExpression, hc, he⟩ := hstart
    obtain ⟨later, subscription, hhist, hroutine, -⟩ :=
      w.startQuery_asks sessionExpression fileExpression hc
    have hhandle : w.handle e = w.startQuery sessionExpression fileExpression := by
      rw [handle, he]
    rw [hhandle, hhist, List.drop_left] at h
    rcases List.mem_append.mp h with hm | hm
    · exact isOfQuery_of_isRoutine _ (hroutine _ hm)
    · simp only [List.mem_cons, reduceCtorEq, List.not_mem_nil, or_self] at hm
  · apply (w.handle_sparesQuery e _).only.drop _ h
    intro sessionExpression fileExpression he
    exact Bool.eq_false_of_not_eq_true fun hc => hstart ⟨_, _, hc, he⟩

end ConnectionWorld

end

end HiTuxShare
