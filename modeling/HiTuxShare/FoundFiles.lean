import HiTuxShare.MirroredUsers
import HiTuxShare.QuerySteps

namespace HiTuxShare
set_option autoImplicit true

open MuscleLibrary

/-- Entries that either leave a reader alone or tell the whole truth, with one among them that tells
it if there is any. -/
theorem foldl_eq_truth {step : Option α → ε → Option α} {log : List ε} (truth : Option α)
    (honly : ∀ e ∈ log, (∀ known, step known e = known) ∨
      truth ≠ none ∧ ∀ known, step known e = truth)
    (htold : truth ≠ none → ∃ e ∈ log, ∀ known, step known e = truth) (known : Option α) :
    log.foldl step known = truth.or known := by
  cases ht : truth with
  | none =>
    apply foldl_eq_self
    intro e hm
    rcases honly e hm with hleaves | ⟨hsome, -⟩
    · exact hleaves known
    · exact absurd ht hsome
  | some v =>
    obtain ⟨e, hm, he⟩ := htold (by rw [ht]; exact nofun)
    obtain ⟨before, later, rfl⟩ := List.append_of_mem hm
    rw [List.foldl_append, List.foldl_cons, he, ht]
    apply foldl_eq_self
    intro e' hm'
    have hlater : e' ∈ before ++ e :: later :=
      List.mem_append_right before (List.mem_cons_of_mem e hm')
    rcases honly e' hlater with hleaves | ⟨-, h⟩
    · exact hleaves (some v)
    · rw [h, ht]

/-- What a query goes by here, whatever the server makes of its pattern. -/
structure FileQuery where
  sessionMatcher : String
  fileNameMatcher : String

/-- The query whose results are let in. -/
def ServerConnection.query (c : ServerConnection) : Option FileQuery :=
  if c.queryActive then some ⟨c.sessionMatcher, c.fileNameMatcher⟩ else none

/-- What a listener has of a file after one more thing it is told. -/
def hearFile (sessionId fileName : String) (known : Option FileResult) :
    ConnectionOccurrence → Option FileResult
  | .queryResultAdded result _ =>
    if result.sessionId = sessionId ∧ result.fileName = fileName then some result else known
  | .queryResultRemoved sessionId' fileName' =>
    if sessionId' = sessionId ∧ fileName' = fileName then none else known
  | .queryResultsCleared => none
  | .connectionStateChanged .disconnected => none
  | _ => known

def ConnectionWorld.listedFile (w : ConnectionWorld) (sessionId fileName : String) :
    Option FileResult := w.history.foldl (hearFile sessionId fileName) none

/-- What a subscriber has of the files of a publisher, session by session. -/
def ConnectionWorld.listedFiles (seats : Seats) (w : ConnectionWorld) (n : Nat)
    (fileName : String) :
    Option FileResult := w.listedFile (seats.sessionOf n) fileName

/-- Nothing of a query: neither that it begins or ends, nor one of its results. -/
def ConnectionOccurrence.leavesQuery : ConnectionOccurrence → Bool
  | .sent message => message.isOurs &&
      message.what ∉ [ServerCommand.setParameters, .removeParameters, .jettisonResults]
  | .queryResultAdded .. | .queryResultRemoved .. | .queryResultsCleared
  | .connectionStateChanged _ => false
  | _ => true

/-- The server is asked for nothing anew, and nothing is taken back. -/
def ConnectionOccurrence.asksNothing : ConnectionOccurrence → Bool
  | .sent message => message.isOurs &&
      message.what ∉ [ServerCommand.setParameters, .removeParameters, .jettisonResults]
  | _ => true

theorem ConnectionOccurrence.asksNothing_of_leavesQuery {o : ConnectionOccurrence}
    (h : o.leavesQuery = true) : o.asksNothing = true := by
  cases o with
  | sent message => exact h
  | _ => rfl

theorem hearFile_of_leavesQuery {o : ConnectionOccurrence} (h : o.leavesQuery = true)
    (known : Option FileResult) : hearFile sessionId fileName known o = known := by
  cases o with
  | queryResultAdded | queryResultRemoved | queryResultsCleared | connectionStateChanged => cases h
  | _ => rfl

/-- Where nothing is listed, only a result changes that. -/
theorem hearFile_none {o : ConnectionOccurrence} (h : o.isRoutine = true) :
    hearFile sessionId fileName none o = none := by
  cases o with
  | queryResultAdded result sharerName => cases h
  | queryResultRemoved sessionId' fileName' => exact ite_self none
  | connectionStateChanged state => cases state <;> rfl
  | _ => rfl

namespace ConnectionWorld

theorem listedFile_append {w w' : ConnectionWorld} (h : w'.history = w.history ++ later) :
    w'.listedFile sessionId fileName =
      later.foldl (hearFile sessionId fileName) (w.listedFile sessionId fileName) := by
  rw [listedFile, h, List.foldl_append]
  rfl

theorem listedFile_of_leavesQuery {w w' : ConnectionWorld}
    (h : DoesOnly (·.leavesQuery = true) w w') :
    w'.listedFile sessionId fileName = w.listedFile sessionId fileName := by
  obtain ⟨later, hlater, hleaves⟩ := h
  rw [listedFile_append hlater]
  exact foldl_eq_self fun o hm => hearFile_of_leavesQuery (hleaves o hm) _

theorem listedFile_none {w w' : ConnectionWorld} (h : DoesOnly (·.isRoutine = true) w w')
    (hnone : w.listedFile sessionId fileName = none) : w'.listedFile sessionId fileName = none := by
  obtain ⟨later, hlater, hroutine⟩ := h
  rw [listedFile_append hlater, hnone]
  exact foldl_eq_self fun o hm => hearFile_none (hroutine o hm)

end ConnectionWorld

section
variable [MuscleLibrary]

def FileQuery.accepts (query : FileQuery) (sessionId fileName : String) : Bool :=
  matchesPattern query.sessionMatcher sessionId && matchesPattern query.fileNameMatcher fileName

/-- The node of this file of this session. -/
structure IsNodeOfFile (sessionId fileName nodePath : String) : Prop where
  depth : getPathDepth nodePath = fileInfoDepth
  session : extractSessionId nodePath = sessionId
  file : getPathClause fileInfoDepth nodePath = some fileName

instance (sessionId fileName nodePath : String) :
    Decidable (IsNodeOfFile sessionId fileName nodePath) :=
  decidable_of_iff (getPathDepth nodePath = fileInfoDepth ∧ extractSessionId nodePath = sessionId ∧
    getPathClause fileInfoDepth nodePath = some fileName)
    ⟨fun h => ⟨h.1, h.2.1, h.2.2⟩, fun h => ⟨h.depth, h.session, h.file⟩⟩

/-- A file after one of the nodes a message says are gone. -/
def dropFile (sessionId fileName : String) (known : Option FileResult) (nodePath : String) :
    Option FileResult := if IsNodeOfFile sessionId fileName nodePath then none else known

/-- A file after one of the nodes a message brings, where a query is on. -/
def addFile (query : Option FileQuery) (sessionId fileName : String) (known : Option FileResult)
    (node : String × NodeMessage) : Option FileResult :=
  if IsNodeOfFile sessionId fileName node.1 ∧
      query.any (·.accepts sessionId fileName) = true then
    ((inflateMessage node.2).map (fileResult sessionId fileName node.1)).or known
  else known

/-- What a subscriber has of the files of a publisher after one more message of the server. -/
def tellFiles (seats : Seats) (query : Option FileQuery)
    (known : Nat → String → Option FileResult) (message : ServerMessage) (n : Nat)
    (fileName : String) : Option FileResult :=
  if message.what = .resultDataItems then
    message.updatedNodes.foldl (addFile query (seats.sessionOf n) fileName)
      (message.removedDataItems.foldl (dropFile (seats.sessionOf n) fileName) (known n fileName))
  else known n fileName

theorem foldl_dropFile_none (sessionId fileName : String) (nodePaths : List String) :
    nodePaths.foldl (dropFile sessionId fileName) none = none :=
  foldl_eq_self fun _ _ => ite_self none

/-- Without a query nothing is let in. -/
theorem foldl_tellFiles_none (seats : Seats) (messages : List ServerMessage) :
    messages.foldl (tellFiles seats none) (fun _ _ => none) = fun _ _ => none := by
  apply foldl_eq_self
  intro message _
  funext n fileName
  rw [tellFiles, foldl_dropFile_none]
  have hadds : message.updatedNodes.foldl (addFile none (seats.sessionOf n) fileName) none =
      none := foldl_eq_self fun node _ => if_neg fun h => Bool.false_ne_true h.2
  rw [hadds, ite_self]

/-- Messages that only say of nodes that they are there are one long message. -/
theorem foldl_tellFiles_updates (seats : Seats) (query : Option FileQuery)
    {messages : List ServerMessage}
    (h : ∀ message ∈ messages, message.what = .resultDataItems ∧ message.removedDataItems = [])
    (known : Nat → String → Option FileResult) (n : Nat) (fileName : String) :
    messages.foldl (tellFiles seats query) known n fileName =
      (messages.flatMap ServerMessage.updatedNodes).foldl
        (addFile query (seats.sessionOf n) fileName) (known n fileName) := by
  induction messages generalizing known with
  | nil => rfl
  | cons message messages ih =>
    obtain ⟨hwhat, hremoved⟩ := h message List.mem_cons_self
    rw [List.foldl_cons, ih fun m hm => h m (List.mem_cons_of_mem message hm), tellFiles,
      if_pos hwhat, hremoved, List.foldl_nil, List.flatMap_cons, List.foldl_append]

theorem foldl_tellFiles_removals (seats : Seats) (query : Option FileQuery)
    {messages : List ServerMessage}
    (h : ∀ message ∈ messages, message.what = .resultDataItems ∧ message.nodes = [])
    (known : Nat → String → Option FileResult) (n : Nat) (fileName : String) :
    messages.foldl (tellFiles seats query) known n fileName =
      (messages.flatMap ServerMessage.removedDataItems).foldl
        (dropFile (seats.sessionOf n) fileName) (known n fileName) := by
  induction messages generalizing known with
  | nil => rfl
  | cons message messages ih =>
    obtain ⟨hwhat, hnodes⟩ := h message List.mem_cons_self
    have hupdated : message.updatedNodes = [] := by
      rw [ServerMessage.updatedNodes, hnodes]
      rfl
    rw [List.foldl_cons, ih fun m hm => h m (List.mem_cons_of_mem message hm), tellFiles,
      if_pos hwhat, hupdated, List.foldl_nil, List.flatMap_cons, List.foldl_append]

/-- A file is found by a message that brings it. -/
theorem exists_of_foldl_tellFiles {seats : Seats} {query : Option FileQuery}
    {messages : List ServerMessage} {known : Nat → String → Option FileResult}
    (hknown : known n fileName = none)
    (h : messages.foldl (tellFiles seats query) known n fileName ≠ none) :
    ∃ message ∈ messages, message.what = .resultDataItems ∧ ∃ node ∈ message.updatedNodes,
      IsNodeOfFile (seats.sessionOf n) fileName node.1 ∧
        query.any (·.accepts (seats.sessionOf n) fileName) = true := by
  induction messages generalizing known with
  | nil => exact absurd hknown h
  | cons message messages ih =>
    by_cases hnow : tellFiles seats query known message n fileName = none
    · obtain ⟨message', hm, hbrings⟩ := ih hnow h
      exact ⟨message', List.mem_cons_of_mem message hm, hbrings⟩
    · have hwhat : message.what = .resultDataItems := by
        by_contra hother
        exact hnow ((if_neg hother).trans hknown)
      refine ⟨message, List.mem_cons_self, hwhat, ?_⟩
      by_contra hnone
      apply hnow
      rw [tellFiles, if_pos hwhat, hknown, foldl_dropFile_none]
      exact foldl_eq_self fun node hm => if_neg fun hadded => hnone ⟨node, hm, hadded⟩

theorem foldl_dropFile_of_mem {nodePaths : List String} (hm : nodePath ∈ nodePaths)
    (h : IsNodeOfFile sessionId fileName nodePath) (known : Option FileResult) :
    nodePaths.foldl (dropFile sessionId fileName) known = none := by
  obtain ⟨before, later, rfl⟩ := List.append_of_mem hm
  rw [List.foldl_append, List.foldl_cons, dropFile, if_pos h, foldl_dropFile_none]

namespace ConnectionWorld

theorem query_of_nodeEffect {w w' : ConnectionWorld} (h : NodeEffect w nodePath w') :
    w'.query = w.query := by
  rw [h.toServerConnection]
  rfl

theorem handleNodeRemoved_listedFile (w : ConnectionWorld) (nodePath : String)
    (hs : sessionId ≠ "") : (w.handleNodeRemoved nodePath).listedFile sessionId fileName =
      dropFile sessionId fileName (w.listedFile sessionId fileName) nodePath := by
  have hother (h : ¬IsNodeOfFile sessionId fileName nodePath) :
      dropFile sessionId fileName (w.listedFile sessionId fileName) nodePath =
        w.listedFile sessionId fileName := if_neg h
  simp only [handleNodeRemoved]
  split
  · next hdepth =>
    split
    · next fileName' hfile =>
      split
      · rw [listedFile_append rfl, List.foldl_cons, List.foldl_nil, hearFile]
        apply if_congr _ rfl rfl
        constructor
        · rintro ⟨rfl, rfl⟩
          exact ⟨hdepth, rfl, hfile⟩
        · intro h
          exact ⟨h.session, Option.some.inj (hfile.symm.trans h.file)⟩
      · next hnobody =>
        exact (hother fun h => hs (h.session.symm.trans (not_not.mp hnobody))).symm
    · next hnone => exact (hother fun h => by cases hnone.symm.trans h.file).symm
  · next hdepth =>
    rw [hother fun h => hdepth h.depth]
    split
    · rfl
    · split
      · rfl
      · split
        · exact listedFile_of_leavesQuery (.one rfl rfl)
        · rfl

/-- A result is let in by the query there is, if it is one of its files. -/
theorem handleFileNode_listedFile (w : ConnectionWorld) (node : String × NodeMessage)
    (hdepth : getPathDepth node.1 = fileInfoDepth) :
    (w.handleFileNode (extractSessionId node.1) node.1 node.2).listedFile sessionId fileName =
      addFile w.query sessionId fileName (w.listedFile sessionId fileName) node := by
  have hother (h : ¬(IsNodeOfFile sessionId fileName node.1 ∧
      w.query.any (·.accepts sessionId fileName) = true)) :
      addFile w.query sessionId fileName (w.listedFile sessionId fileName) node =
        w.listedFile sessionId fileName := if_neg h
  rw [handleFileNode]
  split
  · next hoff =>
    rw [hother]
    rintro ⟨-, hquery⟩
    rw [ServerConnection.query, if_neg (Bool.eq_false_iff.mp hoff)] at hquery
    exact Bool.false_ne_true hquery
  · next hactive =>
    have hquery : w.query = some ⟨w.sessionMatcher, w.fileNameMatcher⟩ :=
      if_pos (Bool.eq_true_of_not_eq_false hactive)
    split
    · next hnone =>
      exact (hother fun h => by cases hnone.symm.trans h.1.file).symm
    · next fileName' hfile =>
      split
      · next hrefused =>
        rw [hother]
        rintro ⟨hnode, haccepts⟩
        obtain rfl := Option.some.inj (hfile.symm.trans hnode.file)
        rw [hquery] at haccepts
        obtain ⟨hsession, hname⟩ := Bool.and_eq_true_iff.mp haccepts
        rw [hnode.session, hsession, hname] at hrefused
        cases or_self_iff.mp hrefused
      · next hlet =>
        rw [not_or, Bool.not_eq_false, Bool.not_eq_false] at hlet
        by_cases hnode : IsNodeOfFile sessionId fileName node.1
        · obtain rfl := Option.some.inj (hfile.symm.trans hnode.file)
          have haccepts : w.query.any (·.accepts sessionId fileName') = true := by
            rw [hquery]
            exact Bool.and_eq_true_iff.mpr (hnode.session ▸ hlet)
          rw [addFile, if_pos ⟨hnode, haccepts⟩]
          split
          · next hbroken =>
            rw [hbroken]
            rfl
          · next inflated hinflated =>
            rw [hinflated, listedFile_append rfl, List.foldl_cons, List.foldl_nil, hearFile,
              hnode.session, if_pos ⟨rfl, rfl⟩]
            rfl
        · rw [hother fun h => hnode h.1]
          split
          · rfl
          · rw [listedFile_append rfl, List.foldl_cons, List.foldl_nil, hearFile, if_neg]
            rintro ⟨hsession, hname⟩
            exact hnode ⟨hdepth, hsession, hfile.trans (congrArg some hname)⟩

theorem handleUserNode_leavesQuery (w : ConnectionWorld) (sessionId nodePath : String)
    (data : NodeMessage) :
    DoesOnly (·.leavesQuery = true) w (w.handleUserNode sessionId nodePath data) := by
  cases hname : getPathClause userNameDepth nodePath with
  | none =>
    rw [handleUserNode, hname]
    exact .refl _ w
  | some nodeName =>
    rw [w.handleUserNode_eq sessionId data hname]
    split
    · exact .one rfl rfl
    · split
      · exact .one rfl rfl
      · exact .refl _ w

theorem handleNodeUpdated_listedFile (w : ConnectionWorld) (node : String × NodeMessage)
    (hs : sessionId ≠ "") : (w.handleNodeUpdated node.1 node.2).listedFile sessionId fileName =
      addFile w.query sessionId fileName (w.listedFile sessionId fileName) node := by
  have hother (h : ¬IsNodeOfFile sessionId fileName node.1) :
      addFile w.query sessionId fileName (w.listedFile sessionId fileName) node =
        w.listedFile sessionId fileName := if_neg fun h' => h h'.1
  simp only [handleNodeUpdated]
  split
  · next hshallow =>
    rw [hother]
    intro h
    rw [h.depth] at hshallow
    exact absurd hshallow (by decide)
  · split
    · next hnobody => exact (hother fun h => hs (h.session.symm.trans hnobody)).symm
    · split
      · next hdepth => exact w.handleFileNode_listedFile node hdepth
      · next hdepth =>
        rw [hother fun h => hdepth h.depth]
        split
        · rfl
        · exact listedFile_of_leavesQuery (w.handleUserNode_leavesQuery _ node.1 node.2)

theorem foldl_handleNodeRemoved_listedFile (w : ConnectionWorld) (hs : sessionId ≠ "")
    (fileName : String) (nodePaths : List String) :
    (nodePaths.foldl handleNodeRemoved w).query = w.query ∧
      (nodePaths.foldl handleNodeRemoved w).listedFile sessionId fileName =
        nodePaths.foldl (dropFile sessionId fileName) (w.listedFile sessionId fileName) := by
  induction nodePaths generalizing w with
  | nil => exact ⟨rfl, rfl⟩
  | cons nodePath nodePaths ih =>
    obtain ⟨hquery, hlisted⟩ := ih (w.handleNodeRemoved nodePath)
    rw [List.foldl_cons, List.foldl_cons, ← w.handleNodeRemoved_listedFile nodePath hs]
    exact ⟨hquery.trans (query_of_nodeEffect (w.handleNodeRemoved_effect nodePath)), hlisted⟩

theorem foldl_handleNodeUpdated_listedFile (w : ConnectionWorld) (hs : sessionId ≠ "")
    (fileName : String) (nodes : List (String × NodeMessage)) :
    (nodes.foldl (fun w node => w.handleNodeUpdated node.1 node.2) w).query = w.query ∧
      (nodes.foldl (fun w node => w.handleNodeUpdated node.1 node.2) w).listedFile
        sessionId fileName =
          nodes.foldl (addFile w.query sessionId fileName) (w.listedFile sessionId fileName) := by
  induction nodes generalizing w with
  | nil => exact ⟨rfl, rfl⟩
  | cons node nodes ih =>
    have hsame : (w.handleNodeUpdated node.1 node.2).query = w.query :=
      query_of_nodeEffect (w.handleNodeUpdated_effect node.1 node.2)
    obtain ⟨hquery, hlisted⟩ := ih (w.handleNodeUpdated node.1 node.2)
    rw [hsame, w.handleNodeUpdated_listedFile node hs] at hlisted
    exact ⟨hquery.trans hsame, hlisted⟩

/-- Only the news of nodes is about files. -/
theorem messageReceived_leavesQuery (w : ConnectionWorld) (now : UInt64) {message : ServerMessage}
    (h : message.what ≠ .resultDataItems) :
    (w.messageReceived now message).query = w.query ∧
      DoesOnly (·.leavesQuery = true) w (w.messageReceived now message) := by
  have hsame : w.query = w.query ∧ DoesOnly (·.leavesQuery = true) w w := ⟨rfl, .refl _ w⟩
  rw [messageReceived]
  split
  · next hwhat => exact absurd hwhat h
  · rw [handleParameters]
    split
    · exact ⟨rfl, .one rfl rfl⟩
    · exact hsame
  · rw [handleResultPong]
    split
    · split
      · exact ⟨rfl, .one rfl rfl⟩
      · exact hsame
    · exact hsame
  · rw [handleChatText]
    split
    · split
      · exact hsame
      · exact ⟨rfl, .one rfl rfl⟩
    · exact hsame
  · rw [handlePing]
    split
    · exact ⟨rfl, .one rfl rfl⟩
    · exact hsame
  · rw [handlePong]
    split
    · exact ⟨rfl, .one rfl rfl⟩
    · exact hsame
  · exact hsame

/-- What a message of the server makes of the files that are listed. -/
theorem messageReceived_listedFiles {seats : Seats} (hseats : seats.IsProper) (w : ConnectionWorld)
    (now : UInt64) (message : ServerMessage) :
    (w.messageReceived now message).query = w.query ∧
      (w.messageReceived now message).listedFiles seats =
        tellFiles seats w.query (w.listedFiles seats) message := by
  by_cases hwhat : message.what = .resultDataItems
  · have hreads : w.messageReceived now message = w.handleDataItems message := by
      rw [messageReceived, hwhat]
    rw [hreads, handleDataItems]
    constructor
    · have hid : seats.sessionOf 0 ≠ "" := (hseats.plain 0).tail.head.1
      obtain ⟨hquery, -⟩ :=
        w.foldl_handleNodeRemoved_listedFile hid "" message.removedDataItems
      exact (foldl_handleNodeUpdated_listedFile _ hid "" _).1.trans hquery
    · funext n fileName
      have hid : seats.sessionOf n ≠ "" := (hseats.plain n).tail.head.1
      obtain ⟨hquery, hlisted⟩ :=
        w.foldl_handleNodeRemoved_listedFile hid fileName message.removedDataItems
      rw [listedFiles, (foldl_handleNodeUpdated_listedFile _ hid _ _).2, hquery, hlisted, tellFiles,
        if_pos hwhat, listedFiles]
  · obtain ⟨hquery, hleaves⟩ := w.messageReceived_leavesQuery now hwhat
    refine ⟨hquery, ?_⟩
    funext n fileName
    rw [tellFiles, if_neg hwhat]
    exact listedFile_of_leavesQuery hleaves

end ConnectionWorld

end

end HiTuxShare
