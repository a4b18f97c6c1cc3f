import HiTuxShare.ToldUsers

namespace HiTuxShare
set_option autoImplicit true

/-- A star stands for anything but a slash. -/
def globMatches : List Char → List Char → Bool
  | [], text => text.isEmpty
  | '*' :: pattern, text =>
    (List.range (text.length + 1)).any fun n =>
      (text.take n).all (· ≠ '/') && globMatches pattern (text.drop n)
  | c :: pattern, text =>
    match text with
    | [] => false
    | d :: text => c = d && globMatches pattern text

/-- The nodes of a session that has set some, and the directories that were made for them. -/
structure PlainTree where
  nodes : Hashtable String NodeMessage := .empty
  directories : List String := []

/-- A server that keeps its nodes in a table, and that says all it has to say of a message at once.
It is too late to take anything back. -/
structure PlainRelayState where
  sessions : Nat := 0
  tree : Option PlainTree := none
  hearsUsers : Bool := false
  patterns : List String := []

/-- Updated nodes and removed ones, unless there are none. -/
def dataItems (nodes : List (String × NodeMessage)) (removed : List String) : List ServerMessage :=
  if nodes = [] ∧ removed = [] then []
  else [{ what := .resultDataItems, fields := [], nodes, removedDataItems := removed }]

namespace PlainTree

def made (tree : PlainTree) : List String :=
  ["beshare/files", "beshare/fires"].filter tree.directories.contains

/-- The directories that these nodes are the first to need. -/
def newDirectories (tree : PlainTree) (nodes : List (String × NodeMessage)) : List String :=
  ["beshare/files", "beshare/fires"].filter fun directory =>
    nodes.any (fun node => startsWith node.1 (directory ++ "/")) &&
      !tree.directories.contains directory

/-- The nodes a message takes away. -/
def covered (tree : PlainTree) (message : ServerMessage) : List String :=
  (tree.nodes.entries.map Prod.fst).filter fun nodePath =>
    message.keys.any (plainServer.covers · nodePath)

end PlainTree

namespace PlainRelayState

def side (state : PlainRelayState) : ServerSide where
  sessions := state.sessions
  node nodePath := state.tree.bind fun tree => tree.nodes.get? nodePath
  hasSet := state.tree.isSome
  hearsUsers := state.hearsUsers
  patterns := state.patterns

def names (seats : Seats) (state : PlainRelayState) (pattern nodePath : String) : Bool :=
  globMatches pattern.toList (state.side.absolutePath seats nodePath).toList

def isSubscribed (seats : Seats) (state : PlainRelayState) (nodePath : String) : Bool :=
  state.hearsUsers &&
    (!isFileNode nodePath || state.patterns.any fun pattern => state.names seats pattern nodePath)

def asks (seats : Seats) (state : PlainRelayState) (message : ServerMessage) (nodePath : String) :
    Bool :=
  if isFileNode nodePath then
    (askedPatterns message).any fun pattern => state.names seats pattern nodePath
  else message.hasName subscribeAll

/-- Nothing is in a directory but the nodes under it. -/
def placedDirectory (seats : Seats) (state : PlainRelayState) (directory : String) :
    String × NodeMessage := state.side.placed seats (directory, ⟨(), []⟩)

/-- The directories and the nodes that are told of. -/
def updates (seats : Seats) (state : PlainRelayState) (directories : List String)
    (nodes : List (String × NodeMessage)) : List ServerMessage :=
  dataItems (directories.map (state.placedDirectory seats) ++
    nodes.map (state.side.placed seats)) []

def host (state : PlainRelayState) (message : ServerMessage) : PlainRelayState :=
  let tree := state.tree.getD {}
  match message.what with
  | .setData =>
    if message.nodes = [] then state
    else { state with tree := some {
      nodes := message.nodes.foldl (fun nodes node => nodes.put node.1 node.2) tree.nodes
      directories := tree.directories ++ tree.newDirectories message.nodes } }
  | .removeData =>
    { state with tree := state.tree.map fun tree => { tree with
      nodes := (tree.covered message).foldl (fun nodes nodePath => nodes.remove nodePath)
        tree.nodes } }
  | _ => state

def tell (seats : Seats) (state : PlainRelayState) (message : ServerMessage) :
    List ServerMessage :=
  let tree := state.tree.getD {}
  match message.what with
  | .setData =>
    state.updates seats (if state.hearsUsers then tree.newDirectories message.nodes else [])
      (message.nodes.filter fun node => state.isSubscribed seats node.1)
  | .removeData =>
    dataItems [] (((tree.covered message).filter (state.isSubscribed seats)).map
      (state.side.absolutePath seats))
  | _ =>
    if state.hearsUsers ∧ message.what.isRelayed ∧ message.keys.any (fun key =>
        globMatches key.toList seats.subscriberNode.toList) = true then
      [message.replace fieldSession (.string (seats.sessionOf state.sessions))]
    else []

/-- With the nodes of a session that is over the directories are gone, too. -/
def tellEnd (seats : Seats) (state : PlainRelayState) : List ServerMessage :=
  let tree := state.tree.getD {}
  dataItems [] ((if state.hearsUsers then tree.made.map (state.side.absolutePath seats)
      else []) ++
    ((tree.nodes.entries.map Prod.fst).filter (state.isSubscribed seats)).map
      (state.side.absolutePath seats))

def heed (state : PlainRelayState) (message : ServerMessage) : PlainRelayState :=
  match message.what with
  | .setParameters =>
    { state with
      hearsUsers := message.hasName subscribeAll || state.hearsUsers
      patterns := askedPatterns message ++ state.patterns }
  | .removeParameters =>
    if message.keys = [querySubscriptions] then { state with patterns := [] } else state
  | _ => state

def answer (seats : Seats) (state : PlainRelayState) (message : ServerMessage) :
    List ServerMessage :=
  let tree := state.tree.getD {}
  if message.what = .setParameters ∧ (state.heed message).hearsUsers = true then
    state.updates seats (if message.hasName subscribeAll then tree.made else [])
      (tree.nodes.entries.filter fun node => state.asks seats message node.1)
  else []

end PlainRelayState

theorem nodup_eraseDups [DecidableEq α] (l : List α) : l.eraseDups.Nodup := by
  induction hn : l.length using Nat.strong_induction_on generalizing l with
  | h n ih =>
    cases l with
    | nil => exact List.nodup_nil
    | cons a l =>
      rw [List.eraseDups_cons, List.nodup_cons]
      constructor
      · simp
      · refine ih _ ?_ _ rfl
        rw [← hn, List.length_cons]
        exact Nat.lt_succ_of_le (List.length_filter_le _ l)

namespace ServerMessage

theorem mem_updatedNodes {message : ServerMessage} {node : String × NodeMessage} :
    node ∈ message.updatedNodes ↔
      message.nodes.find? (fun other => other.1 = node.1) = some node := by
  rw [updatedNodes, List.mem_filterMap]
  constructor
  · rintro ⟨name, -, hfound⟩
    have hname : node.1 = name := by simpa using List.find?_some hfound
    rwa [hname]
  · intro hfound
    exact ⟨node.1, List.mem_eraseDups.mpr (List.mem_map_of_mem (List.mem_of_find?_eq_some hfound)),
      hfound⟩

theorem nodup_updatedNodes (message : ServerMessage) :
    (message.updatedNodes.map Prod.fst).Nodup := by
  have hsublist : (message.updatedNodes.map Prod.fst).Sublist
      (message.nodes.map Prod.fst).eraseDups := by
    rw [updatedNodes, List.map_filterMap]
    have hkept : ∀ name, ((message.nodes.find? fun node => node.1 = name).map Prod.fst) =
        Option.guard (fun name => (message.nodes.find? fun node => node.1 = name).isSome) name := by
      intro name
      cases hfound : message.nodes.find? fun node => node.1 = name with
      | none => simp [Option.guard, hfound]
      | some node =>
        have hname : node.1 = name := by simpa using List.find?_some hfound
        simp [Option.guard, hfound, hname]
    simp only [hkept, List.filterMap_eq_filter]
    exact List.filter_sublist
  exact hsublist.nodup (nodup_eraseDups _)

end ServerMessage

namespace PlainRelayState

variable {seats : Seats}

theorem flatMap_dataItems (nodes : List (String × NodeMessage)) :
    (dataItems nodes []).flatMap ServerMessage.updatedNodes =
      ServerMessage.updatedNodes { what := .resultDataItems, fields := [], nodes } := by
  rw [dataItems]
  split
  · next hnone =>
    rw [hnone.1]
    rfl
  · exact List.flatMap_singleton _ _

theorem brings_updates {state : PlainRelayState} {server : ServerSide}
    (hs : server.sessions = state.sessions) {directories : List String}
    (hdirectories : ∀ directory ∈ directories, directory ∈ ["beshare/files", "beshare/fires"])
    {nodes : List (String × NodeMessage)} (hnodup : (nodes.map Prod.fst).Nodup)
    (hset : directories ≠ [] ∨ nodes ≠ [] → server.hasSet = true)
    (hnews : ∀ entry, news entry ↔ entry ∈ nodes) :
    server.Brings seats (state.updates seats directories nodes) news := by
  have hplaced : state.side.placed seats = server.placed seats := by
    funext node
    rw [ServerSide.placed, ServerSide.placed, ServerSide.absolutePath, ServerSide.absolutePath, hs]
    rfl
  have hdirectory : ∀ node ∈ directories.map (state.placedDirectory seats),
      server.isDirectory seats node.1 = true := by
    intro node hm
    obtain ⟨directory, hd, rfl⟩ := List.mem_map.mp hm
    rw [placedDirectory, hplaced]
    exact decide_eq_true (List.mem_map_of_mem (hdirectories directory hd))
  have hpaths : ((nodes.map (state.side.placed seats)).map Prod.fst).Nodup := by
    have hinjective := hnodup.map (state.side.absolutePath_injective seats)
    rw [List.map_map] at hinjective ⊢
    exact hinjective
  rw [updates]
  constructor
  · intro message hm
    rw [dataItems] at hm
    split at hm
    · cases hm
    · rw [List.mem_singleton.mp hm]
      exact ⟨rfl, rfl⟩
  · rw [flatMap_dataItems]
    exact (List.filter_sublist.map Prod.fst).nodup (ServerMessage.nodup_updatedNodes _)
  · intro node hd
    rw [flatMap_dataItems, ServerMessage.mem_updatedNodes]
    have hother : (directories.map (state.placedDirectory seats)).find?
        (fun other => other.1 = node.1) = none := by
      apply List.find?_eq_none.mpr
      intro other hm
      have hother := hdirectory other hm
      simp only [decide_eq_true_eq]
      intro he
      rw [he, hd] at hother
      cases hother
    have htold := @ServerMessage.mem_updatedNodes
      { what := .resultDataItems, fields := [], nodes := nodes.map (state.side.placed seats) } node
    rw [ServerMessage.updatedNodes_of_nodup hpaths] at htold
    rw [List.find?_append, hother, Option.none_or, ← htold, List.mem_map, hplaced]
    simp only [hnews]
  · intro node hm _
    apply hset
    by_contra hnone
    rw [not_or, not_not, not_not] at hnone
    rw [hnone.1, hnone.2] at hm
    cases hm

theorem get?_foldl_put (nodes : List (String × NodeMessage))
    (table : Hashtable String NodeMessage) :
    (nodes.foldl (fun nodes node => nodes.put node.1 node.2) table).get? =
      nodes.foldl (fun (node : String → Option NodeMessage) entry =>
        Function.update node entry.1 (some entry.2)) table.get? := by
  induction nodes generalizing table with
  | nil => rfl
  | cons entry nodes ih =>
    rw [List.foldl_cons, ih, List.foldl_cons]
    congr 1
    funext nodePath
    rw [Hashtable.get?_put, Function.update_apply]

theorem node_side (state : PlainRelayState) (nodePath : String) :
    state.side.node nodePath = (state.tree.getD {}).nodes.get? nodePath := by
  cases htree : state.tree with
  | none =>
    simp only [side, htree]
    rfl
  | some tree => simp only [side, htree, Option.bind_some, Option.getD_some]

theorem side_host_setData (state : PlainRelayState) {message : ServerMessage}
    (h : message.what = .setData) :
    (state.host message).side = state.side.withNodes message.nodes := by
  have hput := get?_foldl_put message.nodes (state.tree.getD {}).nodes
  have hbefore : state.side.node = (state.tree.getD {}).nodes.get? := funext state.node_side
  simp only [host, h]
  split
  · next hnone =>
    rw [hnone, ServerSide.withNodes, List.foldl_nil, List.isEmpty_nil, Bool.not_true,
      Bool.or_false]
  · next hsome =>
    have hset : (!message.nodes.isEmpty) = true := by
      simpa [List.isEmpty_iff] using hsome
    rw [ServerSide.withNodes, hbefore, ← hput, hset, Bool.or_true]
    rfl

theorem mem_newDirectories {tree : PlainTree} (hm : directory ∈ tree.newDirectories nodes) :
    directory ∈ ["beshare/files", "beshare/fires"] ∧ nodes ≠ [] := by
  obtain ⟨hdirectory, hneeded⟩ := List.mem_filter.mp hm
  refine ⟨hdirectory, ?_⟩
  rintro rfl
  cases hneeded

theorem brings_setData (seats : Seats) (state : PlainRelayState) {message : ServerMessage}
    (h : message.SetsNodes) : (state.host message).side.Brings seats (state.tell seats message)
      fun entry => entry ∈ message.nodes ∧ state.isSubscribed seats entry.1 = true := by
  have htell : state.tell seats message = state.updates seats
      (if state.hearsUsers then (state.tree.getD {}).newDirectories message.nodes else [])
      (message.nodes.filter fun node => state.isSubscribed seats node.1) := by
    simp only [tell, h.what]
  have hdirectories : ∀ directory ∈ (if state.hearsUsers then
      (state.tree.getD {}).newDirectories message.nodes else []),
        directory ∈ ["beshare/files", "beshare/fires"] ∧ message.nodes ≠ [] := by
    intro directory hm
    split at hm
    · exact mem_newDirectories hm
    · cases hm
  rw [htell]
  apply brings_updates
  · rw [side_host_setData state h.what]
    rfl
  · exact fun directory hm => (hdirectories directory hm).1
  · exact (List.filter_sublist.map Prod.fst).nodup h.nodup
  · intro hsome
    have hnodes : message.nodes ≠ [] := by
      rcases hsome with hsome | hsome
      · obtain ⟨directory, hm⟩ := List.exists_mem_of_ne_nil _ hsome
        exact (hdirectories directory hm).2
      · rintro hnone
        rw [hnone] at hsome
        exact hsome rfl
    rw [side_host_setData state h.what]
    exact Bool.or_eq_true_iff.mpr (.inr (by simpa [List.isEmpty_iff] using hnodes))
  · intro entry
    rw [List.mem_filter]

end PlainRelayState

end HiTuxShare
