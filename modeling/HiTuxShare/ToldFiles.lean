import HiTuxShare.FileNodeSteps
import HiTuxShare.FoundFiles
import HiTuxShare.PublisherNodes

namespace HiTuxShare
set_option autoImplicit true

open MuscleLibrary

/-- A message as it is sent comes out of inflating as it went in. -/
def MuscleLibrary.LeavesFileNodes [MuscleLibrary] : Prop :=
  ∀ file, inflateMessage (fileNode file) = some (fileNode file)

/-- A file is published under one path only. -/
theorem filesNodePath_inj {c c' : ServerConnection}
    (h : c.filesNodePath ++ fileName = c'.filesNodePath ++ fileName') :
    c.filesNodePath = c'.filesNodePath ∧ fileName = fileName' := by
  have hdirectory (c : ServerConnection) :
      c.filesNodePath = nodeFirewalledPath ∨ c.filesNodePath = nodeFilesPath := by
    rw [ServerConnection.filesNodePath]
    split
    · exact .inl rfl
    · exact .inr rfl
  have hsame : c.filesNodePath = c'.filesNodePath := by
    have hstart := startsWith_append c.filesNodePath fileName
    have hstart' := startsWith_append c'.filesNodePath fileName'
    rw [← h] at hstart'
    rcases hdirectory c with hc | hc <;> rcases hdirectory c' with hc' | hc'
    · rw [hc, hc']
    · rw [hc] at hstart hstart'
      rw [hc'] at hstart'
      exact absurd ⟨hstart', hstart⟩ (not_startsWith_both _)
    · rw [hc] at hstart hstart'
      rw [hc'] at hstart'
      exact absurd ⟨hstart, hstart'⟩ (not_startsWith_both _)
    · rw [hc, hc']
  rw [hsame] at h
  exact ⟨hsame, append_left_injective _ h⟩

/-- What a result of a query says of a file that is shared. -/
def SharedFile.result (file : SharedFile) (sessionId : String) (isFirewalled : Bool) :
    FileResult where
  sessionId := sessionId
  fileName := file.fileName
  path := file.relativePath
  kind := file.kind
  fileSize := file.fileSize
  modificationTime := file.modificationTime
  isFirewalled := isFirewalled
  attributes := fileNode file

namespace ServerSide

def HasNoFiles (server : ServerSide) : Prop :=
  ∀ nodePath, isFileNode nodePath = true → server.node nodePath = none

/-- Of files there are only those of this client, where it has them now. -/
def HoldsFilesOf (server : ServerSide) (c : ServerConnection) : Prop :=
  ∀ nodePath data, isFileNode nodePath = true → server.node nodePath = some data →
    c.Shares [(nodePath, data)]

theorem HasNoFiles.holdsFilesOf {server : ServerSide} (h : server.HasNoFiles)
    (c : ServerConnection) : server.HoldsFilesOf c := by
  intro nodePath data hfile hdata
  cases (h nodePath hfile).symm.trans hdata

theorem HoldsFilesOf.of_directory {server : ServerSide} {c c' : ServerConnection}
    (h : server.HoldsFilesOf c) (hsame : c'.filesNodePath = c.filesNodePath) :
    server.HoldsFilesOf c' := by
  intro nodePath data hfile hdata node hm
  obtain ⟨file, hplain, rfl⟩ := h nodePath data hfile hdata node hm
  refine ⟨file, hplain, ?_⟩
  rw [ServerConnection.sharedFileNode, ServerConnection.sharedFileNode, hsame]

theorem HoldsFilesOf.plain {server : ServerSide} {c c' : ServerConnection}
    (h : server.HoldsFilesOf c)
    (hdata : server.node (c'.filesNodePath ++ fileName) = some data) :
    c'.filesNodePath = c.filesNodePath ∧ ∃ file : SharedFile, ArePlain [file.fileName] ∧
      file.fileName = fileName ∧ data = fileNode file := by
  obtain ⟨file, hplain, he⟩ :=
    h _ data (isFileNode_filesNodePath c' fileName) hdata _ List.mem_cons_self
  obtain ⟨hpath, rfl⟩ := Prod.mk.inj he
  obtain ⟨hdirectory, rfl⟩ := filesNodePath_inj hpath
  exact ⟨hdirectory, file, hplain, rfl, rfl⟩

section
variable [MuscleLibrary] [MuscleRelay]

/-- What the server has of a file that a query finds. -/
def foundFile (seats : Seats) (query : Option FileQuery) (c : ServerConnection)
    (server : ServerSide) (n : Nat) (fileName : String) : Option FileResult :=
  if n = server.sessions ∧ query.any (·.accepts (seats.sessionOf n) fileName) = true ∧
      server.isSubscribed seats (c.filesNodePath ++ fileName) = true then
    (server.node (c.filesNodePath ++ fileName)).map (fileResult (seats.sessionOf n) fileName
      (server.absolutePath seats (c.filesNodePath ++ fileName)))
  else none

/-- A file that is there now and that a query finds. -/
structure Finds (seats : Seats) (query : Option FileQuery) (c : ServerConnection)
    (server : ServerSide) (n : Nat) (file : SharedFile) : Prop where
  session : n = server.sessions
  accepted : query.any (·.accepts (seats.sessionOf n) file.fileName) = true
  named : server.isSubscribed seats (c.filesNodePath ++ file.fileName) = true
  shared : server.node (c.filesNodePath ++ file.fileName) = some (fileNode file)

/-- What is said of a file to those who find it. -/
def resultOf (seats : Seats) (c : ServerConnection) (server : ServerSide) (file : SharedFile) :
    FileResult :=
  fileResult (seats.sessionOf server.sessions) file.fileName
    (server.absolutePath seats (c.filesNodePath ++ file.fileName)) (fileNode file)

theorem Finds.foundFile {server : ServerSide} {c : ServerConnection}
    (h : server.Finds seats query c n file) :
    server.foundFile seats query c n file.fileName = some (server.resultOf seats c file) := by
  obtain ⟨rfl, haccepted, hnamed, hshared⟩ := h
  rw [ServerSide.foundFile, if_pos ⟨rfl, haccepted, hnamed⟩, hshared]
  rfl

/-- The subscription and the nodes of files are all there is to it. -/
theorem foundFile_congr (seats : Seats) (query : Option FileQuery) {c c' : ServerConnection}
    {server server' : ServerSide} (hc : c'.filesNodePath = c.filesNodePath)
    (hs : server'.sessions = server.sessions) (hears : server'.hearsUsers = server.hearsUsers)
    (hpatterns : server'.patterns = server.patterns)
    (h : ∀ nodePath, isFileNode nodePath = true →
      server'.node nodePath = server.node nodePath) :
    server'.foundFile seats query c' = server.foundFile seats query c := by
  funext n fileName
  have hpath (nodePath : String) :
      server'.absolutePath seats nodePath = server.absolutePath seats nodePath := by
    rw [absolutePath, absolutePath, hs]
  rw [foundFile, foundFile, hc, hs, h _ (isFileNode_filesNodePath c fileName), hpath, isSubscribed,
    isSubscribed, hears, hpatterns, hpath]

theorem HasNoFiles.foundFile {server : ServerSide} (h : server.HasNoFiles) (seats : Seats)
    (query : Option FileQuery) (c : ServerConnection) :
    server.foundFile seats query c = fun _ _ => none := by
  funext n fileName
  rw [ServerSide.foundFile, h _ (isFileNode_filesNodePath c fileName)]
  exact ite_self none

omit [MuscleRelay] in
theorem isNodeOfFile_placed {seats : Seats} (hseats : seats.IsProper)
    (hlibrary : MuscleLibrary.ReadsPaths) (server : ServerSide) (c : ServerConnection)
    (hplain : ArePlain [fileName]) :
    IsNodeOfFile sessionId fileName' (server.absolutePath seats (c.filesNodePath ++ fileName)) ↔
      sessionId = seats.sessionOf server.sessions ∧ fileName' = fileName := by
  have hpath := hseats.fileNode server c hplain
  constructor
  · intro h
    exact ⟨h.session.symm.trans (hpath.extractSessionId_eq hlibrary),
      Option.some.inj (h.file.symm.trans (hpath.fileClause hlibrary))⟩
  · rintro ⟨rfl, rfl⟩
    exact ⟨hpath.depth hlibrary, hpath.extractSessionId_eq hlibrary, hpath.fileClause hlibrary⟩

omit [MuscleRelay] in
theorem not_isNodeOfFile_user {seats : Seats} (hseats : seats.IsProper)
    (hlibrary : MuscleLibrary.ReadsPaths) (server : ServerSide)
    (hp : nodePath ∈ [nodeName, nodeUserStatus, nodeFileCount]) :
    ¬IsNodeOfFile sessionId fileName (server.absolutePath seats nodePath) := by
  intro h
  have hdepth : ∀ p ∈ [nodeName, nodeUserStatus, nodeFileCount],
      getPathDepth (server.absolutePath seats p) = userNameDepth := by
    obtain ⟨hname, hstatus, hcount⟩ := hseats.hostedNode server
    simp only [List.forall_mem_cons]
    exact ⟨hname.depth hlibrary, hstatus.depth hlibrary, hcount.depth hlibrary,
      fun p hm => absurd hm List.not_mem_nil⟩
  exact absurd ((hdepth nodePath hp).symm.trans h.depth) (by decide)

theorem foundFile_ne_none_iff {server : ServerSide} {c : ServerConnection} :
    server.foundFile seats query c n fileName ≠ none ↔ n = server.sessions ∧
      query.any (·.accepts (seats.sessionOf n) fileName) = true ∧
      server.isSubscribed seats (c.filesNodePath ++ fileName) = true ∧
      server.node (c.filesNodePath ++ fileName) ≠ none := by
  rw [foundFile]
  split
  · next h =>
    rw [ne_eq, Option.map_eq_none_iff]
    exact ⟨fun hnode => ⟨h.1, h.2.1, h.2.2, hnode⟩, fun h => h.2.2.2⟩
  · next h =>
    exact ⟨fun hsome => absurd rfl hsome, fun hall => absurd ⟨hall.1, hall.2.1, hall.2.2.1⟩ h⟩

omit [MuscleRelay] in
theorem isFileNode_of_isNodeOfFile {seats : Seats} (hseats : seats.IsProper)
    (hlibrary : MuscleLibrary.ReadsPaths) {server : ServerSide} (h : IsHostedNode nodePath)
    (hnode : IsNodeOfFile sessionId fileName (server.absolutePath seats nodePath)) :
    isFileNode nodePath = true := by
  cases h with
  | name | userStatus | fileCount =>
    exact absurd hnode (not_isNodeOfFile_user hseats hlibrary server (by decide))
  | file c hplain => exact isFileNode_filesNodePath c _

omit [MuscleRelay] in
theorem not_isNodeOfFile_directory {seats : Seats} (hseats : seats.IsProper)
    (hlibrary : MuscleLibrary.ReadsPaths) {server : ServerSide}
    (hd : server.isDirectory seats path = true) : ¬IsNodeOfFile sessionId fileName path := by
  intro h
  obtain ⟨clause, -, hpath⟩ := hseats.directory server hd
  exact absurd ((hpath.depth hlibrary).symm.trans h.depth) (by decide)

omit [MuscleRelay] in
theorem addFile_placed {seats : Seats} (hseats : seats.IsProper)
    (hlibrary : MuscleLibrary.ReadsPaths) (hinflates : MuscleLibrary.LeavesFileNodes)
    {query : Option FileQuery} (server : ServerSide) (c : ServerConnection)
    (hplain : ArePlain [file.fileName])
    (haccepts : query.any (·.accepts (seats.sessionOf server.sessions) file.fileName) = true)
    (known : Option FileResult) :
    addFile query (seats.sessionOf server.sessions) file.fileName known
      (server.placed seats (c.sharedFileNode file)) = some (server.resultOf seats c file) := by
  have hnode := (isNodeOfFile_placed hseats hlibrary server c hplain).mpr ⟨rfl, rfl⟩
  have hdata : (server.placed seats (c.sharedFileNode file)).2 = fileNode file := rfl
  rw [addFile, if_pos ⟨hnode, haccepts⟩, hdata, hinflates file]
  rfl

/-- Whoever is told of nodes, and either knew of a file already or is told of it, knows what there
is to be found. -/
theorem Brings.tellFiles {seats : Seats} (hseats : seats.IsProper)
    (hlibrary : MuscleLibrary.ReadsPaths) (hinflates : MuscleLibrary.LeavesFileNodes)
    (query : Option FileQuery) {server : ServerSide} {c : ServerConnection}
    {messages : List ServerMessage} (h : server.Brings seats messages news)
    (hholds : server.HoldsFilesOf c) (hhosted : ∀ entry, news entry → IsHostedNode entry.1)
    (hnews : ∀ entry, news entry → isFileNode entry.1 = true →
      server.node entry.1 = some entry.2 ∧ server.isSubscribed seats entry.1 = true)
    {known : Nat → String → Option FileResult}
    (hknown : ∀ n fileName, known n fileName = server.foundFile seats query c n fileName ∨
      (server.foundFile seats query c n fileName ≠ none →
        ∃ data, news (c.filesNodePath ++ fileName, data)) ∧
      (known n fileName ≠ none → server.foundFile seats query c n fileName ≠ none)) :
    messages.foldl (tellFiles seats query) known = server.foundFile seats query c := by
  funext n fileName
  rw [foldl_tellFiles_updates seats query h.what]
  have hstep {entry : String × NodeMessage} (hentry : news entry)
      (hnode : IsNodeOfFile (seats.sessionOf n) fileName (server.placed seats entry).1)
      (haccepts : query.any (·.accepts (seats.sessionOf n) fileName) = true) :
      server.foundFile seats query c n fileName ≠ none ∧ ∀ known,
        addFile query (seats.sessionOf n) fileName known (server.placed seats entry) =
          server.foundFile seats query c n fileName := by
    have hfile := isFileNode_of_isNodeOfFile hseats hlibrary (hhosted entry hentry) hnode
    obtain ⟨hdata, hnamed⟩ := hnews entry hentry hfile
    obtain ⟨nodePath, data⟩ := entry
    obtain ⟨file, hplain, he⟩ := hholds nodePath data hfile hdata _ List.mem_cons_self
    obtain ⟨rfl, rfl⟩ := Prod.mk.inj he
    obtain ⟨hsession, rfl⟩ := (isNodeOfFile_placed hseats hlibrary server c hplain).mp hnode
    obtain rfl : n = server.sessions := hseats.injective hsession
    have hfinds : server.Finds seats query c server.sessions file :=
      ⟨rfl, haccepts, hnamed, hdata⟩
    rw [hfinds.foundFile]
    exact ⟨Option.some_ne_none _, addFile_placed hseats hlibrary hinflates server c hplain haccepts⟩
  have honly : ∀ node ∈ messages.flatMap ServerMessage.updatedNodes,
      (∀ known, addFile query (seats.sessionOf n) fileName known node = known) ∨
        server.foundFile seats query c n fileName ≠ none ∧ ∀ known,
          addFile query (seats.sessionOf n) fileName known node =
            server.foundFile seats query c n fileName := by
    intro node hm
    by_cases hadded : IsNodeOfFile (seats.sessionOf n) fileName node.1 ∧
        query.any (·.accepts (seats.sessionOf n) fileName) = true
    · have hd : server.isDirectory seats node.1 = false := by
        by_contra hd
        exact not_isNodeOfFile_directory hseats hlibrary (Bool.eq_true_of_not_eq_false hd) hadded.1
      obtain ⟨entry, hentry, rfl⟩ := (h.told node hd).mp hm
      exact .inr (hstep hentry hadded.1 hadded.2)
    · exact .inl fun known => if_neg hadded
  rcases hknown n fileName with hsame | ⟨htold, hlate⟩
  · rw [hsame]
    apply foldl_eq_self
    intro node hm
    rcases honly node hm with hleaves | ⟨-, htells⟩
    · exact hleaves _
    · exact htells _
  · refine (foldl_eq_truth _ honly (fun hsome => ?_) _).trans ?_
    · obtain ⟨data, hentry⟩ := htold hsome
      obtain ⟨rfl, haccepts, -, hnode⟩ := foundFile_ne_none_iff.mp hsome
      have hhosts := hhosted _ hentry
      obtain ⟨data', hdata'⟩ := Option.ne_none_iff_exists'.mp hnode
      obtain ⟨-, file, hplain, rfl, -⟩ := hholds.plain hdata'
      have hd := server.isDirectory_hosted seats hhosts
      exact ⟨_, (h.told _ hd).mpr ⟨_, hentry, rfl⟩, (hstep hentry
        ((isNodeOfFile_placed hseats hlibrary server c hplain).mpr ⟨rfl, rfl⟩) haccepts).2⟩
    · cases hfound : server.foundFile seats query c n fileName with
      | some result => rfl
      | none =>
        by_contra hsome
        exact hlate hsome hfound

theorem Takes.tellFiles {seats : Seats} (hseats : seats.IsProper)
    (hlibrary : MuscleLibrary.ReadsPaths) (query : Option FileQuery) {server : ServerSide}
    {c : ServerConnection} (hholds : server.HoldsFilesOf c) {messages : List ServerMessage}
    (h : server.Takes seats messages gone)
    (hall : ∀ nodePath, isFileNode nodePath = true → server.node nodePath ≠ none →
      server.isSubscribed seats nodePath = true → gone nodePath) :
    messages.foldl (tellFiles seats query) (server.foundFile seats query c) =
      fun _ _ => none := by
  funext n fileName
  rw [foldl_tellFiles_removals seats query h.what]
  by_cases hsome : server.foundFile seats query c n fileName = none
  · rw [hsome]
    exact foldl_dropFile_none ..
  · obtain ⟨rfl, -, hnamed, hnode⟩ := foundFile_ne_none_iff.mp hsome
    obtain ⟨data, hdata⟩ := Option.ne_none_iff_exists'.mp hnode
    obtain ⟨-, file, hplain, rfl, -⟩ := hholds.plain hdata
    have hgone := hall _ (isFileNode_filesNodePath c _) hnode hnamed
    have hd := server.isDirectory_hosted seats (.file c hplain)
    exact foldl_dropFile_of_mem ((h.told _ hd).mpr ⟨_, hgone, rfl⟩)
      ((isNodeOfFile_placed hseats hlibrary server c hplain).mpr ⟨rfl, rfl⟩) _

omit [MuscleLibrary] in
theorem hasNoFiles_cleaned (hcovers : MuscleServer.CoversFiles) (server : ServerSide) :
    server.cleaned.HasNoFiles := by
  intro nodePath hfile
  apply if_pos
  change ([allFileNodes].any (MuscleServer.covers · nodePath)) = true
  rw [isFileNode_eq, Bool.or_eq_true] at hfile
  rw [List.any_cons, List.any_nil, Bool.or_false]
  rcases hfile with hfile | hfile
  · obtain ⟨fileName, rfl⟩ := startsWith_iff.mp hfile
    exact (hcovers fileName).1
  · obtain ⟨fileName, rfl⟩ := startsWith_iff.mp hfile
    exact (hcovers fileName).2

omit [MuscleLibrary] [MuscleRelay] in
theorem HoldsFilesOf.withNodes {server : ServerSide} {c : ServerConnection}
    (h : server.HoldsFilesOf c) {nodes : List (String × NodeMessage)}
    (hnodup : (nodes.map Prod.fst).Nodup)
    (hnodes : ∀ node ∈ nodes, isFileNode node.1 = true → c.Shares [node]) :
    (server.withNodes nodes).HoldsFilesOf c := by
  intro nodePath data hfile hdata
  by_cases hm : nodePath ∈ nodes.map Prod.fst
  · obtain ⟨node, hnode, rfl⟩ := List.mem_map.mp hm
    rw [server.node_withNodes_of_mem hnodup hnode] at hdata
    obtain rfl := Option.some.inj hdata
    exact hnodes node hnode hfile
  · rw [server.node_withNodes_of_notMem hm] at hdata
    exact h nodePath data hfile hdata

end

end ServerSide

/-- All that a client says to its server, by what it does to its files. -/
inductive ConnectionOccurrence.TellsFilesOf (c : ServerConnection) : ConnectionOccurrence → Prop
  | sets (hsets : (setDataMessage nodes).SetsNodes)
      (hfiles : ∀ node ∈ nodes, isFileNode node.1 = true → c.Shares [node]) :
      TellsFilesOf c (.sent (setDataMessage nodes))
  | cleanUp : TellsFilesOf c (.sent cleanUpMessage)
  | other (hleaves : o.LeavesNodes) : TellsFilesOf c o

namespace ServerState

section
variable [MuscleLibrary] [MuscleRelay] {seats : Seats}

theorem tellFiles_setData (hserves : MuscleRelay.Serves seats) (hseats : seats.IsProper)
    (hlibrary : MuscleLibrary.ReadsPaths) (hinflates : MuscleLibrary.LeavesFileNodes)
    (query : Option FileQuery) {state : ServerState} {c : ServerConnection}
    (hholds : state.side.HoldsFilesOf c) {nodes : List (String × NodeMessage)}
    (hsets : (setDataMessage nodes).SetsNodes)
    (hfiles : ∀ node ∈ nodes, isFileNode node.1 = true → c.Shares [node]) :
    (state.news (.sent (setDataMessage nodes))).foldl (tellFiles seats query)
      (state.side.foundFile seats query c) =
        (state.side.withNodes nodes).foundFile seats query c := by
  apply (brings_setData hserves state hsets).tellFiles hseats hlibrary hinflates query
    (hholds.withNodes hsets.nodup hfiles)
  · exact fun entry hentry => hsets.hosted entry hentry.1
  · exact fun entry hentry _ =>
      ⟨state.side.node_withNodes_of_mem hsets.nodup hentry.1, hentry.2⟩
  · intro n fileName
    by_cases hm : c.filesNodePath ++ fileName ∈ nodes.map Prod.fst
    · right
      obtain ⟨⟨nodePath, data⟩, hnode, rfl⟩ := List.mem_map.mp hm
      constructor
      · intro hsome
        exact ⟨data, hnode, (ServerSide.foundFile_ne_none_iff.mp hsome).2.2.1⟩
      · intro hsome
        obtain ⟨hn, haccepts, hnamed, -⟩ := ServerSide.foundFile_ne_none_iff.mp hsome
        refine ServerSide.foundFile_ne_none_iff.mpr ⟨hn, haccepts, hnamed, ?_⟩
        exact (state.side.node_withNodes_ne_none nodes _).mpr (.inl hm)
    · left
      rw [ServerSide.foundFile, ServerSide.foundFile, state.side.node_withNodes_of_notMem hm]
      rfl

theorem tellFiles_cleanUp (hserves : MuscleRelay.Serves seats) (hseats : seats.IsProper)
    (hlibrary : MuscleLibrary.ReadsPaths) (hcovers : MuscleServer.CoversFiles)
    (query : Option FileQuery) {state : ServerState} {c : ServerConnection}
    (hholds : state.side.HoldsFilesOf c) :
    (state.news (.sent cleanUpMessage)).foldl (tellFiles seats query)
      (state.side.foundFile seats query c) = state.side.cleaned.foundFile seats query c := by
  rw [(state.side.hasNoFiles_cleaned hcovers).foundFile]
  apply (hserves.tellsRemoved state cleanUpMessage rfl).tellFiles hseats hlibrary query hholds
  intro nodePath hfile hnode hnamed
  refine ⟨hnode, ?_, hnamed⟩
  by_contra hspared
  have hgone := state.side.hasNoFiles_cleaned hcovers nodePath hfile
  rw [ServerSide.cleaned, ServerSide.node_without, if_neg hspared] at hgone
  exact hnode hgone

theorem holdsFilesOf_after (hserves : MuscleRelay.Serves seats) {state : ServerState}
    {c : ServerConnection} (h : state.side.HoldsFilesOf c) (ho : o.TellsFilesOf c) :
    (state.after o).side.HoldsFilesOf c := by
  cases ho with
  | sets hsets hfiles =>
    rw [side_after_setData hserves state hsets]
    exact h.withNodes hsets.nodup hfiles
  | cleanUp =>
    rw [side_after_cleanUp hserves]
    intro nodePath data hfile hdata
    rw [ServerSide.cleaned, ServerSide.node_without] at hdata
    split at hdata
    · cases hdata
    · exact h nodePath data hfile hdata
  | other hleaves =>
    rw [side_after_other hserves state hleaves]
    exact h

/-- A subscriber who is told all there is to be told has found what there is to be found. -/
theorem tellFiles_news (hserves : MuscleRelay.Serves seats) (hseats : seats.IsProper)
    (hlibrary : MuscleLibrary.ReadsPaths) (hinflates : MuscleLibrary.LeavesFileNodes)
    (hcovers : MuscleServer.CoversFiles) (query : Option FileQuery) {state : ServerState}
    {c : ServerConnection} (h : state.side.HoldsFilesOf c) (ho : o.TellsFilesOf c) :
    (state.news o).foldl (tellFiles seats query) (state.side.foundFile seats query c) =
      (state.after o).side.foundFile seats query c := by
  cases ho with
  | sets hsets hfiles =>
    rw [side_after_setData hserves state hsets]
    exact tellFiles_setData hserves hseats hlibrary hinflates query h hsets hfiles
  | cleanUp =>
    rw [side_after_cleanUp hserves]
    exact tellFiles_cleanUp hserves hseats hlibrary hcovers query h
  | other hleaves =>
    rw [side_after_other hserves state hleaves]
    apply foldl_eq_self
    intro message hm
    funext n fileName
    exact if_neg (what_ne_of_isRelayed (what_news_of_leaves hserves hleaves hm).1)

theorem tellFiles_newsOfAll (hserves : MuscleRelay.Serves seats) (hseats : seats.IsProper)
    (hlibrary : MuscleLibrary.ReadsPaths) (hinflates : MuscleLibrary.LeavesFileNodes)
    (hcovers : MuscleServer.CoversFiles) (query : Option FileQuery) {state : ServerState}
    {c : ServerConnection} (h : state.side.HoldsFilesOf c)
    (hwords : ∀ o ∈ occurrences, o.TellsFilesOf c) :
    (state.newsOfAll occurrences).foldl (tellFiles seats query)
      (state.side.foundFile seats query c) =
        (state.afterAll occurrences).side.foundFile seats query c ∧
      (state.afterAll occurrences).side.HoldsFilesOf c := by
  induction occurrences generalizing state with
  | nil => exact ⟨rfl, h⟩
  | cons o later ih =>
    have ho := hwords o List.mem_cons_self
    rw [newsOfAll, List.foldl_append,
      tellFiles_news hserves hseats hlibrary hinflates hcovers query h ho]
    exact ih (holdsFilesOf_after hserves h ho) fun o' hm => hwords o' (List.mem_cons_of_mem o hm)

end

end ServerState

namespace ConnectionWorld

theorem firewalled_handle [MuscleLibrary] (w : ConnectionWorld) (e : ServerConnectionEvent)
    (hf : ∀ firewalled, e.call ≠ .setFirewalled firewalled) :
    (w.handle e).firewalled = w.firewalled := by
  by_cases hp : ∃ files, e.call = .publishSharedFiles files
  · obtain ⟨files, hcall⟩ := hp
    rw [handle, hcall]
    exact congrArg (·.firewalled) (w.publishSharedFiles_toServerConnection files)
  by_cases hu : e.call = .unpublishAllSharedFiles
  · rw [handle, hu]
    exact congrArg (·.firewalled) w.unpublishAllSharedFiles_toServerConnection
  exact (w.handle_sparesFiles e (fun files hcall => hp ⟨files, hcall⟩) hu hf).firewalled

end ConnectionWorld

namespace Publisher

/-- A new flag does not leave files behind, which it would with a count that has come round to
zero. -/
def LeavesNoFiles [MuscleRelay] (p : Publisher) (e : ServerConnectionEvent) : Prop :=
  ∀ firewalled, e.call = .setFirewalled firewalled → firewalled ≠ p.firewalled →
    p.isConnected = true → p.publishedFileCount = 0 → p.server.HasNoFiles

section
variable [MuscleLibrary] [MuscleRelay]

/-- What is found of the files of a publisher. -/
def foundFiles (seats : Seats) (query : Option FileQuery) (p : Publisher) :
    Nat → String → Option FileResult := p.server.foundFile seats query p.toServerConnection

theorem handle_tellsFiles {p : Publisher} (hadmits : p.Admits e) :
    ∀ o ∈ occurrencesOf p.toConnectionWorld e, o.TellsFilesOf p.toServerConnection := by
  have hone {w : ConnectionWorld} {o' : ConnectionOccurrence}
      (h : w.history = p.history ++ [o'])
      (ho : o'.TellsFilesOf p.toServerConnection) :
      DoesOnly (·.TellsFilesOf p.toServerConnection) p.toConnectionWorld w := .one h ho
  apply DoesOnly.drop
  have huser {nodePath : String} (h : IsHostedNode nodePath) (hp : isFileNode nodePath = false)
      (data : NodeMessage) : ConnectionOccurrence.TellsFilesOf p.toServerConnection
        (.sent (setDataMessage [(nodePath, data)])) := by
    refine .sets (ServerState.setsNodes_one h data) fun node hm hfile => ?_
    rw [List.mem_singleton.mp hm, hp] at hfile
    cases hfile
  have hstep := ConnectionWorld.handle_clientStep hadmits.installId
  generalize p.toConnectionWorld.handle e = w at hstep
  cases hstep with
  | idles hidle hsame => exact hidle.imp fun o ho => .other ho.leavesNodes
  | saysName hends hc hsaid hsame => exact hone hsaid (huser .name (by decide) _)
  | saysStatus hends hc hsaid hsame => exact hone hsaid (huser .userStatus (by decide) _)
  | saysCount hends hc hsaid hsame => exact hone hsaid (huser .fileCount (by decide) _)
  | @shares files _ he hc groups hsaid hgroups hsame =>
    refine ⟨_, hsaid, fun o hm => ?_⟩
    obtain ⟨nodes, hnodes, rfl⟩ := List.mem_map.mp hm
    have hsub : nodes.Sublist (files.map p.sharedFileNode) :=
      hgroups ▸ List.sublist_flatten_of_mem hnodes
    have hshares : p.Shares nodes := by
      intro node hnode
      obtain ⟨file, hfile, rfl⟩ := List.mem_map.mp (hsub.subset hnode)
      exact ⟨file, hadmits.plain files he file hfile, rfl⟩
    refine .sets (ServerState.setsNodes_files hshares ?_) fun node hnode _ node' hm => ?_
    · have hpaths := (hadmits.nodup files he).map (append_left_injective p.filesNodePath)
      rw [List.map_map] at hpaths
      refine List.Nodup.sublist (hsub.map Prod.fst) ?_
      rw [List.map_map]
      exact hpaths
    · rw [List.mem_singleton.mp hm]
      exact hshares node hnode
  | cleansUp hends hc hsaid hsame => exact hone hsaid .cleanUp
  | hearsLine he hwhat hrunning =>
    rw [ConnectionWorld.handleChatText]
    split
    · split
      · exact .refl _ _
      · exact .one rfl (.other ⟨rfl, fun _ h => (by cases h), fun _ h => (by cases h)⟩)
    · exact .refl _ _
  | @logsIn connectedTo he hrunning =>
    obtain ⟨quiet, hidle, hsaid⟩ := p.toConnectionWorld.sessionConnected_says e.now connectedTo
    refine ⟨_, hsaid, fun o hm => ?_⟩
    rcases List.mem_append.mp hm with hm | hm
    · exact .other (hidle o hm).leavesNodes
    · simp only [List.mem_cons, List.not_mem_nil, or_false] at hm
      rcases hm with rfl | rfl | rfl | rfl
      · exact huser .name (by decide) _
      · exact huser .userStatus (by decide) _
      · exact .other (ConnectionOccurrence.leavesNodes_sent (by decide) (by decide) (by decide))
      · exact .other (ConnectionOccurrence.leavesNodes_sent (by decide) (by decide) (by decide))

theorem handle_directory {seats : Seats} (hserves : MuscleRelay.Serves seats)
    (hcovers : MuscleServer.CoversFiles) {p : Publisher} (h : p.IsSound)
    (hleaves : p.LeavesNoFiles e) :
    (p.handle e).filesNodePath = p.filesNodePath ∨ (p.handle e).server.HasNoFiles := by
  by_cases hflag : ∃ firewalled, e.call = .setFirewalled firewalled ∧ firewalled ≠ p.firewalled
  · obtain ⟨firewalled, hcall, hnew⟩ := hflag
    have hends : p.endsSession e = false := by rw [ServerConnection.endsSession, hcall]
    have hhandle : p.toConnectionWorld.handle e = p.setFirewalled firewalled := by
      rw [ConnectionWorld.handle, hcall]
    rw [ConnectionWorld.setFirewalled, if_neg hnew] at hhandle
    right
    have hserver {said : List ConnectionOccurrence}
        (hsaid : (p.toConnectionWorld.handle e).history = p.history ++ said) :
        (p.handle e).server = (p.state.afterAll said).side := by
      rw [Publisher.server, Publisher.handle, occurrencesOf_append hsaid, Publisher.hosted,
        if_neg (Bool.eq_false_iff.mp hends)]
    by_cases hcount : p.isConnected = true ∧ 0 < p.publishedFileCount
    · have hsaid := ConnectionWorld.unpublishAllSharedFiles_history
        { p.toConnectionWorld with firewalled }
      have hclean : p.toConnectionWorld.handle e =
          ConnectionWorld.unpublishAllSharedFiles { p.toConnectionWorld with firewalled } :=
        hhandle.trans (if_pos hcount)
      rw [← hclean] at hsaid
      have hcleaned : (p.state.afterAll [.sent cleanUpMessage]).side = p.server.cleaned :=
        ServerState.side_after_cleanUp hserves p.state
      rw [hserver (hsaid.trans (congrArg _ (if_pos hcount.1)))]
      exact hcleaned ▸ p.server.hasNoFiles_cleaned hcovers
    · have hquiet : p.toConnectionWorld.handle e = { p.toConnectionWorld with firewalled } :=
        hhandle.trans (if_neg hcount)
      have hsaid : (p.toConnectionWorld.handle e).history = p.history ++ [] := by
        rw [hquiet, List.append_nil]
      rw [hserver hsaid]
      cases hc : p.isConnected with
      | false =>
        intro nodePath _
        change p.server.node nodePath = none
        rw [(h.offline hc).1]
      | true =>
        refine hleaves firewalled hcall hnew hc ?_
        by_contra hzero
        exact hcount ⟨hc, UInt32.pos_iff_ne_zero.mpr hzero⟩
  · left
    have hsame : (p.handle e).firewalled = p.firewalled := by
      by_cases hcall : ∃ firewalled, e.call = .setFirewalled firewalled
      · obtain ⟨firewalled, hcall⟩ := hcall
        have hold : firewalled = p.firewalled := not_not.mp fun hne => hflag ⟨_, hcall, hne⟩
        rw [Publisher.handle, ConnectionWorld.handle, hcall]
        change (p.toConnectionWorld.setFirewalled firewalled).firewalled = _
        rw [ConnectionWorld.setFirewalled, if_pos hold]
      · exact p.toConnectionWorld.firewalled_handle e fun firewalled he => hcall ⟨_, he⟩
    rw [ServerConnection.filesNodePath, ServerConnection.filesNodePath, hsame]

theorem IsSound.tellsFiles {seats : Seats} (hserves : MuscleRelay.Serves seats)
    (hseats : seats.IsProper) (hlibrary : MuscleLibrary.ReadsPaths)
    (hinflates : MuscleLibrary.LeavesFileNodes) (hcovers : MuscleServer.CoversFiles)
    (query : Option FileQuery) {p : Publisher} (h : p.IsSound)
    (hholds : p.server.HoldsFilesOf p.toServerConnection) (hadmits : p.Admits e)
    (hleaves : p.LeavesNoFiles e) :
    (p.news e).foldl (tellFiles seats query) (p.foundFiles seats query) =
        (p.handle e).foundFiles seats query ∧
      (p.handle e).server.HoldsFilesOf (p.handle e).toServerConnection := by
  have hbegins : (p.hosted e).side.HoldsFilesOf p.toServerConnection ∧
      (if p.endsSession e then p.state.newsOfEnd else []).foldl (tellFiles seats query)
        (p.foundFiles seats query) =
          (p.hosted e).side.foundFile seats query p.toServerConnection := by
    rw [Publisher.hosted]
    split
    · have hempty : p.state.endSession.side.HasNoFiles := by
        rw [side_endSession hserves]
        exact fun _ _ => rfl
      rw [hempty.foundFile]
      exact ⟨hempty.holdsFilesOf _, (hserves.tellsEnd p.state).tellFiles hseats hlibrary query
        hholds fun _ _ hnode hnamed => ⟨hnode, hnamed⟩⟩
    · exact ⟨hholds, rfl⟩
  obtain ⟨htold, hends⟩ := ServerState.tellFiles_newsOfAll hserves hseats hlibrary hinflates
    hcovers query hbegins.1 (handle_tellsFiles hadmits)
  have hdirectory := handle_directory hserves hcovers h hleaves
  have hfound : (p.handle e).foundFiles seats query =
      (p.handle e).server.foundFile seats query p.toServerConnection := by
    rcases hdirectory with hsame | hnone
    · exact ServerSide.foundFile_congr seats query hsame rfl rfl rfl fun _ _ => rfl
    · exact (hnone.foundFile ..).trans (hnone.foundFile ..).symm
  rw [hfound, Publisher.news, List.foldl_append, hbegins.2]
  refine ⟨htold, ?_⟩
  rcases hdirectory with hsame | hnone
  · exact ServerSide.HoldsFilesOf.of_directory hends hsame
  · exact hnone.holdsFilesOf _

end

end Publisher

end HiTuxShare
