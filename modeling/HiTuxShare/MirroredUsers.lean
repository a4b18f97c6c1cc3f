import HiTuxShare.ClientSteps
import HiTuxShare.ReadUsers

namespace HiTuxShare
set_option autoImplicit true

open MuscleLibrary

/-- Each session has a place of its own. -/
structure Seats.IsProper (seats : Seats) : Prop where
  plain : ∀ n, ArePlain [seats.hostOf n, seats.sessionOf n]
  injective : Function.Injective seats.sessionOf

/-- The file key spares the nodes that say who a user is. -/
def MuscleServer.SparesUsers [MuscleServer] : Prop :=
  ∀ nodePath ∈ [nodeName, nodeUserStatus, nodeFileCount],
    MuscleServer.covers allFileNodes nodePath = false

/-- Whether a user can be reached is told by nodes that the server makes by itself. -/
def UserRecord.unplaced (user : UserRecord) : UserRecord := { user with isFirewalled := false }

/-- The record that a reader of these nodes has of the session they belong to. -/
def shownUser (hostName sessionId : String) (node : String → Option NodeMessage) :
    Option UserRecord :=
  (node nodeName).map fun data =>
    { sessionId
      hostName
      userName := (data.findString fieldName).getD ""
      port := (data.findInt32 fieldPort).getD 0
      installId := (publishedInstallId data).getD 0
      clientVersion := (publishedVersion data).getD ""
      userStatus :=
        ((node nodeUserStatus).bind fun data => data.findString fieldUserStatus).getD ""
      fileCount :=
        (((node nodeFileCount).bind fun data =>
          data.findInt32 fieldFileCount).map Int32.toUInt32).getD 0 }

/-- The records a subscriber has of all sessions of a publisher; those that are over have none. -/
def ServerSide.shownUsers (seats : Seats) (server : ServerSide) (n : Nat) : Option UserRecord :=
  if server.hearsUsers = true ∧ n = server.sessions then
    shownUser (seats.hostOf n) (seats.sessionOf n) server.node
  else none

theorem append_left_injective (start : String) : Function.Injective (start ++ ·) := by
  intro rest rest' h
  have hlist := congrArg String.toList h
  simp only [String.toList_append] at hlist
  exact String.toList_inj.mp (List.append_cancel_left hlist)

/-- The nodes of files that a connection shares. -/
def ServerConnection.Shares (c : ServerConnection) (nodes : List (String × NodeMessage)) : Prop :=
  ∀ node ∈ nodes, ∃ file : SharedFile, ArePlain [file.fileName] ∧ node = c.sharedFileNode file

/-- What one of our clients does to its nodes. It says its name before all else. -/
inductive ServerSide.Hears (server : ServerSide) : ConnectionOccurrence → Prop
  | name (c : ServerConnection) : Hears server (.sent (setDataMessage [(nodeName, c.nameNode)]))
  | userStatus (c : ServerConnection) (h : server.node nodeName ≠ none) :
      Hears server (.sent (setDataMessage [(nodeUserStatus, c.userStatusNode)]))
  | fileCount (count : UInt32) (h : server.node nodeName ≠ none) :
      Hears server (.sent (setDataMessage [(nodeFileCount, fileCountNode count)]))
  | files (c : ServerConnection) {files : List (String × NodeMessage)} (hfiles : c.Shares files)
      (hnodup : (files.map Prod.fst).Nodup) (h : server.node nodeName ≠ none) :
      Hears server (.sent (setDataMessage files))
  | cleanUp : Hears server (.sent cleanUpMessage)
  | other (hleaves : o.LeavesNodes) : Hears server o

def ServerSide.HostsNodes (server : ServerSide) : Prop :=
  ∀ nodePath, server.node nodePath ≠ none → IsHostedNode nodePath

/-- With anything that is set of a user comes the name. -/
structure ServerSide.IsNamed (server : ServerSide) : Prop where
  set : ∀ nodePath, server.node nodePath ≠ none → server.hasSet = true
  name : server.hasSet = true → server.node nodeName ≠ none

theorem ServerSide.IsNamed.none_of_none {server : ServerSide} (h : server.IsNamed)
    (hname : server.node nodeName = none) (nodePath : String) : server.node nodePath = none := by
  by_contra hp
  exact h.name (h.set nodePath hp) hname

namespace Seats.IsProper

theorem userNode {seats : Seats} (h : seats.IsProper) (server : ServerSide)
    (hc : ArePlain [clause]) : IsUserNodePath (server.absolutePath seats ("beshare/" ++ clause))
      (seats.hostOf server.sessions) (seats.sessionOf server.sessions) clause := by
  constructor
  · rw [ServerSide.absolutePath]
    simp only [joinClauses_cons, joinClauses_nil, String.append_empty, String.append_assoc]
    rfl
  · have hroot := h.plain server.sessions
    simp only [ArePlain, List.forall_mem_cons] at hroot hc ⊢
    exact ⟨hroot.1, hroot.2.1, by decide, hc⟩

theorem hostedNode {seats : Seats} (h : seats.IsProper) (server : ServerSide) :
    IsUserNodePath (server.absolutePath seats nodeName) (seats.hostOf server.sessions)
        (seats.sessionOf server.sessions) "name" ∧
      IsUserNodePath (server.absolutePath seats nodeUserStatus) (seats.hostOf server.sessions)
        (seats.sessionOf server.sessions) "userstatus" ∧
      IsUserNodePath (server.absolutePath seats nodeFileCount) (seats.hostOf server.sessions)
        (seats.sessionOf server.sessions) "filecount" := by
  have hname : ArePlain ["name"] := by simp [ArePlain]
  have hstatus : ArePlain ["userstatus"] := by simp [ArePlain]
  have hcount : ArePlain ["filecount"] := by simp [ArePlain]
  exact ⟨h.userNode server hname, h.userNode server hstatus, h.userNode server hcount⟩

theorem fileNode {seats : Seats} (h : seats.IsProper) (server : ServerSide) (c : ServerConnection)
    (hc : ArePlain [fileName]) :
    IsFileNodePath (server.absolutePath seats (c.filesNodePath ++ fileName))
      (seats.hostOf server.sessions) (seats.sessionOf server.sessions)
      (if c.firewalled then "fires" else "files") fileName := by
  have hroot := h.plain server.sessions
  simp only [ArePlain, List.forall_mem_cons] at hroot hc
  constructor
  · rw [ServerSide.absolutePath, ServerConnection.filesNodePath]
    simp only [joinClauses_cons, joinClauses_nil, String.append_empty, String.append_assoc]
    split <;> rfl
  · simp only [ArePlain, List.forall_mem_cons]
    refine ⟨hroot.1, hroot.2.1, by decide, ?_, hc⟩
    split <;> decide

/-- A directory of files says of its user nothing but where the files are. -/
theorem directory {seats : Seats} (h : seats.IsProper) (server : ServerSide)
    (hd : server.isDirectory seats path = true) : ∃ clause ∈ ["files", "fires"],
      IsUserNodePath path (seats.hostOf server.sessions) (seats.sessionOf server.sessions)
        clause := by
  have hfiles : ArePlain ["files"] := by simp [ArePlain]
  have hfires : ArePlain ["fires"] := by simp [ArePlain]
  rcases List.mem_pair.mp (of_decide_eq_true hd) with rfl | rfl
  · exact ⟨"files", by simp, h.userNode server hfiles⟩
  · exact ⟨"fires", by simp, h.userNode server hfires⟩

end Seats.IsProper

namespace ServerSide

theorem absolutePath_injective (seats : Seats) (server : ServerSide) :
    Function.Injective (server.absolutePath seats) := by
  intro nodePath nodePath' h
  exact append_left_injective _ h

theorem isDirectory_hosted (seats : Seats) (server : ServerSide) (h : IsHostedNode nodePath) :
    server.isDirectory seats (server.absolutePath seats nodePath) = false := by
  have hother : nodePath ∉ ["beshare/files", "beshare/fires"] := by
    cases h with
    | name | userStatus | fileCount => decide
    | @file fileName c _ =>
      intro hm
      have hfile := isFileNode_filesNodePath c fileName
      have hnone : ∀ p ∈ ["beshare/files", "beshare/fires"], isFileNode p = false := by decide
      exact Bool.false_ne_true ((hnone _ hm).symm.trans hfile)
  apply decide_eq_false
  rwa [List.mem_map_of_injective (server.absolutePath_injective seats)]

end ServerSide

theorem shownUser_unplaced (hostName sessionId : String) (node : String → Option NodeMessage) :
    (shownUser hostName sessionId node).map UserRecord.unplaced =
      shownUser hostName sessionId node := by
  rw [shownUser, Option.map_map]
  rfl

theorem ServerSide.shownUsers_unplaced (seats : Seats) (server : ServerSide) (n : Nat) :
    (server.shownUsers seats n).map UserRecord.unplaced = server.shownUsers seats n := by
  rw [shownUsers]
  split
  · exact shownUser_unplaced ..
  · rfl

section
variable [MuscleLibrary]

/-- What a subscriber's records of a publisher become with one more message of the server. -/
def tellUsers (seats : Seats) (known : Nat → Option UserRecord) (message : ServerMessage)
    (n : Nat) :
    Option UserRecord :=
  (readMessage (seats.sessionOf n) (known n) message).map UserRecord.unplaced

theorem UserRecord.unplaced_write (user : UserRecord) (u : NodeUpdate) :
    (user.unplaced.write u).unplaced = (user.write u).unplaced := by
  simp only [write]
  cases nodeAt u.nodePath with
  | none => rfl
  | some node => cases node <;> rfl

theorem dropInto_unplaced (sessionId : String) (known : Option UserRecord) (nodePath : String) :
    dropInto sessionId (known.map UserRecord.unplaced) nodePath =
      (dropInto sessionId known nodePath).map UserRecord.unplaced := by
  rw [dropInto, dropInto]
  split <;> rfl

theorem foldl_dropInto_unplaced (sessionId : String) (known : Option UserRecord)
    (nodePaths : List String) :
    nodePaths.foldl (dropInto sessionId) (known.map UserRecord.unplaced) =
      (nodePaths.foldl (dropInto sessionId) known).map UserRecord.unplaced := by
  induction nodePaths generalizing known with
  | nil => rfl
  | cons nodePath nodePaths ih => rw [List.foldl_cons, List.foldl_cons, dropInto_unplaced, ih]

theorem foldl_writeInto_unplaced (sessionId : String) (nodes : List (String × NodeMessage))
    {known known' : Option UserRecord}
    (h : known.map UserRecord.unplaced = known'.map UserRecord.unplaced) :
    (nodes.foldl (writeInto sessionId) known).map UserRecord.unplaced =
      (nodes.foldl (writeInto sessionId) known').map UserRecord.unplaced := by
  induction nodes generalizing known known' with
  | nil => exact h
  | cons node nodes ih =>
    apply ih
    rw [writeInto, writeInto]
    split
    · have hrecord : (known.getD { sessionId }).unplaced =
          (known'.getD { sessionId }).unplaced := by
        cases known <;> cases known'
        · rfl
        · cases h
        · cases h
        · exact Option.some.inj h
      rw [Option.map_some, Option.map_some, ← UserRecord.unplaced_write, hrecord,
        UserRecord.unplaced_write]
    · exact h

/-- Where a record stands in the list does not change what is read into it. -/
theorem readMessage_unplaced (sessionId : String) (known : Option UserRecord)
    (message : ServerMessage) :
    (readMessage sessionId (known.map UserRecord.unplaced) message).map UserRecord.unplaced =
      (readMessage sessionId known message).map UserRecord.unplaced := by
  rw [readMessage, readMessage]
  split
  · apply foldl_writeInto_unplaced
    rw [foldl_dropInto_unplaced, Option.map_map]
    rfl
  · rw [Option.map_map]
    rfl


/-- What the next node of a session is read into. -/
def openRecord (sessionId : String) (known : Option UserRecord) : UserRecord :=
  (known.getD { sessionId }).unplaced

theorem openRecord_writeInto (sessionId : String) (known : Option UserRecord)
    (node : String × NodeMessage) : openRecord sessionId (writeInto sessionId known node) =
      if nodeOwner node.1 = some sessionId then
        ((openRecord sessionId known).write ⟨node.1, node.2⟩).unplaced
      else openRecord sessionId known := by
  rw [writeInto]
  split
  · exact (UserRecord.unplaced_write ..).symm
  · rfl

omit [MuscleLibrary] in
theorem map_unplaced_eq {known known' : Option UserRecord} (h : known.isSome = true)
    (h' : known'.isSome = true) (he : openRecord sessionId known = openRecord sessionId known') :
    known.map UserRecord.unplaced = known'.map UserRecord.unplaced := by
  obtain ⟨user, rfl⟩ := Option.isSome_iff_exists.mp h
  obtain ⟨user', rfl⟩ := Option.isSome_iff_exists.mp h'
  exact congrArg some he

/-- Of these nodes some say nothing but whether a user can be reached. -/
theorem foldl_writeInto_filter (sessionId : String) {nodes : List (String × NodeMessage)}
    {directory : String → Bool}
    (h : ∀ node ∈ nodes, directory node.1 = true → nodeOwner node.1 = some sessionId →
      nodeAt node.1 = some .files ∨ nodeAt node.1 = some .fires) (known : Option UserRecord)
    (hsome : (∃ node ∈ nodes, directory node.1 = true ∧ nodeOwner node.1 = some sessionId) →
      ((nodes.filter fun node => !directory node.1).foldl (writeInto sessionId) known).isSome =
        true) :
    (nodes.foldl (writeInto sessionId) known).map UserRecord.unplaced =
      ((nodes.filter fun node => !directory node.1).foldl (writeInto sessionId) known).map
        UserRecord.unplaced := by
  have hopen {known known' : Option UserRecord}
      (he : openRecord sessionId known = openRecord sessionId known')
      (hknown : known'.isSome = true → known.isSome = true) :
      openRecord sessionId (nodes.foldl (writeInto sessionId) known) = openRecord sessionId
          ((nodes.filter fun node => !directory node.1).foldl (writeInto sessionId) known') ∧
        (((nodes.filter fun node => !directory node.1).foldl (writeInto sessionId)
          known').isSome = true → (nodes.foldl (writeInto sessionId) known).isSome = true) := by
    clear hsome
    induction nodes generalizing known known' with
    | nil => exact ⟨he, hknown⟩
    | cons node nodes ih =>
      have hlater := fun node' hm => h node' (List.mem_cons_of_mem node hm)
      rw [List.foldl_cons, List.filter_cons]
      cases hd : directory node.1 with
      | true =>
        refine ih hlater ?_ fun hs => ?_
        · rw [openRecord_writeInto, ← he]
          split
          · next ho =>
            rw [UserRecord.write]
            rcases h node List.mem_cons_self hd ho with hfiles | hfires
            · rw [hfiles]
              rfl
            · rw [hfires]
              rfl
          · rfl
        · rw [writeInto]
          split
          · rfl
          · exact hknown hs
      | false =>
        refine ih hlater ?_ fun hs => ?_
        · rw [openRecord_writeInto, openRecord_writeInto, he]
        · rw [writeInto] at hs ⊢
          split at hs
          · next ho =>
            rw [if_pos ho]
            rfl
          · next ho =>
            rw [if_neg ho]
            exact hknown hs
  by_cases hnone : ∃ node ∈ nodes, directory node.1 = true ∧ nodeOwner node.1 = some sessionId
  · obtain ⟨hrecord, hkept⟩ := @hopen known known rfl id
    exact map_unplaced_eq (hkept (hsome hnone)) (hsome hnone) hrecord
  · rw [List.foldl_filter]
    congr 1
    apply List.foldl_ext
    intro known' node hm
    cases hd : directory node.1 with
    | true => exact if_neg fun ho => hnone ⟨node, hm, hd, ho⟩
    | false => rfl

theorem tellUsers_unplaced (seats : Seats) (known : Nat → Option UserRecord)
    (message : ServerMessage) (n : Nat) :
    (tellUsers seats known message n).map UserRecord.unplaced =
      tellUsers seats known message n := by
  rw [tellUsers, Option.map_map]
  rfl

/-- Messages that only say of nodes that they are there are one long message. -/
theorem foldl_tellUsers_updates (seats : Seats) {known : Nat → Option UserRecord}
    (hknown : ∀ n, (known n).map UserRecord.unplaced = known n) {messages : List ServerMessage}
    (h : ∀ message ∈ messages, message.what = .resultDataItems ∧ message.removedDataItems = [])
    (n : Nat) : messages.foldl (tellUsers seats) known n =
      ((messages.flatMap ServerMessage.updatedNodes).foldl (writeInto (seats.sessionOf n))
        (known n)).map UserRecord.unplaced := by
  induction messages generalizing known with
  | nil => exact (hknown n).symm
  | cons message messages ih =>
    obtain ⟨hwhat, hremoved⟩ := h message List.mem_cons_self
    rw [List.foldl_cons, ih (tellUsers_unplaced seats known message)
      fun m hm => h m (List.mem_cons_of_mem message hm), List.flatMap_cons, List.foldl_append]
    apply foldl_writeInto_unplaced
    rw [tellUsers_unplaced, tellUsers, readMessage, if_pos hwhat, hremoved, List.foldl_nil]

theorem foldl_tellUsers_removals (seats : Seats) {known : Nat → Option UserRecord}
    (hknown : ∀ n, (known n).map UserRecord.unplaced = known n) {messages : List ServerMessage}
    (h : ∀ message ∈ messages, message.what = .resultDataItems ∧ message.nodes = []) (n : Nat) :
    messages.foldl (tellUsers seats) known n =
      (messages.flatMap ServerMessage.removedDataItems).foldl (dropInto (seats.sessionOf n))
        (known n) := by
  induction messages generalizing known with
  | nil => rfl
  | cons message messages ih =>
    obtain ⟨hwhat, hnodes⟩ := h message List.mem_cons_self
    have hupdated : message.updatedNodes = [] := by
      rw [ServerMessage.updatedNodes, hnodes]
      rfl
    rw [List.foldl_cons, ih (tellUsers_unplaced seats known message)
      fun m hm => h m (List.mem_cons_of_mem message hm), List.flatMap_cons, List.foldl_append,
      tellUsers, readMessage, if_pos hwhat, hupdated, List.foldl_nil, ← foldl_dropInto_unplaced,
      hknown]

namespace ServerSide

omit [MuscleLibrary] in
/-- Only three nodes are read. -/
theorem shownUsers_congr (seats : Seats) {server server' : ServerSide}
    (hs : server'.sessions = server.sessions) (hears : server'.hearsUsers = server.hearsUsers)
    (h : ∀ nodePath ∈ [nodeName, nodeUserStatus, nodeFileCount],
      server'.node nodePath = server.node nodePath) :
    server'.shownUsers seats = server.shownUsers seats := by
  simp only [List.forall_mem_cons] at h
  funext n
  rw [shownUsers, shownUsers, hs, hears, shownUser, shownUser, h.1, h.2.1, h.2.2.1]

omit [MuscleLibrary] in
theorem isSome_shownUsers {server : ServerSide} (hnamed : server.IsNamed)
    (hears : server.hearsUsers = true) (hset : server.hasSet = true) (seats : Seats) :
    (server.shownUsers seats server.sessions).isSome = true := by
  rw [shownUsers, if_pos ⟨hears, rfl⟩, shownUser, Option.isSome_map]
  exact Option.isSome_iff_ne_none.mpr (hnamed.name hset)

/-- What a subscriber is told of nodes, with what is said of directories left out. -/
theorem Brings.tellUsers {seats : Seats} (hseats : seats.IsProper)
    (hlibrary : MuscleLibrary.ReadsPaths) {server : ServerSide} {messages : List ServerMessage}
    (h : server.Brings seats messages news) {known : Nat → Option UserRecord}
    (hknown : ∀ n, (known n).map UserRecord.unplaced = known n) (hnamed : server.IsNamed)
    (hears : server.hearsUsers = true) (n : Nat)
    (htold : (((messages.flatMap ServerMessage.updatedNodes).filter fun node =>
      !server.isDirectory seats node.1).foldl (writeInto (seats.sessionOf n)) (known n)).map
        UserRecord.unplaced = server.shownUsers seats n) :
    messages.foldl (tellUsers seats) known n = server.shownUsers seats n := by
  have howner {path : String} (hd : server.isDirectory seats path = true) :
      nodeOwner path = some (seats.sessionOf server.sessions) ∧
        (nodeAt path = some .files ∨ nodeAt path = some .fires) := by
    obtain ⟨clause, hclause, hpath⟩ := hseats.directory server hd
    refine ⟨hpath.owner hlibrary, ?_⟩
    rw [hpath.node hlibrary]
    rcases List.mem_pair.mp hclause with rfl | rfl
    · exact .inl (by decide)
    · exact .inr (by decide)
  rw [foldl_tellUsers_updates seats hknown h.what, ← htold]
  apply foldl_writeInto_filter
  · exact fun node _ hd _ => (howner hd).2
  · rintro ⟨node, hm, hd, ho⟩
    have hset := h.directories node hm hd
    have hn : n = server.sessions :=
      (hseats.injective (Option.some.inj ((howner hd).1.symm.trans ho))).symm
    rw [← Option.isSome_map, htold, hn]
    exact isSome_shownUsers hnamed hears hset seats

omit [MuscleLibrary] in
/-- The nodes that are brought, in some order. -/
theorem Brings.perm {seats : Seats} {server : ServerSide} {messages : List ServerMessage}
    (h : server.Brings seats messages news) {entries : List (String × NodeMessage)}
    (hnodup : (entries.map Prod.fst).Nodup) (hnews : ∀ entry, news entry ↔ entry ∈ entries)
    (hhosted : ∀ entry ∈ entries, IsHostedNode entry.1) :
    ((messages.flatMap ServerMessage.updatedNodes).filter fun node =>
      !server.isDirectory seats node.1).Perm (entries.map (server.placed seats)) := by
  apply (List.perm_ext_iff_of_nodup (.of_map _ h.once) _).mpr
  · intro node
    rw [List.mem_filter, List.mem_map, Bool.not_eq_eq_eq_not, Bool.not_true]
    constructor
    · rintro ⟨hm, hd⟩
      obtain ⟨entry, hentry, he⟩ := (h.told node hd).mp hm
      exact ⟨entry, (hnews entry).mp hentry, he⟩
    · rintro ⟨entry, hentry, rfl⟩
      have hd : server.isDirectory seats (server.placed seats entry).1 = false :=
        server.isDirectory_hosted seats (hhosted entry hentry)
      exact ⟨(h.told _ hd).mpr ⟨entry, (hnews entry).mpr hentry, rfl⟩, hd⟩
  · have hpaths := hnodup.map (server.absolutePath_injective seats)
    rw [List.map_map] at hpaths
    apply List.Nodup.of_map Prod.fst
    rw [List.map_map]
    exact hpaths

/-- News of nodes that are gone, the name among them. -/
theorem Takes.tellUsers_gone {seats : Seats} (hseats : seats.IsProper)
    (hlibrary : MuscleLibrary.ReadsPaths) {server : ServerSide} {messages : List ServerMessage}
    (h : server.Takes seats messages gone) (hgone : gone nodeName) :
    messages.foldl (tellUsers seats) (server.shownUsers seats) server.sessions = none := by
  obtain ⟨hname, -, -⟩ := hseats.hostedNode server
  have hd := server.isDirectory_hosted seats .name
  have hm := (h.told _ hd).mpr ⟨nodeName, hgone, rfl⟩
  rw [foldl_tellUsers_removals seats (server.shownUsers_unplaced seats) h.what]
  apply foldl_dropInto_of_gone hm
  · rw [hname.depth hlibrary]
    decide
  · rw [isUserGone, hname.depth hlibrary, hname.userClause hlibrary]
    decide
  · exact hname.extractSessionId_eq hlibrary

/-- Who keeps the name stays, and so does everybody else. -/
theorem Takes.tellUsers_stays {seats : Seats} (hseats : seats.IsProper)
    (hlibrary : MuscleLibrary.ReadsPaths) {server : ServerSide} {messages : List ServerMessage}
    (h : server.Takes seats messages gone) (hhosted : ∀ nodePath, gone nodePath →
      IsHostedNode nodePath) (hstays : ¬(gone nodeName ∧ n = server.sessions)) :
    messages.foldl (tellUsers seats) (server.shownUsers seats) n = server.shownUsers seats n := by
  obtain ⟨hname, hstatus, hcount⟩ := hseats.hostedNode server
  have hkept {path clause : String} (hp : IsUserNodePath path (seats.hostOf server.sessions)
      (seats.sessionOf server.sessions) clause) (hclause : startsWith clause "name" = false) :
      isUserGone path = false := by
    rw [isUserGone, hp.depth hlibrary, hp.userClause hlibrary, Option.any_some, hclause]
    simp [userNameDepth, sessionIdDepth]
  rw [foldl_tellUsers_removals seats (server.shownUsers_unplaced seats) h.what]
  apply foldl_dropInto_of_stays
  intro path hm
  cases hd : server.isDirectory seats path with
  | true =>
    obtain ⟨clause, hclause, hpath⟩ := hseats.directory server hd
    refine .inr (.inl (hkept hpath ?_))
    rcases List.mem_pair.mp hclause with rfl | rfl
    · decide
    · decide
  | false =>
    obtain ⟨nodePath, hgone, rfl⟩ := (h.told path hd).mp hm
    cases hhosted nodePath hgone with
    | name =>
      refine .inr (.inr ?_)
      rw [hname.extractSessionId_eq hlibrary]
      exact fun he => hstays ⟨hgone, (hseats.injective he).symm⟩
    | userStatus => exact .inr (.inl (hkept hstatus (by decide)))
    | fileCount => exact .inr (.inl (hkept hcount (by decide)))
    | file c hc => exact .inl ((hseats.fileNode server c hc).depth hlibrary)

end ServerSide

end

end HiTuxShare
