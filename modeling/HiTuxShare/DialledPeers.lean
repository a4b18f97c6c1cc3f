import HiTuxShare.ConnectionEvents
import HiTuxShare.Selections

namespace HiTuxShare
set_option autoImplicit true

/-- Whether the console client connects to the sharer of a result it is to get. -/
def commandGetConnects (users : UserRegistry) (result : FileResult) : Bool :=
  match users.findUser result.sessionId with
  | none => false
  | some sharer => !(result.isFirewalled || decide (sharer.port ≤ 0))

/-- The connections that a download has been told to make. -/
def DownloadWorld.connectSessions (w : DownloadWorld) : List (String × Nat) :=
  w.history.filterMap fun
    | .connectSessionAdded hostName port => some (hostName, port)
    | _ => none

/-- Whatever download is started so, it connects to that port of the sharer. -/
def QueuedStart.ConnectsTo (queued : QueuedStart) (port : Int32) : Prop :=
  ∀ (os : OperatingSystem) (w : DownloadWorld), w.requestedFiles ≠ [] →
    os.startInternalThread = none → os.addNewConnectSession = none →
    (w.start os queued.hostName queued.port.toNat queued.remoteSessionId queued.localSessionId
      queued.localUserName).1.connectSessions =
        w.connectSessions ++ [(queued.hostName, port.toInt.toNat)]

theorem mem_dialledSharers {users : UserRegistry} {results : List FileResult} :
    sharer ∈ dialledSharers users results ↔
      (∃ result ∈ results, result.sessionId = sharer.1) ∧
        dialled users sharer.1 = some sharer.2 := by
  obtain ⟨sessionId, user⟩ := sharer
  simp only [dialledSharers, List.mem_filterMap, List.mem_eraseDups, List.mem_map,
    Option.map_eq_some_iff, Prod.mk.injEq]
  constructor
  · rintro ⟨s, hs, u, hu, rfl, rfl⟩
    exact ⟨hs, hu⟩
  · rintro ⟨hs, hu⟩
    exact ⟨sessionId, hs, user, hu, rfl, rfl⟩

theorem dialled_isSome_iff {users : UserRegistry} : (dialled users sessionId).isSome ↔
    ∃ sharer ∈ users.findUser sessionId, sharer.isFirewalled = false ∧ 0 < sharer.port := by
  simp only [dialled, Option.isSome_iff_exists, Option.filter_eq_some_iff, Bool.and_eq_true,
    Bool.not_eq_true', decide_eq_true_eq, Option.mem_def]

namespace ManagerWorld

/-- The starts that a step has recorded. -/
def newStarts (m m' : ManagerWorld) : List QueuedStart := m'.recorded.drop m.recorded.length

/-- Nobody is dialled who is asked for a file that was published as one of a firewalled peer. -/
def DialsNoFirewalled (m m' : ManagerWorld) (results : List FileResult) : Prop :=
  ∀ queued ∈ m.newStarts m', ∀ result ∈ results, result.sessionId = queued.remoteSessionId →
    result.isFirewalled = false

/-- The sharer of a result is dialled exactly if the console client would do it. -/
def AgreesWithGet (m m' : ManagerWorld) (users : UserRegistry) (results : List FileResult) :
    Prop :=
  ∀ result ∈ results, (∃ queued ∈ m.newStarts m', queued.remoteSessionId = result.sessionId) ↔
    commandGetConnects users result = true

theorem Partitions.newStarts (h : Partitions m m' sharers asks localSessionId localUserName
    addresses) : m.newStarts m' =
      List.zipWith (startFor localSessionId localUserName) addresses sharers := by
  rw [ManagerWorld.newStarts, h.recorded, List.drop_left]

theorem Partitions.mem_newStarts (h : Partitions m m' sharers asks localSessionId localUserName
    addresses) (hm : queued ∈ m.newStarts m') : ∃ address, ∃ sharer ∈ sharers,
      queued = startFor localSessionId localUserName address sharer := by
  rw [h.newStarts, ← List.map_uncurry_zip_eq_zipWith] at hm
  obtain ⟨⟨address, sharer⟩, hzip, rfl⟩ := List.mem_map.mp hm
  exact ⟨address, sharer, (List.of_mem_zip hzip).2, rfl⟩

theorem Partitions.exists_newStart (h : Partitions m m' sharers asks localSessionId localUserName
    addresses) (hm : sharer ∈ sharers) : ∃ address,
      startFor localSessionId localUserName address sharer ∈ m.newStarts m' := by
  rw [← List.map_snd_zip h.length.ge] at hm
  obtain ⟨⟨address, sharer⟩, hzip, rfl⟩ := List.mem_map.mp hm
  refine ⟨address, ?_⟩
  rw [h.newStarts, ← List.map_uncurry_zip_eq_zipWith]
  exact List.mem_map_of_mem (f := Function.uncurry _) hzip

/-- Somebody of the selection is dialled exactly if it is possible at all. -/
theorem Partitions.dials_iff {users : UserRegistry} {results : List FileResult}
    (h : Partitions m m' (dialledSharers users results) asks localSessionId localUserName
      addresses) (hm : result ∈ results) :
    (∃ queued ∈ m.newStarts m', queued.remoteSessionId = result.sessionId) ↔
      (dialled users result.sessionId).isSome := by
  constructor
  · rintro ⟨queued, hq, hs⟩
    obtain ⟨address, sharer, hsharer, rfl⟩ := h.mem_newStarts hq
    have hdialled := (mem_dialledSharers.mp hsharer).2
    rw [← hs]
    exact Option.isSome_iff_exists.mpr ⟨sharer.2, hdialled⟩
  · intro hdialled
    obtain ⟨user, huser⟩ := Option.isSome_iff_exists.mp hdialled
    have hsharer : (result.sessionId, user) ∈ dialledSharers users results :=
      mem_dialledSharers.mpr ⟨⟨result, hm, rfl⟩, huser⟩
    obtain ⟨address, hstart⟩ := h.exists_newStart hsharer
    exact ⟨_, hstart, rfl⟩

theorem Partitions.dialsNoFirewalled_iff {users : UserRegistry} {results : List FileResult}
    (h : Partitions m m' (dialledSharers users results) asks localSessionId localUserName
      addresses) : DialsNoFirewalled m m' results ↔
        ∀ result ∈ results, result.isFirewalled = true →
          ∀ sharer ∈ users.findUser result.sessionId, 0 < sharer.port →
            sharer.isFirewalled = true := by
  constructor
  · intro hsafe result hm hfires sharer hsharer hport
    by_contra hopen
    have hdialled : (dialled users result.sessionId).isSome :=
      dialled_isSome_iff.mpr ⟨sharer, hsharer, Bool.eq_false_iff.mpr hopen, hport⟩
    obtain ⟨queued, hq, hs⟩ := (h.dials_iff hm).mpr hdialled
    exact absurd ((hsafe queued hq result hm hs.symm).symm.trans hfires) (by decide)
  · intro hflagged queued hq result hm hs
    by_contra hfires
    obtain ⟨sharer, hsharer, hopen, hport⟩ :=
      dialled_isSome_iff.mp ((h.dials_iff hm).mp ⟨queued, hq, hs.symm⟩)
    have hclosed := hflagged result hm (Bool.eq_true_of_not_eq_false hfires) sharer hsharer hport
    exact absurd (hopen.symm.trans hclosed) (by decide)

theorem Partitions.agreesWithGet_iff {users : UserRegistry} {results : List FileResult}
    (h : Partitions m m' (dialledSharers users results) asks localSessionId localUserName
      addresses) : AgreesWithGet m m' users results ↔
        ∀ result ∈ results, ∀ sharer ∈ users.findUser result.sessionId, 0 < sharer.port →
          sharer.isFirewalled = result.isFirewalled := by
  apply forall₂_congr
  intro result hm
  rw [h.dials_iff hm, dialled_isSome_iff, commandGetConnects]
  cases hf : users.findUser result.sessionId with
  | none => simp
  | some sharer =>
    simp only [Option.mem_def, Option.some.injEq, exists_eq_left', forall_eq']
    by_cases hport : 0 < sharer.port
    · have hopen : ¬sharer.port ≤ 0 := Int32.not_le.mpr hport
      simp only [hport, hopen, decide_false, Bool.or_false, forall_const, and_true]
      cases sharer.isFirewalled <;> cases result.isFirewalled <;> decide
    · have hclosed : sharer.port ≤ 0 := Int32.not_lt.mp hport
      simp only [hport, hclosed, decide_true, Bool.or_true, Bool.not_true, Bool.false_eq_true,
        and_false, iff_self, false_imp_iff]

section
variable [MuscleText]

/-- In a manager that has been through anything: no file of a firewalled peer is asked for exactly
if the record of each peer of whom one is selected says so too, and the console client would dial
the same ones exactly if the records and the results all agree. -/
theorem run_dialsNoFirewalled_iff (es : List ManagerEvent) (startOs : Nat → OperatingSystem)
    (results : List FileResult) (users : UserRegistry) (localSessionId localUserName : String)
    (allocator : Allocator) :
    let m := machine.run new es
    let m' := m.startDownloads startOs results users localSessionId localUserName allocator
    (DialsNoFirewalled m m' results ↔ ∀ result ∈ results, result.isFirewalled = true →
      ∀ sharer ∈ users.findUser result.sessionId, 0 < sharer.port →
        sharer.isFirewalled = true) ∧
    (AgreesWithGet m m' users results ↔ ∀ result ∈ results,
      ∀ sharer ∈ users.findUser result.sessionId, 0 < sharer.port →
        sharer.isFirewalled = result.isFirewalled) := by
  obtain ⟨addresses, hp⟩ := run_startDownloads_partitions es startOs results users localSessionId
    localUserName allocator
  exact ⟨hp.dialsNoFirewalled_iff, hp.agreesWithGet_iff⟩

end

end ManagerWorld

/-- A port fits into sixteen bits or is reduced. -/
theorem truncated_port_iff {port : Int32} (h : 0 < port) :
    port.toUInt32.toUInt16.toNat = port.toInt.toNat ↔ port ≤ 65535 := by
  have hpositive : 0 < port.toInt := Int32.lt_iff_toInt_lt.mp h
  have hword : port.toInt = port.toUInt32.toNat := by
    change port.toBitVec.toInt = (port.toBitVec.toNat : Int)
    have hcond := BitVec.toInt_eq_toNat_cond port.toBitVec
    have hp : 0 < port.toBitVec.toInt := hpositive
    split at hcond
    · exact hcond
    · omega
  rw [UInt32.toNat_toUInt16, Int32.le_iff_toInt_le, hword, Int.toNat_natCast]
  have hmax : (65535 : Int32).toInt = 65535 := by decide
  rw [hmax]
  omega

namespace DownloadWorld

theorem note_connectSessions (w : DownloadWorld) (hostName : String) (port : Nat) :
    (w.note (.connectSessionAdded hostName port)).connectSessions =
      w.connectSessions ++ [(hostName, port)] := List.filterMap_append

theorem setState_connectSessions (w : DownloadWorld) (state : DownloadState) :
    (w.setState state).connectSessions = w.connectSessions := by
  rw [setState]
  split
  · rfl
  · exact List.filterMap_append.trans (List.append_nil _)

theorem fail_connectSessions (w : DownloadWorld) (reason : String) :
    (w.fail reason).connectSessions = w.connectSessions := setState_connectSessions ..

theorem setRatePolicy_connectSessions (w : DownloadWorld) :
    (w.note .threadStarted).setRatePolicy.connectSessions = w.connectSessions := by
  have hstarted : (w.note .threadStarted).connectSessions = w.connectSessions :=
    List.filterMap_append.trans (List.append_nil _)
  rw [setRatePolicy]
  split
  · exact (List.filterMap_append.trans (List.append_nil _)).trans hstarted
  · exact hstarted

theorem start_connectSessions {os : OperatingSystem} {w : DownloadWorld}
    (hasks : w.requestedFiles ≠ []) (hthread : os.startInternalThread = none)
    (hsession : os.addNewConnectSession = none) (hostName : String) (port : Nat)
    (remoteSessionId localSessionId localUserName : String) :
    (w.start os hostName port remoteSessionId localSessionId localUserName).1.connectSessions =
      w.connectSessions ++ if hostName = "" ∨ port = 0 then [] else [(hostName, port)] := by
  rw [start, if_neg hasks]
  split
  · next hrefused =>
    rw [fail_connectSessions]
    exact (List.append_nil _).symm
  · simp only [connect, hthread, hsession]
    rw [setState_connectSessions, note_connectSessions, setRatePolicy_connectSessions]
    rfl

end DownloadWorld

theorem connectsTo_startFor_iff {sharer : String × UserRecord} (hport : 0 < sharer.2.port) :
    (startFor localSessionId localUserName address sharer).ConnectsTo sharer.2.port ↔
      sharer.2.hostName ≠ "" ∧ sharer.2.port ≤ 65535 := by
  have hpositive : 0 < sharer.2.port.toInt := Int32.lt_iff_toInt_lt.mp hport
  rw [← truncated_port_iff hport]
  constructor
  · intro h
    have hone := h {} { downloadDirectory := "", requestedFiles := [⟨"", "", 0⟩], history := [] }
      (List.cons_ne_nil _ _) rfl rfl
    rw [DownloadWorld.start_connectSessions (List.cons_ne_nil _ _) rfl rfl] at hone
    have hsame := List.append_cancel_left hone
    split at hsame
    · cases hsame
    · next hgiven =>
      obtain ⟨-, hp⟩ := Prod.mk.inj (List.singleton_inj.mp hsame)
      exact ⟨(not_or.mp hgiven).1, hp⟩
  · rintro ⟨hhost, hp⟩ os w hasks hthread hsession
    rw [DownloadWorld.start_connectSessions hasks hthread hsession]
    have hgiven : ¬((startFor localSessionId localUserName address sharer).hostName = "" ∨
        (startFor localSessionId localUserName address sharer).port.toNat = 0) := by
      rintro (he | hz)
      · exact hhost he
      · have hzero : sharer.2.port.toInt.toNat = 0 := hp.symm.trans hz
        omega
    rw [if_neg hgiven, ← hp]
    rfl

namespace ConnectionWorld
variable [MuscleLibrary]

omit [MuscleLibrary] in
theorem notifyUserUpdated_users (w : ConnectionWorld) (sessionId : String) (isNewUser : Bool) :
    (w.notifyUserUpdated sessionId isNewUser).users = w.users := by
  rw [notifyUserUpdated]
  split <;> rfl

theorem handleUserNode_port {w : ConnectionWorld} {nodePath nodeName : String}
    (hclause : MuscleLibrary.getPathClause userNameDepth nodePath = some nodeName)
    (hname : userNode nodeName = some .name) (hport : data.findInt32 fieldPort = some port)
    (hsharer : (w.handleUserNode sessionId nodePath data).users.findUser sessionId =
      some sharer) : sharer.port = port := by
  simp only [handleUserNode, hclause, hname, Option.bind_some, UserRecord.readNode,
    notifyUserUpdated_users, UserRegistry.findUser, Hashtable.get?_put_self] at hsharer
  cases hsharer
  simp only [UserRecord.readName, hport, Option.getD_some]

end ConnectionWorld

namespace ManagerWorld

section
variable [MuscleText] [MuscleLibrary]

/-- A peer has published a port and is accepted: it is connected to at that port exactly if the
port is one that a peer can have, and the path of its nodes says where it is. -/
theorem run_connects_to_published_port_iff (es : List ManagerEvent)
    (startOs : Nat → OperatingSystem) {results : List FileResult}
    (localSessionId localUserName : String) (allocator : Allocator) {w : ConnectionWorld}
    {nodePath nodeName sessionId : String}
    (hclause : MuscleLibrary.getPathClause userNameDepth nodePath = some nodeName)
    (hname : userNode nodeName = some .name) (hport : data.findInt32 fieldPort = some port)
    (haccepted : (sessionId, sharer) ∈
      dialledSharers (w.handleUserNode sessionId nodePath data).users results) :
    let m := machine.run new es
    let m' := m.startDownloads startOs results (w.handleUserNode sessionId nodePath data).users
      localSessionId localUserName allocator
    (∀ queued ∈ m.newStarts m', queued.remoteSessionId = sessionId → queued.ConnectsTo port) ↔
      sharer.hostName ≠ "" ∧ port ≤ 65535 := by
  obtain ⟨addresses, hp⟩ := run_startDownloads_partitions es startOs results
    (w.handleUserNode sessionId nodePath data).users localSessionId localUserName allocator
  have hdialled := (mem_dialledSharers.mp haccepted).2
  obtain ⟨hfound, htest⟩ := Option.filter_eq_some_iff.mp hdialled
  have hpositive : 0 < sharer.port := of_decide_eq_true (Bool.and_eq_true_iff.mp htest).2
  have hrecord : sharer.port = port :=
    ConnectionWorld.handleUserNode_port hclause hname hport hfound
  rw [← hrecord]
  have hconnects : ∀ address, (startFor localSessionId localUserName address
      (sessionId, sharer)).ConnectsTo sharer.port ↔
        sharer.hostName ≠ "" ∧ sharer.port ≤ 65535 := by
    intro address
    exact connectsTo_startFor_iff hpositive
  constructor
  · intro h
    obtain ⟨address, hstart⟩ := hp.exists_newStart haccepted
    exact (hconnects address).mp (h _ hstart rfl)
  · intro hexact queued hq hs
    obtain ⟨address, sharer', hsharer', rfl⟩ := hp.mem_newStarts hq
    obtain rfl : sharer' = (sessionId, sharer) := by
      have hdialled' := (mem_dialledSharers.mp hsharer').2
      rw [show sharer'.1 = sessionId from hs, hdialled] at hdialled'
      exact Prod.ext hs (Option.some.inj hdialled').symm
    exact (hconnects address).mpr hexact

end

section
attribute [local instance] asciiText plainLibrary

/-- The name node of a peer that can be reached at that port. -/
def nameNodeAt (port : Int32) : NodeMessage :=
  ((Message.ofWhat ()).addString fieldName "ann").addInt32 fieldPort port

def annAt (port : Int32) : UserRecord where
  sessionId := "2"
  userName := "ann"
  hostName := "peer"
  port

/-- What the server says about "2" while a search is on: the name, and a file under "fires". -/
def firesFileSeen : List ServerConnectionEvent := [
  { call := .connectToServer "server" 2960 },
  { call := .sessionConnected "server" },
  { call := .startQuery "*" "*" },
  { call := .messageReceived {
      what := .resultDataItems
      fields := []
      nodes := [("/peer/2/beshare/name", nameNodeAt 7000),
        ("/peer/2/beshare/fires/notes.txt", .ofWhat ())] } }]

def firesResult : FileResult where
  sessionId := "2"
  fileName := "notes.txt"
  isFirewalled := true

/-- The node "fires" itself is what sets the record, and it has not come: the peer is connected
to. -/
theorem fires_result_is_dialled :
    let w := firesFileSeen.foldl ConnectionWorld.handle {}
    let m := new.startDownloads (fun _ => {}) [firesResult] w.users "1" "me" pastAllLive
    .queryResultAdded firesResult "ann" ∈ w.history ∧
      m.startsMade = [(0, startFor "1" "me" 1 ("2", annAt 7000))] ∧
      m.downloads.map (fun download => download.world.connectSessions) = [[("peer", 7000)]] ∧
      ¬DialsNoFirewalled new m [firesResult] := by
  refine ⟨by decide, by decide, by decide, fun h => ?_⟩
  have hstart : startFor "1" "me" 1 ("2", annAt 7000) ∈ new.newStarts (new.startDownloads
      (fun _ => {}) [firesResult] (firesFileSeen.foldl ConnectionWorld.handle {}).users "1" "me"
      pastAllLive) := by decide
  have hflag : firesResult.isFirewalled = false :=
    h _ hstart firesResult (List.mem_singleton_self _) rfl
  cases hflag

def askedOf (sessionId : String) : List FileResult := [{ sessionId, fileName := "notes.txt" }]

/-- The users after a name node of "2". -/
def usersWith (port : Int32) : UserRegistry :=
  (ConnectionWorld.handleUserNode {} "2" "/peer/2/beshare/name" (nameNodeAt port)).users

theorem connects_to_published_port_7000 :
    ("2", annAt 7000) ∈ dialledSharers (usersWith 7000) (askedOf "2") ∧
      ((∀ queued ∈ new.newStarts (new.startDownloads (fun _ => {}) (askedOf "2") (usersWith 7000)
        "1" "me" pastAllLive), queued.remoteSessionId = "2" → queued.ConnectsTo 7000) ↔
          (annAt 7000).hostName ≠ "" ∧ (7000 : Int32) ≤ 65535) := by
  have haccepted : ("2", annAt 7000) ∈ dialledSharers (usersWith 7000) (askedOf "2") := by decide
  have hclause : MuscleLibrary.getPathClause userNameDepth "/peer/2/beshare/name" =
      some "name" := by decide
  have hname : userNode "name" = some .name := by decide
  have hport : (nameNodeAt 7000).findInt32 fieldPort = some 7000 := by decide
  have hexact := run_connects_to_published_port_iff [] (fun _ => {}) "1" "me" pastAllLive
    hclause hname hport haccepted
  exact ⟨haccepted, hexact⟩

/-- What is left of 70000 in sixteen bits is 4464. -/
theorem published_port_70000_is_reduced :
    ("2", annAt 70000) ∈ dialledSharers (usersWith 70000) (askedOf "2") ∧
      ¬∀ queued ∈ new.newStarts (new.startDownloads (fun _ => {}) (askedOf "2") (usersWith 70000)
        "1" "me" pastAllLive), queued.remoteSessionId = "2" → queued.ConnectsTo 70000 := by
  refine ⟨by decide, fun h => ?_⟩
  have hstart : startFor "1" "me" 1 ("2", annAt 70000) ∈ new.newStarts (new.startDownloads
      (fun _ => {}) (askedOf "2") (usersWith 70000) "1" "me" pastAllLive) := by decide
  have hsmall := (connectsTo_startFor_iff (by decide)).mp (h _ hstart rfl)
  exact absurd hsmall.2 (by decide)

end

end ManagerWorld

end HiTuxShare
