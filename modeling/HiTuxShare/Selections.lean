import HiTuxShare.DownloadIdentity

namespace HiTuxShare
set_option autoImplicit true

/-- What a download is told about one of the files. -/
def FileResult.requested (result : FileResult) : RequestedFile :=
  ⟨result.fileName, result.path, result.fileSize⟩

/-- The sharers of a selection that can be dialled, in the order in which they appear in it. -/
def dialledSharers (users : UserRegistry) (results : List FileResult) :
    List (String × UserRecord) :=
  (results.map (·.sessionId)).eraseDups.filterMap fun sessionId =>
    (dialled users sessionId).map (sessionId, ·)

/-- What one of them is asked for. -/
def requestTo (results : List FileResult) (sessionId : String) : List RequestedFile :=
  (results.filter fun result => result.sessionId = sessionId).map FileResult.requested

/-- How the download at that address is to be started. -/
def startFor (localSessionId localUserName : String) (address : Nat)
    (sharer : String × UserRecord) : QueuedStart where
  download := address
  hostName := sharer.2.hostName
  port := sharer.2.port.toUInt32.toUInt16
  remoteSessionId := sharer.1
  localSessionId
  localUserName

/-- Where a download lives, and what it asks for. -/
def DownloadObject.asked (download : DownloadObject) : Nat × List RequestedFile :=
  (download.address, download.world.requestedFiles)

namespace ManagerWorld

/-- Of the starts that were waiting some have been taken off the queue, the first ones first, and
those of downloads that are still listed have been made, each once. -/
def UsesUp (waiting : List QueuedStart) (m m' : ManagerWorld) : Prop :=
  ∃ taken, waiting = taken ++ m'.queuedStarts ∧
    m'.startsMade.map Prod.snd = m.startsMade.map Prod.snd ++ taken.filter fun queued =>
      queued.download ∈ m'.downloads.map (·.address)

theorem startsMade_report (m : ManagerWorld) (h : action.isReport = true) :
    (m.act action).startsMade = m.startsMade := by
  apply startsMade_act
  rintro _ _ _ _ rfl
  cases h

theorem drainStep_usesUp (h : DrainStep m m') : UsesUp m.queuedStarts m m' := by
  cases h with
  | report _ hr =>
    refine ⟨[], rfl, ?_⟩
    rw [startsMade_report m hr]
    exact (List.append_nil _).symm
  | @skip queued waiting _ hq hd =>
    refine ⟨[queued], hq, ?_⟩
    rw [List.filter_cons_of_neg]
    · exact (List.append_nil _).symm
    · rw [decide_eq_true_eq]
      intro hm
      obtain ⟨d, hmem, ha⟩ := List.mem_map.mp hm
      exact findDownload_eq_none hd d hmem ha
  | @launch queued waiting download _ os hq _ hd =>
    have hlisted : queued.download ∈ (m.launch os queued waiting download).downloads.map
        (·.address) := by
      obtain ⟨hm, ha⟩ := findDownload_eq_some hd
      rw [ManagerWorld.launch, setDownload_addresses]
      exact ha ▸ List.mem_map_of_mem hm
    have hmade : (m.launch os queued waiting download).startsMade =
        m.startsMade ++ [(download.serial, queued)] := startsMade_act_started ..
    refine ⟨[queued], hq, ?_⟩
    rw [List.filter_cons_of_pos (by exact decide_eq_true hlisted), hmade, List.map_append]
    rfl

theorem Drains.usesUp (h : Drains m m') : UsesUp m.queuedStarts m m' := by
  induction h with
  | refl => exact ⟨[], rfl, (List.append_nil _).symm⟩
  | tail _ hlast ih =>
    obtain ⟨taken, hqueue, hmade⟩ := ih
    obtain ⟨later, hqueue', hmade'⟩ := drainStep_usesUp hlast
    refine ⟨taken ++ later, ?_, ?_⟩
    · rw [hqueue, hqueue', List.append_assoc]
    · rw [hmade', hmade, List.filter_append, List.append_assoc, (drainStep_frame hlast).addresses]

/-- No two downloads share a place. -/
abbrev OwnPlaces (m : ManagerWorld) : Prop := (m.downloads.map (·.address)).Nodup

/-- One download for each of the sharers, in this order, at a place of its own and with the request
that goes to this sharer; and one start for each of these downloads, which has joined the queue
behind those that were waiting and is made in its turn. -/
structure Partitions (m m' : ManagerWorld) (sharers : List (String × UserRecord))
    (asks : String → List RequestedFile) (localSessionId localUserName : String)
    (addresses : List Nat) : Prop where
  length : addresses.length = sharers.length
  nodup : (m.downloads.map (·.address) ++ addresses).Nodup
  downloads : m'.downloads.map DownloadObject.asked = m.downloads.map DownloadObject.asked ++
    List.zipWith (fun address sharer => (address, asks sharer.1)) addresses sharers
  recorded : m'.recorded = m.recorded ++
    List.zipWith (startFor localSessionId localUserName) addresses sharers
  usedUp : UsesUp (m.queuedStarts ++
    List.zipWith (startFor localSessionId localUserName) addresses sharers) m m'

theorem addGroup_dialled (m : ManagerWorld) (allocator : Allocator)
    (localSessionId localUserName : String) {entry : String × List FileResult}
    (h : dialled users entry.1 = some sharer) :
    let m' := m.addGroup allocator users localSessionId localUserName entry
    let address := allocator.place (m.downloads.map DownloadObject.address) m.recorded.length
    m'.downloads.map DownloadObject.address = m.downloads.map DownloadObject.address ++ [address] ∧
      m'.downloads.map DownloadObject.asked = m.downloads.map DownloadObject.asked ++
        [(address, entry.2.map FileResult.requested)] ∧
      m'.recorded = m.recorded ++
        [startFor localSessionId localUserName address (entry.1, sharer)] ∧
      m'.queuedStarts = m.queuedStarts ++
        [startFor localSessionId localUserName address (entry.1, sharer)] ∧
      m'.startsMade = m.startsMade := by
  have hfound : users.findUser entry.1 = some sharer := (Option.filter_eq_some_iff.mp h).1
  simp only [addGroup, hfound, h, addDownload, act_downloads, List.map_append, List.map_singleton]
  refine ⟨trivial, ?_, rfl, rfl, ?_⟩
  · rw [DownloadObject.asked, newDownload_requestedFiles]
    rfl
  · apply startsMade_act
    intro serial queued running cap h
    cases h

/-- What the loop over the sharers leaves behind it, with nothing started yet. -/
structure Enqueues (m m' : ManagerWorld) (sharers : List (String × UserRecord))
    (asks : String → List RequestedFile) (localSessionId localUserName : String)
    (addresses : List Nat) : Prop where
  length : addresses.length = sharers.length
  places : m'.downloads.map (·.address) = m.downloads.map (·.address) ++ addresses
  ownPlaces : m'.OwnPlaces
  downloads : m'.downloads.map DownloadObject.asked = m.downloads.map DownloadObject.asked ++
    List.zipWith (fun address sharer => (address, asks sharer.1)) addresses sharers
  recorded : m'.recorded = m.recorded ++
    List.zipWith (startFor localSessionId localUserName) addresses sharers
  queued : m'.queuedStarts = m.queuedStarts ++
    List.zipWith (startFor localSessionId localUserName) addresses sharers
  started : m'.startsMade = m.startsMade

theorem addGroups_enqueues (m : ManagerWorld) (allocator : Allocator) (users : UserRegistry)
    (localSessionId localUserName : String) {groups : List (String × List FileResult)}
    {asks : String → List RequestedFile}
    (hasks : ∀ entry ∈ groups, entry.2.map FileResult.requested = asks entry.1)
    (hnodup : m.OwnPlaces) :
    let m' := groups.foldl (addGroup allocator users localSessionId localUserName) m
    let sharers := groups.filterMap fun entry => (dialled users entry.1).map (entry.1, ·)
    ∃ addresses, Enqueues m m' sharers asks localSessionId localUserName addresses := by
  induction groups generalizing m with
  | nil =>
    refine ⟨[], rfl, ?_, hnodup, ?_, ?_, ?_, rfl⟩
    · exact (List.append_nil _).symm
    · exact (List.append_nil _).symm
    · exact (List.append_nil _).symm
    · exact (List.append_nil _).symm
  | cons entry groups ih =>
    have hrest := fun other hm => hasks other (List.mem_cons_of_mem entry hm)
    cases hdial : dialled users entry.1 with
    | none =>
      obtain ⟨action, hr, hact⟩ :=
        m.addGroup_of_none allocator users localSessionId localUserName hdial
      have hsame := m.startsMade_report hr
      rw [List.foldl_cons, hact, List.filterMap_cons, hdial]
      obtain ⟨addresses, he⟩ := ih (m.act action) hrest hnodup
      exact ⟨addresses, he.length, he.places, he.ownPlaces, he.downloads, he.recorded, he.queued,
        he.started.trans hsame⟩
    | some sharer =>
      obtain ⟨hplaces, hasked, hstarts, hqueued, hmade⟩ :=
        m.addGroup_dialled allocator localSessionId localUserName hdial
      let place := allocator.place (m.downloads.map DownloadObject.address) m.recorded.length
      have hfresh : place ∉ m.downloads.map DownloadObject.address := by
        apply allocator.place_fresh
      have hnodup' : ((m.addGroup allocator users localSessionId localUserName
          entry).downloads.map (·.address)).Nodup := by
        rw [hplaces]
        apply List.Nodup.append hnodup (List.nodup_singleton place)
        exact List.disjoint_singleton.mpr hfresh
      obtain ⟨addresses, he⟩ := ih _ hrest hnodup'
      rw [List.foldl_cons, List.filterMap_cons, hdial]
      refine ⟨place :: addresses, congrArg Nat.succ he.length, ?_, he.ownPlaces, ?_, ?_, ?_, ?_⟩
      · rw [he.places, hplaces, List.append_assoc]
        rfl
      · rw [he.downloads, hasked, hasks entry List.mem_cons_self, List.append_assoc]
        rfl
      · rw [he.recorded, hstarts, List.append_assoc]
        rfl
      · rw [he.queued, hqueued, List.append_assoc]
        rfl
      · exact he.started.trans hmade

theorem drainStep_asked (h : DrainStep m m') (hnodup : m.OwnPlaces) :
    m'.downloads.map DownloadObject.asked = m.downloads.map DownloadObject.asked := by
  cases h with
  | report => rfl
  | skip => rfl
  | @launch queued waiting download _ os _ _ hd =>
    rw [ManagerWorld.launch, setDownload, List.map_map]
    apply List.map_congr_left
    intro d hm
    rw [Function.comp_apply]
    split
    · next ha =>
      obtain rfl := eq_of_findDownload hnodup hd hm (ha.trans (findDownload_eq_some hd).2)
      exact congrArg (d.address, ·) (DownloadWorld.announced_start ..).requestedFiles
    · rfl

theorem Drains.asked (h : Drains m m') (hnodup : m.OwnPlaces) :
    m'.downloads.map DownloadObject.asked = m.downloads.map DownloadObject.asked := by
  induction h with
  | refl => rfl
  | tail hdrains hlast ih =>
    apply (drainStep_asked hlast _).trans ih
    rwa [OwnPlaces, (Drains.frame hdrains).addresses]

/-- A selection is split by sharer, whatever is started of it at once. -/
theorem startDownloads_partitions (startOs : Nat → OperatingSystem) (m : ManagerWorld)
    (results : List FileResult) (users : UserRegistry) (localSessionId localUserName : String)
    (allocator : Allocator) (hnodup : m.OwnPlaces) :
    let m' := m.startDownloads startOs results users localSessionId localUserName allocator
    ∃ addresses, Partitions m m' (dialledSharers users results) (requestTo results)
        localSessionId localUserName addresses ∧
      m'.downloads.map (·.address) = m.downloads.map (·.address) ++ addresses := by
  have hgroups : (groupBySharer results).entries =
      (results.map (·.sessionId)).eraseDups.map fun sessionId =>
        (sessionId, results.filter fun result => result.sessionId = sessionId) :=
    Hashtable.groups_entries ..
  have hsharers : (groupBySharer results).entries.filterMap (fun entry =>
      (dialled users entry.1).map (entry.1, ·)) = dialledSharers users results := by
    rw [hgroups, List.filterMap_map]
    rfl
  have hasks : ∀ entry ∈ (groupBySharer results).entries,
      entry.2.map FileResult.requested = requestTo results entry.1 := by
    rw [hgroups]
    intro entry hm
    obtain ⟨sessionId, -, rfl⟩ := List.mem_map.mp hm
    rfl
  obtain ⟨addresses, he⟩ :=
    m.addGroups_enqueues allocator users localSessionId localUserName hasks hnodup
  rw [hsharers] at he
  have hnew : (m.downloads.map (·.address) ++ addresses).Nodup := he.places ▸ he.ownPlaces
  rcases startDownloads_cases startOs m results users localSessionId localUserName allocator with
    ⟨rfl, hnothing⟩ | hdrains
  · rw [hnothing]
    refine ⟨addresses, ⟨he.length, hnew, he.downloads, he.recorded, [], ?_, ?_⟩, he.places⟩
    · exact he.queued.symm
    · exact (List.append_nil _).symm
  · have hframe := Drains.frame hdrains
    obtain ⟨taken, hqueue, hmade⟩ := Drains.usesUp hdrains
    refine ⟨addresses, ⟨he.length, hnew, ?_, ?_, taken, ?_, ?_⟩, ?_⟩
    · exact (Drains.asked hdrains he.ownPlaces).trans he.downloads
    · exact hframe.recorded.trans he.recorded
    · exact he.queued.symm.trans hqueue
    · rw [hmade, he.started]
    · exact hframe.addresses.trans he.places

section
variable [MuscleText]

theorem OwnPlaces.handle {m : ManagerWorld} (h : m.OwnPlaces) (e : ManagerEvent) :
    (m.handle e).OwnPlaces := by
  have habort (os : OperatingSystem) (startOs : Nat → OperatingSystem) (reason : String)
      (m : ManagerWorld) (index : Nat) (h : m.OwnPlaces) :
      (m.abortAt os startOs reason index).OwnPlaces := by
    rcases abortAt_cases os startOs reason m index with ⟨-, he⟩ | ⟨download, -, hdrains⟩
    · rwa [he]
    · rwa [OwnPlaces, (Drains.frame hdrains).addresses, cancelled, setDownload_addresses]
  have hclear : m.clearFinishedDownloads.OwnPlaces := by
    rw [clearFinishedDownloads]
    split
    · exact h
    · exact h.sublist (List.filter_sublist.map _)
  have hdeliver (os : OperatingSystem) (startOs : Nat → OperatingSystem) (address : Nat)
      (callback : DownloadCallback) : (m.deliver os startOs address callback).OwnPlaces := by
    rcases deliver_cases os startOs m address callback with
      he | ⟨d, -, -, ⟨-, hdrains⟩ | ⟨-, m', hdrains, he⟩⟩
    · rwa [he]
    · rwa [OwnPlaces, (Drains.frame hdrains).addresses, setDownload_addresses]
    · rwa [OwnPlaces, he, explainHangUp_addresses, (Drains.frame hdrains).addresses,
        setDownload_addresses]
  obtain ⟨call, os, startOs⟩ := e
  cases call with
  | startDownloads results users localSessionId localUserName allocator =>
    obtain ⟨addresses, hp, haddresses⟩ := m.startDownloads_partitions startOs results users
      localSessionId localUserName allocator h
    rw [OwnPlaces, ManagerWorld.handle, haddresses]
    exact hp.nodup
  | abortDownload index => exact habort os startOs _ m index h
  | abortAll => exact abortAll_preserves (fun m index hm => habort os startOs _ m index hm) h
  | clearFinishedDownloads => exact hclear
  | performIdleTasks => exact performIdleTasks_preserves (I := OwnPlaces) h hclear
  | sessionConnected => exact hdeliver ..
  | sessionDisconnected => exact hdeliver ..
  | messageReceived => exact hdeliver ..
  | _ => exact h

theorem run_ownPlaces (es : List ManagerEvent) : (machine.run new es).OwnPlaces :=
  EventMachine.run_of_invariant (fun _ e (h : OwnPlaces _) => h.handle e) List.nodup_nil

/-- Whatever has gone on before, a selection makes one download for each sharer that can be
dialled. -/
theorem run_startDownloads_partitions (es : List ManagerEvent) (startOs : Nat → OperatingSystem)
    (results : List FileResult) (users : UserRegistry) (localSessionId localUserName : String)
    (allocator : Allocator) :
    ∃ addresses, Partitions (machine.run new es)
      ((machine.run new es).startDownloads startOs results users localSessionId localUserName
        allocator)
      (dialledSharers users results) (requestTo results) localSessionId localUserName
      addresses := by
  obtain ⟨addresses, hp, -⟩ := (machine.run new es).startDownloads_partitions startOs results
    users localSessionId localUserName allocator (run_ownPlaces es)
  exact ⟨addresses, hp⟩

end

end ManagerWorld

end HiTuxShare
