import HiTuxShare.DownloadOrder

namespace HiTuxShare
set_option autoImplicit true

/-- The addresses that so many new objects get one after the other. -/
def Allocator.take (allocator : Allocator) (live : List Nat) (made : Nat) : Nat → List Nat
  | 0 => []
  | count + 1 =>
    allocator.place live made ::
      allocator.take (live ++ [allocator.place live made]) (made + 1) count

theorem Allocator.take_fresh {allocator : Allocator}
    (h : address ∈ allocator.take live made count) : address ∉ live := by
  induction count generalizing live made with
  | zero => cases h
  | succ count ih =>
    rcases List.mem_cons.mp h with rfl | h
    · apply allocator.place_fresh
    · exact fun hm => ih h (List.mem_append_left _ hm)

theorem groupBySharer_ne_nil {results : List FileResult}
    (h : entry ∈ (groupBySharer results).entries) : entry.2 ≠ [] := by
  let NonEmpty (t : Hashtable String (List FileResult)) : Prop := ∀ entry ∈ t.entries, entry.2 ≠ []
  have hall : NonEmpty (groupBySharer results) := by
    rw [groupBySharer]
    refine List.foldlRecOn _ _ ?_ ?_
    · intro entry hm
      cases hm
    · intro t ht result _ entry hm
      rcases Hashtable.mem_entries_put hm with rfl | hm
      · exact List.append_ne_nil_of_right_ne_nil _ (List.cons_ne_nil _ _)
      · exact ht entry hm
  exact hall entry h

theorem newDownload_requestedFiles (request : DownloadRequest) :
    request.newDownload.requestedFiles = request.requestedFiles := by
  have hfold (requested : List RequestedFile) (download : FileDownload) :
      (requested.foldl FileDownload.addRequestedFile download).requestedFiles =
        download.requestedFiles ++ requested := by
    induction requested generalizing download with
    | nil => simp
    | cons file requested ih =>
      rw [List.foldl_cons, ih, FileDownload.addRequestedFile, List.append_assoc]
      rfl
  rw [DownloadRequest.newDownload, hfold]
  rfl

namespace ManagerWorld

/-- How many downloads a selection leads to. -/
def dialledGroups (users : UserRegistry) (groups : List (String × List FileResult)) : Nat :=
  groups.countP fun entry => (dialled users entry.1).isSome

/-- Where the new downloads of an event are put. -/
def handedOut (m : ManagerWorld) (e : ManagerEvent) : List Nat :=
  match e.call with
  | .startDownloads results users _ _ allocator =>
    allocator.take (m.downloads.map DownloadObject.address) m.recorded.length
      (dialledGroups users (groupBySharer results).entries)
  | _ => []

/-- No new download is put where a download was whose start is still waiting. -/
def NoAlias (m : ManagerWorld) (e : ManagerEvent) : Prop :=
  ∀ address ∈ m.handedOut e, ∀ queued ∈ m.queuedStarts, queued.download ≠ address

instance (m : ManagerWorld) (e : ManagerEvent) : Decidable (NoAlias m e) :=
  inferInstanceAs (Decidable (∀ address ∈ m.handedOut e, ∀ queued ∈ m.queuedStarts,
    queued.download ≠ address))

/-- Every download was started at most once, with what was recorded for it when it was made. -/
structure RightStarts (m : ManagerWorld) : Prop where
  once : (m.startsMade.map Prod.fst).Nodup
  recorded : ∀ start ∈ m.startsMade, m.recorded[start.1]? = some start.2

instance : DecidablePred RightStarts := fun m =>
  decidable_of_iff ((m.startsMade.map Prod.fst).Nodup ∧
    ∀ start ∈ m.startsMade, m.recorded[start.1]? = some start.2)
    ⟨fun h => ⟨h.1, h.2⟩, fun h => ⟨h.once, h.recorded⟩⟩

/-- One more download behind the others, and its start at the end of the queue. -/
structure Added (m m' : ManagerWorld) (download : DownloadObject) (queued : QueuedStart) :
    Prop where
  address : download.address = queued.download
  serial : download.serial = m.recorded.length
  unused : ∃ request : DownloadRequest, request.requestedFiles ≠ [] ∧
    download.world = { request.newDownload with history := [] }
  downloads : m'.downloads = m.downloads ++ [download]
  queuedStarts : m'.queuedStarts = m.queuedStarts ++ [queued]
  recorded : m'.recorded = m.recorded ++ [queued]
  actions : ∃ action, action.isReport = true ∧ m'.actions = m.actions ++ [action]

theorem addGroup_of_none (m : ManagerWorld) (allocator : Allocator) (users : UserRegistry)
    (localSessionId localUserName : String) {entry : String × List FileResult}
    (h : dialled users entry.1 = none) :
    ∃ action, action.isReport = true ∧
      m.addGroup allocator users localSessionId localUserName entry = m.act action := by
  rw [addGroup]
  split
  · exact ⟨_, rfl, rfl⟩
  · simp only [h]
    exact ⟨_, rfl, rfl⟩

theorem addGroup_of_some (m : ManagerWorld) (allocator : Allocator) (users : UserRegistry)
    (localSessionId localUserName : String) {entry : String × List FileResult}
    (hgroup : entry.2 ≠ []) (h : dialled users entry.1 = some sharer) :
    ∃ download queued, queued.download =
        allocator.place (m.downloads.map DownloadObject.address) m.recorded.length ∧
      Added m (m.addGroup allocator users localSessionId localUserName entry) download queued := by
  have hfound : users.findUser entry.1 = some sharer := (Option.filter_eq_some_iff.mp h).1
  simp only [addGroup, hfound, h]
  refine ⟨_, _, rfl, rfl, rfl, ⟨_, ?_, rfl⟩, rfl, rfl, rfl, _, rfl, rfl⟩
  simpa using hgroup

namespace Added

theorem popped (ha : Added m m' download queued) : m'.popped = m.popped := by
  simp only [ManagerWorld.popped, ha.recorded, ha.queuedStarts, List.length_append,
    List.length_singleton, Nat.add_sub_add_right]

theorem recorded_of_lt (ha : Added m m' download queued) (hi : i < m.recorded.length) :
    m'.recorded[i]? = m.recorded[i]? := by
  rw [ha.recorded, List.getElem?_append_left hi]

theorem recorded_cases (ha : Added m m' download queued) {i : Nat}
    (hr : m'.recorded[i]? = some queued') :
    m.recorded[i]? = some queued' ∨ i = download.serial ∧ queued' = queued := by
  by_cases hi : i < m.recorded.length
  · exact .inl (ha.recorded_of_lt hi ▸ hr)
  · have hend := (List.getElem?_eq_some_iff.mp hr).1
    rw [ha.recorded, List.length_append, List.length_singleton] at hend
    obtain rfl : i = m.recorded.length := by omega
    rw [ha.recorded, List.getElem?_concat_length] at hr
    exact .inr ⟨ha.serial.symm, (Option.some.inj hr).symm⟩

theorem isRunning (ha : Added m m' download queued) : download.isRunning = false := by
  obtain ⟨request, -, hworld⟩ := ha.unused
  rw [DownloadObject.isRunning, hworld, (newDownload_isFresh request).state]
  rfl

/-- The downloads from before keep their place, as the new address is not theirs. -/
theorem inPlace_old (ha : Added m m' download queued) (h : InPlace m d)
    (hne : d.address ≠ download.address) : InPlace m' d := by
  obtain ⟨queued', hr, haddress⟩ := h.recorded
  have hlt := (List.getElem?_eq_some_iff.mp hr).1
  refine ⟨⟨queued', (ha.recorded_of_lt hlt).trans hr, haddress⟩, ?_, ?_, ?_, h.asks⟩
  · intro i queued'' hi hr' ha'
    rcases ha.recorded_cases hr' with hr' | ⟨-, rfl⟩
    · exact h.own i queued'' (ha.popped ▸ hi) hr' ha'
    · exact (hne (ha'.symm.trans ha.address.symm)).elim
  · rw [ha.popped]
    exact h.waiting
  · rw [ha.popped]
    exact h.begun

theorem inPlace_new (ha : Added m m' download queued) (hqueue : m.queuedStarts <:+ m.recorded)
    (hfree : ∀ waiting ∈ m.queuedStarts, waiting.download ≠ queued.download) :
    InPlace m' download := by
  obtain ⟨request, hne, hworld⟩ := ha.unused
  refine ⟨⟨queued, ?_, ha.address.symm⟩, ?_, fun _ => ⟨ha.isRunning, ?_⟩, ?_, ?_⟩
  · rw [ha.recorded, ha.serial, List.getElem?_concat_length]
  · intro i queued' hi hr haddress
    rcases ha.recorded_cases hr with hr | ⟨hi', -⟩
    · have hwaiting := mem_queuedStarts_of_recorded hqueue (ha.popped ▸ hi) hr
      exact (hfree queued' hwaiting (haddress.trans ha.address)).elim
    · exact hi'
  · rw [hworld]
    exact List.not_mem_nil
  · intro hlt
    rw [ha.serial, ha.popped] at hlt
    exact absurd hlt (not_lt.mpr m.popped_le)
  · rw [hworld]
    exact newDownload_requestedFiles request ▸ hne

theorem startsMade (ha : Added m m' download queued) : m'.startsMade = m.startsMade := by
  obtain ⟨action, hr, he⟩ := ha.actions
  have hact : m'.startsMade = (m.act action).startsMade := by
    rw [ManagerWorld.startsMade, he]
    rfl
  rw [hact]
  apply startsMade_act
  rintro _ _ _ _ rfl
  cases hr

end Added

theorem Orderly.added (h : Orderly m) (ha : Added m m' download queued)
    (hfresh : queued.download ∉ m.downloads.map DownloadObject.address)
    (hfree : ∀ waiting ∈ m.queuedStarts, waiting.download ≠ queued.download) : Orderly m' := by
  refine ⟨?_, ?_, ?_, ?_, ?_, ?_⟩
  · rw [ha.downloads, List.map_append, List.map_singleton, List.nodup_append]
    refine ⟨h.addresses, List.nodup_singleton _, ?_⟩
    rintro address hm _ hm' rfl
    rw [List.mem_singleton.mp hm', ha.address] at hm
    exact hfresh hm
  · rw [ha.downloads, List.map_append, List.map_singleton, List.pairwise_append]
    refine ⟨h.serials, List.pairwise_singleton .., ?_⟩
    intro serial hm _ hm'
    obtain ⟨d, hd, rfl⟩ := List.mem_map.mp hm
    obtain ⟨_, hr, -⟩ := (h.inPlace d hd).recorded
    rw [List.mem_singleton.mp hm', ha.serial]
    exact (List.getElem?_eq_some_iff.mp hr).1
  · rw [ha.queuedStarts, ha.recorded]
    obtain ⟨before, hb⟩ := h.queue
    exact ⟨before, by rw [← List.append_assoc, hb]⟩
  · intro d hm
    rw [ha.downloads] at hm
    rcases List.mem_append.mp hm with hd | hnew
    · refine ha.inPlace_old (h.inPlace d hd) fun he => hfresh ?_
      exact List.mem_map.mpr ⟨d, hd, he.trans ha.address⟩
    · rw [List.mem_singleton.mp hnew]
      exact ha.inPlace_new h.queue hfree
  · rw [ha.startsMade, ha.popped]
    intro start hm
    obtain ⟨hlt, hr⟩ := h.starts start hm
    exact ⟨hlt, (ha.recorded_of_lt (List.getElem?_eq_some_iff.mp hr).1).trans hr⟩
  · rw [ha.startsMade]
    exact h.once

theorem Orderly.addGroups (h : Orderly m) (allocator : Allocator) (users : UserRegistry)
    (localSessionId localUserName : String) {groups : List (String × List FileResult)}
    (hgroups : ∀ entry ∈ groups, entry.2 ≠ [])
    (hfree : ∀ address ∈ allocator.take (m.downloads.map DownloadObject.address) m.recorded.length
      (dialledGroups users groups), ∀ queued ∈ m.queuedStarts, queued.download ≠ address) :
    Orderly (groups.foldl (ManagerWorld.addGroup allocator users localSessionId localUserName)
      m) := by
  induction groups generalizing m with
  | nil => exact h
  | cons entry groups ih =>
    have hrest := fun other hm => hgroups other (List.mem_cons_of_mem _ hm)
    cases hdial : dialled users entry.1 with
    | none =>
      rw [dialledGroups, List.countP_cons_of_neg (by simp [hdial])] at hfree
      obtain ⟨action, hr, he⟩ :=
        m.addGroup_of_none allocator users localSessionId localUserName hdial
      rw [List.foldl_cons, he]
      exact ih (h.report hr) hrest hfree
    | some sharer =>
      rw [dialledGroups, List.countP_cons_of_pos (by simp [hdial])] at hfree
      obtain ⟨download, queued, hplace, ha⟩ := m.addGroup_of_some allocator users localSessionId
        localUserName (hgroups entry List.mem_cons_self) hdial
      refine ih (h.added ha ?_ ?_) hrest ?_
      · rw [hplace]
        apply allocator.place_fresh
      · rw [hplace]
        exact hfree _ List.mem_cons_self
      · rw [ha.downloads, ha.queuedStarts, ha.recorded, List.map_append, List.map_singleton,
          ha.address, hplace, List.length_append, List.length_singleton]
        intro address hm waiting hw
        rcases List.mem_append.mp hw with hw | hw
        · exact hfree address (List.mem_cons_of_mem _ hm) waiting hw
        · -- The download of this start is still there, so nothing new can be put on it.
          rintro rfl
          apply Allocator.take_fresh hm
          rw [List.mem_singleton.mp hw, hplace]
          exact List.mem_append_right _ (List.mem_singleton_self _)

namespace Orderly

theorem startDownloads (h : Orderly m) (startOs : Nat → OperatingSystem)
    (results : List FileResult) (users : UserRegistry) (localSessionId localUserName : String)
    (allocator : Allocator)
    (hfree : ∀ address ∈ allocator.take (m.downloads.map DownloadObject.address) m.recorded.length
      (dialledGroups users (groupBySharer results).entries),
      ∀ queued ∈ m.queuedStarts, queued.download ≠ address) :
    Orderly (m.startDownloads startOs results users localSessionId localUserName allocator) := by
  rcases startDownloads_cases startOs m results users localSessionId localUserName allocator with
    ⟨-, he⟩ | hdrains
  · rwa [he]
  · exact drains hdrains
      (h.addGroups allocator users _ _ (fun _ hm => groupBySharer_ne_nil hm) hfree)

theorem abortAll (h : Orderly m) (os : OperatingSystem) (startOs : Nat → OperatingSystem) :
    Orderly (m.abortAll os startOs) :=
  abortAll_preserves (fun _ index ho => ho.abortAt os startOs _ index) h

theorem settings (h : Orderly m) (hd : m'.downloads = m.downloads)
    (hq : m'.queuedStarts = m.queuedStarts) (hr : m'.recorded = m.recorded)
    (ha : m'.actions = m.actions) : Orderly m' := by
  have hpopped : m'.popped = m.popped := by rw [popped, hq, hr, popped]
  have hmade : m'.startsMade = m.startsMade := by rw [startsMade, ha, startsMade]
  refine ⟨hd ▸ h.addresses, hd ▸ h.serials, hq ▸ hr ▸ h.queue, ?_, ?_, hmade ▸ h.once⟩
  · intro d hm
    have hplace := h.inPlace d (hd ▸ hm)
    exact ⟨hr ▸ hplace.recorded, hr ▸ hpopped ▸ hplace.own, hpopped ▸ hplace.waiting,
      hpopped ▸ hplace.begun, hplace.asks⟩
  · rw [hmade, hpopped, hr]
    exact h.starts

theorem handle [MuscleText] (h : Orderly m) (e : ManagerEvent) (hfree : NoAlias m e) :
    Orderly (m.handle e) := by
  obtain ⟨call, os, startOs⟩ := e
  cases call with
  | startDownloads => exact h.startDownloads _ _ _ _ _ _ hfree
  | abortDownload => exact h.abortAt ..
  | abortAll => exact h.abortAll ..
  | clearFinishedDownloads => exact h.clearFinishedDownloads
  | performIdleTasks => exact performIdleTasks_preserves h h.clearFinishedDownloads
  | sessionConnected => exact h.deliver ..
  | sessionDisconnected => exact h.deliver ..
  | messageReceived => exact h.deliver ..
  | _ => exact h.settings rfl rfl rfl rfl

theorem new : Orderly new :=
  ⟨List.nodup_nil, .nil, List.suffix_rfl, fun _ hm => (by cases hm), fun _ hm => (by cases hm),
    List.nodup_nil⟩

theorem rightStarts (h : Orderly m) : RightStarts m :=
  ⟨h.once, fun start hm => (h.starts start hm).2⟩

end Orderly

end ManagerWorld

/-- An allocator that goes past everything that is in use. -/
def pastAllLive : Allocator where
  place := fun live _ => live.sum + 1
  place_fresh := fun live _ hm => by
    have hle := List.le_sum_of_mem hm
    omega

def annAndBob : UserRegistry :=
  (Hashtable.empty.put "7"
    { sessionId := "7", userName := "ann", hostName := "ann", port := 7000 }).put "8"
    { sessionId := "8", userName := "bob", hostName := "bob", port := 7001 }

/-- The user asks for one file. -/
def oneFile (sessionId fileName : String) : ManagerEvent where
  call := .startDownloads [{ sessionId, fileName }] annAndBob "1" "me" pastAllLive

/-- With one slot, a waiting download of ann's is cancelled and cleared, and then bob is asked. -/
def reusedAddressRun : List ManagerEvent :=
  [{ call := .setMaxSimultaneousDownloads 1 }, oneFile "7" "notes.txt", oneFile "7" "photo.jpg",
    { call := .abortDownload 1 }, { call := .clearFinishedDownloads }, oneFile "8" "song.mp3",
    { call := .sessionDisconnected 1 }]

/-- The new download gets the old address and with it ann's start. -/
theorem reused_address_starts_wrong_peer :
    ¬ ∀ [MuscleText] (es : List ManagerEvent),
      ManagerWorld.machine.EveryState ManagerWorld.RightStarts ManagerWorld.new es := by
  intro h
  let _ := asciiText
  exact absurd (h reusedAddressRun) (by decide +kernel)

/-- While no new download takes the address of one whose start still waits, every download is
started at most once and with what was recorded for it. -/
theorem right_download_once [MuscleText] (es : List ManagerEvent)
    (h : ManagerWorld.machine.EveryStep ManagerWorld.NoAlias ManagerWorld.new es) :
    ManagerWorld.machine.EveryState ManagerWorld.RightStarts ManagerWorld.new es :=
  (EventMachine.everyState_of_invariant (fun _ e ho hfree => ho.handle e hfree)
    ManagerWorld.Orderly.new h).imp fun _ ho => ho.rightStarts

theorem right_download_once_uncleared :
    letI := asciiText
    ManagerWorld.machine.EveryState ManagerWorld.RightStarts ManagerWorld.new
      (reusedAddressRun.eraseIdx 4) :=
  letI := asciiText
  right_download_once (reusedAddressRun.eraseIdx 4) (by decide +kernel)

end HiTuxShare
