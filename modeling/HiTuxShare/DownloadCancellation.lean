import HiTuxShare.DownloadLateEvents
import HiTuxShare.DownloadShutdown

namespace HiTuxShare
set_option autoImplicit true

/-- The start of a download that had been aborted. -/
def ManagerAction.revives : ManagerAction → ManagerAction → Bool
  | .aborted serial, .started serial' _ _ _ => serial = serial'
  | _, _ => false

namespace ManagerWorld

/-- No aborted download was started later, and all that are still listed are finished. -/
structure CancelledForGood (m : ManagerWorld) : Prop where
  notStarted : m.actions.Pairwise fun earlier later => earlier.revives later = false
  finished : ∀ download ∈ m.downloads, .aborted download.serial ∈ m.actions →
    download.world.isFinished = true

instance : DecidablePred CancelledForGood := fun m =>
  decidable_of_iff ((m.actions.Pairwise fun earlier later => earlier.revives later = false) ∧
    ∀ download ∈ m.downloads, .aborted download.serial ∈ m.actions →
      download.world.isFinished = true)
    ⟨fun h => ⟨h.1, h.2⟩, fun h => ⟨h.notStarted, h.finished⟩⟩

/-- The user cancels no download whose start is waiting, and what reaches an aborted download
late is harmless. -/
def CancelsCleanly [MuscleText] (m : ManagerWorld) (e : ManagerEvent) : Prop :=
  let late (address : Nat) (callback : DownloadCallback) : Prop :=
    ∀ download ∈ m.findDownload address, .aborted download.serial ∈ m.actions →
      download.world.LateIsHarmless ⟨callback, e.os⟩
  match e.call with
  | .abortDownload index => ∀ download ∈ m.downloads[index]?, ∀ queued ∈ m.queuedStarts,
      queued.download ≠ download.address
  | .sessionConnected address => late address .sessionConnected
  | .sessionDisconnected address => late address .sessionDisconnected
  | .messageReceived address message => late address (.messageReceived message)
  | _ => True

theorem notFinished_of_idle {download : FileDownload} (h : download.state = .idle) :
    download.isFinished = false := by
  rw [FileDownload.isFinished, h]
  rfl

variable [MuscleText]

/-- A download that waits is there and untouched, and whatever was aborted is over. -/
structure Clean (m : ManagerWorld) : Prop where
  orderly : Orderly m
  live : ∀ queued ∈ m.queuedStarts, ∃ download ∈ m.downloads,
    download.address = queued.download
  unused : ∀ download ∈ m.downloads, m.popped ≤ download.serial →
    download.world.state = .idle ∧ download.world.outputFile = none
  booked : ∀ download ∈ m.downloads, download.world.Booked
  aborted : ∀ serial, .aborted serial ∈ m.actions → serial < m.popped
  notStarted : m.actions.Pairwise fun earlier later => earlier.revives later = false
  finished : ∀ download ∈ m.downloads, .aborted download.serial ∈ m.actions →
    download.world.isFinished = true

namespace Clean

omit [MuscleText] in
theorem pairwise_snoc {actions : List ManagerAction}
    (h : actions.Pairwise fun earlier later => earlier.revives later = false)
    (hnew : ∀ earlier ∈ actions, earlier.revives action = false) :
    (actions ++ [action]).Pairwise fun earlier later => earlier.revives later = false := by
  rw [List.pairwise_append]
  refine ⟨h, List.pairwise_singleton .., ?_⟩
  intro earlier hm later hm'
  rw [List.mem_singleton.mp hm']
  exact hnew earlier hm

omit [MuscleText] in
theorem not_revives (hr : action.isReport = true) (earlier : ManagerAction) :
    earlier.revives action = false := by
  cases action with
  | started => cases hr
  | _ => cases earlier <;> rfl

omit [MuscleText] in
theorem aborted_of_snoc {actions : List ManagerAction} (h : .aborted serial ∈ actions ++ [action])
    (hne : action ≠ .aborted serial) : .aborted serial ∈ actions := by
  apply (List.mem_append.mp h).resolve_right
  intro h
  exact hne (List.mem_singleton.mp h).symm

omit [MuscleText] in
theorem aborted_of_report {actions : List ManagerAction} (hr : action.isReport = true)
    (h : .aborted serial ∈ actions ++ [action]) : .aborted serial ∈ actions := by
  apply aborted_of_snoc h
  rintro rfl
  cases hr

theorem live_of_addresses {m m' : ManagerWorld} (h : Clean m)
    (he : m'.downloads.map DownloadObject.address = m.downloads.map DownloadObject.address)
    (hq : queued ∈ m.queuedStarts) : ∃ d ∈ m'.downloads, d.address = queued.download := by
  obtain ⟨d, hd, ha⟩ := h.live queued hq
  have hmem := List.mem_map_of_mem (f := DownloadObject.address) hd
  rw [← he, ha] at hmem
  exact List.mem_map.mp hmem

theorem report (h : Clean m) (hr : action.isReport = true) : Clean (m.act action) := by
  refine ⟨h.orderly.report hr, h.live, h.unused, h.booked, ?_, ?_, ?_⟩
  · exact fun serial hm => h.aborted serial (aborted_of_report hr hm)
  · exact pairwise_snoc h.notStarted fun earlier _ => not_revives hr earlier
  · exact fun download hd hm => h.finished download hd (aborted_of_report hr hm)

theorem setDownload (h : Clean m) (hd : d ∈ m.downloads) (hp : d.serial < m.popped)
    (hplace : InPlace m { d with world }) (hb : world.Booked)
    (hf : .aborted d.serial ∈ m.actions → world.isFinished = true) :
    Clean (m.setDownload d.address world) := by
  refine ⟨h.orderly.setDownload hd hplace, ?_, ?_, ?_, h.aborted, h.notStarted, ?_⟩
  · exact fun queued hq => h.live_of_addresses (setDownload_addresses ..) hq
  · intro d' hm hle
    rcases replaced_or_old h.orderly.addresses hd hm with rfl | ⟨hold, -⟩
    · exact absurd hp (not_lt.mpr hle)
    · exact h.unused d' hold hle
  · intro d' hm
    rcases replaced_or_old h.orderly.addresses hd hm with rfl | ⟨hold, -⟩
    · exact hb
    · exact h.booked d' hold
  · intro d' hm ha
    rcases replaced_or_old h.orderly.addresses hd hm with rfl | ⟨hold, -⟩
    · exact hf ha
    · exact h.finished d' hold ha

theorem abort (h : Clean m) (hp : serial < m.popped)
    (hf : ∀ d ∈ m.downloads, d.serial = serial → d.world.isFinished = true) :
    Clean (m.act (.aborted serial)) := by
  refine ⟨h.orderly.act fun _ _ _ _ he => (by cases he), h.live, h.unused, h.booked, ?_, ?_, ?_⟩
  · intro serial' hm
    rcases List.mem_append.mp hm with hm | hm
    · exact h.aborted serial' hm
    · cases List.mem_singleton.mp hm
      exact hp
  · apply pairwise_snoc h.notStarted
    intro earlier _
    cases earlier <;> rfl
  · intro d hd hm
    rcases List.mem_append.mp hm with hm | hm
    · exact h.finished d hd hm
    · exact hf d hd (ManagerAction.aborted.inj (List.mem_singleton.mp hm))

theorem cancelled (h : Clean m) (os : OperatingSystem) (reason : String) (hd : d ∈ m.downloads)
    (hp : d.serial < m.popped) : Clean (m.cancelled os reason d) := by
  have hfinished := DownloadWorld.abort_isFinished os d.world reason
  have hset := h.setDownload hd hp (h.orderly.inPlace_abort hd os reason)
    ((h.booked d hd).abort os reason) fun _ => hfinished
  apply hset.abort hp
  intro d' hm hs
  rcases replaced_or_old h.orderly.addresses hd hm with rfl | ⟨hold, hne⟩
  · exact hfinished
  · exact absurd (congrArg _ (h.orderly.eq_of_serial hold hd hs)) hne

/-- What is started is a download nobody has touched. -/
theorem launch (h : Clean m) (os : OperatingSystem) (hq : m.queuedStarts = queued :: waiting)
    (hd : m.findDownload queued.download = some download) :
    Clean (m.launch os queued waiting download) := by
  obtain ⟨hm, haddress⟩ := findDownload_eq_some hd
  have hserial := h.orderly.serial_eq_popped hq hd
  have hpopped : (m.launch os queued waiting download).popped = m.popped + 1 :=
    (recorded_popped h.orderly.queue hq).2.2
  have haborted {serial : Nat}
      (ha : .aborted serial ∈ (m.launch os queued waiting download).actions) :
      .aborted serial ∈ m.actions := aborted_of_snoc ha fun he => by cases he
  refine ⟨h.orderly.launch os hq hd, ?_, ?_, ?_, ?_, ?_, ?_⟩
  · intro queued' hm'
    exact h.live_of_addresses (setDownload_addresses ..) (hq ▸ List.mem_cons_of_mem _ hm')
  · intro d hd' hle
    rw [hpopped] at hle
    rcases replaced_or_old h.orderly.addresses hm hd' with rfl | ⟨hold, -⟩
    · exact absurd hserial (Nat.ne_of_gt hle)
    · exact h.unused d hold (Nat.le_of_succ_le hle)
  · intro d hd'
    rcases replaced_or_old h.orderly.addresses hm hd' with rfl | ⟨hold, -⟩
    · have hu := DownloadWorld.untouched_start os download.world queued.hostName
        queued.port.toNat queued.remoteSessionId queued.localSessionId queued.localUserName
      refine (h.booked download hm).untouched hu fun _ => hu.sameFiles.outputFile.trans ?_
      exact (h.unused download hm hserial.ge).2
    · exact h.booked d hold
  · intro serial ha
    rw [hpopped]
    exact Nat.lt_succ_of_lt (h.aborted serial (haborted ha))
  · apply pairwise_snoc h.notStarted
    intro earlier he
    cases earlier with
    | aborted serial =>
      have hlt := h.aborted serial he
      exact decide_eq_false (by omega)
    | _ => rfl
  · intro d hd' ha
    have hlt := h.aborted d.serial (haborted ha)
    rcases replaced_or_old h.orderly.addresses hm hd' with rfl | ⟨hold, -⟩
    · exact absurd hserial hlt.ne
    · exact h.finished d hold (haborted ha)

theorem drainStep (hd : DrainStep m m') (h : Clean m) : Clean m' := by
  cases hd with
  | report _ hr => exact h.report hr
  | @skip queued waiting _ hq hd =>
    obtain ⟨d, hm, ha⟩ := h.live queued (hq ▸ List.mem_cons_self)
    exact absurd ha (findDownload_eq_none hd d hm)
  | launch _ os hq _ hd => exact h.launch os hq hd

theorem drains (hd : Drains m m') (h : Clean m) : Clean m' :=
  hd.invariant (fun _ _ => drainStep) h

theorem explainHangUp (h : Clean m) (address : Nat) : Clean (m.explainHangUp address) := by
  have hold {d : DownloadObject} (hd : d ∈ (m.explainHangUp address).downloads) :
      ∃ old ∈ m.downloads, d.serial = old.serial ∧
        (d.world = old.world ∨ d.world = old.world.explainHangUp) := by
    obtain ⟨old, hm, rfl⟩ := List.mem_map.mp hd
    split
    · exact ⟨old, hm, rfl, .inr rfl⟩
    · exact ⟨old, hm, rfl, .inl rfl⟩
  refine ⟨h.orderly.explainHangUp address, ?_, ?_, ?_, h.aborted, h.notStarted, ?_⟩
  · exact fun queued hq => h.live_of_addresses (explainHangUp_addresses ..) hq
  · intro d hd hle
    obtain ⟨old, hm, hs, hw | hw⟩ := hold hd
    · exact hw ▸ h.unused old hm (hs ▸ hle)
    · have hframe := DownloadWorld.untouched_explainHangUp old.world
      rw [hw, (DownloadWorld.explainHangUp_frame old.world).1, hframe.sameFiles.outputFile]
      exact h.unused old hm (hs ▸ hle)
  · intro d hd
    obtain ⟨old, hm, -, hw | hw⟩ := hold hd
    · exact hw ▸ h.booked old hm
    · have hframe := DownloadWorld.untouched_explainHangUp old.world
      rw [hw]
      apply (h.booked old hm).untouched hframe
      rw [FileDownload.isFinished, (DownloadWorld.explainHangUp_frame old.world).1,
        hframe.sameFiles.outputFile]
      exact (h.booked old hm).finishedClosed
  · intro d hd ha
    obtain ⟨old, hm, hs, hw | hw⟩ := hold hd
    · exact hw ▸ h.finished old hm (hs ▸ ha)
    · rw [hw, FileDownload.isFinished, (DownloadWorld.explainHangUp_frame old.world).1]
      exact h.finished old hm (hs ▸ ha)

theorem deliver (h : Clean m) (os : OperatingSystem) (startOs : Nat → OperatingSystem)
    (hlate : ∀ download ∈ m.findDownload address, .aborted download.serial ∈ m.actions →
      download.world.LateIsHarmless ⟨callback, os⟩) :
    Clean (m.deliver os startOs address callback) := by
  rcases deliver_cases os startOs m address callback with
    he | ⟨d, hd, ht, ⟨-, hdrains⟩ | ⟨hangs, m', hdrains, he⟩⟩
  · rwa [he]
  · have hm := (findDownload_eq_some hd).1
    have hplace := h.orderly.inPlace_announced hm ht
      (DownloadWorld.announced_handle d.world ⟨callback, os⟩)
    refine drains hdrains (h.setDownload hm (h.orderly.popped_of_started hm ht) hplace
      ((h.booked d hm).handle _) fun ha => ?_)
    have hf := h.finished d hm ha
    exact ((DownloadWorld.handle_of_finished hf ((h.booked d hm).finishedClosed hf) _).1
      (hlate d hd ha)).isFinished hf
  · have hm := (findDownload_eq_some hd).1
    obtain ⟨hf, hclosed⟩ := DownloadWorld.of_hangsUp hangs
    have hplace := h.orderly.inPlace_announced hm ht (DownloadWorld.announced_hangUp d.world)
    have hu := DownloadWorld.untouched_hangUp hclosed
    rw [he]
    refine (drains hdrains (h.setDownload hm (h.orderly.popped_of_started hm ht) hplace
      ((h.booked d hm).untouched hu fun _ => hu.sameFiles.outputFile.trans hclosed)
      fun ha => ?_)).explainHangUp address
    rw [h.finished d hm ha] at hf
    cases hf

theorem clearFinishedDownloads (h : Clean m) : Clean m.clearFinishedDownloads := by
  have horderly := h.orderly.clearFinishedDownloads
  rw [ManagerWorld.clearFinishedDownloads] at horderly ⊢
  by_cases hkept : (m.downloads.filter fun download => !download.world.isFinished).length =
      m.downloads.length
  · rw [if_pos hkept]
    exact h
  · rw [if_neg hkept] at horderly ⊢
    refine ⟨horderly, ?_, ?_, ?_, ?_, ?_, ?_⟩
    · intro queued hq
      obtain ⟨d, hd, ha⟩ := h.live queued hq
      obtain ⟨i, hi, hr⟩ := mem_queuedStarts h.orderly.queue hq
      have hserial := (h.orderly.inPlace d hd).own i queued hi hr ha.symm
      have hidle := (h.unused d hd (hserial ▸ hi)).1
      exact ⟨d, List.mem_filter.mpr ⟨hd, by rw [notFinished_of_idle hidle]; rfl⟩, ha⟩
    · exact fun d hd => h.unused d (List.mem_of_mem_filter hd)
    · exact fun d hd => h.booked d (List.mem_of_mem_filter hd)
    · exact fun serial ha => h.aborted serial (aborted_of_report rfl ha)
    · exact pairwise_snoc h.notStarted fun earlier _ => not_revives rfl earlier
    · intro d hd ha
      exact h.finished d (List.mem_of_mem_filter hd) (aborted_of_report rfl ha)

/-- Where nobody has left the list while waiting, a new download takes nobody's address. -/
theorem added (h : Clean m) (ha : Added m m' download queued)
    (hfresh : queued.download ∉ m.downloads.map DownloadObject.address) : Clean m' := by
  have horderly : Orderly m' := by
    apply h.orderly.added ha hfresh
    intro waiting hw he
    obtain ⟨d, hd, haddress⟩ := h.live waiting hw
    exact hfresh (List.mem_map.mpr ⟨d, hd, haddress.trans he⟩)
  obtain ⟨request, -, hworld⟩ := ha.unused
  have hnew := newDownload_isFresh request
  obtain ⟨action, hr, hactions⟩ := ha.actions
  have haborted {serial : Nat} (hs : .aborted serial ∈ m'.actions) :
      .aborted serial ∈ m.actions := aborted_of_report hr (hactions ▸ hs)
  have hcases {d : DownloadObject} (hd : d ∈ m'.downloads) : d ∈ m.downloads ∨ d = download := by
    rw [ha.downloads] at hd
    exact (List.mem_append.mp hd).imp_right List.mem_singleton.mp
  refine ⟨horderly, ?_, ?_, ?_, ?_, ?_, ?_⟩
  · rw [ha.queuedStarts, ha.downloads]
    intro waiting hw
    rcases List.mem_append.mp hw with hw | hw
    · obtain ⟨d, hd, haddress⟩ := h.live waiting hw
      exact ⟨d, List.mem_append_left _ hd, haddress⟩
    · rw [List.mem_singleton.mp hw]
      exact ⟨download, List.mem_append_right _ (List.mem_singleton_self _), ha.address⟩
  · intro d hd hle
    rcases hcases hd with hold | rfl
    · exact h.unused d hold (ha.popped ▸ hle)
    · rw [hworld]
      exact ⟨hnew.state, hnew.outputFile⟩
  · intro d hd
    rcases hcases hd with hold | rfl
    · exact h.booked d hold
    · rw [hworld]
      exact newDownload_booked request
  · intro serial hs
    rw [ha.popped]
    exact h.aborted serial (haborted hs)
  · rw [hactions]
    exact pairwise_snoc h.notStarted fun earlier _ => not_revives hr earlier
  · intro d hd hs
    rcases hcases hd with hold | rfl
    · exact h.finished d hold (haborted hs)
    · have hlt := h.aborted d.serial (haborted hs)
      rw [ha.serial] at hlt
      exact absurd hlt (not_lt.mpr m.popped_le)

theorem addGroups (h : Clean m) (allocator : Allocator) (users : UserRegistry)
    (localSessionId localUserName : String) {groups : List (String × List FileResult)}
    (hgroups : ∀ entry ∈ groups, entry.2 ≠ []) :
    Clean (groups.foldl
      (ManagerWorld.addGroup allocator users localSessionId localUserName) m) := by
  induction groups generalizing m with
  | nil => exact h
  | cons entry groups ih =>
    have hrest := fun other hm => hgroups other (List.mem_cons_of_mem _ hm)
    cases hdial : dialled users entry.1 with
    | none =>
      obtain ⟨action, hr, he⟩ :=
        m.addGroup_of_none allocator users localSessionId localUserName hdial
      rw [List.foldl_cons, he]
      exact ih (h.report hr) hrest
    | some sharer =>
      obtain ⟨download, queued, hplace, ha⟩ := m.addGroup_of_some allocator users localSessionId
        localUserName (hgroups entry List.mem_cons_self) hdial
      refine ih (h.added ha ?_) hrest
      rw [hplace]
      apply allocator.place_fresh

theorem startDownloads (h : Clean m) (startOs : Nat → OperatingSystem)
    (results : List FileResult) (users : UserRegistry) (localSessionId localUserName : String)
    (allocator : Allocator) :
    Clean (m.startDownloads startOs results users localSessionId localUserName allocator) := by
  rcases startDownloads_cases startOs m results users localSessionId localUserName allocator with
    ⟨-, he⟩ | hdrains
  · rwa [he]
  · exact drains hdrains (h.addGroups allocator users _ _ fun _ hm => groupBySharer_ne_nil hm)

theorem abortAt (h : Clean m) (os : OperatingSystem) (startOs : Nat → OperatingSystem)
    (reason : String) {index : Nat}
    (hp : ∀ d, m.downloads[index]? = some d → d.serial < m.popped) :
    Clean (m.abortAt os startOs reason index) := by
  rcases abortAt_cases os startOs reason m index with ⟨-, he⟩ | ⟨d, hd, hdrains⟩
  · rwa [he]
  · exact drains hdrains (h.cancelled os reason (List.mem_of_getElem? hd) (hp d hd))

/-- By the time `AbortAll` comes to a download, that one has been started. -/
theorem abortAll (h : Clean m) (ha : AbortedUpTo 0 m) (os : OperatingSystem)
    (startOs : Nat → OperatingSystem) : Clean (m.abortAll os startOs) := by
  have hloop (n : Nat) :
      Clean ((List.range n).foldl (ManagerWorld.abortAt os startOs "Shutting down") m) := by
    induction n with
    | zero => exact h
    | succ n ih =>
      rw [List.range_succ, List.foldl_append]
      exact ih.abortAt os startOs _ fun d hd => (ha.loop os startOs _ n).popped hd
  exact hloop m.downloads.length

theorem abortDownload (h : Clean m) (os : OperatingSystem) (startOs : Nat → OperatingSystem)
    {index : Nat} (hclean : ∀ download ∈ m.downloads[index]?, ∀ queued ∈ m.queuedStarts,
      queued.download ≠ download.address) : Clean (m.abortDownload os startOs index) := by
  apply h.abortAt
  intro d hd
  by_contra hwaiting
  obtain ⟨queued, hr, ha⟩ := (h.orderly.inPlace d (List.mem_of_getElem? hd)).recorded
  exact hclean d hd queued (mem_queuedStarts_of_recorded h.orderly.queue (not_lt.mp hwaiting) hr) ha

theorem settings (h : Clean m) (hd : m'.downloads = m.downloads)
    (hq : m'.queuedStarts = m.queuedStarts) (hr : m'.recorded = m.recorded)
    (ha : m'.actions = m.actions) : Clean m' := by
  have hpopped : m'.popped = m.popped := by rw [popped, hq, hr, popped]
  refine ⟨h.orderly.settings hd hq hr ha, ?_, ?_, hd ▸ h.booked, ?_, ha ▸ h.notStarted, ?_⟩
  · rw [hq, hd]
    exact h.live
  · rw [hd, hpopped]
    exact h.unused
  · rw [ha, hpopped]
    exact h.aborted
  · rw [hd, ha]
    exact h.finished

theorem handle (h : Clean m) (hall : AbortedUpTo 0 m) (e : ManagerEvent)
    (hclean : CancelsCleanly m e) : Clean (m.handle e) := by
  obtain ⟨call, os, startOs⟩ := e
  cases call with
  | startDownloads => exact h.startDownloads ..
  | abortDownload => exact h.abortDownload os startOs hclean
  | abortAll => exact h.abortAll hall os startOs
  | clearFinishedDownloads => exact h.clearFinishedDownloads
  | performIdleTasks => exact performIdleTasks_preserves h h.clearFinishedDownloads
  | sessionConnected => exact h.deliver os startOs hclean
  | sessionDisconnected => exact h.deliver os startOs hclean
  | messageReceived => exact h.deliver os startOs hclean
  | _ => exact h.settings rfl rfl rfl rfl

theorem new : Clean new :=
  ⟨.new, fun _ hm => (by cases hm), fun _ hm => (by cases hm), fun _ hm => (by cases hm),
    fun _ hm => (by cases hm), .nil, fun _ hm => (by cases hm)⟩

theorem cancelledForGood (h : Clean m) : CancelledForGood m := ⟨h.notStarted, h.finished⟩

end Clean

end ManagerWorld

/-- With one slot, ann's second file is cancelled while it waits, and then the first one ends. -/
def cancelledWaitingRun : List ManagerEvent :=
  [{ call := .setMaxSimultaneousDownloads 1 }, oneFile "7" "notes.txt", oneFile "7" "photo.jpg",
    { call := .abortDownload 1 }, { call := .sessionDisconnected 1 }]

/-- The end of the first download starts the cancelled one. -/
theorem cancelled_download_is_started :
    ¬ ∀ [MuscleText] (es : List ManagerEvent),
      ManagerWorld.machine.EveryState ManagerWorld.CancelledForGood ManagerWorld.new es := by
  intro h
  let _ := asciiText
  exact absurd (h cancelledWaitingRun) (by decide +kernel)

/-- While nobody is cancelled in the queue and nothing harmful comes late, a cancelled download is
never started and stays finished. -/
theorem cancelled_means_cancelled [MuscleText] (es : List ManagerEvent)
    (h : ManagerWorld.machine.EveryStep ManagerWorld.CancelsCleanly ManagerWorld.new es) :
    ManagerWorld.machine.EveryState ManagerWorld.CancelledForGood ManagerWorld.new es := by
  have hinvariant : ManagerWorld.machine.EveryState (fun m => m.Clean ∧ m.AbortedUpTo 0)
      ManagerWorld.new es := by
    refine EventMachine.everyState_of_invariant ?_ ?_ h
    · rintro m e ⟨hm, hall⟩ hclean
      have hnext := hm.handle hall e hclean
      exact ⟨hnext, hall.handle e hnext.orderly⟩
    · exact ⟨.new, .new⟩
  exact hinvariant.imp fun _ hm => hm.1.cancelledForGood

theorem cancelled_means_cancelled_running :
    letI := asciiText
    ManagerWorld.machine.EveryState ManagerWorld.CancelledForGood ManagerWorld.new
      [{ call := .setMaxSimultaneousDownloads 1 }, oneFile "7" "notes.txt",
        oneFile "7" "photo.jpg", { call := .abortDownload 0 }] := by
  let _ := asciiText
  apply cancelled_means_cancelled
  refine ⟨trivial, trivial, trivial, ?_, trivial⟩
  change ∀ download ∈ (_ : Option DownloadObject), ∀ queued ∈ (_ : List QueuedStart),
    queued.download ≠ download.address
  decide +kernel

end HiTuxShare
