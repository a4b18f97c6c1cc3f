import HiTuxShare.DownloadNotifications
import HiTuxShare.DownloadQueue

namespace HiTuxShare
set_option autoImplicit true

namespace ManagerWorld

/-- Every start found a free slot, and whoever waits waits for a download that will call back. -/
structure Scheduled (m : ManagerWorld) : Prop where
  starts : ∀ serial queued running cap, .started serial queued running cap ∈ m.actions →
    running < cap
  awake : m.queuedStarts ≠ [] → 0 < m.countRunningDownloads

/-- What holds in the middle of an event too. -/
structure Capped (m : ManagerWorld) : Prop where
  addresses : (m.downloads.map (·.address)).Nodup
  cap : 1 ≤ m.maxSimultaneousDownloads
  starts : ∀ serial queued running cap, .started serial queued running cap ∈ m.actions →
    running < cap

/-- The slots are used up, or nobody waits for one. -/
def Drained (m : ManagerWorld) : Prop :=
  m.queuedStarts = [] ∨ m.maxSimultaneousDownloads ≤ m.countRunningDownloads

namespace Capped

theorem act (h : Capped m) (hs : ∀ serial queued running cap,
    action = .started serial queued running cap → running < cap) : Capped (m.act action) := by
  refine ⟨h.addresses, h.cap, ?_⟩
  intro serial queued running cap hm
  rcases List.mem_append.mp hm with hm | hm
  · exact h.starts serial queued running cap hm
  · exact hs serial queued running cap (List.mem_singleton.mp hm).symm

theorem report (h : Capped m) (hr : action.isReport = true) : Capped (m.act action) := by
  apply h.act
  rintro serial queued running cap rfl
  cases hr

theorem setDownload (h : Capped m) (address : Nat) (world : DownloadWorld) :
    Capped (m.setDownload address world) :=
  ⟨by rw [setDownload_addresses]; exact h.addresses, h.cap, h.starts⟩

theorem drainStep (hd : DrainStep m m') (h : Capped m) : Capped m' := by
  cases hd with
  | report _ hr => exact h.report hr
  | skip => exact ⟨h.addresses, h.cap, h.starts⟩
  | @launch queued waiting download _ os _ hroom _ =>
    have hpopped : Capped { m with queuedStarts := waiting } := ⟨h.addresses, h.cap, h.starts⟩
    apply Capped.setDownload
    apply hpopped.act
    rintro _ _ _ _ ⟨⟩
    exact hroom

theorem drains (hd : Drains m m') (h : Capped m) : Capped m' :=
  hd.invariant (fun _ _ => drainStep) h

theorem cancelled (h : Capped m) (os : OperatingSystem) (reason : String)
    (download : DownloadObject) : Capped (m.cancelled os reason download) := by
  apply Capped.setDownload
  apply h.act
  intro _ _ _ _ he
  cases he

theorem explainHangUp (h : Capped m) (address : Nat) : Capped (m.explainHangUp address) := by
  refine ⟨?_, h.cap, h.starts⟩
  rw [explainHangUp_addresses]
  exact h.addresses

theorem addDownload (h : Capped m) (allocator : Allocator) (sharer : UserRecord)
    (sessionId localSessionId localUserName : String) (group : List FileResult) :
    Capped (m.addDownload allocator sharer sessionId localSessionId localUserName group) := by
  rw [ManagerWorld.addDownload]
  refine Capped.report ⟨?_, h.cap, h.starts⟩ rfl
  rw [List.map_append, List.map_singleton, List.nodup_append]
  refine ⟨h.addresses, List.nodup_singleton _, ?_⟩
  rintro address hm _ hp rfl
  rw [List.mem_singleton.mp hp] at hm
  exact allocator.place_fresh _ _ hm

theorem addGroup (h : Capped m) (allocator : Allocator) (users : UserRegistry)
    (localSessionId localUserName : String) (entry : String × List FileResult) :
    Capped (m.addGroup allocator users localSessionId localUserName entry) := by
  rw [ManagerWorld.addGroup]
  split
  · exact h.report rfl
  · split
    · exact h.report rfl
    · exact h.addDownload ..

theorem clearFinishedDownloads (h : Capped m) : Capped m.clearFinishedDownloads := by
  rw [ManagerWorld.clearFinishedDownloads]
  split
  · exact h
  · refine Capped.report ⟨?_, h.cap, h.starts⟩ rfl
    exact h.addresses.sublist (List.filter_sublist.map _)

theorem abortAt (h : Capped m) (os : OperatingSystem) (startOs : Nat → OperatingSystem)
    (reason : String) (index : Nat) : Capped (m.abortAt os startOs reason index) := by
  rcases abortAt_cases os startOs reason m index with ⟨-, he⟩ | ⟨download, -, hd⟩
  · rwa [he]
  · exact drains hd (h.cancelled ..)

theorem deliver [MuscleText] (h : Capped m) (os : OperatingSystem)
    (startOs : Nat → OperatingSystem) (address : Nat) (callback : DownloadCallback) :
    Capped (m.deliver os startOs address callback) := by
  rcases deliver_cases os startOs m address callback with
    he | ⟨download, -, -, ⟨-, hd⟩ | ⟨-, m', hd, he⟩⟩
  · rwa [he]
  · exact drains hd (h.setDownload ..)
  · rw [he]
    exact (drains hd (h.setDownload ..)).explainHangUp _

theorem addGroups (h : Capped m) (allocator : Allocator) (users : UserRegistry)
    (localSessionId localUserName : String) (groups : List (String × List FileResult)) :
    Capped (groups.foldl
      (ManagerWorld.addGroup allocator users localSessionId localUserName) m) := by
  induction groups generalizing m with
  | nil => exact h
  | cons entry groups ih => exact ih (h.addGroup ..)

theorem startDownloads (h : Capped m) (startOs : Nat → OperatingSystem)
    (results : List FileResult) (users : UserRegistry) (localSessionId localUserName : String)
    (allocator : Allocator) :
    Capped (m.startDownloads startOs results users localSessionId localUserName allocator) := by
  rcases startDownloads_cases startOs m results users localSessionId localUserName allocator with
    ⟨-, he⟩ | hd
  · rwa [he]
  · exact drains hd (h.addGroups ..)

theorem abortAll (h : Capped m) (os : OperatingSystem) (startOs : Nat → OperatingSystem) :
    Capped (m.abortAll os startOs) :=
  abortAll_preserves (fun _ index hc => hc.abortAt os startOs _ index) h

theorem handle [MuscleText] (h : Capped m) (e : ManagerEvent) : Capped (m.handle e) := by
  rw [ManagerWorld.handle]
  cases e.call with
  | startDownloads => exact h.startDownloads ..
  | abortDownload => exact h.abortAt ..
  | abortAll => exact h.abortAll ..
  | clearFinishedDownloads => exact h.clearFinishedDownloads
  | performIdleTasks => exact performIdleTasks_preserves h h.clearFinishedDownloads
  | setMaxSimultaneousDownloads => exact ⟨h.addresses, Nat.le_max_right .., h.starts⟩
  | sessionConnected => exact h.deliver ..
  | sessionDisconnected => exact h.deliver ..
  | messageReceived => exact h.deliver ..
  | _ => exact ⟨h.addresses, h.cap, h.starts⟩

end Capped

/-! ### Whoever waits is woken -/

theorem startNext_drained (startOs : Nat → OperatingSystem) (fuel : Nat) (m : ManagerWorld)
    (hfuel : m.queuedStarts.length ≤ fuel) : Drained (m.startNext startOs fuel) := by
  induction fuel generalizing m with
  | zero => exact .inl (List.length_eq_zero_iff.mp (Nat.le_zero.mp hfuel))
  | succ fuel ih =>
    rw [startNext]
    split
    · next hq => exact .inl hq
    · next queued waiting hq =>
      rw [hq, List.length_cons] at hfuel
      have hwaiting : waiting.length ≤ fuel := Nat.le_of_succ_le_succ hfuel
      split
      · split
        · exact ih _ hwaiting
        · next download _ =>
          -- Whatever the callbacks of this start did, the queue has not grown since.
          let launched := m.launch (startOs waiting.length) queued waiting download
          refine ih _ (le_trans (Drains.frame (m := launched) ?_).queue.length_le hwaiting)
          exact (foldl_notify_drains (startNext_drains startOs fuel) ..).trans
            (reportStart_drains ..)
      · next hfull => exact .inr (not_lt.mp hfull)

theorem startNextQueuedDownload_drained (startOs : Nat → OperatingSystem) (m : ManagerWorld) :
    Drained (m.startNextQueuedDownload startOs) := startNext_drained startOs _ m le_rfl

/-- Somebody waits only where somebody runs. -/
def Awake (m : ManagerWorld) : Prop := m.queuedStarts ≠ [] → 0 < m.countRunningDownloads

theorem Drained.awake (h : Drained m) (hcap : 1 ≤ m.maxSimultaneousDownloads) : Awake m := by
  intro hwaiting
  exact hcap.trans (h.resolve_left hwaiting)

theorem notify_downloads {startNext : ManagerWorld → ManagerWorld} (m : ManagerWorld)
    (address : Nat) (h : ∀ state, occurrence ≠ .downloadStateChanged state) :
    (m.notify startNext address occurrence).downloads = m.downloads := by
  have hprogress : (m.downloadProgress address).downloads = m.downloads := by
    rw [downloadProgress]
    split <;> rfl
  cases occurrence with
  | downloadStateChanged state => exact (h state rfl).elim
  | downloadProgress => exact hprogress
  | downloadFileCompleted => exact hprogress
  | _ => rfl

theorem downloadStateChanged_drained (startOs : Nat → OperatingSystem) {m : ManagerWorld}
    (hd : m.findDownload address = some download) (hf : download.world.isFinished = true) :
    Drained (m.downloadStateChanged (startNextQueuedDownload startOs) address) := by
  obtain ⟨index, hi⟩ := findIndexOf_isSome hd
  simp only [downloadStateChanged, hi, hd, hf, ↓reduceIte]
  exact startNextQueuedDownload_drained ..

theorem foldl_notify_drained (startOs : Nat → OperatingSystem) {m : ManagerWorld}
    {occurrences : List Occurrence}
    (hd : m.findDownload address = some download) (hf : download.world.isFinished = true)
    (hm : .downloadStateChanged state ∈ occurrences) :
    Drained (occurrences.foldl (notify (startNextQueuedDownload startOs) address) m) := by
  induction occurrences generalizing m with
  | nil => cases hm
  | cons occurrence occurrences ih =>
    by_cases ho : ∃ state, occurrence = .downloadStateChanged state
    · obtain ⟨state, rfl⟩ := ho
      exact foldl_notify_preserves (fun _ _ _ h => h)
        (fun m _ => startNextQueuedDownload_drained startOs m) address occurrences
        (downloadStateChanged_drained startOs hd hf)
    · have hne : ∀ state, occurrence ≠ .downloadStateChanged state := fun state he => ho ⟨state, he⟩
      refine ih ?_ ((List.mem_cons.mp hm).resolve_left fun he => hne state he.symm)
      rw [findDownload, notify_downloads m address hne]
      exact hd

theorem countRunningDownloads_setDownload {m : ManagerWorld}
    (hn : (m.downloads.map (·.address)).Nodup)
    (hd : m.findDownload address = some download)
    (hr : download.isRunning = true → ({ download with world } : DownloadObject).isRunning = true) :
    m.countRunningDownloads ≤ (m.setDownload address world).countRunningDownloads := by
  rw [countRunningDownloads, countRunningDownloads, setDownload, List.countP_map]
  apply List.countP_mono_left
  intro d hm hrun
  rw [Function.comp_apply]
  split
  · next ha =>
    obtain rfl := eq_of_findDownload hn hd hm ha
    exact hr hrun
  · exact hrun

/-- After a call into a download nobody is left waiting in vain, whatever the call did to it. -/
theorem callDownload_awake (startOs : Nat → OperatingSystem) {m : ManagerWorld} (hc : Capped m)
    (hd : m.findDownload download.address = some download)
    (hw : download.world.Announced world) (h : Awake m) :
    Awake (m.callDownload (startNextQueuedDownload startOs) download world) := by
  obtain ⟨later, hlater, hstate⟩ := hw.history
  have hcapped := Capped.drains (callDownload_drains startOs m download world) (hc.setDownload ..)
  by_cases hr : download.isRunning = true →
      ({ download with world } : DownloadObject).isRunning = true
  · -- No slot was freed by the call itself, so the one that ran before it still does.
    have hset : Awake (m.setDownload download.address world) := fun hwaiting =>
      (h hwaiting).trans_le (countRunningDownloads_setDownload hc.addresses hd hr)
    have hkept : 1 ≤ (m.callDownload (startNextQueuedDownload startOs) download
        world).maxSimultaneousDownloads ∧
        Awake (m.callDownload (startNextQueuedDownload startOs) download world) := by
      apply foldl_notify_preserves (I := fun m => 1 ≤ m.maxSimultaneousDownloads ∧ Awake m)
      · intro m action _ hm
        exact hm
      · intro m hm
        have hcap : 1 ≤ (m.startNextQueuedDownload startOs).maxSimultaneousDownloads := by
          rw [(startNextQueuedDownload_drains startOs m).frame.cap]
          exact hm.1
        exact ⟨hcap, (startNextQueuedDownload_drained startOs m).awake hcap⟩
      · exact ⟨hc.cap, hset⟩
    exact hkept.2
  · -- It was finished by the call, which says so.
    obtain ⟨hrun, hnot⟩ := Classical.not_imp.mp hr
    simp only [DownloadObject.isRunning, FileDownload.isFinished, ne_eq, Bool.and_eq_true,
      decide_eq_true_eq, Bool.not_eq_true', not_and] at hrun hnot
    rcases hstate with hsame | ⟨hidle, hchanged⟩
    · rw [hsame] at hnot
      exact absurd hrun.2 (hnot hrun.1)
    · refine Drained.awake ?_ hcapped.cap
      apply foldl_notify_drained startOs (findDownload_setDownload hd world)
      · exact Bool.not_eq_false _ ▸ hnot hidle
      · rw [hlater, List.drop_left]
        exact hchanged

theorem abortAt_awake (os : OperatingSystem) (startOs : Nat → OperatingSystem) (reason : String)
    (hc : Capped m) (h : Awake m) (index : Nat) : Awake (m.abortAt os startOs reason index) := by
  rw [abortAt]
  split
  · exact h
  · next download hd =>
    have hfound : m.findDownload download.address = some download :=
      findDownload_of_mem hc.addresses (List.mem_of_getElem? hd)
    apply callDownload_awake startOs (m := m.act (.aborted download.serial)) _ hfound
      (DownloadWorld.announced_abort ..) h
    apply hc.act
    intro _ _ _ _ he
    cases he

theorem explainHangUp_awake (address : Nat) (h : Awake m) : Awake (m.explainHangUp address) := by
  have hcount : (m.explainHangUp address).countRunningDownloads = m.countRunningDownloads := by
    rw [countRunningDownloads, explainHangUp, List.countP_map, countRunningDownloads]
    apply List.countP_congr
    intro download _
    rw [Function.comp_apply]
    split
    · rw [DownloadObject.isRunning, FileDownload.isFinished,
        (DownloadWorld.explainHangUp_frame download.world).1]
      exact Iff.rfl
    · exact Iff.rfl
  rw [Awake, hcount]
  exact h

theorem deliver_awake [MuscleText] (os : OperatingSystem) (startOs : Nat → OperatingSystem)
    (hc : Capped m) (h : Awake m) (address : Nat) (callback : DownloadCallback) :
    Awake (m.deliver os startOs address callback) := by
  rw [deliver]
  split
  · exact h
  · next download hd =>
    have hfound : m.findDownload download.address = some download := by
      rw [(findDownload_eq_some hd).2]
      exact hd
    split
    · split
      · exact explainHangUp_awake _
          (callDownload_awake startOs hc hfound (DownloadWorld.announced_hangUp _) h)
      · exact callDownload_awake startOs hc hfound (DownloadWorld.announced_handle ..) h
    · exact h

theorem clearFinishedDownloads_awake (h : Awake m) : Awake m.clearFinishedDownloads := by
  rw [clearFinishedDownloads]
  split
  · exact h
  · intro hwaiting
    rw [countRunningDownloads, act_downloads, List.countP_filter]
    refine (h hwaiting).trans_le (List.countP_mono_left ?_)
    intro download _ hr
    have hnot : download.world.isFinished = false := by
      simpa using (Bool.and_eq_true_iff.mp hr).2
    simp [hr, hnot]

theorem startDownloads_awake (startOs : Nat → OperatingSystem) (hc : Capped m) (h : Awake m)
    (results : List FileResult) (users : UserRegistry) (localSessionId localUserName : String)
    (allocator : Allocator) :
    Awake (m.startDownloads startOs results users localSessionId localUserName allocator) := by
  have hcap := (hc.startDownloads startOs results users localSessionId localUserName allocator).cap
  by_cases he : results.isEmpty = true
  · rw [startDownloads, if_pos he]
    exact h
  · rw [startDownloads, if_neg he] at hcap ⊢
    exact (startNextQueuedDownload_drained startOs _).awake hcap

theorem abortAll_awake (os : OperatingSystem) (startOs : Nat → OperatingSystem) (hc : Capped m)
    (h : Awake m) : Awake (m.abortAll os startOs) := by
  have hboth : Capped (m.abortAll os startOs) ∧ Awake (m.abortAll os startOs) := by
    apply abortAll_preserves (I := fun m => Capped m ∧ Awake m) ?_ ⟨hc, h⟩
    rintro m index ⟨hc, h⟩
    exact ⟨hc.abortAt .., abortAt_awake os startOs _ hc h index⟩
  exact hboth.2

theorem handle_awake [MuscleText] (hc : Capped m) (h : Awake m) (e : ManagerEvent) :
    Awake (m.handle e) := by
  rw [handle]
  cases e.call with
  | startDownloads => exact startDownloads_awake _ hc h _ _ _ _ _
  | abortDownload => exact abortAt_awake _ _ _ hc h _
  | abortAll => exact abortAll_awake _ _ hc h
  | clearFinishedDownloads => exact clearFinishedDownloads_awake h
  | performIdleTasks => exact performIdleTasks_preserves h (clearFinishedDownloads_awake h)
  | sessionConnected => exact deliver_awake _ _ hc h _ _
  | sessionDisconnected => exact deliver_awake _ _ hc h _ _
  | messageReceived => exact deliver_awake _ _ hc h _ _
  | _ => exact h

theorem new_capped : Capped new :=
  ⟨List.nodup_nil, by decide, fun _ _ _ _ hm => by cases hm⟩

end ManagerWorld

/-- In every run each start finds a free slot, and no waiting start is stranded. -/
theorem download_scheduling [MuscleText] (es : List ManagerEvent) :
    ManagerWorld.machine.EveryState ManagerWorld.Scheduled ManagerWorld.new es := by
  have hinvariant : ManagerWorld.machine.EveryState (fun m => m.Capped ∧ m.Awake)
      ManagerWorld.new es := by
    apply EventMachine.everyState_of_preserved
    · rintro m e ⟨hc, h⟩
      exact ⟨hc.handle e, ManagerWorld.handle_awake hc h e⟩
    · exact ⟨ManagerWorld.new_capped, fun h => (h rfl).elim⟩
  exact hinvariant.imp fun _ ⟨hc, h⟩ => ⟨hc.starts, h⟩

end HiTuxShare
