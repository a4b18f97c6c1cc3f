import HiTuxShare.DownloadBookkeeping
import HiTuxShare.DownloadScheduling

namespace HiTuxShare
set_option autoImplicit true

namespace ManagerWorld

/-- How many of the recorded starts have left the queue. -/
def popped (m : ManagerWorld) : Nat := m.recorded.length - m.queuedStarts.length

/-- The calls of `Start`: which download, with what. -/
def startsMade (m : ManagerWorld) : List (Nat × QueuedStart) :=
  m.actions.filterMap fun
    | .started serial queued _ _ => some (serial, queued)
    | _ => none

/-- How a download stands to the queue. -/
structure InPlace (m : ManagerWorld) (download : DownloadObject) : Prop where
  recorded : ∃ queued, m.recorded[download.serial]? = some queued ∧
    queued.download = download.address
  /-- No other waiting start is for this address. -/
  own : ∀ i queued, m.popped ≤ i → m.recorded[i]? = some queued →
    queued.download = download.address → i = download.serial
  waiting : m.popped ≤ download.serial → download.isRunning = false ∧
    .threadStarted ∉ download.world.history
  begun : download.serial < m.popped → download.world.state ≠ .idle
  asks : download.world.requestedFiles ≠ []

/-- The queue holds the starts that were recorded last, in their order, and an address stands for
one download. -/
structure Orderly (m : ManagerWorld) : Prop where
  addresses : (m.downloads.map (·.address)).Nodup
  serials : (m.downloads.map (·.serial)).Pairwise (· < ·)
  queue : m.queuedStarts <:+ m.recorded
  inPlace : ∀ download ∈ m.downloads, InPlace m download
  starts : ∀ start ∈ m.startsMade, start.1 < m.popped ∧ m.recorded[start.1]? = some start.2
  once : (m.startsMade.map Prod.fst).Nodup

theorem popped_le (m : ManagerWorld) : m.popped ≤ m.recorded.length := Nat.sub_le ..

theorem recorded_popped {m : ManagerWorld} (h : m.queuedStarts <:+ m.recorded)
    (hq : m.queuedStarts = queued :: waiting) :
    m.recorded[m.popped]? = some queued ∧ waiting <:+ m.recorded ∧
      ({ m with queuedStarts := waiting } : ManagerWorld).popped = m.popped + 1 := by
  obtain ⟨before, hb⟩ := h
  have hlength : m.popped = before.length := by
    rw [popped, ← hb, List.length_append, Nat.add_sub_cancel]
  rw [hq] at hb
  refine ⟨?_, ⟨before ++ [queued], by rw [← hb, List.append_assoc]; rfl⟩,
    ?_⟩
  · rw [hlength, ← hb, List.getElem?_append_right le_rfl, Nat.sub_self]
    rfl
  · have hcount : m.recorded.length = before.length + (waiting.length + 1) := by
      rw [← hb, List.length_append, List.length_cons]
    change m.recorded.length - waiting.length = _
    omega

/-- Every waiting start is a recorded one that has not left the queue. -/
theorem mem_queuedStarts {m : ManagerWorld} (h : m.queuedStarts <:+ m.recorded)
    (hm : queued ∈ m.queuedStarts) : ∃ i, m.popped ≤ i ∧ m.recorded[i]? = some queued := by
  obtain ⟨before, hb⟩ := h
  obtain ⟨j, hj⟩ := List.mem_iff_getElem?.mp hm
  refine ⟨before.length + j, ?_, ?_⟩
  · rw [popped, ← hb, List.length_append]
    omega
  · rw [← hb, List.getElem?_append_right (Nat.le_add_right ..), Nat.add_sub_cancel_left, hj]

theorem mem_queuedStarts_of_recorded {m : ManagerWorld} (h : m.queuedStarts <:+ m.recorded)
    (hi : m.popped ≤ i) (hr : m.recorded[i]? = some queued) : queued ∈ m.queuedStarts := by
  obtain ⟨before, hb⟩ := h
  have hlength : m.popped = before.length := by
    rw [popped, ← hb, List.length_append, Nat.add_sub_cancel]
  rw [← hb, List.getElem?_append_right (hlength ▸ hi)] at hr
  exact List.mem_of_getElem? hr

theorem startsMade_act (m : ManagerWorld) (h : ∀ serial queued running cap,
    action ≠ .started serial queued running cap) : (m.act action).startsMade = m.startsMade := by
  rw [startsMade, act_actions, List.filterMap_append, startsMade]
  cases action with
  | started serial queued running cap => exact (h serial queued running cap rfl).elim
  | _ => exact List.append_nil _

theorem startsMade_act_started (m : ManagerWorld) (serial : Nat) (queued : QueuedStart)
    (running cap : Nat) : (m.act (.started serial queued running cap)).startsMade =
      m.startsMade ++ [(serial, queued)] := by
  rw [startsMade, act_actions, List.filterMap_append]
  rfl

theorem InPlace.pop (h : InPlace m download) (hr : m'.recorded = m.recorded)
    (hp : m'.popped = m.popped + 1) (hne : download.serial ≠ m.popped) : InPlace m' download := by
  refine ⟨hr ▸ h.recorded, ?_, ?_, ?_, h.asks⟩
  · intro i queued hi hq
    rw [hr] at hq
    exact h.own i queued (by omega) hq
  · intro hw
    exact h.waiting (by omega)
  · intro hb
    exact h.begun (by omega)

namespace Orderly

theorem act (h : Orderly m) (ha : ∀ serial queued running cap,
    action ≠ .started serial queued running cap) : Orderly (m.act action) := by
  refine ⟨h.addresses, h.serials, h.queue, ?_, ?_, ?_⟩
  · intro download hm
    have hplace := h.inPlace download hm
    exact ⟨hplace.recorded, hplace.own, hplace.waiting, hplace.begun, hplace.asks⟩
  · rw [startsMade_act m ha]
    exact h.starts
  · rw [startsMade_act m ha]
    exact h.once

theorem report (h : Orderly m) (hr : action.isReport = true) : Orderly (m.act action) := by
  apply h.act
  rintro _ _ _ _ rfl
  cases hr

theorem setDownload (h : Orderly m) (hd : d ∈ m.downloads) (hw : InPlace m { d with world }) :
    Orderly (m.setDownload d.address world) := by
  refine ⟨?_, ?_, h.queue, ?_, h.starts, h.once⟩
  · rw [setDownload_addresses]
    exact h.addresses
  · rw [setDownload_serials]
    exact h.serials
  · intro d' hm
    rcases replaced_or_old h.addresses hd hm with rfl | ⟨hold, -⟩
    · exact ⟨hw.recorded, hw.own, hw.waiting, hw.begun, hw.asks⟩
    · have hplace := h.inPlace d' hold
      exact ⟨hplace.recorded, hplace.own, hplace.waiting, hplace.begun, hplace.asks⟩

theorem eq_of_serial (h : Orderly m) (hd : d ∈ m.downloads) (hd' : d' ∈ m.downloads)
    (hs : d.serial = d'.serial) : d = d' :=
  List.inj_on_of_nodup_map (h.serials.imp ne_of_lt) hd hd' hs

/-- The start at the head of the queue is found to be for the download it was recorded for. -/
theorem serial_eq_popped (h : Orderly m) (hq : m.queuedStarts = queued :: waiting)
    (hd : m.findDownload queued.download = some download) : download.serial = m.popped := by
  obtain ⟨hm, ha⟩ := findDownload_eq_some hd
  exact ((h.inPlace download hm).own _ queued le_rfl (recorded_popped h.queue hq).1 ha.symm).symm

theorem skip (h : Orderly m) (hq : m.queuedStarts = queued :: waiting)
    (hd : m.findDownload queued.download = none) :
    Orderly { m with queuedStarts := waiting } := by
  obtain ⟨hhead, hsuffix, hpopped⟩ := recorded_popped h.queue hq
  refine ⟨h.addresses, h.serials, hsuffix, ?_, ?_, h.once⟩
  · intro download hm
    have hplace := h.inPlace download hm
    refine hplace.pop rfl hpopped fun hs => ?_
    obtain ⟨queued', hr, ha⟩ := hplace.recorded
    rw [hs, hhead] at hr
    cases hr
    exact findDownload_eq_none hd download hm ha.symm
  · intro start hm
    obtain ⟨hlt, hr⟩ := h.starts start hm
    exact ⟨by omega, hr⟩

theorem launch (h : Orderly m) (os : OperatingSystem) (hq : m.queuedStarts = queued :: waiting)
    (hd : m.findDownload queued.download = some download) :
    Orderly (m.launch os queued waiting download) := by
  obtain ⟨hhead, hsuffix, hpopped⟩ := recorded_popped h.queue hq
  obtain ⟨hm, haddress⟩ := findDownload_eq_some hd
  have hserial := h.serial_eq_popped hq hd
  have hpopped' : (m.launch os queued waiting download).popped = m.popped + 1 := hpopped
  have hmade : (m.launch os queued waiting download).startsMade =
      m.startsMade ++ [(download.serial, queued)] := startsMade_act_started ..
  have hplace := h.inPlace download hm
  refine ⟨?_, ?_, hsuffix, ?_, ?_, ?_⟩
  · rw [ManagerWorld.launch, setDownload_addresses]
    exact h.addresses
  · rw [ManagerWorld.launch, setDownload_serials]
    exact h.serials
  · intro d hmem
    rcases replaced_or_old h.addresses hm hmem with rfl | ⟨hold, hne⟩
    · -- The download that is started.
      refine ⟨hplace.recorded, ?_, ?_, ?_, ?_⟩
      · intro i queued' hi hr he
        exact hplace.own i queued' (by omega) hr he
      · intro hw
        have hw : m.popped + 1 ≤ download.serial := hpopped' ▸ hw
        omega
      · intro _
        apply DownloadWorld.start_state_ne_idle hplace.asks
      · rw [(DownloadWorld.announced_start ..).requestedFiles]
        exact hplace.asks
    · refine (h.inPlace d hold).pop rfl hpopped' fun he => hne ?_
      rw [h.eq_of_serial hold hm (he.trans hserial.symm)]
  · intro start hmem
    rw [hpopped']
    rw [hmade] at hmem
    rcases List.mem_append.mp hmem with hmem | hmem
    · obtain ⟨hlt, hr⟩ := h.starts start hmem
      exact ⟨by omega, hr⟩
    · rw [List.mem_singleton.mp hmem, hserial]
      exact ⟨Nat.lt_succ_self _, hhead⟩
  · rw [hmade, List.map_append, List.map_singleton, List.nodup_append]
    refine ⟨h.once, List.nodup_singleton _, ?_⟩
    rintro serial hs _ hs' rfl
    obtain ⟨start, hstart, rfl⟩ := List.mem_map.mp hs
    have hlt := (h.starts start hstart).1
    have he : start.1 = download.serial := List.mem_singleton.mp hs'
    omega

theorem drainStep (hd : DrainStep m m') (h : Orderly m) : Orderly m' := by
  cases hd with
  | report _ hr => exact h.report hr
  | skip _ hq hd => exact h.skip hq hd
  | launch _ os hq _ hd => exact h.launch os hq hd

theorem drains (hd : Drains m m') (h : Orderly m) : Orderly m' :=
  hd.invariant (fun _ _ => drainStep) h

theorem popped_of_started (h : Orderly m) (hd : d ∈ m.downloads)
    (ht : .threadStarted ∈ d.world.history) : d.serial < m.popped := by
  by_contra hwaiting
  exact ((h.inPlace d hd).waiting (not_lt.mp hwaiting)).2 ht

/-- A call that says when it changes the state leaves a download that was started in its place. -/
theorem inPlace_announced (h : Orderly m) (hd : d ∈ m.downloads)
    (ht : .threadStarted ∈ d.world.history) (hw : d.world.Announced world) :
    InPlace m { d with world } := by
  have hplace := h.inPlace d hd
  have hstarted := h.popped_of_started hd ht
  obtain ⟨later, -, hstate⟩ := hw.history
  refine ⟨hplace.recorded, hplace.own, fun hp => ?_, fun _ => ?_, ?_⟩
  · exact absurd hstarted (not_lt.mpr hp)
  · rcases hstate with hsame | ⟨hidle, -⟩
    · exact hsame ▸ hplace.begun hstarted
    · exact hidle
  · exact hw.requestedFiles ▸ hplace.asks

theorem inPlace_abort (h : Orderly m) (hd : d ∈ m.downloads) (os : OperatingSystem)
    (reason : String) : InPlace m { d with world := d.world.abort os reason } := by
  have hplace := h.inPlace d hd
  have hfinished := DownloadWorld.abort_isFinished os d.world reason
  refine ⟨hplace.recorded, hplace.own, fun hp => ⟨?_, ?_⟩, fun _ hidle => ?_, ?_⟩
  · simp [DownloadObject.isRunning, hfinished]
  · rw [DownloadWorld.abort_threadStarted]
    exact (hplace.waiting hp).2
  · rw [FileDownload.isFinished, hidle] at hfinished
    cases hfinished
  · exact (DownloadWorld.announced_abort os d.world reason).requestedFiles ▸ hplace.asks

theorem cancelled (h : Orderly m) (os : OperatingSystem) (reason : String)
    (hd : d ∈ m.downloads) : Orderly (m.cancelled os reason d) := by
  have hact : Orderly (m.act (.aborted d.serial)) := h.act fun _ _ _ _ he => by cases he
  exact hact.setDownload hd (hact.inPlace_abort hd os reason)

theorem abortAt (h : Orderly m) (os : OperatingSystem) (startOs : Nat → OperatingSystem)
    (reason : String) (index : Nat) : Orderly (m.abortAt os startOs reason index) := by
  rcases abortAt_cases os startOs reason m index with ⟨-, he⟩ | ⟨download, hd, hdrains⟩
  · rwa [he]
  · exact drains hdrains (h.cancelled os reason (List.mem_of_getElem? hd))

theorem explainHangUp (h : Orderly m) (address : Nat) : Orderly (m.explainHangUp address) := by
  let explained (d : DownloadObject) : DownloadObject :=
    if d.address = address then { d with world := d.world.explainHangUp } else d
  have hframe (d : DownloadObject) : (explained d).address = d.address ∧
      (explained d).serial = d.serial ∧ (explained d).world.state = d.world.state ∧
      (explained d).world.requestedFiles = d.world.requestedFiles ∧
      (explained d).world.history = d.world.history := by
    simp only [explained]
    split
    · exact ⟨rfl, rfl, DownloadWorld.explainHangUp_frame d.world⟩
    · exact ⟨rfl, rfl, rfl, rfl, rfl⟩
  refine ⟨?_, ?_, h.queue, ?_, h.starts, h.once⟩
  · rw [explainHangUp_addresses]
    exact h.addresses
  · rw [explainHangUp_serials]
    exact h.serials
  · intro d' hm
    obtain ⟨d, hd, rfl⟩ := List.mem_map.mp hm
    obtain ⟨haddress, hserial, hstate, hrequested, hhistory⟩ := hframe d
    have hplace := h.inPlace d hd
    change InPlace _ (explained d)
    refine ⟨?_, ?_, ?_, ?_, ?_⟩
    · rw [haddress, hserial]
      exact hplace.recorded
    · rw [haddress, hserial]
      exact hplace.own
    · rw [hserial, hhistory, DownloadObject.isRunning, FileDownload.isFinished, hstate]
      exact hplace.waiting
    · rw [hserial, hstate]
      exact hplace.begun
    · rw [hrequested]
      exact hplace.asks

theorem deliver [MuscleText] (h : Orderly m) (os : OperatingSystem)
    (startOs : Nat → OperatingSystem) (address : Nat) (callback : DownloadCallback) :
    Orderly (m.deliver os startOs address callback) := by
  rcases deliver_cases os startOs m address callback with
    he | ⟨d, hd, ht, ⟨-, hdrains⟩ | ⟨-, m', hdrains, he⟩⟩
  · rwa [he]
  · have hmem := (findDownload_eq_some hd).1
    exact drains hdrains
      (h.setDownload hmem (h.inPlace_announced hmem ht (DownloadWorld.announced_handle ..)))
  · have hmem := (findDownload_eq_some hd).1
    rw [he]
    have hset := h.setDownload hmem (h.inPlace_announced hmem ht (DownloadWorld.announced_hangUp _))
    exact (drains hdrains hset).explainHangUp address

theorem clearFinishedDownloads (h : Orderly m) : Orderly m.clearFinishedDownloads := by
  rw [ManagerWorld.clearFinishedDownloads]
  split
  · exact h
  · refine Orderly.report (m := { m with downloads := _ })
      ⟨?_, ?_, h.queue, ?_, h.starts, h.once⟩ rfl
    · exact h.addresses.sublist (List.filter_sublist.map _)
    · exact h.serials.sublist (List.filter_sublist.map _)
    · intro d hm
      have hplace := h.inPlace d (List.mem_of_mem_filter hm)
      exact ⟨hplace.recorded, hplace.own, hplace.waiting, hplace.begun, hplace.asks⟩

end Orderly

end ManagerWorld

end HiTuxShare
