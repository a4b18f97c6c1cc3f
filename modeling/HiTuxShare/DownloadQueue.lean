import HiTuxShare.DownloadManager
import Mathlib.Logic.Relation

namespace HiTuxShare
set_option autoImplicit true

def ManagerAction.isReport : ManagerAction → Bool
  | .aborted _ | .started .. => false
  | _ => true

namespace ManagerWorld

/-- One waiting start is taken off the queue and made. -/
def launch (os : OperatingSystem) (m : ManagerWorld) (queued : QueuedStart)
    (waiting : List QueuedStart) (download : DownloadObject) : ManagerWorld :=
  ({ m with queuedStarts := waiting }.act (.started download.serial queued m.countRunningDownloads
    m.maxSimultaneousDownloads)).setDownload download.address
      (download.world.start os queued.hostName queued.port.toNat queued.remoteSessionId
        queued.localSessionId queued.localUserName).1

/-- What can happen while waiting starts are used up, callbacks made on the way included. -/
inductive DrainStep : ManagerWorld → ManagerWorld → Prop where
  | report (m : ManagerWorld) (h : action.isReport = true) : DrainStep m (m.act action)
  | skip (m : ManagerWorld) (hq : m.queuedStarts = queued :: waiting)
      (hd : m.findDownload queued.download = none) : DrainStep m { m with queuedStarts := waiting }
  | launch (m : ManagerWorld) (os : OperatingSystem) (hq : m.queuedStarts = queued :: waiting)
      (hroom : m.countRunningDownloads < m.maxSimultaneousDownloads)
      (hd : m.findDownload queued.download = some download) :
      DrainStep m (m.launch os queued waiting download)

abbrev Drains : ManagerWorld → ManagerWorld → Prop := Relation.ReflTransGen DrainStep

theorem Drains.invariant {I : ManagerWorld → Prop} (hstep : ∀ m m', DrainStep m m' → I m → I m')
    (h : Drains m m') (hi : I m) : I m' := by
  induction h with
  | refl => exact hi
  | tail _ hlast ih => exact hstep _ _ hlast ih

@[simp] theorem act_downloads (m : ManagerWorld) (action : ManagerAction) :
    (m.act action).downloads = m.downloads := rfl

@[simp] theorem act_actions (m : ManagerWorld) (action : ManagerAction) :
    (m.act action).actions = m.actions ++ [action] := rfl

theorem map_replaced {f : DownloadObject → α} (hf : ∀ d w, f { d with world := w } = f d)
    (downloads : List DownloadObject) (address : Nat) (world : DownloadObject → DownloadWorld) :
    (downloads.map fun download =>
      if download.address = address then { download with world := world download }
      else download).map f = downloads.map f := by
  rw [List.map_map]
  apply List.map_congr_left
  intro download _
  rw [Function.comp_apply]
  split
  · exact hf ..
  · rfl

theorem setDownload_addresses (m : ManagerWorld) (address : Nat) (world : DownloadWorld) :
    (m.setDownload address world).downloads.map DownloadObject.address =
      m.downloads.map DownloadObject.address := map_replaced (fun _ _ => rfl) ..

theorem setDownload_serials (m : ManagerWorld) (address : Nat) (world : DownloadWorld) :
    (m.setDownload address world).downloads.map DownloadObject.serial =
      m.downloads.map DownloadObject.serial := map_replaced (fun _ _ => rfl) ..

theorem explainHangUp_addresses (m : ManagerWorld) (address : Nat) :
    (m.explainHangUp address).downloads.map DownloadObject.address =
      m.downloads.map DownloadObject.address := map_replaced (fun _ _ => rfl) ..

theorem explainHangUp_serials (m : ManagerWorld) (address : Nat) :
    (m.explainHangUp address).downloads.map DownloadObject.serial =
      m.downloads.map DownloadObject.serial := map_replaced (fun _ _ => rfl) ..

/-- What stays the same while waiting starts are used up. -/
structure DrainFrame (m m' : ManagerWorld) : Prop where
  queue : m'.queuedStarts <:+ m.queuedStarts
  recorded : m'.recorded = m.recorded
  cap : m'.maxSimultaneousDownloads = m.maxSimultaneousDownloads
  addresses : m'.downloads.map (·.address) = m.downloads.map (·.address)
  serials : m'.downloads.map (·.serial) = m.downloads.map (·.serial)

theorem drainStep_frame (h : DrainStep m m') : DrainFrame m m' := by
  cases h with
  | report => exact ⟨List.suffix_rfl, rfl, rfl, rfl, rfl⟩
  | skip _ hq => exact ⟨hq ▸ List.suffix_cons .., rfl, rfl, rfl, rfl⟩
  | launch _ _ hq =>
    exact ⟨hq ▸ List.suffix_cons .., rfl, rfl, setDownload_addresses .., setDownload_serials ..⟩

theorem Drains.frame (h : Drains m m') : DrainFrame m m' := by
  induction h with
  | refl => exact ⟨List.suffix_rfl, rfl, rfl, rfl, rfl⟩
  | tail _ hlast ih =>
    have hstep := drainStep_frame hlast
    exact ⟨hstep.queue.trans ih.queue, hstep.recorded.trans ih.recorded, hstep.cap.trans ih.cap,
      hstep.addresses.trans ih.addresses, hstep.serials.trans ih.serials⟩

theorem replaced_or_old {m : ManagerWorld} (hn : (m.downloads.map (·.address)).Nodup)
    (hd : d ∈ m.downloads) (h : d' ∈ (m.setDownload d.address world).downloads) :
    d' = { d with world } ∨ d' ∈ m.downloads ∧ d'.address ≠ d.address := by
  obtain ⟨old, hold, rfl⟩ := List.mem_map.mp h
  by_cases ha : old.address = d.address
  · obtain rfl := List.inj_on_of_nodup_map hn hold hd ha
    exact .inl (if_pos rfl)
  · rw [if_neg ha]
    exact .inr ⟨hold, ha⟩

theorem findDownload_eq_some {m : ManagerWorld} (h : m.findDownload address = some download) :
    download ∈ m.downloads ∧ download.address = address :=
  ⟨List.mem_of_find?_eq_some h, by simpa using List.find?_some h⟩

theorem findDownload_eq_none {m : ManagerWorld} (h : m.findDownload address = none) :
    ∀ d ∈ m.downloads, d.address ≠ address := by
  simpa [findDownload] using h

theorem eq_of_findDownload {m : ManagerWorld} (hn : (m.downloads.map (·.address)).Nodup)
    (h : m.findDownload address = some download) (hd : d ∈ m.downloads)
    (ha : d.address = address) : d = download := by
  obtain ⟨hm, ha'⟩ := findDownload_eq_some h
  exact List.inj_on_of_nodup_map hn hd hm (ha.trans ha'.symm)

theorem findDownload_of_mem {m : ManagerWorld} (hn : (m.downloads.map (·.address)).Nodup)
    (hd : d ∈ m.downloads) : m.findDownload d.address = some d := by
  cases h : m.findDownload d.address with
  | none => exact absurd rfl (findDownload_eq_none h d hd)
  | some download => rw [eq_of_findDownload hn h hd rfl]

theorem findDownload_setDownload {m : ManagerWorld} (h : m.findDownload address = some download)
    (world : DownloadWorld) :
    (m.setDownload address world).findDownload address = some { download with world } := by
  have ha := (findDownload_eq_some h).2
  rw [findDownload, setDownload, List.find?_map]
  rw [findDownload] at h
  have hcomp : ((fun d : DownloadObject => decide (d.address = address)) ∘ fun d =>
      if d.address = address then { d with world } else d) =
        fun d => decide (d.address = address) := by
    funext d
    rw [Function.comp_apply]
    split <;> rfl
  rw [hcomp, h, Option.map_some, if_pos ha]

theorem findIndexOf_isSome {m : ManagerWorld} (h : m.findDownload address = some download) :
    ∃ index, m.findIndexOf address = some index := by
  obtain ⟨hm, ha⟩ := findDownload_eq_some h
  cases hi : m.findIndexOf address with
  | none =>
    have hnone := List.findIdx?_eq_none_iff.mp hi download hm
    simp [ha] at hnone
  | some index => exact ⟨index, rfl⟩

/-- What the callbacks of one call keep, if a report keeps it and starting the next ones does. -/
theorem notify_preserves {I : ManagerWorld → Prop} {startNext : ManagerWorld → ManagerWorld}
    (hact : ∀ m action, action.isReport = true → I m → I (m.act action))
    (hnext : ∀ m, I m → I (startNext m)) (address : Nat) (occurrence : Occurrence) (h : I m) :
    I (m.notify startNext address occurrence) := by
  have hprogress (m : ManagerWorld) (h : I m) : I (m.downloadProgress address) := by
    rw [downloadProgress]
    split
    · exact h
    · exact hact _ _ rfl h
  cases occurrence with
  | downloadStateChanged state =>
    change I (m.downloadStateChanged startNext address)
    rw [downloadStateChanged]
    split
    · next index download _ _ =>
      have hreported : I (if download.world.state = .failed then
          m.act (failureReport download.world.toFileDownload) else m) := by
        split
        · exact hact _ _ rfl h
        · exact h
      have hchanged := hact _ (.downloadChanged index) rfl hreported
      dsimp only
      split
      · exact hnext _ hchanged
      · exact hchanged
    · exact h
  | downloadProgress => exact hprogress m h
  | downloadFileCompleted path => exact hact _ _ rfl (hprogress m h)
  | _ => exact h

theorem foldl_notify_preserves {I : ManagerWorld → Prop}
    {startNext : ManagerWorld → ManagerWorld}
    (hact : ∀ m action, action.isReport = true → I m → I (m.act action))
    (hnext : ∀ m, I m → I (startNext m)) (address : Nat) (occurrences : List Occurrence)
    (h : I m) : I (occurrences.foldl (notify startNext address) m) := by
  induction occurrences generalizing m with
  | nil => exact h
  | cons occurrence occurrences ih => exact ih (notify_preserves hact hnext address occurrence h)

theorem foldl_notify_drains {startNext : ManagerWorld → ManagerWorld}
    (h : ∀ m, Drains m (startNext m)) (address : Nat) (m : ManagerWorld)
    (occurrences : List Occurrence) :
    Drains m (occurrences.foldl (notify startNext address) m) :=
  foldl_notify_preserves (I := Drains m) (fun _ _ hr hm => hm.tail (.report _ hr))
    (fun _ hm => hm.trans (h _)) address occurrences .refl

theorem reportStart_drains (m : ManagerWorld) (address : Nat) (status : Status) :
    Drains m (m.reportStart address status) := by
  cases status with
  | noError => exact .refl
  | _ => exact .single (.report m rfl)

theorem startNext_drains (startOs : Nat → OperatingSystem) (fuel : Nat) (m : ManagerWorld) :
    Drains m (m.startNext startOs fuel) := by
  induction fuel generalizing m with
  | zero => exact .refl
  | succ fuel ih =>
    rw [startNext]
    split
    · exact .refl
    · next queued waiting hq =>
      split
      · next hroom =>
        split
        · next hd => exact .head (.skip m hq hd) (ih _)
        · next download hd =>
          have hlaunch := DrainStep.launch m (startOs waiting.length) hq hroom hd
          -- The callbacks of `Start` come first, then its report, then the rest of the loop.
          exact .head hlaunch ((foldl_notify_drains ih ..).trans
            ((reportStart_drains ..).trans (ih _)))
      · exact .refl

theorem startNextQueuedDownload_drains (startOs : Nat → OperatingSystem) (m : ManagerWorld) :
    Drains m (m.startNextQueuedDownload startOs) := startNext_drains ..

theorem callDownload_drains (startOs : Nat → OperatingSystem) (m : ManagerWorld)
    (download : DownloadObject) (world : DownloadWorld) :
    Drains (m.setDownload download.address world)
      (m.callDownload (startNextQueuedDownload startOs) download world) :=
  foldl_notify_drains (startNextQueuedDownload_drains startOs) ..

theorem startDownloads_cases (startOs : Nat → OperatingSystem) (m : ManagerWorld)
    (results : List FileResult) (users : UserRegistry) (localSessionId localUserName : String)
    (allocator : Allocator) :
    results = [] ∧
        m.startDownloads startOs results users localSessionId localUserName allocator = m ∨
      Drains ((groupBySharer results).entries.foldl
          (addGroup allocator users localSessionId localUserName) m)
        (m.startDownloads startOs results users localSessionId localUserName allocator) := by
  rw [startDownloads]
  split
  · next h => exact .inl ⟨List.isEmpty_iff.mp h, rfl⟩
  · right
    dsimp only
    split
    · exact .head (.report _ rfl) (startNextQueuedDownload_drains ..)
    · exact startNextQueuedDownload_drains ..

/-- The manager at the moment an aborted download calls back. -/
def cancelled (m : ManagerWorld) (os : OperatingSystem) (reason : String)
    (download : DownloadObject) : ManagerWorld :=
  (m.act (.aborted download.serial)).setDownload download.address (download.world.abort os reason)

theorem abortAt_cases (os : OperatingSystem) (startOs : Nat → OperatingSystem) (reason : String)
    (m : ManagerWorld) (index : Nat) :
    m.downloads[index]? = none ∧ m.abortAt os startOs reason index = m ∨
      ∃ download, m.downloads[index]? = some download ∧
        Drains (m.cancelled os reason download) (m.abortAt os startOs reason index) := by
  rw [abortAt]
  split
  · next h => exact .inl ⟨h, rfl⟩
  · next download h => exact .inr ⟨download, h, callDownload_drains startOs (m.act _) ..⟩

theorem abortAll_preserves {I : ManagerWorld → Prop} {os : OperatingSystem}
    {startOs : Nat → OperatingSystem}
    (hstep : ∀ m index, I m → I (m.abortAt os startOs "Shutting down" index)) (h : I m) :
    I (m.abortAll os startOs) := by
  rw [abortAll]
  exact List.foldlRecOn _ _ h fun m hm index _ => hstep m index hm

theorem performIdleTasks_preserves {I : ManagerWorld → Prop} (h : I m)
    (hcleared : I m.clearFinishedDownloads) : I m.performIdleTasks := by
  rw [performIdleTasks]
  split
  · exact hcleared
  · exact h

theorem deliver_cases [MuscleText] (os : OperatingSystem) (startOs : Nat → OperatingSystem)
    (m : ManagerWorld) (address : Nat) (callback : DownloadCallback) :
    m.deliver os startOs address callback = m ∨
      ∃ download, m.findDownload address = some download ∧
        .threadStarted ∈ download.world.history ∧
        (download.world.hangsUp callback = false ∧
            Drains (m.setDownload download.address (download.world.handle ⟨callback, os⟩))
              (m.deliver os startOs address callback) ∨
          download.world.hangsUp callback = true ∧
            ∃ m', Drains (m.setDownload download.address download.world.hangUp) m' ∧
              m.deliver os startOs address callback = m'.explainHangUp address) := by
  rw [deliver]
  split
  · exact .inl rfl
  · next download h =>
    split
    · next hthread =>
      refine .inr ⟨download, h, hthread, ?_⟩
      split
      · next hangs => exact .inr ⟨hangs, _, callDownload_drains .., rfl⟩
      · next hangs => exact .inl ⟨Bool.eq_false_iff.mpr hangs, callDownload_drains ..⟩
    · exact .inl rfl

end ManagerWorld

end HiTuxShare
