import HiTuxShare.DownloadIdentity

namespace HiTuxShare
set_option autoImplicit true

namespace ManagerWorld

/-- No new download is put where an earlier one was. -/
def NoReuse (m : ManagerWorld) (e : ManagerEvent) : Prop :=
  ∀ address ∈ m.handedOut e, ∀ queued ∈ m.recorded, queued.download ≠ address

instance (m : ManagerWorld) (e : ManagerEvent) : Decidable (NoReuse m e) :=
  inferInstanceAs (Decidable (∀ address ∈ m.handedOut e, ∀ queued ∈ m.recorded,
    queued.download ≠ address))

theorem Orderly.noAlias (h : Orderly m) (hreuse : NoReuse m e) : NoAlias m e :=
  fun address ha queued hq => hreuse address ha queued (h.queue.subset hq)

/-- Every download with a serial number up to this one is finished. -/
def FinishedUpTo (m : ManagerWorld) (serial : Nat) : Prop :=
  ∀ d ∈ m.downloads, d.serial ≤ serial → d.world.isFinished = true

/-- Only starts behind the head of the queue are made, so what lies before it stays finished. -/
theorem FinishedUpTo.drainStep (hd : DrainStep m m') (ho : Orderly m) (hs : serial < m.popped)
    (h : FinishedUpTo m serial) : serial < m'.popped ∧ FinishedUpTo m' serial := by
  cases hd with
  | report => exact ⟨hs, h⟩
  | skip _ hq =>
    rw [(recorded_popped ho.queue hq).2.2]
    exact ⟨Nat.lt_succ_of_lt hs, h⟩
  | @launch queued waiting download _ os hq _ hd =>
    have hpopped : (m.launch os queued waiting download).popped = m.popped + 1 :=
      (recorded_popped ho.queue hq).2.2
    have hserial := ho.serial_eq_popped hq hd
    rw [hpopped]
    refine ⟨Nat.lt_succ_of_lt hs, fun d hm hle => ?_⟩
    rcases replaced_or_old ho.addresses (findDownload_eq_some hd).1 hm with rfl | ⟨hold, -⟩
    · exact absurd hs (not_lt.mpr (hserial ▸ hle))
    · exact h d hold hle

theorem FinishedUpTo.drains (hd : Drains m m') (ho : Orderly m) (hs : serial < m.popped)
    (h : FinishedUpTo m serial) : FinishedUpTo m' serial := by
  have hall : Orderly m' ∧ serial < m'.popped ∧ FinishedUpTo m' serial := by
    refine hd.invariant (I := fun m => Orderly m ∧ serial < m.popped ∧ FinishedUpTo m serial) ?_
      ⟨ho, hs, h⟩
    intro m m' hstep ⟨ho, hs, h⟩
    exact ⟨ho.drainStep hstep, h.drainStep hstep ho hs⟩
  exact hall.2.2

theorem serial_lt {m : ManagerWorld} {d d' : DownloadObject} {i j : Nat} (h : Orderly m)
    (hj : m.downloads[j]? = some d) (hi : m.downloads[i]? = some d') (hlt : j < i) :
    d.serial < d'.serial := by
  obtain ⟨hj', rfl⟩ := List.getElem?_eq_some_iff.mp hj
  obtain ⟨hi', rfl⟩ := List.getElem?_eq_some_iff.mp hi
  have hserials := List.pairwise_iff_getElem.mp h.serials j i (by simpa) (by simpa) hlt
  simpa using hserials

/-- What holds between two turns of the loop of `AbortAll`. -/
structure AbortedUpTo (i : Nat) (m : ManagerWorld) : Prop where
  orderly : Orderly m
  capped : Capped m
  awake : Awake m
  finished : ∀ j < i, ∀ d, m.downloads[j]? = some d → d.world.isFinished = true

/-- The download the loop comes to has been started, or else somebody before it would be running. -/
theorem AbortedUpTo.popped (h : AbortedUpTo i m) (hd : m.downloads[i]? = some d) :
    d.serial < m.popped := by
  by_contra hwaiting
  have hplace := h.orderly.inPlace d (List.mem_of_getElem? hd)
  obtain ⟨queued, hr, -⟩ := hplace.recorded
  have hqueue := mem_queuedStarts_of_recorded h.orderly.queue (not_lt.mp hwaiting) hr
  obtain ⟨running, hm, hrun⟩ := List.countP_pos_iff.mp (h.awake (List.ne_nil_of_mem hqueue))
  obtain ⟨j, hj⟩ := List.mem_iff_getElem?.mp hm
  have hstarted : running.serial < m.popped := by
    by_contra hr
    rw [((h.orderly.inPlace running hm).waiting (not_lt.mp hr)).1] at hrun
    cases hrun
  have hlt : j < i := by
    by_contra hle
    rcases (not_lt.mp hle).eq_or_lt with rfl | hlt
    · rw [hj] at hd
      cases hd
      omega
    · have hserial := serial_lt h.orderly hd hj hlt
      omega
  rw [DownloadObject.isRunning, h.finished j hlt running hj] at hrun
  simp at hrun

theorem AbortedUpTo.cancelled (h : AbortedUpTo i m) (hd : m.downloads[i]? = some d)
    (os : OperatingSystem) (reason : String) :
    FinishedUpTo (m.cancelled os reason d) d.serial := by
  intro d' hm hle
  rcases replaced_or_old h.orderly.addresses (List.mem_of_getElem? hd) hm with rfl | ⟨hold, hne⟩
  · exact DownloadWorld.abort_isFinished ..
  · obtain ⟨j, hj⟩ := List.mem_iff_getElem?.mp hold
    refine h.finished j ?_ d' hj
    by_contra hge
    rcases (not_lt.mp hge).eq_or_lt with rfl | hlt
    · rw [show m.downloads[i]? = some d' from hj] at hd
      cases hd
      exact hne rfl
    · have hserial := serial_lt h.orderly hd hj hlt
      omega

theorem AbortedUpTo.new : AbortedUpTo 0 new :=
  ⟨.new, new_capped, fun hq => (hq rfl).elim, fun j hj => absurd hj (Nat.not_lt_zero j)⟩

theorem AbortedUpTo.handle [MuscleText] (h : AbortedUpTo 0 m) (e : ManagerEvent)
    (horderly : Orderly (m.handle e)) : AbortedUpTo 0 (m.handle e) :=
  ⟨horderly, h.capped.handle e, handle_awake h.capped h.awake e,
    fun j hj => absurd hj (Nat.not_lt_zero j)⟩

theorem AbortedUpTo.abortAt (h : AbortedUpTo i m) (os : OperatingSystem)
    (startOs : Nat → OperatingSystem) (reason : String) :
    AbortedUpTo (i + 1) (m.abortAt os startOs reason i) := by
  refine ⟨h.orderly.abortAt .., h.capped.abortAt .., abortAt_awake _ _ _ h.capped h.awake i, ?_⟩
  cases hd : m.downloads[i]? with
  | none =>
    simp only [ManagerWorld.abortAt, hd]
    intro j hj d hd'
    rcases Nat.lt_succ_iff_lt_or_eq.mp hj with hlt | rfl
    · exact h.finished j hlt d hd'
    · rw [hd] at hd'
      cases hd'
  | some d =>
    have hcancelled := h.cancelled hd os reason
    have horderly := h.orderly.cancelled os reason (List.mem_of_getElem? hd)
    have hall : FinishedUpTo (m.abortAt os startOs reason i) d.serial ∧
        (m.abortAt os startOs reason i).downloads.map (·.serial) =
          m.downloads.map (·.serial) := by
      have hserials : (m.cancelled os reason d).downloads.map (·.serial) =
          m.downloads.map (·.serial) := setDownload_serials ..
      obtain ⟨hnone, -⟩ | ⟨d', hd', hdrains⟩ := abortAt_cases os startOs reason m i
      · rw [hd] at hnone
        cases hnone
      · obtain rfl := Option.some.inj (hd.symm.trans hd')
        exact ⟨hcancelled.drains hdrains horderly (h.popped hd),
          hdrains.frame.serials.trans hserials⟩
    intro j hj d' hd'
    apply hall.1 d' (List.mem_of_getElem? hd')
    have hserial := congrArg (fun serials => serials[j]?) hall.2
    simp only [List.getElem?_map, hd', Option.map_some] at hserial
    obtain ⟨old, hold, hs⟩ := Option.map_eq_some_iff.mp hserial.symm
    rcases Nat.lt_succ_iff_lt_or_eq.mp hj with hlt | rfl
    · exact hs ▸ (serial_lt h.orderly hold hd hlt).le
    · rw [hd] at hold
      cases hold
      exact hs.ge

theorem AbortedUpTo.loop (h : AbortedUpTo 0 m) (os : OperatingSystem)
    (startOs : Nat → OperatingSystem) (reason : String) (n : Nat) :
    AbortedUpTo n ((List.range n).foldl (ManagerWorld.abortAt os startOs reason) m) := by
  induction n with
  | zero => exact h
  | succ n ih =>
    rw [List.range_succ, List.foldl_append]
    exact ih.abortAt ..

/-- Nothing runs any more and nobody waits. -/
def AllStopped (m : ManagerWorld) : Prop :=
  (∀ download ∈ m.downloads, download.world.isFinished = true) ∧ m.queuedStarts = []

theorem AbortedUpTo.allStopped (h : AbortedUpTo m.downloads.length m) : AllStopped m := by
  have hfinished : ∀ download ∈ m.downloads, download.world.isFinished = true := by
    intro download hm
    obtain ⟨i, hi⟩ := List.mem_iff_getElem?.mp hm
    exact h.finished i (List.getElem?_eq_some_iff.mp hi).1 download hi
  refine ⟨hfinished, ?_⟩
  by_contra hwaiting
  obtain ⟨running, hm, hrun⟩ := List.countP_pos_iff.mp (h.awake hwaiting)
  rw [DownloadObject.isRunning, hfinished running hm] at hrun
  simp at hrun

/-- The downloads of before, each where it was. -/
def SameDownloads (m m' : ManagerWorld) : Prop :=
  m'.downloads.map (·.serial) = m.downloads.map (·.serial) ∧
    m'.downloads.map (·.address) = m.downloads.map (·.address)

theorem abortAll_sameDownloads (os : OperatingSystem) (startOs : Nat → OperatingSystem)
    (m : ManagerWorld) : SameDownloads m (m.abortAll os startOs) := by
  apply abortAll_preserves (I := SameDownloads m) ?_ ⟨rfl, rfl⟩
  intro m' i ⟨hserials, haddresses⟩
  rcases abortAt_cases os startOs "Shutting down" m' i with ⟨-, he⟩ | ⟨d, -, hdrains⟩
  · rw [he]
    exact ⟨hserials, haddresses⟩
  · obtain ⟨-, -, -, hplaces, horder⟩ := hdrains.frame
    constructor
    · exact (horder.trans (setDownload_serials ..)).trans hserials
    · exact (hplaces.trans (setDownload_addresses ..)).trans haddresses

end ManagerWorld

/-- Whatever happened before, as long as no address was used twice, `AbortAll` leaves every download
in the list, each of them finished, and nothing waiting. -/
theorem abort_all_stops_everything [MuscleText] (es : List ManagerEvent) (os : OperatingSystem)
    (startOs : Nat → OperatingSystem)
    (h : ManagerWorld.machine.EveryStep ManagerWorld.NoReuse ManagerWorld.new es) :
    ManagerWorld.SameDownloads (ManagerWorld.machine.run ManagerWorld.new es)
        ((ManagerWorld.machine.run ManagerWorld.new es).abortAll os startOs) ∧
      ((ManagerWorld.machine.run ManagerWorld.new es).abortAll os startOs).AllStopped := by
  have hinvariant : ManagerWorld.machine.EveryState (ManagerWorld.AbortedUpTo 0)
      ManagerWorld.new es := by
    apply EventMachine.everyState_of_invariant ?_ ManagerWorld.AbortedUpTo.new h
    intro m e hm hreuse
    exact hm.handle e (hm.orderly.handle e (hm.orderly.noAlias hreuse))
  have hsame := (ManagerWorld.machine.run ManagerWorld.new es).abortAll_sameDownloads os startOs
  refine ⟨hsame, ManagerWorld.AbortedUpTo.allStopped ?_⟩
  have hlength := congrArg List.length hsame.1
  rw [List.length_map, List.length_map] at hlength
  rw [hlength]
  exact hinvariant.last.loop os startOs "Shutting down" _

/-- One of the downloads is still waiting for its start. -/
theorem abort_all_stops_everything_waiting :
    letI := asciiText
    let m := ManagerWorld.machine.run ManagerWorld.new (reusedAddressRun.take 3)
    m.queuedStarts ≠ [] ∧ ManagerWorld.SameDownloads m (m.abortAll {} fun _ => {}) ∧
      (m.abortAll {} fun _ => {}).AllStopped :=
  letI := asciiText
  ⟨by decide +kernel,
    abort_all_stops_everything (reusedAddressRun.take 3) {} (fun _ => {}) (by decide +kernel)⟩

end HiTuxShare
