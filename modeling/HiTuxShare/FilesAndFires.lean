import HiTuxShare.FileNodeSteps

namespace HiTuxShare
set_option autoImplicit true

/-- Every node of the share is where its flag says. -/
def ShareState.Matches (h : ShareState) : Prop :=
  ∀ path ∈ h.fileNodes,
    startsWith path (if h.firewalled then nodeFirewalledPath else nodeFilesPath) = true

theorem ShareState.matches_of_empty (flag : Bool) (count : UInt32) :
    ShareState.Matches ⟨flag, count, ∅⟩ := fun _ hp => absurd hp (Finset.notMem_empty _)

theorem ShareState.Matches.of_flag {flag flag' : Bool}
    (h : ShareState.Matches ⟨flag, count, nodes⟩) (hf : flag' ≠ flag) :
    ShareState.Matches ⟨flag', count, nodes⟩ ↔ nodes = ∅ := by
  constructor
  · intro h'
    apply Finset.eq_empty_of_forall_notMem
    intro path hp
    have hold := h path hp
    have hnew := h' path hp
    cases flag <;> cases flag'
    · exact hf rfl
    · exact not_startsWith_both path ⟨hold, hnew⟩
    · exact not_startsWith_both path ⟨hnew, hold⟩
    · exact hf rfl
  · rintro rfl
    exact matches_of_empty flag' count

/-- A share of this many files, each with its own name. -/
def numberedFiles (count : Nat) : List SharedFile :=
  (List.range count).map fun n => ⟨toString n, toString n, "/share/" ++ toString n, "", 1, 0⟩

namespace HostedConnection

/-- All our shared files lie under the path of our flag. -/
def FilesMatch (s : HostedConnection) : Prop :=
  ∀ path ∈ s.fileNodes, startsWith path s.filesNodePath = true

/-- While there are files, a new flag does not find a count of zero. -/
def FlagFindsFiles (s : HostedConnection) (e : ServerConnectionEvent) : Prop :=
  ∀ firewalled, e.call = .setFirewalled firewalled → firewalled ≠ s.firewalled →
    s.isConnected = true → s.publishedFileCount = 0 → s.fileNodes = ∅

theorem filesMatch_of_share {s : HostedConnection} {t : ShareState} (h : s.share = t) :
    s.FilesMatch ↔ t.Matches := by
  subst h
  exact Iff.rfl

theorem shareAfter_of_endsSession {s : HostedConnection} (h : s.endsSession e = true) :
    s.shareAfter e = ⟨s.firewalled, s.publishedFileCount, ∅⟩ := by
  rw [shareAfter]
  split
  · next he => rw [ServerConnection.endsSession, he] at h; cases h
  · next he => rw [ServerConnection.endsSession, he] at h; cases h
  · next he => rw [ServerConnection.endsSession, he] at h; cases h
  · exact if_pos h

theorem FilesMatch.published {s : HostedConnection} (h : s.FilesMatch) (count : UInt32)
    (files : List SharedFile) :
    ShareState.Matches ⟨s.firewalled, count, s.fileNodes ∪ s.pathsOf files⟩ := by
  intro path hp
  obtain hp | hp := Finset.mem_union.mp hp
  · exact h path hp
  · obtain ⟨file, -, rfl⟩ := List.mem_map.mp (List.mem_toFinset.mp hp)
    exact startsWith_append s.filesNodePath file.fileName

section
variable [MuscleLibrary] [MuscleServer]

theorem NoneOffline.handle (hserver : MuscleServer.CoversFiles) {s : HostedConnection}
    (h : s.NoneOffline) (e : ServerConnectionEvent) : (s.handle e).NoneOffline := by
  intro hoff
  have hfiles := congrArg ShareState.fileNodes (handle_share hserver h e)
  apply hfiles.trans
  cases hends : s.endsSession e with
  | true => rw [shareAfter_of_endsSession hends]
  | false =>
    have hoff : s.isConnected = false :=
      (ConnectionWorld.isConnected_handle hends).symm.trans hoff
    have hnone : s.share.fileNodes = ∅ := h hoff
    rw [shareAfter]
    split
    · rw [if_neg (Bool.eq_false_iff.mp hoff)]
      exact hnone
    · rfl
    · split
      · exact hnone
      · split
        · rfl
        · exact hnone
    · rw [if_neg (Bool.eq_false_iff.mp hends)]
      exact hnone

theorem filesMatch_handle (hserver : MuscleServer.CoversFiles) {s : HostedConnection}
    (hoffline : s.NoneOffline) (h : s.FilesMatch) (e : ServerConnectionEvent) :
    (s.handle e).FilesMatch ↔ s.FlagFindsFiles e := by
  rw [filesMatch_of_share (handle_share hserver hoffline e), shareAfter]
  split
  · next files he =>
    apply iff_of_true
    · split
      · exact h.published _ files
      · exact h
    · intro firewalled hcall
      cases he.symm.trans hcall
  · next he =>
    apply iff_of_true (ShareState.matches_of_empty _ _)
    intro firewalled hcall
    cases he.symm.trans hcall
  · next firewalled he =>
    split
    · next hf =>
      apply iff_of_true h
      intro firewalled' hcall hne
      cases he.symm.trans hcall
      exact absurd hf hne
    · next hf =>
      split
      · next hp =>
        apply iff_of_true (ShareState.matches_of_empty _ _)
        intro firewalled' _ _ _ hzero
        rw [hzero] at hp
        exact absurd hp.2 (by decide)
      · next hp =>
        rw [((filesMatch_of_share rfl).mp h).of_flag hf]
        constructor
        · exact fun hnone _ _ _ _ _ => hnone
        · intro hfinds
          by_cases hc : s.isConnected = true
          · apply hfinds firewalled he hf hc
            exact not_not.mp fun hne => hp ⟨hc, UInt32.pos_iff_ne_zero.mpr hne⟩
          · exact hoffline (Bool.eq_false_of_not_eq_true hc)
  · next hp hu hf =>
    apply iff_of_true
    · split
      · exact ShareState.matches_of_empty _ _
      · exact h
    · intro firewalled hcall
      exact absurd hcall (hf firewalled)

theorem run_republish {s t : HostedConnection} (hc : s.isConnected = true)
    (files : List SharedFile) (count : Nat)
    (h : machine.run s (.replicate (count + 1) { call := .publishSharedFiles files }) = t) :
    t.isConnected = true ∧ t.share = ⟨s.firewalled,
      s.publishedFileCount + UInt32.ofNat ((count + 1) * files.length),
      s.fileNodes ∪ s.pathsOf files⟩ := by
  induction count generalizing t with
  | zero =>
    subst h
    refine ⟨(ConnectionWorld.isConnected_handle rfl).trans hc, ?_⟩
    rw [Nat.zero_add, Nat.one_mul]
    exact share_of_published hc rfl
  | succ count ih =>
    rw [List.replicate_succ', EventMachine.run_append] at h
    generalize machine.run s (List.replicate (count + 1) _) = t at ih h
    subst h
    obtain ⟨ht, hshare⟩ := ih rfl
    have hflag : t.firewalled = s.firewalled := congrArg ShareState.firewalled hshare
    have hcount := congrArg ShareState.publishedFileCount hshare
    have hnodes : t.fileNodes = s.fileNodes ∪ s.pathsOf files :=
      congrArg ShareState.fileNodes hshare
    have hpaths : t.pathsOf files = s.pathsOf files := by
      simp only [ServerConnection.pathsOf, ServerConnection.filesNodePath, hflag]
    refine ⟨(ConnectionWorld.isConnected_handle rfl).trans ht, (share_of_published ht rfl).trans ?_⟩
    rw [hflag, hnodes, hpaths, Finset.union_assoc, Finset.union_self]
    congr 1
    rw [Nat.succ_mul, UInt32.ofNat_add, ← UInt32.add_assoc]
    exact congrArg (· + UInt32.ofNat files.length) hcount

/-- Once the count has come round to zero, the files do not follow the flag. -/
theorem flag_after_republish (hserver : MuscleServer.CoversFiles) {s : HostedConnection}
    (hc : s.isConnected = true) (h : s.FilesMatch) {files : List SharedFile} {count : Nat}
    (hwrap : s.publishedFileCount + UInt32.ofNat ((count + 1) * files.length) = 0)
    (hfile : file ∈ files) (hf : flag ≠ s.firewalled) :
    ¬ (machine.run s (.replicate (count + 1) { call := .publishSharedFiles files } ++
      [{ call := .setFirewalled flag }])).FilesMatch := by
  rw [EventMachine.run_append]
  obtain ⟨ht, hshare⟩ := run_republish hc files count rfl
  generalize machine.run s (.replicate (count + 1) _) = t at ht hshare
  have hflag : t.firewalled = s.firewalled := congrArg ShareState.firewalled hshare
  have hzero : t.publishedFileCount = 0 :=
    (congrArg ShareState.publishedFileCount hshare).trans hwrap
  have hnodes : t.fileNodes = s.fileNodes ∪ s.pathsOf files :=
    congrArg ShareState.fileNodes hshare
  have hmatch : t.FilesMatch := (filesMatch_of_share hshare).mpr (h.published _ files)
  have hoffline : t.NoneOffline := fun hoff => absurd ht (Bool.eq_false_iff.mp hoff)
  intro hnew
  have hfinds := (filesMatch_handle hserver hoffline hmatch _).mp hnew
  have hnone := hfinds flag rfl (hflag ▸ hf) ht hzero
  rw [hnodes, Finset.union_eq_empty] at hnone
  have hpath : s.filesNodePath ++ file.fileName ∈ s.pathsOf files :=
    List.mem_toFinset.mpr (List.mem_map_of_mem hfile)
  rw [hnone.2] at hpath
  exact Finset.notMem_empty _ hpath

/-- Files and fires stay apart exactly if the flag never changes while our files are there and
their count has come round to zero. -/
theorem files_and_fires_apart (hserver : MuscleServer.CoversFiles)
    (es : List ServerConnectionEvent) :
    machine.EveryState FilesMatch {} es ↔ machine.EveryStep FlagFindsFiles {} es := by
  apply EventMachine.everyState_iff_everyStep (J := NoneOffline)
  · exact fun s e h => h.handle hserver e
  · exact fun s e hoffline h => filesMatch_handle hserver hoffline h e
  · exact fun _ => rfl
  · exact fun _ hp => absurd hp (Finset.notMem_empty _)

end

theorem files_and_fires_apart_when_flagged :
    let _ : MuscleLibrary := plainLibrary
    let _ : MuscleServer := plainServer
    machine.EveryState FilesMatch {} [{ call := .connectToServer "server" 2960 },
      { call := .sessionConnected "server" }, { call := .publishSharedFiles (numberedFiles 2) },
      { call := .setFirewalled true }, { call := .publishSharedFiles (numberedFiles 2) }] := by
  intro library server
  apply (files_and_fires_apart plainServer_coversFiles _).mpr
  refine ⟨?_, ?_, ?_, ?_, ?_, trivial⟩
  · rintro _ ⟨⟩
  · rintro _ ⟨⟩
  · rintro _ ⟨⟩
  · intro _ _ _ _ hzero
    exact absurd hzero (by decide)
  · rintro _ ⟨⟩

/-- The rescans of a big share bring the count round to zero, and a new flag leaves the files under
the old path. -/
theorem files_stay_behind : ¬ ∀ (_ : MuscleLibrary) (_ : MuscleServer),
    MuscleServer.CoversFiles → ∀ es, machine.EveryState FilesMatch {} es := by
  intro h
  let _ : MuscleLibrary := plainLibrary
  let _ : MuscleServer := plainServer
  obtain ⟨count, hcount⟩ : ∃ count, count = 65536 := ⟨_, rfl⟩
  have hrun := (h plainLibrary plainServer plainServer_coversFiles
    ([{ call := .connectToServer "server" 2960 }, { call := .sessionConnected "server" }] ++
      (.replicate (65535 + 1) { call := .publishSharedFiles (numberedFiles count) } ++
        [{ call := .setFirewalled true }]))).last
  rw [EventMachine.run_append] at hrun
  have hlength : (numberedFiles count).length = 65536 := by
    simp only [numberedFiles, List.length_map, List.length_range, hcount]
  have hfirst : ⟨"0", "0", "/share/0", "", 1, 0⟩ ∈ numberedFiles count := by
    apply List.mem_map.mpr
    exact ⟨0, List.mem_range.mpr (hcount ▸ Nat.succ_pos 65535), by decide⟩
  have hmatch : (machine.run ({} : HostedConnection) [{ call := .connectToServer "server" 2960 },
      { call := .sessionConnected "server" }]).FilesMatch := fun _ hp =>
    absurd hp (by decide +revert)
  apply flag_after_republish plainServer_coversFiles (by decide) hmatch _ hfirst (by decide) hrun
  rw [hlength]
  decide

end HostedConnection

end HiTuxShare
