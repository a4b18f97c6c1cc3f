import HiTuxShare.FilesAndFires

namespace HiTuxShare
set_option autoImplicit true

theorem card_union_toFinset_le [DecidableEq α] (s : Finset α) (l : List α) :
    (s ∪ l.toFinset).card ≤ s.card + l.length :=
  (Finset.card_union_le s l.toFinset).trans (Nat.add_le_add_left l.toFinset_card_le _)

theorem card_union_toFinset_iff [DecidableEq α] (s : Finset α) (l : List α) :
    (s ∪ l.toFinset).card = s.card + l.length ↔ l.Nodup ∧ ∀ x ∈ l, x ∉ s := by
  have hunion := Finset.card_union_le s l.toFinset
  have hlist := l.toFinset_card_le
  constructor
  · intro h
    have hcard : l.toFinset.card = l.length := by omega
    have hdisjoint : Disjoint s l.toFinset := by
      apply Finset.card_union_eq_card_add_card.mp
      omega
    constructor
    · exact Multiset.toFinset_card_eq_card_iff_nodup.mp hcard
    · intro x hx hs
      exact Finset.disjoint_left.mp hdisjoint hs (List.mem_toFinset.mpr hx)
  · rintro ⟨hnodup, hnew⟩
    rw [Finset.card_union_of_disjoint, List.toFinset_card_of_nodup hnodup]
    apply Finset.disjoint_right.mpr
    intro x hx
    exact hnew x (List.mem_toFinset.mp hx)

/-- A queue has a `uint32` of items. -/
def ServerConnectionEvent.queueFits (e : ServerConnectionEvent) : Bool :=
  match e.call with
  | .publishSharedFiles files => files.length < 2 ^ 32
  | _ => true

namespace HostedConnection

/-- `GetPublishedFileCount` is the number of our file nodes. -/
def CountsNodes (s : HostedConnection) : Prop :=
  s.isConnected = true → s.publishedFileCount.toNat = s.fileNodes.card

/-- A queue of new nodes, each once, for which the count has room. -/
def AddsNodes (s : HostedConnection) (files : List SharedFile) : Prop :=
  let paths := files.map fun file => s.filesNodePath ++ file.fileName
  (paths.Nodup ∧ ∀ path ∈ paths, path ∉ s.fileNodes) ∧
    s.publishedFileCount.toNat + files.length < 2 ^ 32

instance (s : HostedConnection) (files : List SharedFile) : Decidable (s.AddsNodes files) :=
  inferInstanceAs (Decidable ((_ ∧ _) ∧ _))

/-- Every node is published once, and nothing has been counted before a session begins. -/
def KeepsCount (s : HostedConnection) (e : ServerConnectionEvent) : Prop :=
  match e.call with
  | .publishSharedFiles files => s.isConnected = true → s.AddsNodes files
  | .sessionConnected _ => s.internalThreadRunning = true → s.publishedFileCount = 0
  | _ => True

/-- The sum of a count and the length of a queue wraps round once at most, and then falls below the
count. -/
theorem toNat_add_eq_iff {count : UInt32} {length card : Nat} (hlength : length < 2 ^ 32)
    (hlow : count.toNat ≤ card) (hhigh : card ≤ count.toNat + length) :
    (count + UInt32.ofNat length).toNat = card ↔
      card = count.toNat + length ∧ count.toNat + length < 2 ^ 32 := by
  rw [UInt32.toNat_add, UInt32.toNat_ofNat']
  have hcount := count.toNat_lt
  omega

theorem addsNodes_iff {s : HostedConnection} {files : List SharedFile}
    (h : s.publishedFileCount.toNat = s.fileNodes.card) (hfits : files.length < 2 ^ 32) :
    (s.publishedFileCount + UInt32.ofNat files.length).toNat =
      (s.fileNodes ∪ s.pathsOf files).card ↔ s.AddsNodes files := by
  have hlength : (files.map fun file => s.filesNodePath ++ file.fileName).length =
    files.length := List.length_map _
  have hhigh : (s.fileNodes ∪ s.pathsOf files).card ≤
      s.publishedFileCount.toNat + files.length := by
    rw [← hlength, h]
    exact card_union_toFinset_le ..
  have hlow : s.fileNodes.card ≤ (s.fileNodes ∪ s.pathsOf files).card :=
    Finset.card_le_card Finset.subset_union_left
  rw [toNat_add_eq_iff hfits (h ▸ hlow) hhigh, AddsNodes, ← card_union_toFinset_iff, hlength, ← h]
  exact Iff.rfl

section
variable [MuscleLibrary] [MuscleServer]

theorem countsNodes_handle (hserver : MuscleServer.CoversFiles) {s : HostedConnection}
    (hoffline : s.NoneOffline) (h : s.CountsNodes) (hfits : e.queueFits = true) :
    (s.handle e).CountsNodes ↔ s.KeepsCount e := by
  have hshare := handle_share hserver hoffline e
  have hcounts : (s.handle e).CountsNodes ↔ ((s.handle e).isConnected = true →
      (s.shareAfter e).publishedFileCount.toNat = (s.shareAfter e).fileNodes.card) := by
    rw [← hshare]
    exact Iff.rfl
  rw [hcounts]
  by_cases hpublishes : ∃ files, e.call = .publishSharedFiles files
  · obtain ⟨files, he⟩ := hpublishes
    have hends : s.endsSession e = false := by rw [ServerConnection.endsSession, he]
    simp only [handle_toConnectionWorld, ConnectionWorld.isConnected_handle hends, KeepsCount,
      shareAfter, he]
    apply forall_congr'
    intro hc
    rw [if_pos hc]
    apply addsNodes_iff (h hc)
    simpa only [ServerConnectionEvent.queueFits, he, decide_eq_true_eq] using hfits
  by_cases hbegins : ∃ connectedTo, e.call = .sessionConnected connectedTo
  · obtain ⟨connectedTo, he⟩ := hbegins
    cases hends : s.endsSession e with
    | true =>
      have hrunning : s.internalThreadRunning = true := by
        rwa [ServerConnection.endsSession, he] at hends
      rw [shareAfter_of_endsSession hends, handle_toConnectionWorld,
        ConnectionWorld.isConnected_of_sessionConnected he hrunning]
      simp only [KeepsCount, he, hrunning, true_implies, Finset.card_empty]
      exact UInt32.toNat_inj (b := 0)
    | false =>
      have hoff : s.internalThreadRunning = false := by
        rwa [ServerConnection.endsSession, he] at hends
      rw [handle_toConnectionWorld, ConnectionWorld.isConnected_handle hends]
      simp only [KeepsCount, shareAfter, he, hends, hoff, Bool.false_eq_true, if_false,
        false_implies, iff_true]
      exact h
  · have hkeeps : s.KeepsCount e := by
      rw [KeepsCount]
      split
      · next files he => exact absurd ⟨files, he⟩ hpublishes
      · next connectedTo he => exact absurd ⟨connectedTo, he⟩ hbegins
      · trivial
    apply iff_of_true _ hkeeps
    cases hends : s.endsSession e with
    | true =>
      rw [handle_toConnectionWorld, ConnectionWorld.isConnected_of_endsSession hends
        fun connectedTo he => hbegins ⟨connectedTo, he⟩]
      exact fun hc => absurd hc Bool.false_ne_true
    | false =>
      rw [handle_toConnectionWorld, ConnectionWorld.isConnected_handle hends, shareAfter]
      intro hc
      split
      · next files he => exact absurd ⟨files, he⟩ hpublishes
      · rfl
      · split
        · exact h hc
        · split
          · rfl
          · exact h hc
      · rw [if_neg (Bool.eq_false_iff.mp hends)]
        exact h hc

/-- In a run, the count is the number of our nodes in every connected state exactly if nothing is
published twice and no session begins with the count of another. -/
theorem published_count_is_node_count (hserver : MuscleServer.CoversFiles)
    (es : List ServerConnectionEvent) (hes : ∀ e ∈ es, e.queueFits = true) :
    machine.EveryState CountsNodes {} es ↔ machine.EveryStep KeepsCount {} es := by
  have hsteps : machine.EveryState CountsNodes {} es ↔
      machine.EveryStep (fun s e => (s.handle e).CountsNodes) {} es :=
    EventMachine.everyState_iff_everyStep (J := fun _ => True) (fun _ _ => id)
      (fun _ _ _ _ => Iff.rfl) trivial (fun hc => absurd hc (by decide))
  rw [hsteps]
  apply EventMachine.everyStep_iff_of_kind (J := fun s => s.NoneOffline ∧ s.CountsNodes)
    (K := (·.queueFits = true)) _ _ _ hes
  · exact fun s e _ hs hnext => ⟨hs.1.handle hserver e, hnext⟩
  · exact fun s e hfits hs => countsNodes_handle hserver hs.1 hs.2 hfits
  · exact ⟨fun _ => rfl, fun hc => absurd hc (by decide)⟩

/-- The count has room for the files. -/
def CountFits (s : HostedConnection) (e : ServerConnectionEvent) : Prop :=
  ∀ files, e.call = .publishSharedFiles files → s.isConnected = true →
    s.publishedFileCount.toNat + files.length < 2 ^ 32

theorem card_le_handle (hserver : MuscleServer.CoversFiles) {s : HostedConnection}
    (hoffline : s.NoneOffline) (h : s.fileNodes.card ≤ s.publishedFileCount.toNat)
    (hfits : s.CountFits e) :
    (s.handle e).fileNodes.card ≤ (s.handle e).publishedFileCount.toNat := by
  change (s.handle e).share.fileNodes.card ≤ (s.handle e).share.publishedFileCount.toNat
  rw [handle_share hserver hoffline, shareAfter]
  split
  · next files he =>
    split
    · next hc =>
      have hroom := hfits files he hc
      have hunion := card_union_toFinset_le s.fileNodes
        (files.map fun file => s.filesNodePath ++ file.fileName)
      rw [List.length_map] at hunion
      apply hunion.trans
      dsimp only
      rw [UInt32.toNat_add, UInt32.toNat_ofNat']
      omega
    · exact h
  · exact Nat.zero_le _
  · split
    · exact h
    · split
      · exact Nat.zero_le _
      · exact h
  · split
    · exact Nat.zero_le _
    · exact h

/-- As long as the count fits, it is not zero while there are files, and they follow the flag. -/
theorem files_and_fires_apart_below (hserver : MuscleServer.CoversFiles)
    {es : List ServerConnectionEvent} (h : machine.EveryStep CountFits {} es) :
    machine.EveryState FilesMatch {} es := by
  have hstates : machine.EveryState (fun s => (s.NoneOffline ∧ s.FilesMatch) ∧
      s.fileNodes.card ≤ s.publishedFileCount.toNat) {} es := by
    apply EventMachine.everyState_of_invariant _ _ h
    · rintro s e ⟨⟨hoffline, hmatch⟩, hcard⟩ hfits
      refine ⟨⟨hoffline.handle hserver e, ?_⟩, card_le_handle hserver hoffline hcard hfits⟩
      apply (filesMatch_handle hserver hoffline hmatch e).mpr
      intro firewalled _ _ _ hzero
      rw [hzero] at hcard
      exact Finset.card_eq_zero.mp (Nat.le_zero.mp hcard)
    · exact ⟨⟨fun _ => rfl, fun _ hp => absurd hp (Finset.notMem_empty _)⟩, Nat.le_refl 0⟩
  exact hstates.imp fun s hs => hs.1.2

end

theorem published_count_is_node_count_rescanned :
    let _ : MuscleLibrary := plainLibrary
    let _ : MuscleServer := plainServer
    machine.EveryState CountsNodes {} [{ call := .connectToServer "server" 2960 },
      { call := .sessionConnected "server" }, { call := .publishSharedFiles (numberedFiles 2) },
      { call := .unpublishAllSharedFiles }, { call := .publishSharedFiles (numberedFiles 2) }] := by
  intro library server
  apply (published_count_is_node_count plainServer_coversFiles _ (by decide)).mpr
  refine ⟨trivial, ?_, ?_, trivial, ?_, trivial⟩
  · exact fun _ => by decide
  · exact fun _ => by decide +kernel
  · exact fun _ => by decide +kernel

/-- The files of a lost session are counted in the next one. -/
theorem count_outlives_session : ¬ ∀ (_ : MuscleLibrary) (_ : MuscleServer),
    MuscleServer.CoversFiles → ∀ es, (∀ e ∈ es, e.queueFits = true) →
      machine.EveryState CountsNodes {} es := by
  intro h
  have hcounts := (h plainLibrary plainServer plainServer_coversFiles
    [{ call := .connectToServer "server" 2960 }, { call := .sessionConnected "server" },
      { call := .publishSharedFiles (numberedFiles 2) }, { call := .sessionDisconnected },
      { call := .sessionConnected "server" }] (by decide)).last
  exact absurd (hcounts (by decide)) (by decide +kernel)

end HostedConnection

end HiTuxShare
