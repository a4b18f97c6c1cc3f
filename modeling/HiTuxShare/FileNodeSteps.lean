import HiTuxShare.HostedNodes
import HiTuxShare.PublishedFiles

namespace HiTuxShare
set_option autoImplicit true

theorem foldl_applyOccurrence_setData [MuscleServer] {later : List ConnectionOccurrence}
    (nodes : Finset String)
    (h : ∀ o ∈ later, ConnectionOccurrence.IsSetData o) :
    later.foldl applyOccurrence nodes =
      nodes ∪ ((later.flatMap ConnectionOccurrence.nodesSet).map Prod.fst).toFinset := by
  induction later generalizing nodes with
  | nil => exact (Finset.union_empty nodes).symm
  | cons o later ih =>
    obtain ⟨message, rfl, hw⟩ := h _ List.mem_cons_self
    have happly : applyOccurrence nodes (.sent message) =
        nodes ∪ (message.nodes.map Prod.fst).toFinset := by
      simp only [applyOccurrence, applyMessage, hw]
    rw [List.foldl_cons, happly, ih _ fun o hm => h o (List.mem_cons_of_mem _ hm),
      List.flatMap_cons, List.map_append, List.toFinset_append, Finset.union_assoc]
    rfl

theorem foldl_applyOccurrence_spares [MuscleServer] {later : List ConnectionOccurrence}
    (nodes : Finset String)
    (h : ∀ o ∈ later, ConnectionOccurrence.touchesFiles o = false) :
    (later.foldl applyOccurrence nodes).filter (isFileNode ·) = nodes.filter (isFileNode ·) := by
  induction later generalizing nodes with
  | nil => rfl
  | cons o later ih =>
    rw [List.foldl_cons, ih _ fun o hm => h o (List.mem_cons_of_mem _ hm),
      applyOccurrence_spares nodes (h o List.mem_cons_self)]

/-- The node paths of a queue of files. -/
def ServerConnection.pathsOf (c : ServerConnection) (files : List SharedFile) : Finset String :=
  (files.map fun file => c.filesNodePath ++ file.fileName).toFinset

theorem filter_uncovered [MuscleServer] (hserver : MuscleServer.CoversFiles)
    (nodes : Finset String) :
    (applyMessage nodes { toMessage := .ofWhat .removeData, keys := [allFileNodes] }).filter
      (isFileNode ·) = ∅ := by
  apply Finset.filter_false_of_mem
  intro path hp hfile
  have hkept : MuscleServer.covers allFileNodes path = false := by
    simpa [applyMessage, Message.ofWhat] using (Finset.mem_filter.mp hp).2
  rw [isFileNode_eq, Bool.or_eq_true] at hfile
  obtain h | h := hfile
  all_goals
    obtain ⟨fileName, rfl⟩ := startsWith_iff.mp h
    have hcovered := hserver fileName
    rw [hkept] at hcovered
  · exact Bool.false_ne_true hcovered.1
  · exact Bool.false_ne_true hcovered.2

namespace ConnectionWorld

theorem handle_sparesFiles [MuscleLibrary] (w : ConnectionWorld) (e : ServerConnectionEvent)
    (hp : ∀ files, e.call ≠ .publishSharedFiles files) (hu : e.call ≠ .unpublishAllSharedFiles)
    (hf : ∀ firewalled, e.call ≠ .setFirewalled firewalled) : SparesFiles w (w.handle e) := by
  by_cases hroutine : e.call.isRoutine = true
  · exact (w.handle_spares e hroutine).files
  obtain ⟨call, network, now⟩ := e
  cases call with
  | startQuery sessionExpression fileExpression => exact w.startQuery_sparesFiles _ _
  | setFirewalled firewalled => exact absurd rfl (hf firewalled)
  | publishSharedFiles files => exact absurd rfl (hp files)
  | unpublishAllSharedFiles => exact absurd rfl hu
  | messageReceived message =>
    simp only [handle, deliver]
    split
    · exact w.messageReceived_sparesFiles now message
    · exact (Spares.refl w).files
  | _ => exact absurd rfl hroutine

end ConnectionWorld

/-- The flag, the count and the nodes of our shared files. -/
@[ext]
structure ShareState where
  firewalled : Bool
  publishedFileCount : UInt32
  fileNodes : Finset String
  deriving DecidableEq

namespace HostedConnection

def share (s : HostedConnection) : ShareState := ⟨s.firewalled, s.publishedFileCount, s.fileNodes⟩

/-- What an event makes of our share. -/
def shareAfter (s : HostedConnection) (e : ServerConnectionEvent) : ShareState :=
  match e.call with
  | .publishSharedFiles files =>
    if s.isConnected then
      ⟨s.firewalled, s.publishedFileCount + UInt32.ofNat files.length,
        s.fileNodes ∪ s.pathsOf files⟩
    else s.share
  | .unpublishAllSharedFiles => ⟨s.firewalled, 0, ∅⟩
  | .setFirewalled firewalled =>
    if firewalled = s.firewalled then s.share
    else if s.isConnected ∧ 0 < s.publishedFileCount then ⟨firewalled, 0, ∅⟩
    else ⟨firewalled, s.publishedFileCount, s.fileNodes⟩
  | _ => if s.endsSession e then ⟨s.firewalled, s.publishedFileCount, ∅⟩ else s.share

variable [MuscleLibrary] [MuscleServer]

theorem handle_nodes {s : HostedConnection} {e : ServerConnectionEvent}
    {later : List ConnectionOccurrence}
    (h : (s.toConnectionWorld.handle e).history = s.history ++ later) :
    (s.handle e).nodes = later.foldl applyOccurrence (if s.endsSession e then ∅ else s.nodes) := by
  simp only [handle, h, List.drop_left]

theorem share_of_spares {s : HostedConnection} {e : ServerConnectionEvent}
    (h : ConnectionWorld.SparesFiles s.toConnectionWorld (s.toConnectionWorld.handle e)) :
    (s.handle e).share =
      if s.endsSession e then ⟨s.firewalled, s.publishedFileCount, ∅⟩ else s.share := by
  obtain ⟨later, hlater, hspared⟩ := h.only
  have hnodes : (s.handle e).fileNodes = if s.endsSession e then ∅ else s.fileNodes := by
    rw [fileNodes, handle_nodes hlater, foldl_applyOccurrence_spares _ hspared]
    split <;> rfl
  rw [share, hnodes]
  split <;> exact ShareState.ext h.firewalled h.publishedFileCount rfl

theorem share_of_published {s : HostedConnection} (hc : s.isConnected = true)
    (he : e.call = .publishSharedFiles files) :
    (s.handle e).share = ⟨s.firewalled, s.publishedFileCount + UInt32.ofNat files.length,
      s.fileNodes ∪ s.pathsOf files⟩ := by
  have hhandle : s.toConnectionWorld.handle e = s.publishBatches [] files := by
    rw [ConnectionWorld.handle, he]
    exact if_pos hc
  have hends : s.endsSession e = false := by rw [ServerConnection.endsSession, he]
  obtain ⟨later, hlater, hset⟩ := s.publishBatches_setData [] files
  obtain ⟨later', hlater', hnodes⟩ := s.publishBatches_nodes [] files
  obtain rfl := List.append_cancel_left (hlater.symm.trans hlater')
  have hfiles : (s.handle e).fileNodes = s.fileNodes ∪ s.pathsOf files := by
    rw [fileNodes, handle_nodes (hhandle ▸ hlater), hends, if_neg Bool.false_ne_true,
      foldl_applyOccurrence_setData _ hset, hnodes, List.nil_append, List.map_map,
      Finset.filter_union]
    congr 1
    apply Finset.filter_true_of_mem
    intro path hp
    obtain ⟨file, -, rfl⟩ := List.mem_map.mp (List.mem_toFinset.mp hp)
    exact isFileNode_filesNodePath _ _
  have hserver := congrArg ConnectionWorld.toServerConnection hhandle
  rw [ConnectionWorld.publishBatches_toServerConnection] at hserver
  have hflag : (s.handle e).firewalled = s.firewalled := congrArg (·.firewalled) hserver
  have hcount : (s.handle e).publishedFileCount =
      s.publishedFileCount + UInt32.ofNat files.length := congrArg (·.publishedFileCount) hserver
  exact ShareState.ext hflag hcount hfiles

/-- The clean-up, in a state that may have its new flag already. -/
theorem share_of_unpublished {s : HostedConnection} (hserver : MuscleServer.CoversFiles)
    (hoffline : s.NoneOffline) {w : ConnectionWorld} (hconn : w.isConnected = s.isConnected)
    (hhist : w.history = s.history) (hends : s.endsSession e = false)
    (h : s.toConnectionWorld.handle e = w.unpublishAllSharedFiles) :
    (s.handle e).share = ⟨w.firewalled, 0, ∅⟩ := by
  have hsent := w.unpublishAllSharedFiles_history
  rw [← h, hhist, hconn] at hsent
  have hfiles : (s.handle e).fileNodes = ∅ := by
    rw [fileNodes, handle_nodes hsent, hends]
    by_cases hc : s.isConnected = true
    · rw [if_pos hc]
      exact filter_uncovered hserver _
    · rw [if_neg hc]
      exact hoffline (Bool.eq_false_of_not_eq_true hc)
  have hstate := congrArg ConnectionWorld.toServerConnection h
  rw [ConnectionWorld.unpublishAllSharedFiles_toServerConnection] at hstate
  have hflag : (s.handle e).firewalled = w.firewalled := congrArg (·.firewalled) hstate
  have hcount : (s.handle e).publishedFileCount = 0 := congrArg (·.publishedFileCount) hstate
  exact ShareState.ext hflag hcount hfiles

theorem handle_share (hserver : MuscleServer.CoversFiles) {s : HostedConnection}
    (hoffline : s.NoneOffline) (e : ServerConnectionEvent) :
    (s.handle e).share = s.shareAfter e := by
  have hkept {w : ConnectionWorld} (h : s.toConnectionWorld.handle e = w)
      (hw : ConnectionWorld.SparesFiles s.toConnectionWorld w)
      (hends : s.endsSession e = false) : (s.handle e).share = s.share := by
    rw [share_of_spares (h ▸ hw), if_neg (Bool.eq_false_iff.mp hends)]
  rw [shareAfter]
  split
  · next files he =>
    split
    · next hc => exact share_of_published hc he
    · next hc =>
      apply hkept _ (ConnectionWorld.Spares.refl _).files (by rw [ServerConnection.endsSession, he])
      rw [ConnectionWorld.handle, he]
      exact if_neg hc
  · next he =>
    have hhandle : s.toConnectionWorld.handle e = s.unpublishAllSharedFiles := by
      rw [ConnectionWorld.handle, he]
    have hends : s.endsSession e = false := by rw [ServerConnection.endsSession, he]
    exact share_of_unpublished hserver hoffline rfl rfl hends hhandle
  · next firewalled he =>
    have hends : s.endsSession e = false := by rw [ServerConnection.endsSession, he]
    have hhandle : s.toConnectionWorld.handle e = s.setFirewalled firewalled := by
      rw [ConnectionWorld.handle, he]
    split
    · next hf =>
      apply hkept hhandle _ hends
      rw [ConnectionWorld.setFirewalled, if_pos hf]
      exact (ConnectionWorld.Spares.refl _).files
    · next hf =>
      split
      · next hp =>
        have hclean : s.toConnectionWorld.handle e =
            ConnectionWorld.unpublishAllSharedFiles { s.toConnectionWorld with firewalled } := by
          rw [hhandle, ConnectionWorld.setFirewalled, if_neg hf]
          exact if_pos hp
        exact share_of_unpublished (w := { s.toConnectionWorld with firewalled }) hserver hoffline
          rfl rfl hends hclean
      · next hp =>
        have hflagged : s.toConnectionWorld.handle e = { s.toConnectionWorld with firewalled } := by
          rw [hhandle, ConnectionWorld.setFirewalled, if_neg hf]
          exact if_neg hp
        have hfiles : (s.handle e).fileNodes = s.fileNodes := by
          have hhistory : (s.toConnectionWorld.handle e).history = s.history ++ [] := by
            rw [hflagged, List.append_nil]
          rw [fileNodes, handle_nodes hhistory, hends]
          rfl
        have hflag : (s.handle e).firewalled = firewalled := congrArg (·.firewalled) hflagged
        have hcount : (s.handle e).publishedFileCount = s.publishedFileCount :=
          congrArg (·.publishedFileCount) hflagged
        exact ShareState.ext hflag hcount hfiles
  · next hp hu hf =>
    exact share_of_spares (s.toConnectionWorld.handle_sparesFiles e hp hu hf)


end HostedConnection

end HiTuxShare
