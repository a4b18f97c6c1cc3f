import HiTuxShare.UploadAdmission
import HiTuxShare.UploadStreamRuns

namespace HiTuxShare
set_option autoImplicit true

/-- The events that are left when those of all other peers are deleted. -/
def UploadEvent.isOwn (sessionId : String) (e : UploadEvent) : Bool :=
  e.session?.all (· == sessionId)

namespace UploadWorld

def FewerPeersThanSlots (w : UploadWorld) : Prop :=
  w.peers.entries.length < w.maxSimultaneousUploads

/-- Two servers that a peer cannot tell apart. -/
structure Alike (sessionId : String) (w w' : UploadWorld) : Prop where
  sharedFiles : w'.sharedFiles = w.sharedFiles
  localSessionId : w'.localSessionId = w.localSessionId
  maxSimultaneousUploads : w'.maxSimultaneousUploads = w.maxSimultaneousUploads
  disk : w'.disk = w.disk
  record : w'.peers.get? sessionId = w.peers.get? sessionId
  sentTo : w'.sentTo sessionId = w.sentTo sessionId
  drainsFor : w'.drainsFor sessionId = w.drainsFor sessionId

theorem SameFor.alike (h : SameFor sessionId w w') : Alike sessionId w w' :=
  ⟨h.sharedFiles, h.localSessionId, h.maxSimultaneousUploads, h.disk, h.record, h.sentTo,
    h.drainsFor⟩

theorem Alike.symm (h : Alike sessionId w w') : Alike sessionId w' w :=
  ⟨h.sharedFiles.symm, h.localSessionId.symm, h.maxSimultaneousUploads.symm, h.disk.symm,
    h.record.symm, h.sentTo.symm, h.drainsFor.symm⟩

theorem Alike.trans (h : Alike sessionId w w') (h' : Alike sessionId w' w'') :
    Alike sessionId w w'' :=
  ⟨h'.sharedFiles.trans h.sharedFiles, h'.localSessionId.trans h.localSessionId,
    h'.maxSimultaneousUploads.trans h.maxSimultaneousUploads, h'.disk.trans h.disk,
    h'.record.trans h.record, h'.sentTo.trans h.sentTo, h'.drainsFor.trans h.drainsFor⟩

theorem Alike.sameFor (h : Alike sessionId w w') (hs : SameFor sessionId w x)
    (hs' : SameFor sessionId w' x') : Alike sessionId x x' :=
  (hs.alike.symm.trans h).trans hs'.alike

theorem Alike.act (h : Alike sessionId w w') (action : UploadAction) :
    Alike sessionId (w.act action) (w'.act action) :=
  ⟨h.sharedFiles, h.localSessionId, h.maxSimultaneousUploads, h.disk, h.record,
    by rw [sentTo_act, sentTo_act, h.sentTo], by rw [drainsFor_act, drainsFor_act, h.drainsFor]⟩

theorem Alike.setPeer (h : Alike sessionId w w') (peer : PeerUpload) :
    Alike sessionId (w.setPeer sessionId peer) (w'.setPeer sessionId peer) :=
  ⟨h.sharedFiles, h.localSessionId, h.maxSimultaneousUploads, h.disk,
    by rw [setPeer_peers, setPeer_peers, Hashtable.get?_put_self, Hashtable.get?_put_self],
    h.sentTo, h.drainsFor⟩

theorem Alike.isQueued (h : Alike sessionId w w') :
    w'.isQueued sessionId = w.isQueued sessionId := by
  simp only [UploadWorld.isQueued, h.record]

theorem Alike.sendToPeer (h : Alike sessionId w w') (message : TransferMessage) :
    Alike sessionId (w.sendToPeer sessionId message) (w'.sendToPeer sessionId message) := by
  rw [UploadWorld.sendToPeer, UploadWorld.sendToPeer, h.isQueued]
  exact h.act _

theorem Alike.beginNextFile (h : Alike sessionId w w') :
    Alike sessionId (w.beginNextFile sessionId).1 (w'.beginNextFile sessionId).1 ∧
      (w'.beginNextFile sessionId).2 = (w.beginNextFile sessionId).2 := by
  cases hp : w.peers.get? sessionId with
  | none =>
    have hp' := h.record.trans hp
    simp only [UploadWorld.beginNextFile, hp, hp']
    exact ⟨h, trivial⟩
  | some peer =>
    have hp' := h.record.trans hp
    cases ho : (peer.openNextFile w.disk).2 with
    | none =>
      rw [beginNextFile_of_none hp ho, beginNextFile_of_none hp' (h.disk ▸ ho), h.disk]
      exact ⟨h.setPeer _, rfl⟩
    | some file =>
      rw [beginNextFile_of_some hp ho, beginNextFile_of_some hp' (h.disk ▸ ho), h.disk,
        h.localSessionId]
      exact ⟨((h.setPeer _).sendToPeer _).act _, rfl⟩

theorem Alike.sendChunk (h : Alike sessionId w w') (peer : PeerUpload) (bytes : List UInt8)
    (stream : ReadStream) :
    Alike sessionId (w.sendChunk sessionId peer bytes stream)
      (w'.sendChunk sessionId peer bytes stream) :=
  (((h.sendToPeer _).setPeer _).act _).act _

/-- Serving somebody else, or waking somebody up, does not concern a peer that is not on hold. -/
theorem sameFor_serving (hq : w.isQueued sessionId = false) :
    (∀ x other, SameFor sessionId w x → other ≠ sessionId →
      SameFor sessionId w (x.sendNextChunk other)) ∧
    ∀ x, SameFor sessionId w x → SameFor sessionId w x.startNextQueuedPeer := by
  have hwaiting (x : UploadWorld) (h : SameFor sessionId w x) (other : String)
      (peer : PeerUpload) (hp : x.peers.get? other = some peer) (hw : peer.isWaiting = true) :
      other ≠ sessionId := by
    rintro rfl
    have hqueued : peer.isQueued = true := ((Bool.and_eq_true ..).mp hw).1
    have hsame : w.isQueued other = peer.isQueued := isQueued_of_get? (h.record ▸ hp)
    rw [hq, hqueued] at hsame
    cases hsame
  apply serving_induction (I := SameFor sessionId w) (G := fun _ other => other ≠ sessionId)
  · intro x other peer stream h hne _ _ _
    exact ⟨h.trans (sameFor_beginNextFile x hne), hne⟩
  · intro x other peer stream h hne _ _ _
    exact h.trans (sameFor_sendChunk x _ _ _ hne)
  · intro x other peer h _ hp hw
    have hne := hwaiting x h other peer hp hw
    exact ⟨h.trans ((sameFor_setPeer x _ hne).trans (sameFor_beginNextFile _ hne)), hne⟩
  · exact fun x h => h.trans (sameFor_notify ..)

theorem sameFor_startNextQueuedPeer (hq : w.isQueued sessionId = false) :
    SameFor sessionId w w.startNextQueuedPeer :=
  (sameFor_serving hq).2 w (sameFor_refl ..)

theorem sameFor_elsewhere (hq : w.isQueued sessionId = false) (he : e.session? = some other)
    (hne : other ≠ sessionId) : SameFor sessionId w (w.handle e) := by
  obtain ⟨hnext, hwake⟩ := sameFor_serving hq
  apply elsewhere_induction (fun _ _ => SameFor.trans) _ hwake he hne (sameFor_refl ..)
  intro x other' hne' h
  exact hnext x other' h hne'

theorem Alike.sendNextChunk (h : Alike sessionId w w') (hq : w.isQueued sessionId = false) :
    Alike sessionId (w.sendNextChunk sessionId) (w'.sendNextChunk sessionId) := by
  induction hn : w.remainingWork sessionId using Nat.strong_induction_on generalizing w w' with
  | _ n ih =>
    cases hp : w.peers.get? sessionId with
    | none =>
      have hp' := h.record.trans hp
      rw [sendNextChunk_of_absent hp, sendNextChunk_of_absent hp']
      exact h
    | some peer =>
      have hp' := h.record.trans hp
      cases hf : peer.currentFile with
      | none =>
        rw [sendNextChunk_of_closed hp hf, sendNextChunk_of_closed hp' hf]
        exact h
      | some stream =>
        by_cases hu : w.disk.unread stream = []
        · obtain ⟨hbegun, hsecond⟩ := h.beginNextFile
          have hq' : (w.beginNextFile sessionId).1.isQueued sessionId = false := by
            rw [isQueued_beginNextFile, hq]
          rw [sendNextChunk_of_end hp hf hu, sendNextChunk_of_end hp' hf (h.disk ▸ hu), hsecond]
          split
          · next hb => exact ih _ (hn ▸ beginNextFile_remainingWork hb) hbegun hq' rfl
          · exact (hbegun.sameFor (sameFor_startNextQueuedPeer hq')
              (sameFor_startNextQueuedPeer (hbegun.isQueued.trans hq'))).act _
        · rw [sendNextChunk_of_bytes hp hf hu, sendNextChunk_of_bytes hp' hf (h.disk ▸ hu), h.disk]
          exact h.sendChunk ..

theorem Alike.beginAndSend (h : Alike sessionId w w') (hq : w.isQueued sessionId = false) :
    Alike sessionId (w.beginAndSend sessionId) (w'.beginAndSend sessionId) := by
  obtain ⟨hbegun, hsecond⟩ := h.beginNextFile
  rw [UploadWorld.beginAndSend, UploadWorld.beginAndSend, hsecond]
  split
  · exact hbegun.sendNextChunk (by rw [isQueued_beginNextFile, hq])
  · exact hbegun

/-- With fewer other peers than slots to spare, a list is never held. -/
def HasSlot (w : UploadWorld) (sessionId : String) : Prop :=
  (w.peers.get? sessionId).isSome = true → w.othersActive sessionId + 1 < w.maxSimultaneousUploads

theorem FewerPeersThanSlots.hasSlot (h : FewerPeersThanSlots w) (sessionId : String) :
    w.HasSlot sessionId := by
  intro hs
  obtain ⟨peer, hp⟩ := Option.isSome_iff_exists.mp hs
  rw [FewerPeersThanSlots, Hashtable.length_of_get? hp] at h
  exact (Nat.add_le_add_right (Hashtable.count_le_length ..) 1).trans_lt h

theorem Alike.handleFileList (h : Alike sessionId w w') (hs : w.HasSlot sessionId)
    (hs' : w'.HasSlot sessionId) (message : TransferMessage) :
    Alike sessionId (w.handleFileList sessionId message) (w'.handleFileList sessionId message) := by
  cases hp : w.peers.get? sessionId with
  | none =>
    simp only [UploadWorld.handleFileList, hp, h.record.trans hp]
    exact h
  | some peer =>
    have hp' := h.record.trans hp
    have hslot {x : UploadWorld} (hx : x.HasSlot sessionId)
        (hpx : x.peers.get? sessionId = some peer) :
        (x.storeFileList sessionId peer message).countActiveUploads <
          x.maxSimultaneousUploads := by
      rw [storeFileList_count]
      exact (Nat.add_le_add_left (Bool.toNat_le _) _).trans_lt (hx (by rw [hpx]; rfl))
    rw [handleFileList_served hp (hslot hs hp), handleFileList_served hp' (hslot hs' hp')]
    have hstored : Alike sessionId (w.storeFileList sessionId peer message)
        (w'.storeFileList sessionId peer message) := by
      rw [storeFileList, storeFileList, h.sharedFiles]
      exact (h.setPeer _).act _
    rw [h.sharedFiles]
    apply (hstored.setPeer _).beginAndSend
    rw [isQueued_of_put (setPeer_peers ..), if_pos rfl]

theorem Alike.ownEvent (h : Alike sessionId w w') (hq : w.isQueued sessionId = false)
    (hs : w.HasSlot sessionId) (hs' : w'.HasSlot sessionId) (he : e.session? = some sessionId) :
    Alike sessionId (w.handle e) (w'.handle e) := by
  cases e with
  | sessionAccepted =>
    cases he
    exact (h.setPeer _).act _
  | sessionDetached =>
    cases he
    have hremoved {x : UploadWorld} : UploadWorld.isQueued
        { x with peers := x.peers.remove sessionId } sessionId = false := by
      rw [UploadWorld.isQueued, Hashtable.get?_remove, if_pos rfl]
      rfl
    have halike : Alike sessionId { w with peers := w.peers.remove sessionId }
        { w' with peers := w'.peers.remove sessionId } := by
      refine ⟨h.sharedFiles, h.localSessionId, h.maxSimultaneousUploads, h.disk, ?_, h.sentTo,
        h.drainsFor⟩
      rw [Hashtable.get?_remove, Hashtable.get?_remove, if_pos rfl, if_pos rfl]
    exact (halike.sameFor (sameFor_startNextQueuedPeer hremoved)
      (sameFor_startNextQueuedPeer hremoved)).act _
  | messageReceived _ message =>
    cases he
    cases hp : w.peers.get? sessionId with
    | none =>
      simp only [UploadWorld.handle, messageReceived, hp, h.record.trans hp]
      exact h
    | some peer =>
      simp only [UploadWorld.handle, messageReceived, hp, h.record.trans hp]
      split
      · exact (h.setPeer _).act _
      · exact h.handleFileList hs hs' message
      · exact h
  | outputQueuesDrained =>
    cases he
    cases hp : w.peers.get? sessionId with
    | none =>
      simp only [UploadWorld.handle, UploadWorld.outputQueuesDrained, hp, h.record.trans hp]
      exact h
    | some peer =>
      simp only [UploadWorld.handle, UploadWorld.outputQueuesDrained, hp, h.record.trans hp]
      split
      · exact h.sendNextChunk hq
      · exact h.beginAndSend hq
  | setSharedFiles => cases he
  | diskChanged => cases he

theorem isQueued_ownEvent {w : UploadWorld} (hq : w.isQueued sessionId = false)
    (hs : w.HasSlot sessionId)
    (he : e.session? = some sessionId) : (w.handle e).isQueued sessionId = false := by
  cases e with
  | sessionAccepted sessionId peerAddress =>
    cases he
    exact (isQueued_of_put (setPeer_peers w sessionId { peerAddress }) sessionId).trans (if_pos rfl)
  | sessionDetached =>
    cases he
    have hremoved : UploadWorld.isQueued
        { w with peers := w.peers.remove sessionId } sessionId = false := by
      rw [UploadWorld.isQueued, Hashtable.get?_remove, if_pos rfl]
      rfl
    exact (sameFor_startNextQueuedPeer hremoved).alike.isQueued.trans hremoved
  | messageReceived _ message =>
    cases he
    cases hp : w.peers.get? sessionId with
    | none =>
      simp only [UploadWorld.handle, messageReceived, hp]
      exact hq
    | some peer =>
      simp only [UploadWorld.handle, messageReceived, hp]
      split
      · rw [isQueued_of_get? hp] at hq
        exact (isQueued_of_put (setPeer_peers ..) sessionId).trans ((if_pos rfl).trans hq)
      · rw [← Bool.not_eq_true, handleFileList_isQueued hp, Nat.not_le, storeFileList_count]
        exact (Nat.add_le_add_left (Bool.toNat_le _) _).trans_lt (hs (by rw [hp]; rfl))
      · exact hq
  | outputQueuesDrained =>
    cases he
    simp only [UploadWorld.handle, UploadWorld.outputQueuesDrained]
    split
    · exact hq
    · split
      · exact Serving.isQueued (serving_sendNextChunk (mayServe_late _ _)) hq
      · exact Serving.isQueued (serving_beginAndSend (mayServe_late _ _)) hq
  | setSharedFiles => cases he
  | diskChanged => cases he

def OnlyPeer (w : UploadWorld) (sessionId : String) : Prop :=
  ∀ other, other ≠ sessionId → w.peers.get? other = none

theorem OnlyPeer.othersActive (h : OnlyPeer w sessionId) : w.othersActive sessionId = 0 := by
  have hnil : (w.peers.remove sessionId).entries = [] := by
    apply List.eq_nil_iff_forall_not_mem.mpr
    intro entry hm
    have hp : (w.peers.remove sessionId).get? entry.1 = some entry.2 :=
      Hashtable.get?_eq_some_iff.mpr hm
    rw [Hashtable.get?_remove] at hp
    split at hp
    · cases hp
    · next hne =>
      rw [h _ hne] at hp
      cases hp
  apply Nat.le_zero.mp
  apply (Hashtable.count_le_length ..).trans
  rw [hnil, List.length_nil]

/-- A server that all peers are connected to, and one that only this peer is connected to. -/
structure AloneWith (sessionId : String) (w alone : UploadWorld) : Prop where
  alike : Alike sessionId w alone
  started : w.isQueued sessionId = false
  onlyPeer : alone.OnlyPeer sessionId

theorem AloneWith.keep (h : AloneWith sessionId w alone) (hw : FewerPeersThanSlots w)
    (he : e.isOwn sessionId = true) : AloneWith sessionId (w.handle e) (alone.handle e) := by
  cases hs : e.session? with
  | none =>
    cases e with
    | setSharedFiles =>
      obtain ⟨-, hlocal, hmax, hdisk, hrecord, hsent, hdrains⟩ := h.alike
      exact ⟨⟨rfl, hlocal, hmax, hdisk, hrecord, hsent, hdrains⟩, h.started, h.onlyPeer⟩
    | diskChanged =>
      obtain ⟨hshared, hlocal, hmax, -, hrecord, hsent, hdrains⟩ := h.alike
      exact ⟨⟨hshared, hlocal, hmax, rfl, hrecord, hsent, hdrains⟩, h.started, h.onlyPeer⟩
    | _ => cases hs
  | some other =>
    obtain rfl : other = sessionId := by simpa [UploadEvent.isOwn, hs] using he
    have hslot := hw.hasSlot other
    have hslot' : alone.HasSlot other := by
      intro hsome
      rw [h.alike.record] at hsome
      rw [h.onlyPeer.othersActive, h.alike.maxSimultaneousUploads]
      exact (Nat.add_le_add_right (Nat.zero_le _) 1).trans_lt (hslot hsome)
    refine ⟨h.alike.ownEvent h.started hslot hslot' hs, isQueued_ownEvent h.started hslot hs, ?_⟩
    intro key hne
    have hq : alone.isQueued key = false := by
      rw [UploadWorld.isQueued, h.onlyPeer key hne]
      rfl
    rw [(sameFor_elsewhere hq hs (Ne.symm hne)).record, h.onlyPeer key hne]

theorem AloneWith.drop (h : AloneWith sessionId w alone) (he : e.isOwn sessionId = false) :
    AloneWith sessionId (w.handle e) alone := by
  cases hs : e.session? with
  | none => simp [UploadEvent.isOwn, hs] at he
  | some other =>
    have hne : other ≠ sessionId := by simpa [UploadEvent.isOwn, hs] using he
    have hsame := sameFor_elsewhere h.started hs hne
    exact ⟨hsame.alike.symm.trans h.alike, hsame.alike.isQueued.trans h.started, h.onlyPeer⟩

/-- As long as there are more slots than peers, what a peer is sent, and when, does not depend on
what the others do. -/
theorem peers_do_not_interfere (sharedFiles : Hashtable String SharedFile)
    (localSessionId : String) (maxSimultaneousUploads : Nat) (disk : Disk)
    (es : List UploadEvent) (sessionId : String)
    (hfew : machine.EveryState FewerPeersThanSlots
      (listening sharedFiles localSessionId maxSimultaneousUploads disk) es) :
    (machine.run (listening sharedFiles localSessionId maxSimultaneousUploads disk)
        (es.filter (·.isOwn sessionId))).sentTo sessionId =
      (machine.run (listening sharedFiles localSessionId maxSimultaneousUploads disk) es).sentTo
        sessionId ∧
    (machine.run (listening sharedFiles localSessionId maxSimultaneousUploads disk)
        (es.filter (·.isOwn sessionId))).drainsFor sessionId =
      (machine.run (listening sharedFiles localSessionId maxSimultaneousUploads disk) es).drainsFor
        sessionId := by
  have hstart : AloneWith sessionId
      (listening sharedFiles localSessionId maxSimultaneousUploads disk)
      (listening sharedFiles localSessionId maxSimultaneousUploads disk) :=
    ⟨(sameFor_refl ..).alike, rfl, fun _ _ => rfl⟩
  have hend : AloneWith sessionId
      (machine.run (listening sharedFiles localSessionId maxSimultaneousUploads disk) es)
      (machine.run (listening sharedFiles localSessionId maxSimultaneousUploads disk)
        (es.filter (·.isOwn sessionId))) := by
    apply EventMachine.run_filter_related _ _ hstart hfew
    · intro w alone e hw h he
      exact h.keep hw he
    · intro w alone e _ h he
      exact h.drop he
  exact ⟨hend.alike.sentTo, hend.alike.drainsFor⟩

/-- Two peers that take turns at a server with room for three. -/
theorem peers_do_not_interfere_in_turns :
    (machine.run (listening notesShare "" 3 notesDisk)
        [.sessionAccepted "/peer/1" "first",
          .messageReceived "/peer/1" (requestFor ["notes.txt"])]).sentTo "/peer/1" =
      (machine.run (listening notesShare "" 3 notesDisk)
        [.sessionAccepted "/peer/1" "first", .sessionAccepted "/peer/2" "second",
          .messageReceived "/peer/2" (requestFor ["notes.txt"]),
          .messageReceived "/peer/1" (requestFor ["notes.txt"]),
          .outputQueuesDrained "/peer/2"]).sentTo "/peer/1" := by
  have h := peers_do_not_interfere notesShare "" 3 notesDisk
    [.sessionAccepted "/peer/1" "first", .sessionAccepted "/peer/2" "second",
      .messageReceived "/peer/2" (requestFor ["notes.txt"]),
      .messageReceived "/peer/1" (requestFor ["notes.txt"]),
      .outputQueuesDrained "/peer/2"] "/peer/1" ?_
  · exact h.1
  · refine ⟨?_, ?_, ?_, ?_, ?_, ?_⟩ <;> (change _ < _; decide +kernel)

end UploadWorld

end HiTuxShare
