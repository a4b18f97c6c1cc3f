import HiTuxShare.UploadStream

namespace HiTuxShare
set_option autoImplicit true

open Piece (AtEnd LegalStream announced cursor)

/-- The session an event comes from. -/
def UploadEvent.session? : UploadEvent → Option String
  | .sessionAccepted sessionId _ => some sessionId
  | .sessionDetached sessionId => some sessionId
  | .messageReceived sessionId _ => some sessionId
  | .outputQueuesDrained sessionId => some sessionId
  | .setSharedFiles _ => none
  | .diskChanged _ => none

namespace UploadWorld

theorem extends_sendNextChunk (w : UploadWorld) (sessionId : String) :
    Extends w (w.sendNextChunk sessionId) :=
  Serving.extends (serving_sendNextChunk (mayServe_late _ _))

theorem extends_beginAndSend (w : UploadWorld) (sessionId : String) :
    Extends w (w.beginAndSend sessionId) :=
  Serving.extends (serving_beginAndSend (mayServe_late _ _))

theorem extends_handle (w : UploadWorld) (h : e.session? = some sessionId) :
    Extends w (w.handle e) := by
  cases e with
  | sessionAccepted => exact (extends_setPeer ..).trans (extends_act ..)
  | sessionDetached sessionId =>
    have hremoved : Extends w { w with peers := w.peers.remove sessionId } :=
      ⟨rfl, rfl, rfl, rfl, List.prefix_rfl⟩
    exact hremoved.trans ((serving_startNextQueuedPeer true _).extends.trans (extends_act ..))
  | messageReceived sessionId message =>
    simp only [handle, messageReceived]
    split
    · exact .refl w
    · next peer hp =>
      split
      · exact (extends_setPeer ..).trans (extends_act ..)
      · have hstored : Extends w (w.storeFileList sessionId peer message) :=
          (extends_setPeer ..).trans (extends_act ..)
        simp only [handleFileList, hp]
        split
        · exact hstored.trans ((extends_setPeer ..).trans ((extends_act ..).trans (extends_act ..)))
        · exact hstored.trans ((extends_setPeer ..).trans (extends_beginAndSend ..))
      · exact .refl w
  | outputQueuesDrained sessionId =>
    simp only [handle, UploadWorld.outputQueuesDrained]
    split
    · exact .refl w
    · split
      · exact extends_sendNextChunk ..
      · exact extends_beginAndSend ..
  | setSharedFiles => cases h
  | diskChanged => cases h

theorem atEnd_of_queued (h : Streams w sessionId requested mungeMode pieces)
    (hp : w.peers.get? sessionId = some peer) (hq : peer.isQueued = true) :
    AtEnd (contents w.disk) (cursor pieces) := by
  intro file sent hc
  rw [Piece.cursor_eq_none_iff.mpr ((h.inStep hp).queued hq)] at hc
  cases hc

theorem Streams.unqueue (h : Streams w sessionId requested mungeMode pieces)
    (hi : peer.InStep w.disk requested mungeMode pieces) :
    Streams (w.unqueue sessionId peer) sessionId requested mungeMode pieces :=
  h.setPeer ⟨hi.requestedFiles, hi.mungeMode, hi.closed, hi.opened, hi.order, Bool.noConfusion⟩

theorem isQueued_beginNextFile (w : UploadWorld) (sessionId : String) :
    (w.beginNextFile sessionId).1.isQueued sessionId = w.isQueued sessionId := by
  cases hp : w.peers.get? sessionId with
  | none => simp only [beginNextFile, hp]
  | some peer =>
    rw [isQueued_of_put (beginNextFile_peers hp), if_pos rfl, PeerUpload.openNextFile_isQueued,
      isQueued_of_get? hp]

/-- Whoever is served, the stream to this peer stays legal. A queued peer is passed over. -/
theorem streaming_induction (sessionId : String) (requested : List SharedFile)
    (mungeMode : Int32) (seen : List TransferPiece) :
    (∀ w other, Streaming sessionId requested mungeMode seen w →
      (other = sessionId → w.isQueued sessionId = false) →
      Streaming sessionId requested mungeMode seen (w.sendNextChunk other)) ∧
    ∀ w, Streaming sessionId requested mungeMode seen w →
      Streaming sessionId requested mungeMode seen w.startNextQueuedPeer := by
  apply serving_induction
    (G := fun w other => other = sessionId → w.isQueued sessionId = false)
  · intro w other peer stream ⟨pieces, hs, h⟩ hm hp hf hu
    by_cases he : other = sessionId
    · subst he
      refine ⟨(h.beginNextFile hp ?_ (isQueued_of_get? hp ▸ hm rfl)).weaken hs, fun _ => ?_⟩
      · intro file sent hc
        obtain ⟨file', sent', hc', hw⟩ := (h.inStep hp).opened stream hf
        rw [hc'] at hc
        cases hc
        rw [hw, hu, List.append_nil]
      · rw [isQueued_beginNextFile, hm rfl]
    · exact ⟨Streaming.congr ⟨pieces, hs, h⟩ (sameFor_beginNextFile w he), fun he' => (he he').elim⟩
  · intro w other peer stream ⟨pieces, hs, h⟩ _ hp hf _
    by_cases he : other = sessionId
    · subst he
      exact (h.sendChunk hp hf).weaken hs
    · exact Streaming.congr ⟨pieces, hs, h⟩ (sameFor_sendChunk w _ _ _ he)
  · intro w other peer ⟨pieces, hs, h⟩ _ hp hw
    by_cases he : other = sessionId
    · subst he
      have hq : peer.isQueued = true := (Bool.and_eq_true_iff.mp hw).1
      have hp' : (w.unqueue other peer).peers.get? other = some { peer with isQueued := false } :=
        Hashtable.get?_put_self ..
      have hend := atEnd_of_queued h hp hq
      refine ⟨((h.unqueue (h.inStep hp)).beginNextFile hp' hend rfl).weaken hs, fun _ => ?_⟩
      rw [isQueued_beginNextFile, isQueued_of_get? hp']
    · exact ⟨Streaming.congr ⟨pieces, hs, h⟩ ((sameFor_setPeer w _ he).trans
        (sameFor_beginNextFile _ he)), fun he' => (he he').elim⟩
  · exact fun w h => h.congr (sameFor_notify ..)

theorem Streaming.sendNextChunk (h : Streaming sessionId requested mungeMode seen w)
    (hq : other = sessionId → w.isQueued sessionId = false) :
    Streaming sessionId requested mungeMode seen (w.sendNextChunk other) :=
  (streaming_induction sessionId requested mungeMode seen).1 w other h hq

theorem Streaming.startNextQueuedPeer (h : Streaming sessionId requested mungeMode seen w) :
    Streaming sessionId requested mungeMode seen w.startNextQueuedPeer :=
  (streaming_induction sessionId requested mungeMode seen).2 w h

theorem Streams.beginAndSend (h : Streams w sessionId requested mungeMode pieces)
    (hp : w.peers.get? sessionId = some peer) (hend : AtEnd (contents w.disk) (cursor pieces))
    (hq : peer.isQueued = false) :
    Streaming sessionId requested mungeMode pieces (w.beginAndSend sessionId) := by
  have hbegin := h.beginNextFile hp hend hq
  rw [UploadWorld.beginAndSend]
  split
  · apply hbegin.sendNextChunk
    intro _
    rw [isQueued_beginNextFile, isQueued_of_get? hp, hq]
  · exact hbegin

/-- A drain notification only ever follows a chunk, so the peer has its place. -/
theorem Streaming.outputQueuesDrained (h : Streaming sessionId requested mungeMode seen w)
    (hd : 0 < w.drainsFor sessionId) :
    Streaming sessionId requested mungeMode seen (w.outputQueuesDrained sessionId) := by
  obtain ⟨pieces, hs, h⟩ := h
  obtain ⟨peer, hp, hi⟩ := h.record
  have hq : peer.isQueued = false := by
    by_contra hq
    have hzero := h.drainsFor (hi.queued (by simpa using hq))
    omega
  simp only [UploadWorld.outputQueuesDrained, hp]
  cases hf : peer.currentFile with
  | none => exact (h.beginAndSend hp (hi.closed hf) hq).weaken hs
  | some stream =>
    exact Streaming.sendNextChunk ⟨pieces, hs, h⟩ fun _ => (isQueued_of_get? hp).trans hq

theorem Streaming.identify (h : Streaming sessionId requested mungeMode seen w)
    (hw : message.what = .peerId) :
    Streaming sessionId requested mungeMode seen (w.messageReceived sessionId message) := by
  obtain ⟨pieces, hs, h⟩ := h
  obtain ⟨peer, hp, hi⟩ := h.record
  simp only [messageReceived, hp, hw]
  refine Streaming.congr ⟨pieces, hs, h.setPeer ?_⟩ (sameFor_notify ..)
  exact ⟨hi.requestedFiles, hi.mungeMode, hi.closed, hi.opened, hi.order, hi.queued⟩

theorem sameFor_fileListReport (sessionId : String) (w : UploadWorld) (peer : PeerUpload)
    (unknownCount : Nat) : SameFor sessionId w (w.act (fileListReport peer unknownCount)) := by
  rw [fileListReport]
  split <;> exact sameFor_act w rfl (by simp)

theorem Streams.remunge (h : Streams w sessionId requested mungeMode pieces)
    (hn : announced pieces = []) :
    w.sentTo sessionId = pieces.map (render w.localSessionId mungeMode') := by
  rw [h.sentTo]
  apply List.map_congr_left
  intro piece hm
  rw [h.legal.notices hn piece hm]
  rfl

theorem Streams.holdPeer (h : Streams w sessionId requested mungeMode pieces)
    (hi : peer.InStep w.disk requested mungeMode pieces) (hn : announced pieces = []) :
    Streaming sessionId requested mungeMode pieces (w.holdPeer sessionId peer) := by
  have hcursor : cursor (pieces ++ [.notice]) = cursor pieces := Piece.cursor_snoc ..
  have hannounced : announced (pieces ++ [.notice]) = announced pieces :=
    (Piece.announced_snoc ..).trans (List.append_nil _)
  refine ⟨pieces ++ [.notice], List.prefix_append .., ?_, ?_, ?_, _, Hashtable.get?_put_self ..,
    hi.requestedFiles, hi.mungeMode, ?_, ?_, ?_, ?_⟩
  · rw [UploadWorld.holdPeer, sentTo_act, sentTo_sendToPeer_self, sentTo_setPeer, h.sentTo,
      List.map_append]
    exact List.append_nil _
  · exact Piece.legalStream_snoc.mpr ⟨h.legal, trivial⟩
  · rw [hannounced, UploadWorld.holdPeer, drainsFor_act, sendToPeer, drainsFor_act]
    exact h.drainsFor
  · rw [hcursor]
    exact hi.closed
  · rw [hcursor]
    exact hi.opened
  · rw [hannounced]
    exact hi.order
  · rw [hannounced]
    exact fun _ => hn

theorem Streaming.fileList (h : Streaming sessionId [] mungeModeNone seen w)
    (hw : message.what = .fileList) (hm : message.findInt32 fieldMungeMode = some mungeMode)
    (hmode : mungeMode = mungeModeNone ∨ mungeMode = mungeModeXor) :
    Streaming sessionId (PeerUpload.resolve w.sharedFiles message) mungeMode seen
      (w.messageReceived sessionId message) := by
  obtain ⟨pieces, hs, h⟩ := h
  obtain ⟨peer, hp, hi⟩ := h.record
  have hnone : announced pieces = [] :=
    (List.append_eq_nil_iff.mp (List.sublist_nil.mp hi.order)).1
  have hend : AtEnd (contents w.disk) (cursor pieces) := by
    intro file sent hc
    rw [Piece.cursor_eq_none_iff.mpr hnone] at hc
    cases hc
  have hstore : (peer.acceptFileList w.sharedFiles message).InStep w.disk
      (PeerUpload.resolve w.sharedFiles message) mungeMode pieces := by
    refine ⟨rfl, ?_, fun _ => hend, hi.opened, ?_, fun _ => hnone⟩
    · simp only [PeerUpload.acceptFileList, hm]
      rcases hmode with rfl | rfl
      · exact hi.mungeMode
      · rfl
    · rw [hnone]
      exact List.Sublist.refl _
  have hstored : Streams (w.storeFileList sessionId peer message) sessionId
      (PeerUpload.resolve w.sharedFiles message) mungeMode pieces := by
    have hset : Streams (w.setPeer sessionId (peer.acceptFileList w.sharedFiles message)) sessionId
        (PeerUpload.resolve w.sharedFiles message) mungeMode pieces :=
      ⟨h.remunge hnone, h.legal, h.drainsFor, _, Hashtable.get?_put_self .., hstore⟩
    exact hset.congr (sameFor_fileListReport ..)
  have hmsg : w.messageReceived sessionId message = w.handleFileList sessionId message := by
    simp only [messageReceived, hp, hw]
  rw [hmsg]
  simp only [handleFileList, hp]
  split
  · exact (hstored.holdPeer hstore hnone).weaken hs
  · exact ((hstored.unqueue hstore).beginAndSend (Hashtable.get?_put_self ..) hend rfl).weaken hs

theorem sameFor_storeFileList (w : UploadWorld) (peer : PeerUpload) (message : TransferMessage)
    (h : other ≠ sessionId) : SameFor sessionId w (w.storeFileList other peer message) :=
  (sameFor_setPeer w _ h).trans (sameFor_fileListReport ..)

theorem sameFor_holdPeer (w : UploadWorld) (peer : PeerUpload) (h : other ≠ sessionId) :
    SameFor sessionId w (w.holdPeer other peer) :=
  (sameFor_setPeer w _ h).trans ((sameFor_sendToPeer _ _ h).trans (sameFor_notify ..))

section Elsewhere

variable {I : UploadWorld → Prop} {sessionId : String}

theorem elsewhere_beginAndSend (hsame : ∀ w w', I w → SameFor sessionId w w' → I w')
    (hnext : ∀ w other, other ≠ sessionId → I w → I (w.sendNextChunk other))
    (hne : other ≠ sessionId) (h : I w) : I (w.beginAndSend other) := by
  have hbegin := hsame _ _ h (sameFor_beginNextFile w hne)
  rw [beginAndSend]
  split
  · exact hnext _ other hne hbegin
  · exact hbegin

/-- An event of another session comes down to changes that do not concern this one, and to
serving whoever's turn it is. -/
theorem elsewhere_induction (hsame : ∀ w w', I w → SameFor sessionId w w' → I w')
    (hnext : ∀ w other, other ≠ sessionId → I w → I (w.sendNextChunk other))
    (hwake : ∀ w, I w → I w.startNextQueuedPeer)
    (he : e.session? = some other) (hne : other ≠ sessionId) (h : I w) : I (w.handle e) := by
  cases e with
  | sessionAccepted =>
    cases he
    exact hsame _ _ h ((sameFor_setPeer w _ hne).trans (sameFor_notify ..))
  | sessionDetached =>
    cases he
    have hremoved : SameFor sessionId w { w with peers := w.peers.remove other } :=
      ⟨⟨rfl, rfl, rfl, rfl, List.prefix_rfl⟩, (Hashtable.get?_remove ..).trans (if_neg hne.symm),
        rfl, rfl⟩
    exact hsame _ _ (hwake _ (hsame _ _ h hremoved)) (sameFor_notify ..)
  | messageReceived _ message =>
    cases he
    rw [handle, messageReceived]
    split
    · exact h
    · next peer hp =>
      split
      · exact hsame _ _ h ((sameFor_setPeer w _ hne).trans (sameFor_notify ..))
      · have hstored := hsame _ _ h (sameFor_storeFileList w peer message hne)
        simp only [handleFileList, hp]
        split
        · exact hsame _ _ hstored (sameFor_holdPeer _ _ hne)
        · exact elsewhere_beginAndSend hsame hnext hne
            (hsame _ _ hstored (sameFor_setPeer _ _ hne))
      · exact h
  | outputQueuesDrained =>
    cases he
    rw [handle, UploadWorld.outputQueuesDrained]
    split
    · exact h
    · split
      · exact hnext w other hne h
      · exact elsewhere_beginAndSend hsame hnext hne h
  | setSharedFiles => cases he
  | diskChanged => cases he

end Elsewhere

theorem Streaming.elsewhere (h : Streaming sessionId requested mungeMode seen w)
    (he : e.session? = some other) (hne : other ≠ sessionId) :
    Streaming sessionId requested mungeMode seen (w.handle e) := by
  apply elsewhere_induction (fun _ _ => Streaming.congr) _ (fun _ => startNextQueuedPeer) he hne h
  intro w other' hne' h'
  exact h'.sendNextChunk fun he' => (hne' he').elim

end UploadWorld

end HiTuxShare
