import HiTuxShare.UploadAdmission

namespace HiTuxShare
set_option autoImplicit true

namespace UploadWorld

def openCount (w : UploadWorld) : Nat := w.peers.count fun peer => peer.currentFile.isSome

def IsFileMessage (message : TransferMessage) : Prop :=
  message.what = .fileHeader ∨ message.what = .fileData

/-- No header and no data has gone to a peer while its flag said it was queued. -/
def QueuedPeersSilent (actions : List UploadAction) : Prop :=
  ∀ sessionId message, .sendToPeer sessionId message true ∈ actions → ¬IsFileMessage message

structure CapHeld (w : UploadWorld) : Prop where
  openFiles : w.openCount ≤ w.maxSimultaneousUploads
  queuedClosed : ∀ sessionId peer, w.peers.get? sessionId = some peer →
    peer.isQueued = true → peer.currentFile = none
  queuedSilent : QueuedPeersSilent w.actions

/-- Whoever has a file open is one of the peers that are counted as active. -/
def OpenIsActive (peer : PeerUpload) : Prop :=
  peer.currentFile.isSome = true → peer.isActive = true

/-- The server's own accounting is sound. -/
structure Sound (w : UploadWorld) : Prop where
  active : w.countActiveUploads ≤ w.maxSimultaneousUploads
  openIsActive : ∀ sessionId peer, w.peers.get? sessionId = some peer → OpenIsActive peer
  silent : QueuedPeersSilent w.actions

/-- The accounting is sound as far as the other peers are concerned. -/
structure OthersSound (sessionId : String) (w : UploadWorld) : Prop where
  openIsActive : ∀ key peer, key ≠ sessionId → w.peers.get? key = some peer → OpenIsActive peer
  silent : QueuedPeersSilent w.actions

theorem Sound.others (h : Sound w) (sessionId : String) : OthersSound sessionId w :=
  ⟨fun key peer _ => h.openIsActive key peer, h.silent⟩

theorem Sound.capHeld (h : Sound w) : CapHeld w where
  openFiles := (Hashtable.count_le_of_imp _ h.openIsActive).trans h.active
  queuedClosed := by
    intro sessionId peer hp hq
    by_contra hne
    have ha := h.openIsActive sessionId peer hp (Option.isSome_iff_ne_none.mpr hne)
    simp [PeerUpload.isActive, hq] at ha
  queuedSilent := h.silent

theorem QueuedPeersSilent.append (h : QueuedPeersSilent past) (h' : QueuedPeersSilent more) :
    QueuedPeersSilent (past ++ more) := by
  intro sessionId message hm
  rcases List.mem_append.mp hm with hm | hm
  · exact h sessionId message hm
  · exact h' sessionId message hm

/-- A sound record in place of the exempt one makes the accounting sound. -/
theorem OthersSound.put (h : OthersSound sessionId w)
    (hw : w'.peers = w.peers.put sessionId peer) (hx : Extends w w') (ho : OpenIsActive peer)
    (ha : w.othersActive sessionId + peer.isActive.toNat ≤ w.maxSimultaneousUploads)
    (hs : QueuedPeersSilent w'.actions) : Sound w' where
  active := by
    rw [hx.maxSimultaneousUploads, countActiveUploads, hw, Hashtable.count_put]
    exact ha
  openIsActive := by
    intro key peer' hp
    rw [hw, Hashtable.get?_put] at hp
    split at hp
    · cases hp
      exact ho
    · next hne => exact h.openIsActive key peer' hne hp
  silent := hs

theorem openFirst_openIsActive (disk : Disk) (peer : PeerUpload) (files : List SharedFile)
    (hf : files ≠ [] → peer.requestedFiles ≠ []) (hq : peer.isQueued = false) :
    OpenIsActive (PeerUpload.openFirst disk peer files).1 := by
  induction files generalizing peer with
  | nil => simp [PeerUpload.openFirst, PeerUpload.closeCurrentFile, OpenIsActive]
  | cons file rest ih =>
    have hne := hf (List.cons_ne_nil _ _)
    simp only [PeerUpload.openFirst]
    split
    · exact ih _ (fun _ => hne) hq
    · intro _
      simp [PeerUpload.isActive, PeerUpload.advance, PeerUpload.closeCurrentFile, hne, hq]

theorem openNextFile_openIsActive (disk : Disk) {peer : PeerUpload} (hq : peer.isQueued = false) :
    OpenIsActive (peer.openNextFile disk).1 := by
  apply openFirst_openIsActive disk peer _ _ hq
  intro hne he
  simp [PeerUpload.remaining, he] at hne

theorem beginNextFile_silent {w : UploadWorld} (hp : w.peers.get? sessionId = some peer)
    (hq : peer.isQueued = false) (h : QueuedPeersSilent w.actions) :
    QueuedPeersSilent (w.beginNextFile sessionId).1.actions := by
  cases ho : (peer.openNextFile w.disk).2 with
  | none =>
    rw [beginNextFile_of_none hp ho]
    exact h
  | some file =>
    rw [beginNextFile_of_some hp ho]
    have hflag : (w.setPeer sessionId (peer.openNextFile w.disk).1).isQueued sessionId = false := by
      rw [isQueued_of_put (setPeer_peers ..), if_pos rfl, PeerUpload.openNextFile_isQueued, hq]
    simp only [sendToPeer, hflag, act, List.append_assoc]
    apply h.append
    intro key message hm
    simp at hm

theorem OthersSound.beginNextFile (h : OthersSound sessionId w)
    (hp : w.peers.get? sessionId = some peer) (hq : peer.isQueued = false)
    (hc : w.countActiveUploads ≤ w.maxSimultaneousUploads) :
    Sound (w.beginNextFile sessionId).1 := by
  refine h.put (beginNextFile_peers hp) (extends_beginNextFile ..)
    (openNextFile_openIsActive w.disk hq) ?_ (beginNextFile_silent hp hq h.silent)
  rwa [PeerUpload.openNextFile_isActive, ← countActiveUploads_of_get? hp]

theorem ServingStep.sound (h : ServingStep false w w') (hs : Sound w) : Sound w' := by
  cases h with
  | openNext sessionId peer hp hl =>
    exact (hs.others _).beginNextFile hp (by simpa using hl) hs.active
  | sendChunk sessionId peer stream stream' bytes hp hl hf =>
    have hq : peer.isQueued = false := by simpa using hl
    have ha := hs.openIsActive sessionId peer hp (by simp [hf])
    refine (hs.others _).put (sendChunk_peers ..) (extends_sendChunk ..) (fun _ => ha) ?_ ?_
    · have hc := hs.active
      rwa [countActiveUploads_of_get? hp] at hc
    · simp only [UploadWorld.sendChunk, sendToPeer, isQueued_of_get? hp, hq, act, setPeer,
        List.append_assoc]
      apply hs.silent.append
      intro key message hm
      simp at hm
  | unqueue sessionId peer hc hp hw =>
    have hopen := hs.openIsActive sessionId peer hp
    simp only [PeerUpload.isWaiting, Bool.and_eq_true] at hw
    refine (hs.others _).put (unqueue_peers ..) (extends_setPeer ..) ?_ ?_ hs.silent
    · intro ho
      have ha := hopen ho
      simp [PeerUpload.isActive, hw.1] at ha
    · rw [countActiveUploads_of_get? hp] at hc
      have hone := Bool.toNat_le ({ peer with isQueued := false } : PeerUpload).isActive
      omega
  | notify =>
    refine ⟨hs.active, hs.openIsActive, hs.silent.append ?_⟩
    intro key message hm
    simp at hm

theorem Serving.sound (h : Serving false w w') (hs : Sound w) : Sound w' := by
  induction h with
  | refl => exact hs
  | tail _ hstep ih => exact hstep.sound ih

theorem Sound.act (h : Sound w) (ha : QueuedPeersSilent [action]) : Sound (w.act action) :=
  ⟨h.active, h.openIsActive, h.silent.append ha⟩

theorem silent_uploadsChanged : QueuedPeersSilent [.uploadsChanged] := by
  intro sessionId message hm
  simp at hm

/-- A peer that is put on the waiting list has no file open, and a late drain notification
finds no file to open for it. -/
def NoLateService (w : UploadWorld) : UploadEvent → Prop
  | .messageReceived sessionId message => message.what = .fileList →
      ∀ peer, w.peers.get? sessionId = some peer → w.maxSimultaneousUploads ≤
        (w.storeFileList sessionId peer message).countActiveUploads → peer.currentFile = none
  | .outputQueuesDrained sessionId => ∀ peer, w.peers.get? sessionId = some peer →
      peer.isQueued = true → peer.currentFile = none →
        ∀ file ∈ peer.remaining, w.disk.fopen file.absolutePath = none
  | _ => True

theorem Sound.sessionAccepted (h : Sound w) (sessionId peerAddress : String) :
    Sound (w.sessionAccepted sessionId peerAddress) := by
  refine Sound.act ?_ silent_uploadsChanged
  refine (h.others _).put (setPeer_peers ..) (extends_setPeer ..) ?_ ?_ h.silent
  · intro ho
    cases ho
  · exact (Hashtable.count_remove_le ..).trans h.active

theorem Sound.sessionDetached (h : Sound w) (sessionId : String) :
    Sound (w.sessionDetached sessionId) := by
  refine Sound.act (Serving.sound (serving_startNextQueuedPeer false _) ?_) silent_uploadsChanged
  refine ⟨(Hashtable.count_remove_le ..).trans h.active, ?_, h.silent⟩
  intro key peer hp
  rw [Hashtable.get?_remove] at hp
  split at hp
  · cases hp
  · exact h.openIsActive key peer hp

theorem Sound.identify (h : Sound w) (hp : w.peers.get? sessionId = some peer)
    (message : TransferMessage) : Sound (w.setPeer sessionId (peer.identify message)) := by
  refine (h.others _).put (setPeer_peers ..) (extends_setPeer ..) ?_ ?_ h.silent
  · exact h.openIsActive sessionId peer hp
  · have hc := h.active
    rwa [countActiveUploads_of_get? hp] at hc

theorem Sound.storeFileList (h : Sound w) (sessionId : String) (peer : PeerUpload)
    (message : TransferMessage) :
    OthersSound sessionId (w.storeFileList sessionId peer message) := by
  refine ⟨?_, h.silent.append ?_⟩
  · intro key peer' hne hp
    rw [show (w.storeFileList sessionId peer message).peers = w.peers.put sessionId _ from rfl,
      Hashtable.get?_put_of_ne _ _ hne] at hp
    exact h.openIsActive key peer' hp
  · intro key message' hm
    simp only [fileListReport, List.mem_singleton] at hm
    split at hm <;> cases hm

theorem storeFileList_others (w : UploadWorld) (sessionId : String) (peer : PeerUpload)
    (message : TransferMessage) :
    (w.storeFileList sessionId peer message).othersActive sessionId = w.othersActive sessionId := by
  simp only [othersActive, UploadWorld.storeFileList, act_toFileUploadServer, setPeer_peers,
    Hashtable.remove_put]

theorem Sound.holdPeer (h : Sound w) (hf : peer.currentFile = none) (message : TransferMessage) :
    Sound ((w.storeFileList sessionId peer message).holdPeer sessionId
      (peer.acceptFileList w.sharedFiles message)) := by
  refine Sound.act ?_ silent_uploadsChanged
  refine (h.storeFileList sessionId peer message).put (setPeer_peers ..)
    ((extends_setPeer ..).trans (extends_act ..)) ?_ ?_ ?_
  · intro ho
    simp [PeerUpload.acceptFileList, PeerUpload.identify, hf] at ho
  · rw [storeFileList_others]
    exact (Hashtable.count_remove_le ..).trans h.active
  · apply (h.storeFileList sessionId peer message).silent.append
    intro key message' hm
    simp only [List.mem_singleton, UploadAction.sendToPeer.injEq] at hm
    obtain ⟨rfl, rfl, -⟩ := hm
    simp [IsFileMessage, Message.ofWhat]

theorem Sound.serveList (h : Sound w) (hp : w.peers.get? sessionId = some peer)
    (message : TransferMessage) (hc : (w.storeFileList sessionId peer message).countActiveUploads <
      w.maxSimultaneousUploads) : Sound (w.handleFileList sessionId message) := by
  rw [handleFileList_served hp hc]
  have hm := mayServe_unqueue false (w.storeFileList sessionId peer message) sessionId
    (peer.acceptFileList w.sharedFiles message)
  have hothers : OthersSound sessionId ((w.storeFileList sessionId peer message).unqueue sessionId
      (peer.acceptFileList w.sharedFiles message)) := by
    refine ⟨?_, (h.storeFileList sessionId peer message).silent⟩
    intro key peer' hne hp'
    rw [unqueue_peers, Hashtable.get?_put_of_ne _ _ hne] at hp'
    exact (h.storeFileList sessionId peer message).openIsActive key peer' hne hp'
  have hb := hothers.beginNextFile (Hashtable.get?_put_self ..) rfl (by
    rw [storeFileList_count] at hc
    have hlt : w.othersActive sessionId + 1 ≤ w.maxSimultaneousUploads := by omega
    change _ ≤ w.maxSimultaneousUploads
    rw [countActiveUploads, unqueue_peers, Hashtable.count_put]
    change (w.storeFileList sessionId peer message).othersActive sessionId + _ ≤ _
    rw [storeFileList_others]
    exact (Nat.add_le_add_left (Bool.toNat_le _) _).trans hlt)
  rw [beginAndSend]
  split
  · exact Serving.sound (serving_sendNextChunk hm.beginNextFile) hb
  · exact hb

end UploadWorld

end HiTuxShare
