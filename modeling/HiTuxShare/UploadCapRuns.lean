import HiTuxShare.UploadCap

namespace HiTuxShare
set_option autoImplicit true

namespace UploadWorld

theorem openNextFile_of_unopenable {peer : PeerUpload} {disk : Disk}
    (h : ∀ file ∈ peer.remaining, disk.fopen file.absolutePath = none) :
    (peer.openNextFile disk).2 = none ∧ (peer.openNextFile disk).1.currentFile = none := by
  have hnone : (peer.openNextFile disk).2 = none := by
    rw [PeerUpload.openNextFile, PeerUpload.openFirst_snd, List.find?_eq_none]
    intro file hm
    simp [h file hm]
  have hsome := PeerUpload.openFirst_currentFile disk peer peer.remaining
  rw [← PeerUpload.openNextFile, hnone, Option.isSome_none, Option.isSome_eq_false_iff,
    Option.isNone_iff_eq_none] at hsome
  exact ⟨hnone, hsome⟩

theorem Sound.drained (h : Sound w)
    (hlate : NoLateService w (.outputQueuesDrained sessionId)) :
    Sound (w.outputQueuesDrained sessionId) := by
  rw [outputQueuesDrained]
  cases hp : w.peers.get? sessionId with
  | none => exact h
  | some peer =>
    have hserve (hq : peer.isQueued = false) : MayServe false w sessionId := by
      intro peer' hp' hq'
      rw [hp] at hp'
      cases hp'
      simp [hq] at hq'
    cases hf : peer.currentFile with
    | some stream =>
      have ha := h.openIsActive sessionId peer hp (by simp [hf])
      have hq : peer.isQueued = false := by
        simp only [PeerUpload.isActive, Bool.and_eq_true, Bool.not_eq_eq_eq_not,
          Bool.not_true] at ha
        exact ha.1
      simpa [hf] using (serving_sendNextChunk (hserve hq)).sound h
    | none =>
      simp only [hf, Option.isSome_none, Bool.false_eq_true, ↓reduceIte]
      cases hq : peer.isQueued with
      | false => exact (serving_beginAndSend (hserve hq)).sound h
      | true =>
        -- The stale notification only closes the record again.
        obtain ⟨hnone, hclosed⟩ := openNextFile_of_unopenable (hlate peer hp hq hf)
        have hb := beginNextFile_of_none hp hnone
        simp only [beginAndSend, hb, Bool.false_eq_true, ↓reduceIte]
        refine (h.others _).put (setPeer_peers ..) (extends_setPeer ..) ?_ ?_ h.silent
        · intro ho
          simp [hclosed] at ho
        · rw [PeerUpload.openNextFile_isActive, ← countActiveUploads_of_get? hp]
          exact h.active

theorem Sound.fileList (h : Sound w)
    (hlate : NoLateService w (.messageReceived sessionId message))
    (hwhat : message.what = .fileList) : Sound (w.handleFileList sessionId message) := by
  cases hp : w.peers.get? sessionId with
  | none => simpa only [handleFileList, hp] using h
  | some peer =>
    by_cases hc : w.maxSimultaneousUploads ≤
        (w.storeFileList sessionId peer message).countActiveUploads
    · rw [handleFileList_held hp hc]
      exact h.holdPeer (hlate hwhat peer hp hc) message
    · exact h.serveList hp message (Nat.lt_of_not_le hc)

theorem Sound.handle (h : Sound w) (hlate : NoLateService w e) : Sound (w.handle e) := by
  cases e with
  | sessionAccepted sessionId peerAddress => exact h.sessionAccepted sessionId peerAddress
  | sessionDetached sessionId => exact h.sessionDetached sessionId
  | outputQueuesDrained sessionId => exact h.drained hlate
  | setSharedFiles files => exact ⟨h.active, h.openIsActive, h.silent⟩
  | diskChanged disk => exact ⟨h.active, h.openIsActive, h.silent⟩
  | messageReceived sessionId message =>
    simp only [UploadWorld.handle, messageReceived]
    cases hp : w.peers.get? sessionId with
    | none => exact h
    | some peer =>
      cases hwhat : message.what with
      | peerId => exact (h.identify hp message).act silent_uploadsChanged
      | fileList => exact h.fileList hlate hwhat
      | _ => exact h

theorem late_header {w : UploadWorld} (hp : w.peers.get? sessionId = some peer)
    (hq : peer.isQueued = true) (hm : file ∈ peer.remaining)
    (ho : w.disk.fopen file.absolutePath ≠ none) :
    ¬QueuedPeersSilent (w.beginAndSend sessionId).actions := by
  intro hs
  cases hn : (peer.openNextFile w.disk).2 with
  | none =>
    rw [PeerUpload.openNextFile, PeerUpload.openFirst_snd, List.find?_eq_none] at hn
    exact ho (by simpa using hn file hm)
  | some next =>
    have hb := beginNextFile_of_some hp hn
    have hsent : .sendToPeer sessionId (fileHeader w.localSessionId next) true ∈
        (w.beginNextFile sessionId).1.actions := by
      have hflag : (w.setPeer sessionId (peer.openNextFile w.disk).1).isQueued sessionId =
          true := by
        rw [isQueued_of_put (setPeer_peers ..), if_pos rfl, PeerUpload.openNextFile_isQueued, hq]
      simp [hb, sendToPeer, act, hflag]
    have hmore : (w.beginNextFile sessionId).1.actions <+: (w.beginAndSend sessionId).actions := by
      simp only [beginAndSend, hb, ↓reduceIte]
      exact (serving_sendNextChunk (mayServe_late _ _)).extends.actions
    refine hs sessionId _ (hmore.subset hsent) (.inl ?_)
    rw [fileHeader]
    split <;> rfl

theorem noLateService_of_capHeld (w : UploadWorld) (e : UploadEvent) (h : CapHeld (w.handle e)) :
    NoLateService w e := by
  cases e with
  | messageReceived sessionId message =>
    intro hwhat peer hp hc
    have hheld : w.handle (.messageReceived sessionId message) =
        (w.storeFileList sessionId peer message).holdPeer sessionId
          (peer.acceptFileList w.sharedFiles message) := by
      simp only [UploadWorld.handle, messageReceived, hp, hwhat, handleFileList_held hp hc]
    rw [hheld] at h
    refine h.queuedClosed sessionId
      { peer.acceptFileList w.sharedFiles message with isQueued := true } ?_ rfl
    rw [holdPeer_peers, Hashtable.get?_put_self]
  | outputQueuesDrained sessionId =>
    intro peer hp hq hf file hm
    by_contra ho
    have hd : w.handle (.outputQueuesDrained sessionId) = w.beginAndSend sessionId := by
      simp [UploadWorld.handle, outputQueuesDrained, hp, hf]
    rw [hd] at h
    exact late_header hp hq hm ho h.queuedSilent
  | _ => trivial

theorem sound_listening (sharedFiles : Hashtable String SharedFile) (localSessionId : String)
    (maxSimultaneousUploads : Nat) (disk : Disk) :
    Sound (listening sharedFiles localSessionId maxSimultaneousUploads disk) := by
  refine ⟨Nat.zero_le _, ?_, ?_⟩
  · intro sessionId peer hp
    cases hp
  · intro sessionId message hm
    cases hm

/-- A peer that repeats its list while its file is open is queued with the file still open;
the next freed slot then puts two peers to work under a cap of one. -/
def repeatedListRun : List UploadEvent :=
  [.sessionAccepted "/peer/2" "second", .sessionAccepted "/peer/1" "first",
    .messageReceived "/peer/1" (requestFor ["notes.txt"]),
    .sessionAccepted "/peer/3" "third", .sessionDetached "/peer/3",
    .messageReceived "/peer/1" (requestFor ["notes.txt"]),
    .messageReceived "/peer/2" (requestFor ["notes.txt"]),
    .sessionAccepted "/peer/4" "fourth", .sessionDetached "/peer/4"]

theorem repeated_list_breaks_cap :
    ¬ ∀ (sharedFiles : Hashtable String SharedFile) (localSessionId : String)
      (maxSimultaneousUploads : Nat) (disk : Disk) (es : List UploadEvent),
      machine.EveryState CapHeld
        (listening sharedFiles localSessionId maxSimultaneousUploads disk) es := by
  intro h
  have hrun := h notesShare "" 1 notesDisk repeatedListRun
  exact absurd hrun.last.openFiles (by decide +kernel)

/-- The cap holds throughout a run exactly if the run never queues a peer in the middle of a
file and never finds a queued peer something to send on a late drain notification. -/
theorem upload_cap (sharedFiles : Hashtable String SharedFile) (localSessionId : String)
    (maxSimultaneousUploads : Nat) (disk : Disk) (es : List UploadEvent) :
    machine.EveryState CapHeld
        (listening sharedFiles localSessionId maxSimultaneousUploads disk) es ↔
      machine.EveryStep NoLateService
        (listening sharedFiles localSessionId maxSimultaneousUploads disk) es := by
  constructor
  · exact EventMachine.EveryState.everyStep noLateService_of_capHeld
  · intro hsteps
    have hsound := EventMachine.everyState_of_invariant (I := Sound)
      (fun w e (hs : Sound w) => hs.handle) (sound_listening ..) hsteps
    exact hsound.imp fun w hs => hs.capHeld

end UploadWorld

end HiTuxShare
