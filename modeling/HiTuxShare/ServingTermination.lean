import HiTuxShare.UploadServer

namespace HiTuxShare
set_option autoImplicit true

namespace UploadWorld

/-- `_BeginNextFile` as it calls itself for a file that is gone, with a limit on the depth of the
calls; none means that the limit was reached. -/
def beginNextFileWithin : Nat → UploadWorld → String → Option (UploadWorld × Bool)
  | 0, _, _ => none
  | depth + 1, w, sessionId =>
    match w.peers.get? sessionId with
    | none => some (w, false)
    | some peer =>
      let closed := peer.closeCurrentFile
      match closed.requestedFiles[closed.nextFileIndex]? with
      | none => some (w.setPeer sessionId closed, false)
      | some file =>
        let next := { closed with nextFileIndex := closed.nextFileIndex + 1 }
        match w.disk.fopen file.absolutePath with
        | none => beginNextFileWithin depth (w.setPeer sessionId next) sessionId
        | some stream =>
          let opened := { next with
            currentFile := some stream
            currentFileName := file.fileName
            currentFileSize := file.fileSize
            bytesSent := 0 }
          some (((w.setPeer sessionId opened).sendToPeer sessionId
            (fileHeader w.localSessionId file)).act .uploadsChanged, true)

mutual

/-- `_SendNextChunk` and `_StartNextQueuedPeer` as they call each other, with the same limit. -/
def sendNextChunkWithin : Nat → UploadWorld → String → Option UploadWorld
  | 0, _, _ => none
  | depth + 1, w, sessionId =>
    match w.peers.get? sessionId with
    | none => some w
    | some peer =>
      match peer.currentFile with
      | none => some w
      | some stream =>
        match w.disk.fread uploadChunkSize stream with
        | ([], _) =>
          match w.beginNextFileWithin depth sessionId with
          | none => none
          | some (w, true) => sendNextChunkWithin depth w sessionId
          | some (w, false) =>
            (startNextQueuedPeerWithin depth w).map fun w => w.act .uploadsChanged
        | (bytes, stream) => some (w.sendChunk sessionId peer bytes stream)

def startNextQueuedPeerWithin : Nat → UploadWorld → Option UploadWorld
  | 0, _ => none
  | depth + 1, w =>
    if w.maxSimultaneousUploads ≤ w.countActiveUploads then some w
    else
      match w.firstWaiting with
      | none => some w
      | some (sessionId, peer) =>
        match (w.unqueue sessionId peer).beginNextFileWithin depth sessionId with
        | none => none
        | some (w, true) => sendNextChunkWithin depth w sessionId
        | some (w, false) => some w

end

theorem beginNextFile_of_missing {w : UploadWorld} (hp : w.peers.get? sessionId = some peer)
    (hr : peer.remaining = file :: rest) (hf : w.disk.fopen file.absolutePath = none) :
    (w.setPeer sessionId peer.advance).beginNextFile sessionId = w.beginNextFile sessionId := by
  have hadvanced : (w.setPeer sessionId peer.advance).peers.get? sessionId = some peer.advance :=
    Hashtable.get?_put_self ..
  have hopen : peer.advance.openNextFile w.disk = peer.openNextFile w.disk := by
    rw [PeerUpload.openNextFile, PeerUpload.openNextFile, PeerUpload.remaining_advance hr, hr,
      PeerUpload.openFirst, hf]
  have hput (peer' : PeerUpload) : (w.setPeer sessionId peer.advance).setPeer sessionId peer' =
      w.setPeer sessionId peer' := by
    simp only [setPeer, Hashtable.put_put]
  have hdisk : (w.setPeer sessionId peer.advance).disk = w.disk := rfl
  simp only [beginNextFile, hadvanced, hp, hput, hdisk, hopen]
  rfl

theorem beginNextFileWithin_eq (w : UploadWorld) (sessionId : String)
    (h : w.remainingWork sessionId < depth) :
    w.beginNextFileWithin depth sessionId = some (w.beginNextFile sessionId) := by
  induction depth generalizing w with
  | zero => exact absurd h (Nat.not_lt_zero _)
  | succ depth ih =>
    rw [beginNextFileWithin]
    cases hp : w.peers.get? sessionId with
    | none => simp only [beginNextFile, hp]
    | some peer =>
      have hnext : peer.closeCurrentFile.requestedFiles[peer.closeCurrentFile.nextFileIndex]? =
          peer.remaining.head? := List.head?_drop.symm
      have hwork : w.remainingWork sessionId = peer.remaining.length := by
        rw [remainingWork, hp]
        rfl
      dsimp only
      rw [hnext]
      cases hr : peer.remaining with
      | nil =>
        have hopen : peer.openNextFile w.disk = (peer.closeCurrentFile, none) := by
          rw [PeerUpload.openNextFile, hr, PeerUpload.openFirst]
        simp only [List.head?_nil, beginNextFile, hp, hopen]
      | cons file rest =>
        simp only [List.head?_cons]
        cases hf : w.disk.fopen file.absolutePath with
        | none =>
          refine (ih (w.setPeer sessionId peer.advance) ?_).trans
            (congrArg some (beginNextFile_of_missing hp hr hf))
          rw [hwork, hr, List.length_cons] at h
          simp only [remainingWork, setPeer_peers, Hashtable.get?_put_self, Option.map_some,
            Option.getD_some, PeerUpload.remaining_advance hr]
          omega
        | some stream =>
          have hopen : peer.openNextFile w.disk =
              ({ peer.advance with
                  currentFile := some stream
                  currentFileName := file.fileName
                  currentFileSize := file.fileSize
                  bytesSent := 0 }, some file) := by
            rw [PeerUpload.openNextFile, hr, PeerUpload.openFirst, hf]
          simp only [beginNextFile, hp, hopen]
          rfl

/-- The peers that wait keep their work, and a file that is begun is one less to try. -/
theorem beginNextFile_work {w w' : UploadWorld} (h : w.beginNextFile sessionId = (w', began)) :
    w'.waitingWork = w.waitingWork ∧
      (began = true → w'.remainingWork sessionId < w.remainingWork sessionId) := by
  have hwaiting := beginNextFile_waitingWork w sessionId
  rw [h] at hwaiting
  refine ⟨hwaiting, ?_⟩
  rintro rfl
  have hfewer := beginNextFile_remainingWork (show (w.beginNextFile sessionId).2 = true by rw [h])
  rwa [h] at hfewer

/-- With so many levels left, the calls return what the recursion without a limit says. -/
structure ReturnsWithin (depth : Nat) : Prop where
  sendNextChunk : ∀ (w : UploadWorld) (sessionId : String),
    w.waitingWork + w.remainingWork sessionId + 2 ≤ depth →
      w.sendNextChunkWithin depth sessionId = some (w.sendNextChunk sessionId)
  startNextQueuedPeer : ∀ w : UploadWorld, w.waitingWork + 1 ≤ depth →
    w.startNextQueuedPeerWithin depth = some w.startNextQueuedPeer

theorem ReturnsWithin.sendNextChunk_begun (hr : ReturnsWithin depth) {w w' : UploadWorld}
    (hb : w.beginNextFile sessionId = (w', true))
    (h : w.waitingWork + w.remainingWork sessionId + 1 ≤ depth) :
    w'.sendNextChunkWithin depth sessionId = some (w'.sendNextChunk sessionId) := by
  obtain ⟨hwaiting, hfewer⟩ := beginNextFile_work hb
  have hless := hfewer rfl
  exact hr.sendNextChunk w' sessionId (by omega)

theorem ReturnsWithin.sendNextChunk_succ (hr : ReturnsWithin depth) (w : UploadWorld)
    (sessionId : String) (h : w.waitingWork + w.remainingWork sessionId + 2 ≤ depth + 1) :
    w.sendNextChunkWithin (depth + 1) sessionId = some (w.sendNextChunk sessionId) := by
  have hbegin : w.beginNextFileWithin depth sessionId = some (w.beginNextFile sessionId) :=
    beginNextFileWithin_eq w sessionId (by omega)
  rw [sendNextChunkWithin]
  cases hp : w.peers.get? sessionId with
  | none => rw [sendNextChunk_of_absent hp]
  | some peer =>
    cases hf : peer.currentFile with
    | none =>
      simp only [hf]
      rw [sendNextChunk_of_closed hp hf]
    | some stream =>
      simp only [hf]
      cases hu : w.disk.unread stream with
      | nil =>
        have hread : w.disk.fread uploadChunkSize stream =
            ([], (w.disk.fread uploadChunkSize stream).2) :=
          Prod.ext (by rw [Disk.fread_fst, hu, List.take_nil]) rfl
        rw [sendNextChunk_of_end hp hf hu, hread, hbegin]
        cases hb : w.beginNextFile sessionId with
        | mk w' began =>
          cases began with
          | true => exact hr.sendNextChunk_begun hb (by omega)
          | false =>
            have hwaiting := (beginNextFile_work hb).1
            have hstart := hr.startNextQueuedPeer w' (by omega)
            simp only [hstart, Option.map_some]
            rfl
      | cons byte rest =>
        have hbytes : w.disk.unread stream ≠ [] := hu ▸ List.cons_ne_nil byte rest
        have hread : w.disk.fread uploadChunkSize stream =
            ((w.disk.unread stream).take uploadChunkSize,
              (w.disk.fread uploadChunkSize stream).2) := rfl
        rw [sendNextChunk_of_bytes hp hf hbytes, hread, hu]
        rfl

theorem ReturnsWithin.startNextQueuedPeer_succ (hr : ReturnsWithin depth) (w : UploadWorld)
    (h : w.waitingWork + 1 ≤ depth + 1) :
    w.startNextQueuedPeerWithin (depth + 1) = some w.startNextQueuedPeer := by
  rw [startNextQueuedPeerWithin]
  split
  · next hfull => rw [startNextQueuedPeer_of_full hfull]
  · next hfree =>
    cases hfirst : w.firstWaiting with
    | none => rw [startNextQueuedPeer_of_none hfirst]
    | some entry =>
      obtain ⟨sessionId, peer⟩ := entry
      have hpays := unqueue_work (firstWaiting_spec hfirst).1 (firstWaiting_spec hfirst).2
      have hbegin : (w.unqueue sessionId peer).beginNextFileWithin depth sessionId =
          some ((w.unqueue sessionId peer).beginNextFile sessionId) :=
        beginNextFileWithin_eq _ sessionId (by omega)
      rw [startNextQueuedPeer_of_first (Nat.lt_of_not_le hfree) hfirst]
      simp only [hbegin]
      cases hb : (w.unqueue sessionId peer).beginNextFile sessionId with
      | mk w' began =>
        cases began with
        | true => exact hr.sendNextChunk_begun hb (by omega)
        | false => rfl

theorem returnsWithin (depth : Nat) : ReturnsWithin depth := by
  induction depth with
  | zero => exact ⟨fun _ _ h => absurd h (by omega), fun _ h => absurd h (by omega)⟩
  | succ depth ih => exact ⟨ih.sendNextChunk_succ, ih.startNextQueuedPeer_succ⟩

/-- How deep the calls go from a peer, whatever the peers asked for and whatever is on the disk. -/
def callDepth (w : UploadWorld) (sessionId : String) : Nat :=
  w.waitingWork + w.remainingWork sessionId + 2

theorem serving_returns (w : UploadWorld) (sessionId : String) (more : Nat) :
    w.sendNextChunkWithin (w.callDepth sessionId + more) sessionId =
        some (w.sendNextChunk sessionId) ∧
      w.beginNextFileWithin (w.callDepth sessionId + more) sessionId =
        some (w.beginNextFile sessionId) ∧
      w.startNextQueuedPeerWithin (w.callDepth sessionId + more) = some w.startNextQueuedPeer := by
  have hr := returnsWithin (w.callDepth sessionId + more)
  refine ⟨hr.sendNextChunk w sessionId (Nat.le_add_right ..), ?_, ?_⟩
  · exact beginNextFileWithin_eq w sessionId (by rw [callDepth]; omega)
  · exact hr.startNextQueuedPeer w (by rw [callDepth]; omega)

end UploadWorld

end HiTuxShare
