import HiTuxShare.UploadAdmission
import HiTuxShare.UploadStreamRuns

namespace HiTuxShare
set_option autoImplicit true

def isFileData (message : TransferMessage) : Bool := message.what == .fileData

/-- The server with the notifications its network thread has handed in: how many for each
session, and how much had been sent to it by the last one. -/
structure PacedServer extends UploadWorld where
  delivered : String → Nat := fun _ => 0
  drainedAt : String → Nat := fun _ => 0

namespace PacedServer

/-- The notifications for a session that have been asked for and are still to come. -/
def outstanding (s : PacedServer) (sessionId : String) : Nat :=
  s.drainsFor sessionId - s.delivered sessionId

def sentSinceDrain (s : PacedServer) (sessionId : String) : List TransferMessage :=
  (s.sentTo sessionId).drop (s.drainedAt sessionId)

def deliver (s : PacedServer) (sessionId : String) : PacedServer :=
  { s with
    delivered := Function.update s.delivered sessionId (s.delivered sessionId + 1)
    drainedAt := Function.update s.drainedAt sessionId (s.sentTo sessionId).length }

/-- A notification counts as delivered when its callback begins. -/
def received (s : PacedServer) : UploadEvent → PacedServer
  | .outputQueuesDrained sessionId => s.deliver sessionId
  | _ => s

def handle (s : PacedServer) (e : UploadEvent) : PacedServer :=
  { s.received e with toUploadWorld := s.toUploadWorld.handle e }

def machine : EventMachine PacedServer UploadEvent := ⟨handle⟩

def listening (sharedFiles : Hashtable String SharedFile) (localSessionId : String)
    (maxSimultaneousUploads : Nat) (disk : Disk) : PacedServer :=
  { UploadWorld.listening sharedFiles localSessionId maxSimultaneousUploads disk with }

/-- The network thread hands in nothing but the notifications it was asked for. -/
def Deliverable (s : PacedServer) : UploadEvent → Prop
  | .outputQueuesDrained sessionId => 0 < s.outstanding sessionId
  | _ => True

def OneInFlight (s : PacedServer) : Prop :=
  ∀ sessionId, s.outstanding sessionId ≤ 1 ∧ (s.sentSinceDrain sessionId).countP isFileData ≤ 1

/-- A list that names something shared comes from a peer nothing is on its way to. -/
def ListsAfterDrain (s : PacedServer) : UploadEvent → Prop
  | .messageReceived sessionId message => ∀ peer,
      s.RequestsFiles sessionId peer message → s.outstanding sessionId = 0
  | _ => True

end PacedServer

namespace UploadWorld

/-- How many `FILE_DATA` messages a peer has been sent. -/
def dataTo (w : UploadWorld) (sessionId : String) : Nat :=
  (w.sentTo sessionId).countP isFileData

theorem dataTo_act (w : UploadWorld) (action : UploadAction) (sessionId : String) :
    (w.act action).dataTo sessionId =
      w.dataTo sessionId + (action.sentTo? sessionId).toList.countP isFileData := by
  rw [dataTo, sentTo_act, List.countP_append]
  rfl

/-- Neither the data sent nor the notifications asked for change. -/
structure SameFlow (w w' : UploadWorld) : Prop where
  dataTo : ∀ sessionId, w'.dataTo sessionId = w.dataTo sessionId
  drainsFor : ∀ sessionId, w'.drainsFor sessionId = w.drainsFor sessionId

theorem SameFlow.trans (h : SameFlow w w') (h' : SameFlow w' w'') : SameFlow w w'' :=
  ⟨fun key => (h'.dataTo key).trans (h.dataTo key),
    fun key => (h'.drainsFor key).trans (h.drainsFor key)⟩

theorem sameFlow_setPeer (w : UploadWorld) (sessionId : String) (peer : PeerUpload) :
    SameFlow w (w.setPeer sessionId peer) := ⟨fun _ => rfl, fun _ => rfl⟩

theorem sameFlow_notify (w : UploadWorld) : SameFlow w (w.act .uploadsChanged) :=
  ⟨fun key => dataTo_act w .uploadsChanged key, fun key => by rw [drainsFor_act]; simp⟩

theorem sameFlow_report (w : UploadWorld) (peer : PeerUpload) (unknownCount : Nat) :
    SameFlow w (w.act (fileListReport peer unknownCount)) := by
  rw [fileListReport]
  split <;> exact ⟨fun key => dataTo_act w _ key, fun key => by rw [drainsFor_act]; simp⟩

theorem sameFlow_sendToPeer (w : UploadWorld) (sessionId : String)
    (h : isFileData message = false) : SameFlow w (w.sendToPeer sessionId message) := by
  constructor
  · intro key
    rw [sendToPeer, dataTo_act, UploadAction.sentTo?]
    split <;> simp [h]
  · intro key
    rw [sendToPeer, drainsFor_act]
    simp

theorem sameFlow_beginNextFile (w : UploadWorld) (sessionId : String) :
    SameFlow w (w.beginNextFile sessionId).1 := by
  cases hp : w.peers.get? sessionId with
  | none => simpa only [beginNextFile, hp] using ⟨fun _ => rfl, fun _ => rfl⟩
  | some peer =>
    cases ho : (peer.openNextFile w.disk).2 with
    | none =>
      rw [beginNextFile_of_none hp ho]
      exact sameFlow_setPeer ..
    | some file =>
      have hheader : isFileData (fileHeader w.localSessionId file) = false := by
        simp [isFileData]
      rw [beginNextFile_of_some hp ho]
      exact (sameFlow_setPeer ..).trans
        ((sameFlow_sendToPeer _ _ hheader).trans (sameFlow_notify _))

/-- Every chunk comes with one request to be told when it is out. -/
theorem sendChunk_flow (w : UploadWorld) (sessionId : String) (peer : PeerUpload)
    (bytes : List UInt8) (stream : ReadStream) (key : String) :
    (w.sendChunk sessionId peer bytes stream).dataTo key =
        w.dataTo key + (decide (sessionId = key)).toNat ∧
      (w.sendChunk sessionId peer bytes stream).drainsFor key =
        w.drainsFor key + (decide (sessionId = key)).toNat := by
  have hdata : isFileData (fileData peer.mungeMode bytes) = true := rfl
  by_cases he : sessionId = key
  · subst he
    constructor
    · simp [sendChunk, dataTo, sendToPeer, UploadAction.sentTo?, hdata]
    · simp [sendChunk, drainsFor, act, setPeer, sendToPeer]
  · have hs := sameFor_sendChunk w peer bytes stream he
    rw [dataTo, hs.sentTo, hs.drainsFor, decide_eq_false he]
    exact ⟨rfl, rfl⟩

/-- With `told` notifications handed in: at most one is on its way to each peer, and none to a
peer that waits to be started. -/
structure Paced (told : String → Nat) (w : UploadWorld) : Prop where
  dataTo : ∀ sessionId, w.dataTo sessionId = w.drainsFor sessionId
  one : ∀ sessionId, w.drainsFor sessionId ≤ told sessionId + 1
  waiting : ∀ sessionId peer, w.peers.get? sessionId = some peer → peer.isWaiting = true →
    w.drainsFor sessionId ≤ told sessionId

/-- A chunk may go to this peer. -/
structure Idle (told : String → Nat) (w : UploadWorld) (sessionId : String) : Prop where
  drained : w.drainsFor sessionId ≤ told sessionId
  started : ∀ peer, w.peers.get? sessionId = some peer → peer.isWaiting = false

theorem Paced.put (h : Paced told w) (hf : SameFlow w w')
    (hput : w'.peers = w.peers.put sessionId peer)
    (hw : peer.isWaiting = true → w.drainsFor sessionId ≤ told sessionId) : Paced told w' where
  dataTo key := by rw [hf.dataTo, hf.drainsFor, h.dataTo]
  one key := by rw [hf.drainsFor]; exact h.one key
  waiting := by
    intro key peer' hp hwait
    rw [hf.drainsFor]
    rw [hput, Hashtable.get?_put] at hp
    split at hp
    · next he =>
      cases hp
      rw [he]
      exact hw hwait
    · exact h.waiting key peer' hp hwait

theorem Paced.sameFlow (h : Paced told w) (hf : SameFlow w w') (hp : w'.peers = w.peers) :
    Paced told w' where
  dataTo key := by rw [hf.dataTo, hf.drainsFor, h.dataTo]
  one key := by rw [hf.drainsFor]; exact h.one key
  waiting key peer := by rw [hf.drainsFor, hp]; exact h.waiting key peer

theorem Paced.notify (h : Paced told w) : Paced told (w.act .uploadsChanged) :=
  h.sameFlow (sameFlow_notify w) rfl

theorem Paced.beginNextFile (h : Paced told w) (sessionId : String) :
    Paced told (w.beginNextFile sessionId).1 := by
  cases hp : w.peers.get? sessionId with
  | none => simpa only [UploadWorld.beginNextFile, hp] using h
  | some peer =>
    apply h.put (sameFlow_beginNextFile w sessionId) (beginNextFile_peers hp)
    rw [PeerUpload.openNextFile_isWaiting]
    exact h.waiting sessionId peer hp

theorem Idle.beginNextFile (h : Idle told w sessionId) :
    Idle told (w.beginNextFile sessionId).1 sessionId := by
  refine ⟨(sameFlow_beginNextFile w sessionId).drainsFor sessionId ▸ h.drained, ?_⟩
  intro peer hp
  obtain ⟨peer', hw, rfl⟩ := peer_of_beginNextFile hp
  rw [PeerUpload.openNextFile_isWaiting]
  exact h.started peer' hw

theorem Paced.sendChunk (h : Paced told w) (hi : Idle told w sessionId)
    (hp : w.peers.get? sessionId = some peer) (bytes : List UInt8) (stream : ReadStream) :
    Paced told (w.sendChunk sessionId peer bytes stream) where
  dataTo key := by
    obtain ⟨hdata, hdrains⟩ := sendChunk_flow w sessionId peer bytes stream key
    rw [hdata, hdrains, h.dataTo]
  one key := by
    rw [(sendChunk_flow w sessionId peer bytes stream key).2]
    by_cases he : sessionId = key
    · subst he
      rw [decide_eq_true rfl]
      exact Nat.add_le_add_right hi.drained 1
    · rw [decide_eq_false he]
      exact h.one key
  waiting := by
    intro key peer' hp' hw
    rw [sendChunk_peers, Hashtable.get?_put] at hp'
    rw [(sendChunk_flow w sessionId peer bytes stream key).2]
    split at hp'
    · cases hp'
      have hn : peer.isWaiting = false := hi.started peer hp
      exact absurd (hn.symm.trans hw) Bool.false_ne_true
    · next he =>
      rw [decide_eq_false (Ne.symm he)]
      exact h.waiting key peer' hp' hw

theorem idle_unqueue {w : UploadWorld} (h : w.drainsFor sessionId ≤ told sessionId)
    (peer : PeerUpload) :
    Idle told (w.unqueue sessionId peer) sessionId := by
  refine ⟨h, ?_⟩
  intro peer' hp
  rw [unqueue_peers, Hashtable.get?_put_self] at hp
  cases hp
  rfl

theorem Paced.unqueue (h : Paced told w) (sessionId : String) (peer : PeerUpload) :
    Paced told (w.unqueue sessionId peer) := by
  apply h.put (sameFlow_setPeer ..) (unqueue_peers ..)
  rintro ⟨⟩

/-- Serving sends a chunk only where nothing is on its way. -/
theorem paced_induction (told : String → Nat) :
    (∀ w sessionId, Paced told w → Idle told w sessionId →
      Paced told (w.sendNextChunk sessionId)) ∧
    ∀ w, Paced told w → Paced told w.startNextQueuedPeer := by
  apply serving_induction
  · intro w sessionId peer stream h hi _ _ _
    exact ⟨h.beginNextFile sessionId, hi.beginNextFile⟩
  · intro w sessionId peer stream h hi hp _ _
    exact h.sendChunk hi hp ..
  · intro w sessionId peer h _ hp hw
    have hi : Idle told (w.unqueue sessionId peer) sessionId :=
      idle_unqueue (h.waiting sessionId peer hp hw) peer
    exact ⟨(h.unqueue sessionId peer).beginNextFile sessionId, hi.beginNextFile⟩
  · exact fun w h => h.notify

theorem Paced.sendNextChunk (h : Paced told w) (hi : Idle told w sessionId) :
    Paced told (w.sendNextChunk sessionId) := (paced_induction told).1 w sessionId h hi

theorem Paced.startNextQueuedPeer (h : Paced told w) : Paced told w.startNextQueuedPeer :=
  (paced_induction told).2 w h

theorem Paced.beginAndSend (h : Paced told w) (hi : Idle told w sessionId) :
    Paced told (w.beginAndSend sessionId) := by
  rw [UploadWorld.beginAndSend]
  split
  · exact (h.beginNextFile sessionId).sendNextChunk hi.beginNextFile
  · exact h.beginNextFile sessionId

theorem beginAndSend_of_no_files {w : UploadWorld} (hp : w.peers.get? sessionId = some peer)
    (hr : peer.requestedFiles = []) :
    w.beginAndSend sessionId = (w.beginNextFile sessionId).1 := by
  have hnone : (peer.openNextFile w.disk).2 = none := by
    rw [PeerUpload.openNextFile, PeerUpload.openFirst_snd, PeerUpload.remaining, hr, List.drop_nil]
    rfl
  rw [UploadWorld.beginAndSend, beginNextFile_of_none hp hnone, if_neg Bool.false_ne_true]

theorem Paced.fileList (h : Paced told w) (hp : w.peers.get? sessionId = some peer)
    (hr : PeerUpload.resolve w.sharedFiles message ≠ [] →
      w.drainsFor sessionId ≤ told sessionId) :
    Paced told (w.handleFileList sessionId message) := by
  have hwaiting (queued : Bool) : ({ peer.acceptFileList w.sharedFiles message with
      isQueued := queued } : PeerUpload).isWaiting = true →
        w.drainsFor sessionId ≤ told sessionId := by
    intro hw
    apply hr
    intro hnil
    simp [PeerUpload.isWaiting, PeerUpload.acceptFileList, hnil] at hw
  have hflow : SameFlow w (w.storeFileList sessionId peer message) :=
    (sameFlow_setPeer ..).trans (sameFlow_report ..)
  have hstored : Paced told (w.storeFileList sessionId peer message) :=
    h.put hflow rfl (hwaiting peer.isQueued)
  simp only [handleFileList, hp]
  split
  · apply Paced.notify
    have hnotice : isFileData (Message.ofWhat .notifyQueued : TransferMessage) = false := rfl
    apply hstored.put ((sameFlow_setPeer ..).trans (sameFlow_sendToPeer _ _ hnotice)) rfl
    rw [hflow.drainsFor]
    exact hwaiting true
  · by_cases hnil : PeerUpload.resolve w.sharedFiles message = []
    · rw [beginAndSend_of_no_files (Hashtable.get?_put_self ..) hnil]
      exact (hstored.unqueue ..).beginNextFile sessionId
    · apply (hstored.unqueue ..).beginAndSend
      apply idle_unqueue
      rw [hflow.drainsFor]
      exact hr hnil

theorem Paced.outputQueuesDrained (h : Paced told w) (hd : told sessionId < w.drainsFor sessionId) :
    Paced (Function.update told sessionId (told sessionId + 1))
      (w.outputQueuesDrained sessionId) := by
  have hmore (key : String) :
      told key ≤ Function.update told sessionId (told sessionId + 1) key := by
    rw [Function.update_apply]
    split
    · next he => rw [he]; exact Nat.le_succ _
    · exact Nat.le_refl _
  have htold : Paced (Function.update told sessionId (told sessionId + 1)) w :=
    ⟨h.dataTo, fun key => (h.one key).trans (Nat.add_le_add_right (hmore key) 1),
      fun key peer hp hw => (h.waiting key peer hp hw).trans (hmore key)⟩
  have hidle : Idle (Function.update told sessionId (told sessionId + 1)) w sessionId := by
    refine ⟨by rw [Function.update_self]; exact h.one sessionId, ?_⟩
    intro peer hp
    by_contra hw
    have hle := h.waiting sessionId peer hp (by simpa using hw)
    omega
  rw [UploadWorld.outputQueuesDrained]
  split
  · exact htold
  · split
    · exact htold.sendNextChunk hidle
    · exact htold.beginAndSend hidle

end UploadWorld

namespace PacedServer

open UploadWorld (Paced SameFlow)

/-- What makes the bound survive: the notifications handed in are no more than the chunks sent
by the last of them. -/
structure Kept (s : PacedServer) : Prop where
  paced : Paced s.delivered s.toUploadWorld
  told : ∀ sessionId, s.delivered sessionId ≤
    ((s.sentTo sessionId).take (s.drainedAt sessionId)).countP isFileData

theorem Kept.oneInFlight (h : Kept s) : s.OneInFlight := by
  intro sessionId
  have hone := h.paced.one sessionId
  have hdata : (s.sentTo sessionId).countP isFileData = s.drainsFor sessionId :=
    h.paced.dataTo sessionId
  have htold := h.told sessionId
  constructor
  · rw [outstanding]
    omega
  · rw [← List.take_append_drop (s.drainedAt sessionId) (s.sentTo sessionId),
      List.countP_append] at hdata
    rw [sentSinceDrain]
    omega

theorem sentTo_prefix (w : UploadWorld) (e : UploadEvent) (sessionId : String) :
    w.sentTo sessionId <+: (w.handle e).sentTo sessionId := by
  cases hs : e.session? with
  | some other => exact (w.extends_handle hs).actions.filterMap _
  | none =>
    cases e with
    | setSharedFiles => exact List.prefix_rfl
    | diskChanged => exact List.prefix_rfl
    | _ => cases hs

theorem Kept.handle (h : Kept s) (hd : s.Deliverable e) (hl : s.ListsAfterDrain e) :
    Kept (s.handle e) := by
  have hgrown (sessionId : String) (n : Nat) : ((s.sentTo sessionId).take n).countP isFileData ≤
      (((s.handle e).sentTo sessionId).take n).countP isFileData := by
    obtain ⟨more, hm⟩ := sentTo_prefix s.toUploadWorld e sessionId
    rw [show (s.handle e).sentTo sessionId = _ from hm.symm, List.take_append, List.countP_append]
    exact Nat.le_add_right ..
  cases e with
  | sessionAccepted sessionId =>
    refine ⟨Paced.notify (h.paced.put (UploadWorld.sameFlow_setPeer ..) rfl ?_),
      fun key => (h.told key).trans (hgrown key _)⟩
    rintro ⟨⟩
  | sessionDetached sessionId =>
    refine ⟨Paced.notify (Paced.startNextQueuedPeer ⟨h.paced.dataTo, h.paced.one, ?_⟩),
      fun key => (h.told key).trans (hgrown key _)⟩
    intro key peer hp
    rw [Hashtable.get?_remove] at hp
    split at hp
    · cases hp
    · exact h.paced.waiting key peer hp
  | messageReceived sessionId message =>
    refine ⟨?_, fun key => (h.told key).trans (hgrown key _)⟩
    change Paced s.delivered (s.toUploadWorld.messageReceived sessionId message)
    rw [UploadWorld.messageReceived]
    split
    · exact h.paced
    · next peer hp =>
      split
      · exact Paced.notify (h.paced.put (UploadWorld.sameFlow_setPeer ..) rfl
          (h.paced.waiting sessionId peer hp))
      · next hw =>
        apply h.paced.fileList hp
        intro hr
        exact Nat.le_of_sub_eq_zero (hl peer ⟨hp, hw, hr⟩)
      · exact h.paced
  | outputQueuesDrained sessionId =>
    have hlt : s.delivered sessionId < s.drainsFor sessionId := Nat.lt_of_sub_pos hd
    refine ⟨h.paced.outputQueuesDrained hlt, ?_⟩
    intro key
    change Function.update s.delivered sessionId _ key ≤ (((s.handle _).sentTo key).take
      (Function.update s.drainedAt sessionId _ key)).countP isFileData
    refine le_trans ?_ (hgrown key _)
    rw [Function.update_apply, Function.update_apply]
    split
    · next he =>
      have hdata : (s.sentTo sessionId).countP isFileData = s.drainsFor sessionId :=
        h.paced.dataTo sessionId
      rw [he, List.take_length, hdata]
      exact hlt
    · exact h.told key
  | setSharedFiles =>
    exact ⟨⟨h.paced.dataTo, h.paced.one, h.paced.waiting⟩, h.told⟩
  | diskChanged =>
    exact ⟨⟨h.paced.dataTo, h.paced.one, h.paced.waiting⟩, h.told⟩

/-- A peer that sends its list twice, with the first chunk still on its way. -/
def repeatedRequestRun : List UploadEvent :=
  [.sessionAccepted "/peer/1" "peer", .messageReceived "/peer/1" (requestFor ["notes.txt"]),
    .messageReceived "/peer/1" (requestFor ["notes.txt"])]

/-- The second request starts a second chain of chunks. -/
theorem repeated_request_queues_more :
    ¬ ∀ (sharedFiles : Hashtable String SharedFile) (localSessionId : String)
      (maxSimultaneousUploads : Nat) (disk : Disk) (es : List UploadEvent),
      machine.EveryStep Deliverable
        (listening sharedFiles localSessionId maxSimultaneousUploads disk) es →
      machine.EveryState OneInFlight
        (listening sharedFiles localSessionId maxSimultaneousUploads disk) es := by
  intro h
  have hrun := h notesShare "" 2 notesDisk repeatedRequestRun ⟨trivial, trivial, trivial, trivial⟩
  exact absurd (hrun.last "/peer/1").1 (by decide +kernel)

/-- As long as nobody repeats a request with a chunk on its way, no peer is ever more than one
chunk ahead of what has gone out to it. -/
theorem one_chunk_in_flight (sharedFiles : Hashtable String SharedFile) (localSessionId : String)
    (maxSimultaneousUploads : Nat) (disk : Disk) (es : List UploadEvent)
    (hdelivered : machine.EveryStep Deliverable
      (listening sharedFiles localSessionId maxSimultaneousUploads disk) es)
    (hlists : machine.EveryStep ListsAfterDrain
      (listening sharedFiles localSessionId maxSimultaneousUploads disk) es) :
    machine.EveryState OneInFlight
      (listening sharedFiles localSessionId maxSimultaneousUploads disk) es := by
  have hstart : Kept (listening sharedFiles localSessionId maxSimultaneousUploads disk) := by
    refine ⟨⟨fun _ => rfl, fun _ => Nat.zero_le _, ?_⟩, fun _ => Nat.zero_le _⟩
    intro sessionId peer hp
    cases hp
  have hsteps := hdelivered.and hlists
  have hkept := EventMachine.everyState_of_invariant (I := Kept) ?_ hstart hsteps
  · exact hkept.imp fun s h => h.oneInFlight
  · intro s e h he
    exact h.handle he.1 he.2

/-- A peer that asks again once its first chunk has gone out. -/
theorem one_chunk_in_flight_repeated :
    machine.EveryState OneInFlight (listening notesShare "" 2 notesDisk)
      [.sessionAccepted "/peer/1" "peer", .messageReceived "/peer/1" (requestFor ["notes.txt"]),
        .outputQueuesDrained "/peer/1",
        .messageReceived "/peer/1" (requestFor ["notes.txt"])] := by
  apply one_chunk_in_flight notesShare "" 2 notesDisk
  · exact ⟨trivial, trivial, by change 0 < _; decide +kernel, trivial, trivial⟩
  · exact ⟨trivial, fun _ _ => by decide +kernel, trivial, fun _ _ => by decide +kernel, trivial⟩

end PacedServer

end HiTuxShare
