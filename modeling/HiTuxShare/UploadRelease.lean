import HiTuxShare.UploadCap
import HiTuxShare.UploadWakeUp

namespace HiTuxShare
set_option autoImplicit true

open PeerUpload

/-- A drain notification for this peer finds nothing left to send. -/
def PeerUpload.isSpent (disk : Disk) (peer : PeerUpload) : Bool :=
  match peer.currentFile with
  | some stream => (disk.unread stream).isEmpty && !peer.hasContent disk
  | none => peer.hasOnlyEmpty disk

namespace UploadWorld

/-- The events that end a peer's service. -/
def EndsService (w : UploadWorld) : UploadEvent → Prop
  | .sessionDetached sessionId => (w.peers.get? sessionId).isSome
  | .outputQueuesDrained sessionId => (w.peers.get? sessionId).any (isSpent w.disk)
  | _ => False

/-- Either the cap is used up, or nobody who could be served is left in the queue. -/
def NobodyLeftWaiting (w : UploadWorld) : Prop :=
  w.maxSimultaneousUploads ≤ w.openCount ∨ ∀ sessionId peer,
    w.peers.get? sessionId = some peer → peer.isQueued = true → peer.canOpen w.disk = false

def ReleasesSlot (w : UploadWorld) (e : UploadEvent) : Prop :=
  w.EndsService e → (w.handle e).NobodyLeftWaiting

/-- The peers as the event leaves them before anybody waiting is considered. -/
def releasedPeers (w : UploadWorld) : UploadEvent → Hashtable String PeerUpload
  | .sessionDetached sessionId => w.peers.remove sessionId
  | .outputQueuesDrained sessionId =>
    match w.peers.get? sessionId with
    | some peer => w.peers.put sessionId peer.exhausted
    | none => w.peers
  | _ => w.peers

/-- Starting one peer is enough: with the one that can be started the cap is used up, or nobody
behind it has anything that can be opened. The slots are those the active peers leave, and a
peer that has been sent everything is still one of these. -/
def OneStartSuffices (disk : Disk) (maxSimultaneousUploads : Nat)
    (peers : Hashtable String PeerUpload) : Prop :=
  let free := maxSimultaneousUploads - peers.count isActive
  maxSimultaneousUploads ≤ openElsewhere peers +
      ((chosenPeer disk free (waitingPeers peers)).any (hasContent disk)).toNat +
      (leftWaiting disk free (waitingPeers peers)).countP hasOpen ∨
    ∀ peer ∈ leftWaiting disk free (waitingPeers peers), peer.canOpen disk = false

def WakesEnough (w : UploadWorld) (e : UploadEvent) : Prop :=
  w.EndsService e → OneStartSuffices w.disk w.maxSimultaneousUploads (w.releasedPeers e)

theorem drained_isSpent {w : UploadWorld} (hp : w.peers.get? sessionId = some peer)
    (hs : peer.isSpent w.disk = true) :
    EndsInWakeUp w (w.outputQueuesDrained sessionId) (w.peers.put sessionId peer.exhausted) := by
  simp only [outputQueuesDrained, hp]
  cases hf : peer.currentFile with
  | none =>
    simp only [isSpent, hf, hasOnlyEmpty, Bool.and_eq_true, Bool.not_eq_true'] at hs
    obtain ⟨hb, hend⟩ := sendNextChunk_begun hp hs.1
    rw [hs.2, if_neg Bool.false_ne_true] at hend
    rw [Option.isSome_none, if_neg Bool.false_ne_true, beginAndSend, if_pos hb]
    exact hend
  | some stream =>
    simp only [isSpent, hf, Bool.and_eq_true, Bool.not_eq_true', List.isEmpty_iff] at hs
    rw [Option.isSome_some, if_pos rfl]
    cases hopen : peer.hasFile w.disk with
    | false => exact sendNextChunk_exhausted hp hf hs.1 hopen
    | true =>
      obtain ⟨hb, hend⟩ := sendNextChunk_begun hp hopen
      rw [hs.2, if_neg Bool.false_ne_true] at hend
      rw [sendNextChunk_of_end hp hf hs.1, if_pos hb]
      exact hend

/-- Every event that ends a service goes on to wake somebody up. -/
theorem EndsService.endsInWakeUp (h : EndsService w e) :
    EndsInWakeUp w (w.handle e) (w.releasedPeers e) := by
  cases e with
  | sessionDetached sessionId => exact ⟨_, rfl, rfl, ⟨rfl, rfl, rfl, rfl, List.prefix_rfl⟩⟩
  | outputQueuesDrained sessionId =>
    obtain ⟨peer, hp, hs⟩ := (Option.any_eq_true ..).mp h
    simp only [releasedPeers, hp]
    exact drained_isSpent hp hs
  | _ => exact h.elim

theorem mem_waitingPeers {t : Hashtable String PeerUpload} :
    peer ∈ waitingPeers t ↔
      ∃ sessionId, t.get? sessionId = some peer ∧ peer.isWaiting = true := by
  simp only [waitingPeers, List.mem_map, List.mem_filter, Hashtable.get?_eq_some_iff]
  constructor
  · rintro ⟨⟨sessionId, peer'⟩, ⟨hm, hw⟩, rfl⟩
    exact ⟨sessionId, hm, hw⟩
  · rintro ⟨sessionId, hm, hw⟩
    exact ⟨(sessionId, peer), ⟨hm, hw⟩, rfl⟩

theorem openCount_split (w : UploadWorld) :
    w.openCount = openElsewhere w.peers + (waitingPeers w.peers).countP hasOpen := by
  have hfilter : waitingPeers w.peers = w.peers.values.filter isWaiting := by
    rw [waitingPeers, Hashtable.values, List.filter_map]
    rfl
  rw [hfilter]
  exact w.peers.count_eq_add_countP hasOpen isWaiting

theorem nobodyLeftWaiting_iff (w : UploadWorld) :
    w.NobodyLeftWaiting ↔
      w.maxSimultaneousUploads ≤ openElsewhere w.peers + (waitingPeers w.peers).countP hasOpen ∨
        ∀ peer ∈ waitingPeers w.peers, peer.canOpen w.disk = false := by
  rw [NobodyLeftWaiting, openCount_split]
  refine or_congr Iff.rfl ⟨?_, ?_⟩
  · intro h peer hm
    obtain ⟨sessionId, hp, hw⟩ := mem_waitingPeers.mp hm
    exact h sessionId peer hp ((Bool.and_eq_true ..).mp hw).1
  · intro h sessionId peer hp hq
    cases hw : peer.isWaiting with
    | true => exact h peer (mem_waitingPeers.mpr ⟨sessionId, hp, hw⟩)
    | false =>
      simp only [isWaiting, hq, Bool.true_and, Bool.not_eq_eq_eq_not, Bool.not_false,
        List.isEmpty_iff] at hw
      rw [canOpen, hw]
      rfl

theorem releasesSlot_iff (w : UploadWorld) (e : UploadEvent) :
    w.ReleasesSlot e ↔ w.WakesEnough e := by
  apply imp_congr_right
  intro h
  obtain ⟨woken, he, hput, hx⟩ := h.endsInWakeUp
  obtain ⟨hwaiting, hopen⟩ := startNextQueuedPeer_spec woken
  have hs := serving_startNextQueuedPeer false woken |>.extends
  rw [he, nobodyLeftWaiting_iff]
  simp only [act_toFileUploadServer, act_disk, hwaiting, hopen, hs.maxSimultaneousUploads,
    hs.disk, hx.maxSimultaneousUploads, hx.disk, countActiveUploads, hput]
  rfl

/-- Three peers at a server with a cap of two; the first two get everything they asked for. -/
def twoFinishedRun : List UploadEvent :=
  [.sessionAccepted "/peer/1" "first", .sessionAccepted "/peer/2" "second",
    .sessionAccepted "/peer/3" "third",
    .messageReceived "/peer/1" (requestFor ["notes.txt"]),
    .messageReceived "/peer/2" (requestFor ["notes.txt"]),
    .messageReceived "/peer/3" (requestFor ["notes.txt"]),
    .outputQueuesDrained "/peer/1", .outputQueuesDrained "/peer/2"]

/-- Both finished peers stay connected and keep their slots, so the third is not woken. -/
theorem finished_peers_keep_their_slots :
    ¬ ∀ (sharedFiles : Hashtable String SharedFile) (localSessionId : String)
      (maxSimultaneousUploads : Nat) (disk : Disk) (es : List UploadEvent),
      machine.EveryStep ReleasesSlot
        (listening sharedFiles localSessionId maxSimultaneousUploads disk) es := by
  intro h
  have hrun := h notesShare "" 2 notesDisk twoFinishedRun
  obtain ⟨-, -, -, -, -, -, -, hlast, -⟩ := hrun
  rcases hlast (by change Option.any _ _ = true; decide +kernel) with hopen | hwaiting
  · exact absurd hopen (by decide +kernel)
  · have hthird : ((machine.run (listening notesShare "" 2 notesDisk) twoFinishedRun).peers.get?
        "/peer/3").any (fun peer => peer.isQueued && peer.canOpen
          (machine.run (listening notesShare "" 2 notesDisk) twoFinishedRun).disk) = true := by
      decide +kernel
    obtain ⟨peer, hp, hpeer⟩ := (Option.any_eq_true ..).mp hthird
    obtain ⟨hq, ho⟩ := (Bool.and_eq_true ..).mp hpeer
    exact Bool.noConfusion (ho.symm.trans (hwaiting "/peer/3" peer hp hq))

/-- Over a run, no freed slot is wasted exactly where every wake-up is enough. -/
theorem upload_slot_release (sharedFiles : Hashtable String SharedFile) (localSessionId : String)
    (maxSimultaneousUploads : Nat) (disk : Disk) (es : List UploadEvent) :
    machine.EveryStep ReleasesSlot
        (listening sharedFiles localSessionId maxSimultaneousUploads disk) es ↔
      machine.EveryStep WakesEnough
        (listening sharedFiles localSessionId maxSimultaneousUploads disk) es :=
  EventMachine.everyStep_congr releasesSlot_iff _ _

end UploadWorld

end HiTuxShare
