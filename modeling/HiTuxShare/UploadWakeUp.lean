import HiTuxShare.UploadAdmission
import HiTuxShare.UploadOutcomes

namespace HiTuxShare
set_option autoImplicit true

namespace PeerUpload

def hasOpen (peer : PeerUpload) : Bool := peer.currentFile.isSome

/-- Some requested file of the peer can be opened. -/
def canOpen (disk : Disk) (peer : PeerUpload) : Bool := peer.requestedFiles.any (opens disk)

end PeerUpload

open PeerUpload

/-- The peers waiting for a slot, in the order the table iterates them. -/
def waitingPeers (t : Hashtable String PeerUpload) : List PeerUpload :=
  (t.entries.filter fun e => e.2.isWaiting).map Prod.snd

def openElsewhere (t : Hashtable String PeerUpload) : Nat :=
  t.count fun peer => peer.hasOpen && !peer.isWaiting

/-- Of the waiting peers, the one that a wake-up with `free` slots really starts: peers with
nothing but empty files are done at once and passed over, each at the price of a slot. -/
def chosenPeer (disk : Disk) (free : Nat) (waiting : List PeerUpload) : Option PeerUpload :=
  ((waiting.take free).dropWhile (hasOnlyEmpty disk)).head?

/-- The peers such a wake-up leaves waiting. -/
def leftWaiting (disk : Disk) (free : Nat) (waiting : List PeerUpload) : List PeerUpload :=
  waiting.drop (((waiting.take free).takeWhile (hasOnlyEmpty disk)).length +
    (chosenPeer disk free waiting).toList.length)

@[simp] theorem chosenPeer_zero (disk : Disk) (waiting : List PeerUpload) :
    chosenPeer disk 0 waiting = none := rfl

@[simp] theorem leftWaiting_zero (disk : Disk) (waiting : List PeerUpload) :
    leftWaiting disk 0 waiting = waiting := rfl

@[simp] theorem chosenPeer_nil (disk : Disk) (free : Nat) : chosenPeer disk free [] = none := by
  simp [chosenPeer]

@[simp] theorem leftWaiting_nil (disk : Disk) (free : Nat) : leftWaiting disk free [] = [] := by
  simp [leftWaiting]

theorem chosenPeer_passed (free : Nat) (rest : List PeerUpload)
    (h : hasOnlyEmpty disk peer = true) :
    chosenPeer disk (free + 1) (peer :: rest) = chosenPeer disk free rest := by
  simp [chosenPeer, h]

theorem leftWaiting_passed (free : Nat) (rest : List PeerUpload)
    (h : hasOnlyEmpty disk peer = true) :
    leftWaiting disk (free + 1) (peer :: rest) = leftWaiting disk free rest := by
  simp only [leftWaiting, chosenPeer_passed free rest h, List.take_succ_cons,
    List.takeWhile_cons_of_pos h, List.length_cons]
  rw [Nat.add_right_comm, List.drop_succ_cons]

theorem chosenPeer_stop (free : Nat) (rest : List PeerUpload)
    (h : hasOnlyEmpty disk peer = false) :
    chosenPeer disk (free + 1) (peer :: rest) = some peer := by
  simp [chosenPeer, h]

theorem leftWaiting_stop (free : Nat) (rest : List PeerUpload)
    (h : hasOnlyEmpty disk peer = false) :
    leftWaiting disk (free + 1) (peer :: rest) = rest := by
  simp [leftWaiting, chosenPeer_stop free rest h, h]

theorem openElsewhere_put (t : Hashtable String PeerUpload) (sessionId : String)
    (peer : PeerUpload) : openElsewhere (t.put sessionId peer) =
      openElsewhere (t.remove sessionId) + (peer.hasOpen && !peer.isWaiting).toNat :=
  Hashtable.count_put ..

theorem openElsewhere_of_waiting {t : Hashtable String PeerUpload}
    (hp : t.get? sessionId = some peer) (hw : peer.isWaiting = true) :
    openElsewhere t = openElsewhere (t.remove sessionId) := by
  have hc := Hashtable.count_eq_of_get? hp fun peer => peer.hasOpen && !peer.isWaiting
  simpa [hw, openElsewhere] using hc

theorem isWaiting_of_not_queued {peer : PeerUpload} (h : peer.isQueued = false) :
    peer.isWaiting = false := by
  simp [isWaiting, h]

theorem openElsewhere_started {t : Hashtable String PeerUpload}
    (hp : t.get? sessionId = some peer) (hw : peer.isWaiting = true)
    (hq : started.isQueued = false) :
    openElsewhere (t.put sessionId started) = openElsewhere t + started.hasOpen.toNat := by
  rw [openElsewhere_put, openElsewhere_of_waiting hp hw, isWaiting_of_not_queued hq,
    Bool.not_false, Bool.and_true]

/-- The slot a waiting peer takes for its empty files stays taken. -/
theorem count_active_exhausted {t : Hashtable String PeerUpload}
    (hp : t.get? sessionId = some peer) (hw : peer.isWaiting = true) :
    (t.put sessionId ({ peer with isQueued := false } : PeerUpload).exhausted).count isActive =
      t.count isActive + 1 := by
  obtain ⟨hqueued, hne⟩ := (Bool.and_eq_true ..).mp hw
  rw [Hashtable.count_put, Hashtable.count_eq_of_get? hp]
  simp [isActive, exhausted, closeCurrentFile, hne, hqueued]

namespace UploadWorld

theorem firstWaiting_none {w : UploadWorld} (h : waitingPeers w.peers = []) :
    w.firstWaiting = none := by
  rw [waitingPeers, List.map_eq_nil_iff, List.filter_eq_nil_iff] at h
  exact List.find?_eq_none.mpr h

theorem firstWaiting_some {w : UploadWorld} (h : waitingPeers w.peers = peer :: rest) :
    ∃ sessionId, w.firstWaiting = some (sessionId, peer) ∧
      ∀ peer' : PeerUpload, peer'.isWaiting = false →
        waitingPeers (w.peers.put sessionId peer') = rest := by
  obtain ⟨entry, entries, hf, he, hr⟩ := List.map_eq_cons_iff.mp h
  obtain ⟨before, behind, hsplit, hb, hw, hrest⟩ := List.filter_eq_cons_iff.mp hf
  obtain ⟨sessionId, peer'⟩ := entry
  cases he
  refine ⟨sessionId, ?_, ?_⟩
  · rw [firstWaiting, hsplit, List.find?_append, List.find?_eq_none.mpr hb, Option.none_or]
    exact List.find?_cons_of_pos hw
  · intro other hn
    rw [waitingPeers, Hashtable.put_entries_of_split hsplit, List.filter_append,
      List.filter_cons_of_neg (by simpa using hn), hrest, List.filter_eq_nil_iff.mpr hb,
      List.nil_append, hr]

/-- What a wake-up does to the waiting list and to the number of open files. -/
theorem startNextQueuedPeer_spec (w : UploadWorld) :
    waitingPeers w.startNextQueuedPeer.peers =
        leftWaiting w.disk (w.maxSimultaneousUploads - w.countActiveUploads)
          (waitingPeers w.peers) ∧
      openElsewhere w.startNextQueuedPeer.peers = openElsewhere w.peers +
        ((chosenPeer w.disk (w.maxSimultaneousUploads - w.countActiveUploads)
          (waitingPeers w.peers)).any (hasContent w.disk)).toNat := by
  induction hl : waitingPeers w.peers generalizing w with
  | nil =>
    rw [startNextQueuedPeer_of_none (firstWaiting_none hl), hl]
    simp
  | cons peer rest ih =>
    by_cases hc : w.maxSimultaneousUploads ≤ w.countActiveUploads
    · rw [startNextQueuedPeer_of_full hc, Nat.sub_eq_zero_of_le hc, hl]
      simp
    obtain ⟨sessionId, hfirst, hleft⟩ := firstWaiting_some hl
    obtain ⟨hp, hw⟩ := firstWaiting_spec hfirst
    have hlt := Nat.lt_of_not_le hc
    -- While it is being started, the record is off the waiting list and otherwise unchanged.
    have hp' : (w.unqueue sessionId peer).peers.get? sessionId =
        some { peer with isQueued := false } := Hashtable.get?_put_self ..
    obtain ⟨free, hfree⟩ : ∃ free, w.maxSimultaneousUploads - w.countActiveUploads = free + 1 :=
      ⟨_, (Nat.succ_pred_eq_of_pos (Nat.sub_pos_of_lt hlt)).symm⟩
    rw [startNextQueuedPeer_of_first hlt hfirst, hfree]
    cases hf : peer.hasFile w.disk with
    | false =>
      have hstop : hasOnlyEmpty w.disk peer = false := by simp [hasOnlyEmpty, hf]
      obtain ⟨hb, hput⟩ := beginNextFile_exhausted (w := w.unqueue sessionId peer) hp' hf
      rw [hb, if_neg Bool.false_ne_true, hput, unqueue_peers, Hashtable.put_put,
        hleft _ (isWaiting_of_not_queued rfl), openElsewhere_started hp hw rfl,
        leftWaiting_stop _ _ hstop, chosenPeer_stop _ _ hstop, Option.any_some,
        hasContent_of_not_hasFile hf]
      exact ⟨rfl, rfl⟩
    | true =>
      obtain ⟨hb, hend⟩ := sendNextChunk_begun (w := w.unqueue sessionId peer) hp' hf
      rw [if_pos hb]
      split at hend
      · next hcon =>
        have hcon' : hasContent w.disk peer = true := hcon
        have hstop : hasOnlyEmpty w.disk peer = false := by simp [hasOnlyEmpty, hcon']
        obtain ⟨peer', hput, ho, hq, -, -⟩ := hend
        rw [hput, unqueue_peers, Hashtable.put_put, hleft _ (isWaiting_of_not_queued hq),
          openElsewhere_started hp hw hq, leftWaiting_stop _ _ hstop, chosenPeer_stop _ _ hstop,
          Option.any_some, hcon', hasOpen, ho]
        exact ⟨rfl, rfl⟩
      · next hcon =>
        have hpass : hasOnlyEmpty w.disk peer = true := by
          have hcon' : hasContent w.disk peer = false := Bool.eq_false_iff.mpr hcon
          simp [hasOnlyEmpty, hf, hcon']
        obtain ⟨woken, he, hput, hx⟩ := hend
        rw [unqueue_peers, Hashtable.put_put] at hput
        have hactive : woken.countActiveUploads = w.countActiveUploads + 1 := by
          rw [countActiveUploads, hput]
          exact count_active_exhausted hp hw
        have hfree' : woken.maxSimultaneousUploads - woken.countActiveUploads = free := by
          rw [hactive, hx.maxSimultaneousUploads]
          change w.maxSimultaneousUploads - _ = _
          omega
        have hspec := ih woken (by rw [hput]; exact hleft _ (isWaiting_of_not_queued rfl))
        rw [hfree', hx.disk, hput, openElsewhere_started hp hw rfl] at hspec
        rw [he, leftWaiting_passed _ _ hpass, chosenPeer_passed _ _ hpass]
        exact hspec

end UploadWorld

end HiTuxShare
