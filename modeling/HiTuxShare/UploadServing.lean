import HiTuxShare.UploadEvents
import Mathlib.Logic.Relation

namespace HiTuxShare
set_option autoImplicit true

namespace UploadWorld

/-- The single moves that serving is made of. A peer still marked as queued takes part only
if `late` allows it. -/
inductive ServingStep (late : Bool) : UploadWorld → UploadWorld → Prop where
  | openNext (sessionId : String) (peer : PeerUpload) (hp : w.peers.get? sessionId = some peer)
      (hl : peer.isQueued = true → late = true) : ServingStep late w (w.beginNextFile sessionId).1
  | sendChunk (sessionId : String) (peer : PeerUpload) (stream stream' : ReadStream)
      (bytes : List UInt8) (hp : w.peers.get? sessionId = some peer)
      (hl : peer.isQueued = true → late = true) (hf : peer.currentFile = some stream) :
      ServingStep late w (w.sendChunk sessionId peer bytes stream')
  | unqueue (sessionId : String) (peer : PeerUpload)
      (hc : w.countActiveUploads < w.maxSimultaneousUploads)
      (hp : w.peers.get? sessionId = some peer) (hw : peer.isWaiting = true) :
      ServingStep late w (w.unqueue sessionId peer)
  | notify (w : UploadWorld) : ServingStep late w (w.act .uploadsChanged)

abbrev Serving (late : Bool) : UploadWorld → UploadWorld → Prop :=
  Relation.ReflTransGen (ServingStep late)

def MayServe (late : Bool) (w : UploadWorld) (sessionId : String) : Prop :=
  ∀ peer, w.peers.get? sessionId = some peer → peer.isQueued = true → late = true

theorem MayServe.beginNextFile (h : MayServe late w sessionId) :
    MayServe late (w.beginNextFile sessionId).1 sessionId := by
  intro peer hp hq
  obtain ⟨peer', hw, rfl⟩ := peer_of_beginNextFile hp
  exact h peer' hw (by simpa using hq)

theorem mayServe_unqueue (late : Bool) (w : UploadWorld) (sessionId : String) (peer : PeerUpload) :
    MayServe late (w.unqueue sessionId peer) sessionId := by
  intro peer' hp hq
  simp only [unqueue, setPeer_peers, Hashtable.get?_put_self] at hp
  cases hp
  cases hq

theorem mayServe_late (w : UploadWorld) (sessionId : String) : MayServe true w sessionId :=
  fun _ _ _ => rfl

theorem serving_openNext (h : MayServe late w sessionId) :
    Serving late w (w.beginNextFile sessionId).1 := by
  cases hp : w.peers.get? sessionId with
  | none => simpa only [beginNextFile, hp] using .refl
  | some peer => exact .single (.openNext sessionId peer hp (h peer hp))

theorem read_nothing {disk : Disk} (h : disk.fread uploadChunkSize stream = ([], stream')) :
    disk.unread stream = [] := by
  have ht : (disk.unread stream).take uploadChunkSize = [] := congrArg Prod.fst h
  exact (List.take_eq_nil_iff.mp ht).resolve_left (by decide)

section Induction

variable {I : UploadWorld → Prop} {G : UploadWorld → String → Prop}

/-- The mutual recursion of `_SendNextChunk` and `_StartNextQueuedPeer`, packaged once: `I` is
what every move keeps, `G` what it takes to go on with a peer. -/
theorem serving_induction
    (hopen : ∀ w sessionId peer stream, I w → G w sessionId →
      w.peers.get? sessionId = some peer → peer.currentFile = some stream →
      w.disk.unread stream = [] →
      I (w.beginNextFile sessionId).1 ∧ G (w.beginNextFile sessionId).1 sessionId)
    (hsend : ∀ w sessionId peer stream, I w → G w sessionId →
      w.peers.get? sessionId = some peer → peer.currentFile = some stream →
      w.disk.unread stream ≠ [] →
      I (w.sendChunk sessionId peer ((w.disk.unread stream).take uploadChunkSize)
        (w.disk.fread uploadChunkSize stream).2))
    (hwake : ∀ w sessionId peer, I w → w.countActiveUploads < w.maxSimultaneousUploads →
      w.peers.get? sessionId = some peer → peer.isWaiting = true →
      I ((w.unqueue sessionId peer).beginNextFile sessionId).1 ∧
        G ((w.unqueue sessionId peer).beginNextFile sessionId).1 sessionId)
    (hnotify : ∀ w, I w → I (w.act .uploadsChanged)) :
    (∀ w sessionId, I w → G w sessionId → I (w.sendNextChunk sessionId)) ∧
      ∀ w, I w → I w.startNextQueuedPeer := by
  refine sendNextChunk.mutual_induct
    (fun w sessionId => I w → G w sessionId → I (w.sendNextChunk sessionId))
    (fun w => I w → I w.startNextQueuedPeer) ?_ ?_ ?_ ?_ ?_ ?_ ?_ ?_ ?_
  · intro w sessionId hp hI _
    rwa [sendNextChunk_of_absent hp]
  · intro w sessionId peer hp hf hI _
    rwa [sendNextChunk_of_closed hp hf]
  · intro w sessionId peer hp stream hf stream' hr hb ih hI hm
    obtain ⟨hI', hm'⟩ := hopen w sessionId peer stream hI hm hp hf (read_nothing hr)
    rw [sendNextChunk_of_end hp hf (read_nothing hr), if_pos hb]
    exact ih hI' hm'
  · intro w sessionId peer hp stream hf stream' hr hb ih hI hm
    have hI' := (hopen w sessionId peer stream hI hm hp hf (read_nothing hr)).1
    rw [sendNextChunk_of_end hp hf (read_nothing hr), if_neg hb]
    exact hnotify _ (ih hI')
  · intro w sessionId peer hp stream hf bytes stream' hne hr hI hm
    have hu : w.disk.unread stream ≠ [] := by
      intro he
      rw [Disk.fread, ← Disk.unread, he] at hr
      exact hne (congrArg Prod.fst hr).symm
    rw [sendNextChunk_of_bytes hp hf hu]
    exact hsend w sessionId peer stream hI hm hp hf hu
  · intro w hc hI
    rwa [startNextQueuedPeer_of_full hc]
  · intro w _ hw hI
    rwa [startNextQueuedPeer_of_none hw]
  · intro w hc sessionId peer hw hb ih hI
    obtain ⟨hp, hwait⟩ := firstWaiting_spec hw
    obtain ⟨hI', hm'⟩ := hwake w sessionId peer hI (Nat.lt_of_not_le hc) hp hwait
    rw [startNextQueuedPeer_of_first (Nat.lt_of_not_le hc) hw, if_pos hb]
    exact ih hI' hm'
  · intro w hc sessionId peer hw hb hI
    obtain ⟨hp, hwait⟩ := firstWaiting_spec hw
    rw [startNextQueuedPeer_of_first (Nat.lt_of_not_le hc) hw, if_neg hb]
    exact (hwake w sessionId peer hI (Nat.lt_of_not_le hc) hp hwait).1

end Induction

/-- Serving, seen as a sequence of single moves. -/
theorem serving_moves (late : Bool) (w₀ : UploadWorld) :
    (∀ w sessionId, Serving late w₀ w → MayServe late w sessionId →
      Serving late w₀ (w.sendNextChunk sessionId)) ∧
      ∀ w, Serving late w₀ w → Serving late w₀ w.startNextQueuedPeer := by
  apply serving_induction
  · intro w sessionId peer stream hw hm _ _ _
    exact ⟨hw.trans (serving_openNext hm), hm.beginNextFile⟩
  · intro w sessionId peer stream hw hm hp hf _
    exact hw.tail (.sendChunk sessionId peer stream _ _ hp (hm peer hp) hf)
  · intro w sessionId peer hw hc hp hwait
    have hm := mayServe_unqueue late w sessionId peer
    exact ⟨(hw.tail (.unqueue sessionId peer hc hp hwait)).trans (serving_openNext hm),
      hm.beginNextFile⟩
  · exact fun w hw => hw.tail (.notify w)

theorem serving_sendNextChunk (h : MayServe late w sessionId) :
    Serving late w (w.sendNextChunk sessionId) :=
  (serving_moves late w).1 w sessionId .refl h

theorem serving_startNextQueuedPeer (late : Bool) (w : UploadWorld) :
    Serving late w w.startNextQueuedPeer :=
  (serving_moves late w).2 w .refl

theorem serving_beginAndSend (h : MayServe late w sessionId) :
    Serving late w (w.beginAndSend sessionId) := by
  rw [beginAndSend]
  split
  · exact (serving_openNext h).trans (serving_sendNextChunk h.beginNextFile)
  · exact serving_openNext h

/-- What serving leaves alone: everything but the peers' records, and what was done before. -/
structure Extends (w w' : UploadWorld) : Prop where
  sharedFiles : w'.sharedFiles = w.sharedFiles
  localSessionId : w'.localSessionId = w.localSessionId
  maxSimultaneousUploads : w'.maxSimultaneousUploads = w.maxSimultaneousUploads
  disk : w'.disk = w.disk
  actions : w.actions <+: w'.actions

theorem Extends.refl (w : UploadWorld) : Extends w w := ⟨rfl, rfl, rfl, rfl, List.prefix_rfl⟩

theorem Extends.trans (h : Extends w w') (h' : Extends w' w'') : Extends w w'' :=
  ⟨h'.sharedFiles.trans h.sharedFiles, h'.localSessionId.trans h.localSessionId,
    h'.maxSimultaneousUploads.trans h.maxSimultaneousUploads, h'.disk.trans h.disk,
    h.actions.trans h'.actions⟩

theorem extends_act (w : UploadWorld) (action : UploadAction) : Extends w (w.act action) :=
  ⟨rfl, rfl, rfl, rfl, List.prefix_append _ _⟩

theorem extends_setPeer (w : UploadWorld) (sessionId : String) (peer : PeerUpload) :
    Extends w (w.setPeer sessionId peer) := ⟨rfl, rfl, rfl, rfl, List.prefix_rfl⟩

theorem extends_beginNextFile (w : UploadWorld) (sessionId : String) :
    Extends w (w.beginNextFile sessionId).1 := by
  cases hp : w.peers.get? sessionId with
  | none => simpa only [beginNextFile, hp] using .refl w
  | some peer =>
    cases ho : (peer.openNextFile w.disk).2 with
    | none =>
      rw [beginNextFile_of_none hp ho]
      exact extends_setPeer ..
    | some file =>
      rw [beginNextFile_of_some hp ho]
      exact (extends_setPeer ..).trans ((extends_act ..).trans (extends_act ..))

theorem extends_sendChunk (w : UploadWorld) (sessionId : String) (peer : PeerUpload)
    (bytes : List UInt8) (stream : ReadStream) :
    Extends w (w.sendChunk sessionId peer bytes stream) :=
  (extends_act ..).trans ((extends_setPeer ..).trans ((extends_act ..).trans (extends_act ..)))

theorem ServingStep.extends (h : ServingStep late w w') : Extends w w' := by
  cases h with
  | openNext => exact extends_beginNextFile ..
  | sendChunk => exact extends_sendChunk ..
  | unqueue => exact extends_setPeer ..
  | notify => exact extends_act ..

theorem Serving.extends (h : Serving late w w') : Extends w w' := by
  induction h with
  | refl => exact .refl _
  | tail _ hs ih => exact ih.trans hs.extends

theorem isQueued_of_get? {w : UploadWorld} (h : w.peers.get? sessionId = some peer) :
    w.isQueued sessionId = peer.isQueued := by
  simp only [isQueued, h, Option.any_some]

theorem isQueued_of_put {w w' : UploadWorld}
    (h : w'.peers = w.peers.put sessionId peer) (key : String) :
    w'.isQueued key = if key = sessionId then peer.isQueued else w.isQueued key := by
  simp only [isQueued, h, Hashtable.get?_put]
  split <;> simp

theorem ServingStep.isQueued (h : ServingStep late w w') (hq : w.isQueued key = false) :
    w'.isQueued key = false := by
  cases h with
  | openNext sessionId peer hp =>
    rw [isQueued_of_put (beginNextFile_peers hp)]
    split
    · next he => rw [PeerUpload.openNextFile_isQueued, ← isQueued_of_get? hp, ← he, hq]
    · exact hq
  | sendChunk sessionId peer stream stream' bytes hp =>
    rw [isQueued_of_put (sendChunk_peers ..)]
    split
    · next he => rw [← isQueued_of_get? hp, ← he, hq]
    · exact hq
  | unqueue =>
    rw [isQueued_of_put (unqueue_peers ..)]
    split
    · rfl
    · exact hq
  | notify => exact hq

theorem Serving.isQueued (h : Serving late w w') (hq : w.isQueued key = false) :
    w'.isQueued key = false := by
  induction h with
  | refl => exact hq
  | tail _ hs ih => exact hs.isQueued ih

end UploadWorld

end HiTuxShare
