import HiTuxShare.UploadServing

namespace HiTuxShare
set_option autoImplicit true

namespace PeerUpload

def opens (disk : Disk) (file : SharedFile) : Bool := (disk.fopen file.absolutePath).isSome

def hasBytes (disk : Disk) (file : SharedFile) : Bool :=
  (disk.file? file.absolutePath).any fun contents => !contents.isEmpty

/-- Some file still to be sent can be opened. -/
def hasFile (disk : Disk) (peer : PeerUpload) : Bool := peer.remaining.any (opens disk)

/-- Some file still to be sent can be opened and has something in it. -/
def hasContent (disk : Disk) (peer : PeerUpload) : Bool := peer.remaining.any (hasBytes disk)

/-- Only empty files are left: they are opened, announced and done with at once. -/
def hasOnlyEmpty (disk : Disk) (peer : PeerUpload) : Bool :=
  peer.hasFile disk && !peer.hasContent disk

/-- The record once every requested file has been tried. -/
def exhausted (peer : PeerUpload) : PeerUpload :=
  { peer.closeCurrentFile with nextFileIndex := peer.nextFileIndex + peer.remaining.length }

@[simp] theorem exhausted_remaining (peer : PeerUpload) : peer.exhausted.remaining = [] := by
  apply List.drop_eq_nil_of_le
  change peer.requestedFiles.length ≤ peer.nextFileIndex +
    (peer.requestedFiles.drop peer.nextFileIndex).length
  rw [List.length_drop]
  omega

theorem opens_of_hasBytes (h : hasBytes disk file = true) : opens disk file = true := by
  by_contra hn
  have hnone : disk.fopen file.absolutePath = none := by simpa [opens] using hn
  rw [Disk.fopen_eq_none_iff] at hnone
  simp [hasBytes, hnone] at h

theorem hasFile_of_hasContent {peer : PeerUpload} (h : peer.hasContent disk = true) :
    peer.hasFile disk = true := by
  obtain ⟨file, hm, hb⟩ := List.any_eq_true.mp h
  exact List.any_eq_true.mpr ⟨file, hm, opens_of_hasBytes hb⟩

theorem exhausted_advance {peer : PeerUpload} (h : peer.remaining = file :: rest) :
    peer.advance.exhausted = peer.exhausted := by
  rw [exhausted, exhausted, remaining_advance h, h, List.length_cons]
  simp only [advance, closeCurrentFile]
  congr 1
  omega

theorem openFirst_split (disk : Disk) (peer : PeerUpload) (files : List SharedFile)
    (hr : peer.remaining = files) (ho : (openFirst disk peer files).2 = some file) :
    ∃ skipped stream, files = skipped ++ file :: (openFirst disk peer files).1.remaining ∧
      (∀ f ∈ skipped, opens disk f = false) ∧ disk.fopen file.absolutePath = some stream ∧
      (openFirst disk peer files).1.currentFile = some stream := by
  induction files generalizing peer with
  | nil => cases ho
  | cons candidate rest ih =>
    have ht := remaining_advance hr
    cases hf : disk.fopen candidate.absolutePath with
    | none =>
      simp only [openFirst, hf] at ho ⊢
      obtain ⟨skipped, stream, he, hs, hopen, hc⟩ := ih _ ht ho
      refine ⟨candidate :: skipped, stream, ?_, ?_, hopen, hc⟩
      · rw [List.cons_append, ← he]
      · intro f hm
        rcases List.mem_cons.mp hm with rfl | hm
        · simp [opens, hf]
        · exact hs f hm
    | some stream =>
      simp only [openFirst, hf] at ho ⊢
      cases ho
      exact ⟨[], stream, congrArg (List.cons _) ht.symm, by simp, hf, rfl⟩

theorem openFirst_exhausted (disk : Disk) (peer : PeerUpload) (files : List SharedFile)
    (hr : peer.remaining = files) : (openFirst disk peer files).1.exhausted = peer.exhausted := by
  induction files generalizing peer with
  | nil => rfl
  | cons candidate rest ih =>
    simp only [openFirst]
    split
    · exact (ih _ (remaining_advance hr)).trans (exhausted_advance hr)
    · exact exhausted_advance hr

theorem openFirst_none (disk : Disk) (peer : PeerUpload) (files : List SharedFile)
    (hr : peer.remaining = files) (ho : (openFirst disk peer files).2 = none) :
    (openFirst disk peer files).1 = peer.exhausted := by
  induction files generalizing peer with
  | nil => simp [openFirst, exhausted, hr, closeCurrentFile]
  | cons candidate rest ih =>
    cases hf : disk.fopen candidate.absolutePath with
    | none =>
      simp only [openFirst, hf] at ho ⊢
      rw [ih _ (remaining_advance hr) ho, exhausted_advance hr]
    | some stream =>
      simp only [openFirst, hf] at ho
      cases ho

theorem openNextFile_none_iff (disk : Disk) (peer : PeerUpload) :
    (peer.openNextFile disk).2 = none ↔ peer.hasFile disk = false := by
  rw [openNextFile, openFirst_snd, List.find?_eq_none, hasFile, List.any_eq_false]
  rfl

theorem any_split {p : SharedFile → Bool} (hs : ∀ f ∈ skipped, p f = false) :
    (skipped ++ file :: later).any p = (p file || later.any p) := by
  rw [List.any_append, List.any_eq_false.mpr fun f hm => by simp [hs f hm], Bool.false_or,
    List.any_cons]

/-- The record after a successful `_BeginNextFile`: a stream at the start of some file, and
fewer files to go. -/
theorem openNextFile_opened {peer : PeerUpload} (h : peer.hasFile disk = true) :
    ∃ file stream, (peer.openNextFile disk).2 = some file ∧
      (peer.openNextFile disk).1.currentFile = some stream ∧
      (peer.openNextFile disk).1.remaining.length < peer.remaining.length ∧
      peer.hasContent disk =
        (!(disk.unread stream).isEmpty || (peer.openNextFile disk).1.hasContent disk) := by
  have hne : (peer.openNextFile disk).2 ≠ none := by
    rw [ne_eq, openNextFile_none_iff, h]
    exact Bool.noConfusion
  obtain ⟨file, ho⟩ := Option.ne_none_iff_exists'.mp hne
  obtain ⟨skipped, stream, hsplit, hskip, hopen, hc⟩ := openFirst_split disk peer _ rfl ho
  refine ⟨file, stream, ho, hc, ?_, ?_⟩
  · have hl := congrArg List.length hsplit
    rw [List.length_append, List.length_cons, ← openNextFile] at hl
    omega
  · have hskip' : ∀ f ∈ skipped, hasBytes disk f = false := by
      intro f hm
      by_contra hb
      have hof := opens_of_hasBytes (by simpa using hb : _ = true)
      rw [hskip f hm] at hof
      cases hof
    rw [hasContent, hsplit, any_split hskip', hasBytes, Disk.fopen_unread hopen]
    rfl

theorem openNextFile_exhausted (disk : Disk) (peer : PeerUpload) :
    (peer.openNextFile disk).1.exhausted = peer.exhausted :=
  openFirst_exhausted disk peer _ rfl

theorem hasContent_of_not_hasFile {peer : PeerUpload} (h : peer.hasFile disk = false) :
    peer.hasContent disk = false := by
  by_contra hc
  rw [hasFile_of_hasContent (by simpa using hc)] at h
  cases h

end PeerUpload

namespace UploadWorld

/-- The handler ended with the peer done and somebody else's turn: `peers` is the table the
wake-up started from. -/
def EndsInWakeUp (w w' : UploadWorld) (peers : Hashtable String PeerUpload) : Prop :=
  ∃ woken : UploadWorld, w' = woken.startNextQueuedPeer.act .uploadsChanged ∧
    woken.peers = peers ∧ Extends w woken

/-- The handler ended with a file of this peer open. -/
def EndsServing (w w' : UploadWorld) (sessionId : String) (peer : PeerUpload) : Prop :=
  ∃ peer' : PeerUpload, w'.peers = w.peers.put sessionId peer' ∧ peer'.currentFile.isSome = true ∧
    peer'.isQueued = peer.isQueued ∧ peer'.requestedFiles = peer.requestedFiles ∧ Extends w w'

theorem beginNextFile_exhausted {w : UploadWorld} (hp : w.peers.get? sessionId = some peer)
    (h : peer.hasFile w.disk = false) : (w.beginNextFile sessionId).2 = false ∧
      (w.beginNextFile sessionId).1.peers = w.peers.put sessionId peer.exhausted := by
  have hn := (PeerUpload.openNextFile_none_iff w.disk peer).mpr h
  rw [beginNextFile_of_none hp hn, PeerUpload.openNextFile,
    PeerUpload.openFirst_none _ _ _ rfl hn]
  exact ⟨rfl, rfl⟩

theorem EndsServing.after_begin (hp : w.peers.get? sessionId = some peer)
    (h : EndsServing (w.beginNextFile sessionId).1 w' sessionId (peer.openNextFile w.disk).1) :
    EndsServing w w' sessionId peer := by
  obtain ⟨peer', hput, hopen, hq, hr, hx⟩ := h
  refine ⟨peer', ?_, hopen, ?_, ?_, (extends_beginNextFile ..).trans hx⟩
  · rw [hput, beginNextFile_peers hp, Hashtable.put_put]
  · rw [hq, PeerUpload.openNextFile_isQueued]
  · rw [hr, PeerUpload.openNextFile_requestedFiles]

theorem EndsInWakeUp.after_begin (hp : w.peers.get? sessionId = some peer)
    (h : EndsInWakeUp (w.beginNextFile sessionId).1 w'
      ((w.beginNextFile sessionId).1.peers.put sessionId
        (peer.openNextFile w.disk).1.exhausted)) :
    EndsInWakeUp w w' (w.peers.put sessionId peer.exhausted) := by
  obtain ⟨woken, he, hput, hx⟩ := h
  refine ⟨woken, he, ?_, (extends_beginNextFile ..).trans hx⟩
  rw [hput, beginNextFile_peers hp, Hashtable.put_put, PeerUpload.openNextFile_exhausted]

theorem sendNextChunk_exhausted {w : UploadWorld} (hp : w.peers.get? sessionId = some peer)
    (hf : peer.currentFile = some stream) (hu : w.disk.unread stream = [])
    (h : peer.hasFile w.disk = false) :
    EndsInWakeUp w (w.sendNextChunk sessionId) (w.peers.put sessionId peer.exhausted) := by
  obtain ⟨hb, hput⟩ := beginNextFile_exhausted hp h
  rw [sendNextChunk_of_end hp hf hu, hb, if_neg Bool.false_ne_true]
  exact ⟨_, rfl, hput, extends_beginNextFile ..⟩

/-- Once `_BeginNextFile` has opened something, the chunk loop ends in one of two ways,
according to whether any file left has bytes in it. -/
theorem sendNextChunk_begun {w : UploadWorld} (hp : w.peers.get? sessionId = some peer)
    (h : peer.hasFile w.disk = true) :
    (w.beginNextFile sessionId).2 = true ∧
      if peer.hasContent w.disk then
        EndsServing w ((w.beginNextFile sessionId).1.sendNextChunk sessionId) sessionId peer
      else
        EndsInWakeUp w ((w.beginNextFile sessionId).1.sendNextChunk sessionId)
          (w.peers.put sessionId peer.exhausted) := by
  -- Every round uses up one requested file.
  induction hn : peer.remaining.length using Nat.strong_induction_on generalizing w peer with
  | _ n ih =>
    obtain ⟨file, stream, ho, hc, hlt, hcontent⟩ := PeerUpload.openNextFile_opened h
    have hdisk := (extends_beginNextFile w sessionId).disk
    have hp' : (w.beginNextFile sessionId).1.peers.get? sessionId =
        some (peer.openNextFile w.disk).1 := by
      rw [beginNextFile_peers hp, Hashtable.get?_put_self]
    refine ⟨by rw [beginNextFile_of_some hp ho], ?_⟩
    by_cases hu : w.disk.unread stream = []
    · -- An empty file: the next round starts from the record left by this one.
      have hempty : peer.hasContent w.disk = (peer.openNextFile w.disk).1.hasContent w.disk := by
        rw [hcontent, hu]
        rfl
      rw [hempty]
      cases hf : (peer.openNextFile w.disk).1.hasFile w.disk with
      | true =>
        obtain ⟨hb, hrest⟩ := ih _ (hn ▸ hlt) hp' (by rw [hdisk, hf]) rfl
        rw [sendNextChunk_of_end hp' hc (by rwa [hdisk]), if_pos hb]
        rw [hdisk] at hrest
        split at hrest
        · next hcon => exact if_pos hcon ▸ hrest.after_begin hp
        · next hcon => exact if_neg hcon ▸ hrest.after_begin hp
      | false =>
        rw [PeerUpload.hasContent_of_not_hasFile hf, if_neg Bool.false_ne_true]
        exact (sendNextChunk_exhausted hp' hc (by rwa [hdisk]) (by rw [hdisk, hf])).after_begin hp
    · have hsend := sendNextChunk_of_bytes hp' hc (by rwa [hdisk])
      rw [if_pos (by simp [hcontent, hu]), hsend]
      apply EndsServing.after_begin hp
      exact ⟨_, sendChunk_peers .., rfl, rfl, rfl, extends_sendChunk ..⟩

end UploadWorld

end HiTuxShare
