import HiTuxShare.UploadServing

namespace HiTuxShare
set_option autoImplicit true

namespace UploadWorld

/-- How many peers other than this one are being served. -/
def othersActive (w : UploadWorld) (sessionId : String) : Nat :=
  (w.peers.remove sessionId).count PeerUpload.isActive

theorem countActiveUploads_of_get? {w : UploadWorld} (h : w.peers.get? sessionId = some peer) :
    w.countActiveUploads = w.othersActive sessionId + peer.isActive.toNat :=
  Hashtable.count_eq_of_get? h _

/-- The count `_HandleFileList` compares with the cap includes the requester, whose list is
already stored. -/
theorem storeFileList_count (w : UploadWorld) (sessionId : String) (peer : PeerUpload)
    (message : TransferMessage) :
    (w.storeFileList sessionId peer message).countActiveUploads =
      w.othersActive sessionId +
        (peer.acceptFileList w.sharedFiles message).isActive.toNat := by
  simp only [storeFileList, countActiveUploads, act_toFileUploadServer, setPeer_peers,
    Hashtable.count_put, othersActive]

theorem handleFileList_held {w : UploadWorld} (hp : w.peers.get? sessionId = some peer)
    (h : w.maxSimultaneousUploads ≤
      (w.storeFileList sessionId peer message).countActiveUploads) :
    w.handleFileList sessionId message =
      (w.storeFileList sessionId peer message).holdPeer sessionId
        (peer.acceptFileList w.sharedFiles message) := by
  simp only [handleFileList, hp]
  exact if_pos h

theorem handleFileList_served {w : UploadWorld} (hp : w.peers.get? sessionId = some peer)
    (h : (w.storeFileList sessionId peer message).countActiveUploads <
      w.maxSimultaneousUploads) :
    w.handleFileList sessionId message =
      ((w.storeFileList sessionId peer message).unqueue sessionId
        (peer.acceptFileList w.sharedFiles message)).beginAndSend sessionId := by
  simp only [handleFileList, hp]
  exact if_neg (Nat.not_le_of_lt h)

theorem handleFileList_serving {w : UploadWorld} (hp : w.peers.get? sessionId = some peer)
    (h : (w.storeFileList sessionId peer message).countActiveUploads <
      w.maxSimultaneousUploads) :
    Serving false ((w.storeFileList sessionId peer message).unqueue sessionId
        (peer.acceptFileList w.sharedFiles message))
      (w.handleFileList sessionId message) := by
  rw [handleFileList_served hp h]
  exact serving_beginAndSend (mayServe_unqueue _ _ _ _)

theorem holdPeer_peers (w : UploadWorld) (sessionId : String) (peer : PeerUpload) :
    (w.holdPeer sessionId peer).peers =
      w.peers.put sessionId { peer with isQueued := true } := rfl

theorem holdPeer_isQueued (w : UploadWorld) (sessionId : String) (peer : PeerUpload) :
    (w.holdPeer sessionId peer).isQueued sessionId = true := by
  rw [isQueued_of_put (holdPeer_peers ..), if_pos rfl]

theorem handleFileList_isQueued {w : UploadWorld} (hp : w.peers.get? sessionId = some peer)
    (message : TransferMessage) :
    (w.handleFileList sessionId message).isQueued sessionId = true ↔
      w.maxSimultaneousUploads ≤
        (w.storeFileList sessionId peer message).countActiveUploads := by
  constructor
  · intro hq
    by_contra hlt
    have hs := handleFileList_serving hp (Nat.lt_of_not_le hlt)
    have hn : (w.handleFileList sessionId message).isQueued sessionId = false :=
      hs.isQueued (by rw [isQueued_of_put (unqueue_peers ..), if_pos rfl])
    rw [hn] at hq
    cases hq
  · intro h
    rw [handleFileList_held hp h]
    exact holdPeer_isQueued ..

/-- The event is a `FILE_LIST` of a connected peer that names at least one shared file. -/
def RequestsFiles (w : UploadWorld) (sessionId : String) (peer : PeerUpload)
    (message : TransferMessage) : Prop :=
  w.peers.get? sessionId = some peer ∧ message.what = .fileList ∧
    PeerUpload.resolve w.sharedFiles message ≠ []

/-- The handler marks the requester as queued and tells it so. -/
def Queues (w : UploadWorld) (sessionId : String) (message : TransferMessage) : Prop :=
  (w.messageReceived sessionId message).isQueued sessionId = true ∧
    .sendToPeer sessionId (.ofWhat .notifyQueued) true ∈
      (w.messageReceived sessionId message).actions.drop w.actions.length

/-- Only a server that serves as many others as it may queues a requester. -/
def AdmitsFairly (w : UploadWorld) : UploadEvent → Prop
  | .messageReceived sessionId message => ∀ peer, w.RequestsFiles sessionId peer message →
      w.Queues sessionId message → w.maxSimultaneousUploads ≤ w.othersActive sessionId
  | _ => True

/-- The requester is marked as queued already, or its own list does not tip the count. -/
def RequesterNotDecisive (w : UploadWorld) : UploadEvent → Prop
  | .messageReceived sessionId message => ∀ peer, w.RequestsFiles sessionId peer message →
      peer.isQueued = true ∨ w.othersActive sessionId + 1 ≠ w.maxSimultaneousUploads
  | _ => True

theorem queues_iff {w : UploadWorld} (h : w.RequestsFiles sessionId peer message) :
    w.Queues sessionId message ↔
      w.maxSimultaneousUploads ≤ w.othersActive sessionId + (!peer.isQueued).toNat := by
  obtain ⟨hp, hwhat, hne⟩ := h
  have hactive : (peer.acceptFileList w.sharedFiles message).isActive = !peer.isQueued := by
    simp [PeerUpload.isActive, PeerUpload.acceptFileList, PeerUpload.identify, hne]
  have hm : w.messageReceived sessionId message = w.handleFileList sessionId message := by
    simp only [messageReceived, hp, hwhat]
  have hq := handleFileList_isQueued hp message
  rw [storeFileList_count, hactive] at hq
  rw [Queues, hm, hq]
  constructor
  · exact And.left
  · intro hle
    refine ⟨hle, ?_⟩
    rw [handleFileList_held hp (by rwa [storeFileList_count, hactive])]
    simp [holdPeer, sendToPeer, storeFileList, act, isQueued, setPeer]

theorem admitsFairly_iff (w : UploadWorld) (e : UploadEvent) :
    w.AdmitsFairly e ↔ w.RequesterNotDecisive e := by
  cases e with
  | messageReceived sessionId message =>
    apply forall_congr'
    intro peer
    apply forall_congr'
    intro h
    rw [queues_iff h]
    cases peer.isQueued with
    | true => simp
    | false => simp; omega
  | _ => exact Iff.rfl

end UploadWorld

open UploadWorld

/-- A share of one small file. -/
def notesShare : Hashtable String SharedFile :=
  Hashtable.empty.put "notes.txt" ⟨"notes.txt", "", "/share/notes.txt", "text/plain", 4, 0⟩

def notesDisk : Disk := .ofFiles [("/share/notes.txt", [1, 2, 3, 4])]

def requestFor (names : List String) : TransferMessage :=
  names.foldl (fun m name => m.addString fieldFileListNames name) (.ofWhat .fileList)

/-- With a cap of one, the only peer of an idle server is queued. -/
theorem lone_peer_is_queued :
    ¬ ∀ (sharedFiles : Hashtable String SharedFile) (localSessionId : String)
      (maxSimultaneousUploads : Nat) (disk : Disk) (es : List UploadEvent),
      machine.EveryStep AdmitsFairly
        (listening sharedFiles localSessionId maxSimultaneousUploads disk) es := by
  intro h
  have hrun := h notesShare "" 1 notesDisk
    [.sessionAccepted "/peer/1" "peer", .messageReceived "/peer/1" (requestFor ["notes.txt"])]
  have hfair := hrun.2.1 { peerAddress := "peer" } ⟨by decide, by decide, by decide⟩
    ⟨by decide +kernel, by decide +kernel⟩
  exact absurd hfair (by decide)

/-- Over a run, admission is fair exactly where no requester tips the count with its own list. -/
theorem upload_admission (sharedFiles : Hashtable String SharedFile) (localSessionId : String)
    (maxSimultaneousUploads : Nat) (disk : Disk) (es : List UploadEvent) :
    machine.EveryStep AdmitsFairly
        (listening sharedFiles localSessionId maxSimultaneousUploads disk) es ↔
      machine.EveryStep RequesterNotDecisive
        (listening sharedFiles localSessionId maxSimultaneousUploads disk) es :=
  EventMachine.everyStep_congr admitsFairly_iff _ _

end HiTuxShare
