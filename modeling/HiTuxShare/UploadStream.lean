import HiTuxShare.TransferWire
import HiTuxShare.UploadOutcomes

namespace HiTuxShare
set_option autoImplicit true

open Piece (AtEnd LegalStream announced cursor)

def UploadAction.sentTo? (sessionId : String) : UploadAction → Option TransferMessage
  | .sendToPeer receiver message _ => if receiver = sessionId then some message else none
  | _ => none

/-- What is in a shared file, as long as it can be opened. -/
def contents (disk : Disk) (file : SharedFile) : Option (List UInt8) :=
  disk.file? file.absolutePath

/-- The record of a peer says where the stream to it stands. -/
structure PeerUpload.InStep (disk : Disk) (requested : List SharedFile) (mungeMode : Int32)
    (pieces : List TransferPiece) (peer : PeerUpload) : Prop where
  requestedFiles : peer.requestedFiles = requested
  mungeMode : peer.mungeMode = mungeMode
  closed : peer.currentFile = none → AtEnd (contents disk) (cursor pieces)
  opened : ∀ stream, peer.currentFile = some stream → ∃ file sent,
    cursor pieces = some (file, sent) ∧ contents disk file = some (sent ++ disk.unread stream)
  order : (announced pieces ++ peer.remaining).Sublist requested
  queued : peer.isQueued = true → announced pieces = []

namespace PeerUpload

theorem InStep.exhausted (h : InStep disk requested mode pieces peer)
    (hend : AtEnd (contents disk) (cursor pieces)) :
    InStep disk requested mode pieces peer.exhausted := by
  refine ⟨h.requestedFiles, h.mungeMode, fun _ => hend, ?_, ?_, h.queued⟩
  · intro stream hs
    cases hs
  · rw [exhausted_remaining, List.append_nil]
    exact (List.sublist_append_left ..).trans h.order

theorem InStep.openNextFile (h : InStep disk requested mode pieces peer)
    (hq : peer.isQueued = false) (ho : (peer.openNextFile disk).2 = some file) :
    (contents disk file).isSome = true ∧
      InStep disk requested mode (pieces ++ [.header file]) (peer.openNextFile disk).1 := by
  obtain ⟨skipped, stream, hsplit, -, hopen, hc⟩ := openFirst_split disk peer _ rfl ho
  rw [← PeerUpload.openNextFile] at hsplit hc
  have hunread : contents disk file = some (disk.unread stream) := Disk.fopen_unread hopen
  have hcursor : cursor (pieces ++ [.header file]) = some (file, []) := Piece.cursor_snoc ..
  have hannounced : announced (pieces ++ [.header file]) = announced pieces ++ [file] :=
    Piece.announced_snoc ..
  refine ⟨Option.isSome_iff_exists.mpr ⟨_, hunread⟩, ?_, ?_, ?_, ?_, ?_, ?_⟩
  · rw [openNextFile_requestedFiles, h.requestedFiles]
  · rw [openNextFile_mungeMode, h.mungeMode]
  · intro hclosed
    rw [hc] at hclosed
    cases hclosed
  · intro stream' hs
    rw [hc] at hs
    cases hs
    exact ⟨file, [], hcursor, hunread⟩
  · have horder := h.order
    rw [hsplit] at horder
    rw [hannounced, List.append_assoc]
    exact ((List.sublist_append_right skipped _).append_left _).trans horder
  · intro hq'
    rw [openNextFile_isQueued, hq] at hq'
    cases hq'

/-- The stream of the open file moves on by what was read from it. -/
theorem InStep.sent (h : InStep disk requested mode pieces peer)
    (hf : peer.currentFile = some stream) (count : Nat) (bytesSent : Int) :
    InStep disk requested mode (pieces ++ [.data ((disk.unread stream).take count)])
      { peer with currentFile := some (disk.fread count stream).2, bytesSent } := by
  obtain ⟨file, sent, hcursor, hcontents⟩ := h.opened stream hf
  have hannounced : announced (pieces ++ [.data ((disk.unread stream).take count)]) =
      announced pieces := (Piece.announced_snoc ..).trans (List.append_nil _)
  refine ⟨h.requestedFiles, h.mungeMode, ?_, ?_, ?_, ?_⟩
  · intro hclosed
    cases hclosed
  · intro stream' hs
    cases hs
    refine ⟨file, sent ++ (disk.unread stream).take count, ?_, ?_⟩
    · rw [Piece.cursor_snoc, hcursor]
      rfl
    · rw [Disk.fread_snd_unread, List.append_assoc, List.take_append_drop, hcontents]
  · rw [hannounced]
    exact h.order
  · rw [hannounced]
    exact h.queued

end PeerUpload

namespace UploadWorld

/-- Everything a peer has been sent, in this order. -/
def sentTo (w : UploadWorld) (sessionId : String) : List TransferMessage :=
  w.actions.filterMap (UploadAction.sentTo? sessionId)

/-- How often the server has asked to be told that the queue to a peer is empty. -/
def drainsFor (w : UploadWorld) (sessionId : String) : Nat :=
  w.actions.count (.requestOutputQueuesDrainedNotification sessionId)

@[simp] theorem sentTo_act (w : UploadWorld) (action : UploadAction) (sessionId : String) :
    (w.act action).sentTo sessionId = w.sentTo sessionId ++ (action.sentTo? sessionId).toList := by
  rw [sentTo, act, List.filterMap_append]
  rfl

@[simp] theorem drainsFor_act (w : UploadWorld) (action : UploadAction) (sessionId : String) :
    (w.act action).drainsFor sessionId = w.drainsFor sessionId +
      [action].count (.requestOutputQueuesDrainedNotification sessionId) :=
  List.count_append

@[simp] theorem sentTo_setPeer (w : UploadWorld) (other : String) (peer : PeerUpload)
    (sessionId : String) : (w.setPeer other peer).sentTo sessionId = w.sentTo sessionId := rfl

@[simp] theorem sentTo_sendToPeer_self (w : UploadWorld) (sessionId : String)
    (message : TransferMessage) :
    (w.sendToPeer sessionId message).sentTo sessionId = w.sentTo sessionId ++ [message] := by
  rw [sendToPeer, sentTo_act, UploadAction.sentTo?, if_pos rfl, Option.toList_some]

/-- Nothing changes between the server and this peer. -/
structure SameFor (sessionId : String) (w w' : UploadWorld) : Prop extends Extends w w' where
  record : w'.peers.get? sessionId = w.peers.get? sessionId
  sentTo : w'.sentTo sessionId = w.sentTo sessionId
  drainsFor : w'.drainsFor sessionId = w.drainsFor sessionId

theorem SameFor.trans (h : SameFor sessionId w w') (h' : SameFor sessionId w' w'') :
    SameFor sessionId w w'' :=
  ⟨h.toExtends.trans h'.toExtends, h'.record.trans h.record, h'.sentTo.trans h.sentTo,
    h'.drainsFor.trans h.drainsFor⟩

theorem sameFor_refl (sessionId : String) (w : UploadWorld) : SameFor sessionId w w :=
  ⟨.refl w, rfl, rfl, rfl⟩

theorem sameFor_setPeer (w : UploadWorld) (peer : PeerUpload) (h : other ≠ sessionId) :
    SameFor sessionId w (w.setPeer other peer) :=
  ⟨extends_setPeer .., Hashtable.get?_put_of_ne _ _ h.symm, rfl, rfl⟩

theorem sameFor_act (w : UploadWorld) (hs : action.sentTo? sessionId = none)
    (hd : action ≠ .requestOutputQueuesDrainedNotification sessionId) :
    SameFor sessionId w (w.act action) :=
  ⟨extends_act .., rfl, by rw [sentTo_act, hs, Option.toList_none, List.append_nil],
    by rw [drainsFor_act, List.count_singleton, beq_eq_false_iff_ne.mpr hd]; rfl⟩

theorem sameFor_notify (sessionId : String) (w : UploadWorld) :
    SameFor sessionId w (w.act .uploadsChanged) :=
  sameFor_act w rfl (by simp)

theorem sameFor_sendToPeer (w : UploadWorld) (message : TransferMessage) (h : other ≠ sessionId) :
    SameFor sessionId w (w.sendToPeer other message) :=
  sameFor_act w (if_neg h) (by simp)

theorem sameFor_beginNextFile (w : UploadWorld) (h : other ≠ sessionId) :
    SameFor sessionId w (w.beginNextFile other).1 := by
  cases hp : w.peers.get? other with
  | none => simpa only [beginNextFile, hp] using sameFor_refl sessionId w
  | some peer =>
    cases ho : (peer.openNextFile w.disk).2 with
    | none =>
      rw [beginNextFile_of_none hp ho]
      exact sameFor_setPeer w _ h
    | some file =>
      rw [beginNextFile_of_some hp ho]
      exact (sameFor_setPeer w _ h).trans
        ((sameFor_sendToPeer _ _ h).trans (sameFor_notify ..))

theorem sameFor_sendChunk (w : UploadWorld) (peer : PeerUpload) (bytes : List UInt8)
    (stream : ReadStream) (h : other ≠ sessionId) :
    SameFor sessionId w (w.sendChunk other peer bytes stream) := by
  have hdrain : UploadAction.requestOutputQueuesDrainedNotification other ≠
      .requestOutputQueuesDrainedNotification sessionId := fun he => h (by injection he)
  exact (sameFor_sendToPeer w _ h).trans ((sameFor_setPeer _ _ h).trans
    ((sameFor_act _ rfl hdrain).trans (sameFor_notify ..)))

/-- What a peer has been sent is a legal stream, and its record is in step with it. -/
structure Streams (w : UploadWorld) (sessionId : String) (requested : List SharedFile)
    (mungeMode : Int32) (pieces : List TransferPiece) : Prop where
  sentTo : w.sentTo sessionId = pieces.map (render w.localSessionId mungeMode)
  legal : LegalStream (contents w.disk) pieces
  drainsFor : announced pieces = [] → w.drainsFor sessionId = 0
  record : ∃ peer, w.peers.get? sessionId = some peer ∧
    peer.InStep w.disk requested mungeMode pieces

/-- The stream goes on from what has been `seen` of it. -/
def Streaming (sessionId : String) (requested : List SharedFile) (mungeMode : Int32)
    (seen : List TransferPiece) (w : UploadWorld) : Prop :=
  ∃ pieces, seen <+: pieces ∧ Streams w sessionId requested mungeMode pieces

theorem Streams.congr (h : Streams w sessionId requested mungeMode pieces)
    (hs : SameFor sessionId w w') : Streams w' sessionId requested mungeMode pieces where
  sentTo := by rw [hs.sentTo, hs.localSessionId, h.sentTo]
  legal := hs.disk ▸ h.legal
  drainsFor := hs.drainsFor ▸ h.drainsFor
  record := by rw [hs.record, hs.disk]; exact h.record

theorem Streaming.congr (h : Streaming sessionId requested mungeMode seen w)
    (hs : SameFor sessionId w w') : Streaming sessionId requested mungeMode seen w' :=
  h.imp fun _ h => h.imp_right fun h => h.congr hs

theorem Streaming.weaken (h : Streaming sessionId requested mungeMode pieces w)
    (hs : seen <+: pieces) : Streaming sessionId requested mungeMode seen w :=
  h.imp fun _ h => h.imp_left hs.trans

theorem Streams.streaming (h : Streams w sessionId requested mungeMode pieces) :
    Streaming sessionId requested mungeMode pieces w := ⟨pieces, List.prefix_rfl, h⟩

theorem Streams.inStep (h : Streams w sessionId requested mungeMode pieces)
    (hp : w.peers.get? sessionId = some peer) :
    peer.InStep w.disk requested mungeMode pieces := by
  obtain ⟨peer', hp', hi⟩ := h.record
  obtain rfl := Option.some.inj (hp'.symm.trans hp)
  exact hi

theorem Streams.next (h : Streams w sessionId requested mungeMode pieces)
    (hseen : consumed <+: pieces) (hm : (w.sentTo sessionId)[consumed.length]? = some message) :
    ∃ piece, message = render w.localSessionId mungeMode piece ∧
      consumed ++ [piece] <+: pieces := by
  obtain ⟨rest, rfl⟩ := hseen
  rw [h.sentTo, List.getElem?_map, List.getElem?_append_right (Nat.le_refl _), Nat.sub_self] at hm
  obtain ⟨piece, hrest, rfl⟩ := Option.map_eq_some_iff.mp hm
  cases rest with
  | nil => cases hrest
  | cons first later =>
    cases hrest
    exact ⟨piece, rfl, later, by rw [List.append_assoc]; rfl⟩

theorem Streams.setPeer (h : Streams w sessionId requested mungeMode pieces)
    (hi : peer.InStep w.disk requested' mungeMode pieces) :
    Streams (w.setPeer sessionId peer) sessionId requested' mungeMode pieces :=
  ⟨h.sentTo, h.legal, h.drainsFor, peer, Hashtable.get?_put_self .., hi⟩

theorem Streams.beginNextFile (h : Streams w sessionId requested mungeMode pieces)
    (hp : w.peers.get? sessionId = some peer) (hend : AtEnd (contents w.disk) (cursor pieces))
    (hq : peer.isQueued = false) :
    Streaming sessionId requested mungeMode pieces (w.beginNextFile sessionId).1 := by
  have hi := h.inStep hp
  cases ho : (peer.openNextFile w.disk).2 with
  | none =>
    rw [beginNextFile_of_none hp ho, PeerUpload.openNextFile,
      PeerUpload.openFirst_none w.disk peer _ rfl ho]
    exact (h.setPeer (hi.exhausted hend)).streaming
  | some file =>
    obtain ⟨hreadable, hi'⟩ := hi.openNextFile hq ho
    have hannounced : announced (pieces ++ [.header file]) = announced pieces ++ [file] :=
      Piece.announced_snoc ..
    rw [beginNextFile_of_some hp ho]
    refine ⟨pieces ++ [.header file], List.prefix_append .., ?_, ?_, ?_, _,
      Hashtable.get?_put_self .., ?_⟩
    · rw [sentTo_act, sentTo_sendToPeer_self, sentTo_setPeer, h.sentTo, List.map_append]
      exact List.append_nil _
    · exact Piece.legalStream_snoc.mpr ⟨h.legal, hend, hreadable⟩
    · simp [hannounced]
    · exact hi'

/-- Sending on from where the stream of the open file stands. -/
theorem Streams.sendChunk (h : Streams w sessionId requested mungeMode pieces)
    (hp : w.peers.get? sessionId = some peer) (hf : peer.currentFile = some stream) :
    Streaming sessionId requested mungeMode pieces
      (w.sendChunk sessionId peer ((w.disk.unread stream).take uploadChunkSize)
        (w.disk.fread uploadChunkSize stream).2) := by
  have hi := h.inStep hp
  obtain ⟨file, sent, hcursor, hcontents⟩ := hi.opened stream hf
  refine ⟨pieces ++ [.data ((w.disk.unread stream).take uploadChunkSize)],
    List.prefix_append .., ?_, ?_, ?_, _, Hashtable.get?_put_self .., ?_⟩
  · rw [UploadWorld.sendChunk, sentTo_act, sentTo_act, sentTo_setPeer, sentTo_sendToPeer_self,
      h.sentTo, List.map_append, hi.mungeMode]
    exact (List.append_nil _).trans (List.append_nil _)
  · refine Piece.legalStream_snoc.mpr ⟨h.legal, file, sent, _, hcursor, hcontents, ?_⟩
    exact (List.prefix_append_right_inj sent).mpr (List.take_prefix ..)
  · intro hnone
    have hne : announced pieces ≠ [] := by
      rw [ne_eq, ← Piece.cursor_eq_none_iff, hcursor]
      exact Option.some_ne_none _
    rw [Piece.announced_snoc] at hnone
    exact (hne (List.append_eq_nil_iff.mp hnone).1).elim
  · exact hi.sent hf ..

end UploadWorld

end HiTuxShare
