import HiTuxShare.FileTurns
import HiTuxShare.UploadStreamRuns

namespace HiTuxShare
set_option autoImplicit true

abbrev UploadTurn := Turn SharedFile UInt8

abbrev UploadProgress := Progress SharedFile UInt8

/-- The piece a message is, as a receiver who trusts nothing but the message reads it. -/
def Carries (localSessionId : String) (message : TransferMessage) : TransferPiece → Prop
  | .notice => message = .ofWhat .notifyQueued
  | .header file => message = UploadWorld.fileHeader localSessionId file
  | .data bytes => message.what = .fileData ∧ ∃ wire, message.findData fieldData = some wire ∧
      message.findInt32 fieldChecksum = some (UploadWorld.calculateChecksum wire).toInt32 ∧
      unmunge message wire = some bytes

theorem carries_fileData (h : mungeMode = mungeModeNone ∨ mungeMode = mungeModeXor)
    (bytes : List UInt8) :
    Carries localSessionId (UploadWorld.fileData mungeMode bytes) (.data bytes) :=
  ⟨rfl, _, UploadWorld.fileData_data .., rfl, UploadWorld.unmunge_fileData h bytes⟩

/-- What can be told of a piece from the message that carries it. -/
def pieceKind : TransferPiece → TransferCommand × Nat
  | .notice => (.notifyQueued, 0)
  | .header _ => (.fileHeader, 0)
  | .data bytes => (.fileData, bytes.length)

def messageKind (message : TransferMessage) : TransferCommand × Nat :=
  (message.what, ((message.findData fieldData).map List.length).getD 0)

theorem length_of_unmunge (h : unmunge message wire = some bytes) :
    wire.length = bytes.length := by
  rw [unmunge] at h
  split at h
  · cases h
    exact (List.length_map ..).symm
  · split at h
    · cases h
      rfl
    · cases h

theorem Carries.kind (h : Carries localSessionId message piece) :
    messageKind message = pieceKind piece := by
  cases piece with
  | notice => cases h; rfl
  | header file =>
    cases h
    rw [messageKind, UploadWorld.fileHeader_what, Message.findData,
      UploadWorld.items_fileHeader _ _ _ (by decide)]
    rfl
  | data bytes =>
    obtain ⟨hw, wire, hdata, -, hbytes⟩ := h
    rw [messageKind, hw, hdata, Option.map_some, length_of_unmunge hbytes]
    rfl

theorem kinds_of_carries (h : List.Forall₂ (Carries localSessionId) messages pieces) :
    messages.map messageKind = pieces.map pieceKind := by
  induction h with
  | nil => rfl
  | cons hc _ ih => rw [List.map_cons, List.map_cons, hc.kind, ih]

theorem notice_of_kinds {pieces : List TransferPiece}
    (h : pieces.map pieceKind = [(.notifyQueued, 0)]) : pieces = [.notice] := by
  obtain ⟨piece, rest, rfl, hp, hr⟩ := List.map_eq_cons_iff.mp h
  obtain rfl := List.map_eq_nil_iff.mp hr
  cases piece with
  | notice => rfl
  | header => cases hp
  | data => cases hp

theorem fileStart_of_kinds {pieces : List TransferPiece}
    (h : pieces.map pieceKind = [(.fileHeader, 0), (.fileData, n)]) :
    ∃ file bytes, pieces = [.header file, .data bytes] ∧ bytes.length = n := by
  obtain ⟨header, rest, rfl, hh, hrest⟩ := List.map_eq_cons_iff.mp h
  obtain ⟨data, last, rfl, hd, hlast⟩ := List.map_eq_cons_iff.mp hrest
  obtain rfl := List.map_eq_nil_iff.mp hlast
  cases header with
  | header file =>
    cases data with
    | data bytes =>
      cases hd
      exact ⟨file, bytes, rfl, rfl⟩
    | notice => cases hd
    | header => cases hd
  | notice => cases hh
  | data => cases hh

namespace PeerUpload

/-- The record of a peer says where its connection stands. -/
structure InTurn (disk : Disk) (progress : UploadProgress) (peer : PeerUpload) : Prop where
  remaining : peer.remaining = [] ∨ peer.remaining = progress.remaining
  mungeMode : peer.mungeMode = mungeModeNone ∨ peer.mungeMode = mungeModeXor
  opened : ∀ stream, peer.currentFile = some stream →
    progress.unsent = some (disk.unread stream) ∧
      (peer.isQueued = false → progress.noticed = false)
  closed : peer.currentFile = none → progress.fresh = true ∨ progress.AtEnd
  queued : peer.isQueued = true → progress.fresh = true

/-- `_BeginNextFile` may announce a file to this peer. -/
structure MayBegin (progress : UploadProgress) (peer : PeerUpload) : Prop where
  remaining : peer.remaining = [] ∨ peer.remaining = progress.remaining
  mungeMode : peer.mungeMode = mungeModeNone ∨ peer.mungeMode = mungeModeXor
  started : peer.isQueued = false
  ready : progress.fresh = true ∨ progress.AtEnd

theorem InTurn.mayBegin (h : InTurn disk progress peer) (hq : peer.isQueued = false)
    (hend : ∀ stream, peer.currentFile = some stream → disk.unread stream = []) :
    MayBegin progress peer := by
  refine ⟨h.remaining, h.mungeMode, hq, ?_⟩
  cases hf : peer.currentFile with
  | none => exact h.closed hf
  | some stream =>
    right
    rw [Progress.AtEnd, (h.opened stream hf).1, hend stream hf]
    rfl

theorem MayBegin.openNextFile (h : MayBegin progress peer)
    (hview : progress.view = contents disk) :
    progress.LegalPieces ((peer.openNextFile disk).2.toList.map .header) ∧
      InTurn disk (progress.carry ((peer.openNextFile disk).2.toList.map .header))
        (peer.openNextFile disk).1 := by
  cases ho : (peer.openNextFile disk).2 with
  | none =>
    have hexhausted : (peer.openNextFile disk).1 = peer.exhausted :=
      openFirst_none disk peer _ rfl ho
    rw [hexhausted]
    refine ⟨trivial, .inl (exhausted_remaining peer), h.mungeMode, ?_, fun _ => h.ready, ?_⟩
    · rintro stream ⟨⟩
    · intro hq
      exact absurd (h.started.symm.trans hq) Bool.false_ne_true
  | some file =>
    obtain ⟨skipped, stream, hsplit, hskip, hopen, hc⟩ := openFirst_split disk peer _ rfl ho
    rw [← PeerUpload.openNextFile] at hsplit hc
    have hunread : progress.view file = some (disk.unread stream) := by
      rw [hview]
      exact Disk.fopen_unread hopen
    have hnext : progress.next = file :: (peer.openNextFile disk).1.remaining := by
      rcases h.remaining with hnil | hsame
      · rw [hnil] at hsplit
        simp at hsplit
      · apply Progress.next_eq_of_split (hsame ▸ hsplit)
        · intro f hm
          rw [hview]
          exact Disk.fopen_eq_none_iff.mp (by simpa [opens] using hskip f hm)
        · rw [hunread]
          rfl
    refine ⟨Progress.legalPieces_singleton.mpr ⟨by rw [hnext]; rfl, h.ready⟩, ?_⟩
    change InTurn disk (progress.advance (.piece (.header file))) _
    refine ⟨.inr ?_, by rw [openNextFile_mungeMode]; exact h.mungeMode, ?_, ?_, ?_⟩
    · change _ = progress.next.tail
      rw [hnext]
      rfl
    · intro stream' hs
      rw [hc] at hs
      cases hs
      exact ⟨hunread, fun _ => rfl⟩
    · intro hclosed
      rw [hc] at hclosed
      cases hclosed
    · intro hq
      rw [openNextFile_isQueued, h.started] at hq
      cases hq

theorem InTurn.sent (h : InTurn disk progress peer) (hq : peer.isQueued = false)
    (hf : peer.currentFile = some stream) (count : Nat) (bytesSent : Int) :
    progress.LegalPieces [.data ((disk.unread stream).take count)] ∧
      InTurn disk (progress.carry [.data ((disk.unread stream).take count)])
        { peer with currentFile := some (disk.fread count stream).2, bytesSent } := by
  obtain ⟨hunsent, hspeaking⟩ := h.opened stream hf
  refine ⟨Progress.legalPieces_singleton.mpr ⟨hspeaking hq, _, hunsent, List.take_prefix ..⟩,
    h.remaining, h.mungeMode, ?_, ?_, h.queued⟩
  · intro stream' hs
    cases hs
    refine ⟨?_, hspeaking⟩
    change progress.unsent.map _ = _
    rw [hunsent, Option.map_some, Disk.fread_snd_unread, List.length_take]
    congr 1
    by_cases hle : count ≤ (disk.unread stream).length
    · rw [Nat.min_eq_left hle]
    · rw [List.drop_eq_nil_of_le (by omega), List.drop_eq_nil_of_le (by omega)]
  · rintro ⟨⟩

/-- The munge mode is one of the two known ones, whatever the request says. -/
theorem acceptFileList_mungeMode {peer : PeerUpload}
    (h : peer.mungeMode = mungeModeNone ∨ peer.mungeMode = mungeModeXor)
    (sharedFiles : Hashtable String SharedFile) (message : TransferMessage) :
    (peer.acceptFileList sharedFiles message).mungeMode = mungeModeNone ∨
      (peer.acceptFileList sharedFiles message).mungeMode = mungeModeXor := by
  simp only [acceptFileList]
  split
  · exact .inr rfl
  · exact h

end PeerUpload

end HiTuxShare
