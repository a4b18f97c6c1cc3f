import HiTuxShare.TransferFidelity

namespace HiTuxShare
set_option autoImplicit true

open DownloadWorld (requestedNames)
open Piece (announced cursor)

namespace Transfer

/-- Nothing is on the way, neither a message nor a drain notification. -/
structure Quiescent (t : Transfer) : Prop where
  uploaded : t.uploaded = t.download.sentMessages.length
  delivered : t.delivered = (t.server.sentTo t.sessionId).length
  drained : t.drained = t.server.drainsFor t.sessionId

/-- There was something to ask for, and all of it has been received. -/
def AllReceived (t : Transfer) : Prop :=
  t.download.requestedFiles ≠ [] ∧
    (requestedNames t.download.toFileDownload).Subperm t.download.receivedNames

/-- The server's count of its uploads includes this session. -/
def CountsAsActive (t : Transfer) : Prop :=
  (t.server.peers.get? t.sessionId).any PeerUpload.isActive = true

def CapNotReached (t : Transfer) : Prop :=
  t.server.countActiveUploads < t.server.maxSimultaneousUploads

instance (t : Transfer) : Decidable t.CapNotReached := inferInstanceAs (Decidable (_ < _))

/-- Both sides know that a finished transfer is finished. -/
def EndsWell (t : Transfer) : Prop :=
  t.Quiescent → t.AllReceived → t.download.state = .finished ∧ ¬t.CountsAsActive

/-- Each side waits for the other one to hang up. -/
def EndsStuck (t : Transfer) : Prop :=
  t.Quiescent → t.AllReceived → t.download.state ≠ .finished ∧ t.CountsAsActive

end Transfer

/-- Every name is shared, and there is something to read in its file. -/
def UploadWorld.OffersAll (w : UploadWorld) (names : List String) : Prop :=
  ∀ name ∈ names, ∃ file whole, w.sharedFiles.get? name = some file ∧
    contents w.disk file = some whole ∧ whole ≠ []

namespace Transfer

theorem handle_not_finished [MuscleText] {t : Transfer} (h : t.download.state ≠ .finished)
    (e : TransferEvent) : (t.handle e).download.state ≠ .finished := by
  cases e with
  | serverReceives =>
    simp only [handle]
    split <;> exact h
  | downloadReceives os =>
    simp only [handle]
    split
    · next message _ =>
      intro hf
      exact h ((DownloadWorld.onward_messageReceived os t.download message).finished hf)
    · exact h
  | queueDrained =>
    simp only [handle]
    split <;> exact h
  | elsewhere event =>
    simp only [handle]
    split <;> exact h

theorem Underway.countsAsActive [MuscleText] {t : Transfer} (h : t.Underway mungeMode)
    (hr : t.AllReceived) : t.CountsAsActive := by
  obtain ⟨requested, streamed, consumed, -, ⟨pieces, hseen, hs⟩, -, hc⟩ := h.stream
  obtain ⟨peer, hp, hi⟩ := hs.record
  obtain ⟨files, hcopies, hsublist⟩ := hc.copied
  have hreports : t.download.ledger.reports ≠ [] := by
    intro hnil
    have hle := hr.2.length_le
    rw [DownloadWorld.receivedNames, hnil, requestedNames, List.length_map] at hle
    exact hr.1 (List.length_eq_zero_iff.mp (Nat.le_zero.mp hle))
  have hfiles : files ≠ [] := by
    rintro rfl
    exact hreports (List.forall₂_nil_left_iff.mp hcopies)
  have hannounced : announced pieces ≠ [] := by
    intro hnil
    have hall := hsublist.trans (Piece.announced_mono hseen)
    rw [hnil] at hall
    exact hfiles (List.sublist_nil.mp hall)
  have hrequested : peer.requestedFiles ≠ [] := by
    intro hnil
    have horder := hi.order
    rw [← hi.requestedFiles, hnil] at horder
    exact hannounced (List.append_eq_nil_iff.mp (List.sublist_nil.mp horder)).1
  have hqueued : peer.isQueued = false := by
    by_contra hq
    exact hannounced (hi.queued (by simpa using hq))
  simp [CountsAsActive, hp, PeerUpload.isActive, hqueued, hrequested]

/-- One shared file, one peer, a cap of two: the file arrives, and neither side ever lets go. -/
theorem complete_transfer_is_stuck :
    ¬ ∀ [MuscleText] (server : UploadWorld) (sessionId peerAddress : String)
      (request : DownloadRequest) (os : OperatingSystem) (mungeMode : Int32)
      (es : List TransferEvent), server.AsScanned → server.IsNewSession sessionId →
      mungeMode = mungeModeNone ∨ mungeMode = mungeModeXor →
      server.OffersAll (request.requestedFiles.map RequestedFile.fileName) →
      machine.EveryState CapNotReached
        (begun server sessionId peerAddress request os mungeMode) es →
      machine.EveryState EndsWell (begun server sessionId peerAddress request os mungeMode) es := by
  intro h
  let _ := asciiText
  have hcap : machine.EveryState CapNotReached
      (begun (notesServer 2) "/peer/1" "peer" notesRequest {} mungeModeXor) notesTransfer := by
    decide +kernel
  have hoffers : (notesServer 2).OffersAll
      (notesRequest.requestedFiles.map RequestedFile.fileName) := by
    intro name hm
    obtain rfl : name = "notes.txt" := List.mem_singleton.mp hm
    exact ⟨_, [1, 2, 3, 4], rfl, by decide, by decide⟩
  have hends := (h (notesServer 2) "/peer/1" "peer" notesRequest {} mungeModeXor notesTransfer
    (notesServer_asScanned 2) ⟨rfl, rfl⟩ (.inr rfl) hoffers hcap).last
  have hquiescent : Quiescent (machine.run
      (begun (notesServer 2) "/peer/1" "peer" notesRequest {} mungeModeXor) notesTransfer) :=
    ⟨by decide +kernel, by decide +kernel, by decide +kernel⟩
  have hreceived : AllReceived (machine.run
      (begun (notesServer 2) "/peer/1" "peer" notesRequest {} mungeModeXor) notesTransfer) :=
    ⟨by decide +kernel, by decide +kernel⟩
  exact absurd (hends hquiescent hreceived).1 (by decide +kernel)

/-- Over any run: wherever everything has been received, the download is not finished and the
server still counts the session. -/
theorem complete_transfers_are_stuck [MuscleText] (server : UploadWorld)
    (sessionId peerAddress : String) (request : DownloadRequest) (os : OperatingSystem)
    (mungeMode : Int32) (es : List TransferEvent) (hscan : server.AsScanned)
    (hnew : server.IsNewSession sessionId)
    (hmode : mungeMode = mungeModeNone ∨ mungeMode = mungeModeXor) :
    machine.EveryState EndsStuck (begun server sessionId peerAddress request os mungeMode) es := by
  have hrequesting : (begun server sessionId peerAddress request os mungeMode).download.state ≠
      .finished := by
    simp only [begun, DownloadWorld.requestFiles_toFileDownload]
    intro hfinished
    cases hfinished
  have hrun : machine.EveryState (fun t => t.Underway mungeMode ∧ t.download.state ≠ .finished)
      (begun server sessionId peerAddress request os mungeMode) es :=
    EventMachine.everyState_of_preserved
      (fun _ e h => ⟨h.1.handle hmode e, handle_not_finished h.2 e⟩)
      ⟨begun_underway hscan hnew peerAddress request os mungeMode, hrequesting⟩
  exact hrun.imp fun t h _ hr => ⟨h.2, h.1.countsAsActive hr⟩

theorem complete_transfers_are_stuck_notes :
    letI := asciiText
    machine.EveryState EndsStuck
      (begun (notesServer 2) "/peer/1" "peer" notesRequest {} mungeModeXor) notesTransfer :=
  letI := asciiText
  complete_transfers_are_stuck (notesServer 2) "/peer/1" "peer" notesRequest {} mungeModeXor
    notesTransfer (notesServer_asScanned 2) ⟨rfl, rfl⟩ (.inr rfl)

end Transfer

end HiTuxShare
