import HiTuxShare.Transfer
import HiTuxShare.UploadAdmission

namespace HiTuxShare
set_option autoImplicit true

open DownloadWorld (requestedNames)
open Piece (announced cursor)

namespace UploadWorld

theorem Extends.sentTo (h : Extends w w') (sessionId : String) :
    w.sentTo sessionId <+: w'.sentTo sessionId :=
  h.actions.filterMap _

theorem AsScanned.congr {w w' : UploadWorld} (h : w.AsScanned) (hx : Extends w w') :
    w'.AsScanned := by
  intro name file hf
  rw [hx.disk]
  exact h name file (hx.sharedFiles ▸ hf)

theorem Extends.offered (h : Extends w w') (names : List String) :
    w'.offered names = w.offered names := by
  rw [UploadWorld.offered, h.sharedFiles]
  rfl

theorem resolve_fileList (w : UploadWorld) (mungeMode : Int32) (download : FileDownload) :
    PeerUpload.resolve w.sharedFiles (DownloadWorld.fileList mungeMode download) =
      w.offered (requestedNames download) := by
  rw [PeerUpload.resolve, DownloadWorld.fileList_names]
  rfl

theorem AsScanned.of_mem_offered {w : UploadWorld} (h : w.AsScanned)
    (hm : file ∈ w.offered names) : w.sharedFiles.get? file.fileName = some file ∧
      ∀ whole, contents w.disk file = some whole → (whole.length : Int) = file.fileSize := by
  obtain ⟨name, -, hf⟩ := List.mem_filterMap.mp hm
  obtain ⟨rfl, hsize⟩ := h name file hf
  exact ⟨hf, hsize⟩

theorem AsScanned.offered_names {w : UploadWorld} (h : w.AsScanned) (names : List String) :
    ((w.offered names).map SharedFile.fileName).Sublist names := by
  induction names with
  | nil => exact List.Sublist.refl []
  | cons name rest ih =>
    simp only [offered, List.filterMap_cons]
    cases hf : w.sharedFiles.get? name with
    | none => exact ih.cons name
    | some file =>
      rw [List.map_cons, (h name file hf).1]
      exact ih.cons_cons name

end UploadWorld

namespace Transfer

variable [MuscleText]

theorem Underway.server {t : Transfer} (h : t.Underway mungeMode)
    (hx : UploadWorld.Extends t.server w)
    (hs : Stage { t with server := w, uploaded := u, drained := d } mungeMode requested streamed)
    (hstream : UploadWorld.Streaming t.sessionId requested streamed consumed w)
    (hl : consumed.length = t.delivered) (hc : t.download.Consumes t.server.disk consumed) :
    Underway { t with server := w, uploaded := u, drained := d } mungeMode where
  asScanned := h.asScanned.congr hx
  greeting := h.greeting
  received := fun message hm => (hx.sentTo t.sessionId).subset (h.received message hm)
  stream := ⟨requested, streamed, consumed, hs, hstream, hl, hx.disk.symm ▸ hc⟩

omit [MuscleText] in
theorem Stage.server {t : Transfer} (h : t.Stage mungeMode requested streamed)
    (hx : UploadWorld.Extends t.server w) (d : Nat) :
    Stage { t with server := w, drained := d } mungeMode requested streamed := by
  rcases h with h | ⟨hu, hr, hm⟩
  · exact .inl h
  · exact .inr ⟨hu, hr.trans (hx.offered _).symm, hm⟩

theorem Underway.serverReceives {t : Transfer} (h : t.Underway mungeMode)
    (hmode : mungeMode = mungeModeNone ∨ mungeMode = mungeModeXor) :
    (t.handle .serverReceives).Underway mungeMode := by
  obtain ⟨identity, list, hsent, hnames⟩ := h.greeting
  obtain ⟨requested, streamed, consumed, hstage, hstream, hl, hc⟩ := h.stream
  simp only [handle, hsent]
  match hu : t.uploaded with
  | 0 =>
    obtain ⟨-, rfl, rfl⟩ := hstage.resolve_right fun hs => absurd hs.1 (by omega)
    have hx := t.server.extends_handle (e := .messageReceived t.sessionId
      (DownloadWorld.peerIdentity identity)) rfl
    exact h.server hx (.inl ⟨Nat.le_refl 1, rfl, rfl⟩) (hstream.identify rfl) hl hc
  | 1 =>
    obtain ⟨-, rfl, rfl⟩ := hstage.resolve_right fun hs => absurd hs.1 (by omega)
    have hx := t.server.extends_handle (e := .messageReceived t.sessionId
      (DownloadWorld.fileList mungeMode list)) rfl
    have hlist := hstream.fileList (DownloadWorld.fileList_what mungeMode list)
      (DownloadWorld.fileList_mungeMode mungeMode list) hmode
    rw [UploadWorld.resolve_fileList, hnames] at hlist
    exact h.server hx (.inr ⟨Nat.le_refl 2, (hx.offered _).symm, rfl⟩) hlist hl hc
  | n + 2 => exact h

theorem Underway.queueDrained {t : Transfer} (h : t.Underway mungeMode) :
    (t.handle .queueDrained).Underway mungeMode := by
  obtain ⟨requested, streamed, consumed, hstage, hstream, hl, hc⟩ := h.stream
  simp only [handle]
  split
  · next hlt =>
    have hx := t.server.extends_handle (e := .outputQueuesDrained t.sessionId) rfl
    have hdrained := hstream.outputQueuesDrained (Nat.zero_lt_of_lt hlt)
    exact h.server hx (hstage.server hx _) hdrained hl hc
  · exact h

theorem Underway.elsewhere {t : Transfer} (h : t.Underway mungeMode) (event : UploadEvent) :
    (t.handle (.elsewhere event)).Underway mungeMode := by
  obtain ⟨requested, streamed, consumed, hstage, hstream, hl, hc⟩ := h.stream
  simp only [handle]
  split
  · next hother =>
    obtain ⟨other, he, hne⟩ := (Option.any_eq_true _ _).mp hother
    have hx := t.server.extends_handle he
    exact h.server hx (hstage.server hx _) (hstream.elsewhere he (by simpa using hne)) hl hc
  · exact h

omit [MuscleText] in
/-- Everything on the way is part of what was asked for. -/
theorem Stage.offered {t : Transfer} (h : t.Stage mungeMode requested streamed) :
    requested.Sublist (t.server.offered (requestedNames t.download.toFileDownload)) := by
  rcases h with ⟨-, rfl, -⟩ | ⟨-, rfl, -⟩
  · exact List.nil_sublist _
  · exact List.Sublist.refl _

omit [MuscleText] in
theorem Stage.mode {t : Transfer} (h : t.Stage mungeMode requested streamed)
    (hmode : mungeMode = mungeModeNone ∨ mungeMode = mungeModeXor) :
    streamed = mungeModeNone ∨ streamed = mungeModeXor := by
  rcases h with ⟨-, -, rfl⟩ | ⟨-, -, rfl⟩
  · exact .inl rfl
  · exact hmode

theorem Underway.sizesAgree {t : Transfer} (h : t.Underway mungeMode)
    (hstage : t.Stage mungeMode requested streamed)
    (hs : UploadWorld.Streams t.server t.sessionId requested streamed pieces)
    (hseen : consumed <+: pieces) : SizesAgree t.server.disk consumed := by
  intro file hm
  obtain ⟨peer, -, hi⟩ := hs.record
  have hannounced : file ∈ announced pieces := (Piece.announced_mono hseen).subset hm
  have hrequested := hi.order.subset (List.mem_append_left _ hannounced)
  exact (h.asScanned.of_mem_offered (hstage.offered.subset hrequested)).2

theorem Underway.downloadReceives {t : Transfer} (h : t.Underway mungeMode)
    (hmode : mungeMode = mungeModeNone ∨ mungeMode = mungeModeXor) (os : OperatingSystem) :
    (t.handle (.downloadReceives os)).Underway mungeMode := by
  obtain ⟨requested, streamed, consumed, hstage, ⟨pieces, hseen, hs⟩, hl, hc⟩ := h.stream
  obtain ⟨identity, list, hsent, hnames⟩ := h.greeting
  simp only [handle]
  split
  swap
  · exact h
  next message hm =>
  obtain ⟨piece, rfl, hsplit⟩ := hs.next hseen (hl ▸ hm)
  have hlegal : Piece.LegalStream (contents t.server.disk) (consumed ++ [piece]) := by
    obtain ⟨after, he⟩ := hsplit
    exact (Piece.legalStream_append.mp (he ▸ hs.legal)).1
  have honward := DownloadWorld.onward_messageReceived os t.download
    (render t.server.localSessionId streamed piece)
  have hrequest := congrArg (List.map RequestedFile.fileName) honward.requestedFiles
  have hmessages := DownloadWorld.messageReceived_messages os t.download
    (render t.server.localSessionId streamed piece)
  refine ⟨h.asScanned, ⟨identity, list, ?_, hnames.trans hrequest.symm⟩, ?_,
    requested, streamed, consumed ++ [piece], ?_, ⟨_, hsplit, hs⟩, ?_, ?_⟩
  · rw [DownloadWorld.sentMessages, hmessages, List.filterMap_append]
    exact (List.append_nil _).trans hsent
  · intro other ho
    have hmem : Occurrence.received other ∈ (t.download.messageReceived os _).messages :=
      List.mem_filter.mpr ⟨ho, rfl⟩
    rw [hmessages] at hmem
    rcases List.mem_append.mp hmem with ho | ho
    · exact h.received other (List.mem_filter.mp ho).1
    · obtain rfl := Occurrence.received.inj (List.mem_singleton.mp ho)
      exact List.mem_of_getElem? hm
  · rcases hstage with hstage | ⟨hu, hr, hmunge⟩
    · exact .inl hstage
    · exact .inr ⟨hu, hr.trans (congrArg t.server.offered hrequest.symm), hmunge⟩
  · rw [List.length_append, hl]
    rfl
  · exact hc.next hlegal (h.sizesAgree hstage hs hsplit) (hstage.mode hmode) _ os

theorem Underway.handle {t : Transfer} (h : t.Underway mungeMode)
    (hmode : mungeMode = mungeModeNone ∨ mungeMode = mungeModeXor) (e : TransferEvent) :
    (t.handle e).Underway mungeMode := by
  cases e with
  | serverReceives => exact h.serverReceives hmode
  | downloadReceives os => exact h.downloadReceives hmode os
  | queueDrained => exact h.queueDrained
  | elsewhere event => exact h.elsewhere event

/-- A download that has just sent its request has nothing from any stream yet. -/
theorem consumes_requested (request : DownloadRequest) (os : OperatingSystem) (disk : Disk)
    (mungeMode : Int32) : ((request.started os).requestFiles mungeMode).Consumes disk [] := by
  have hstarted := untouched_started request os
  have hu := hstarted.trans (DownloadWorld.untouched_requestFiles mungeMode (request.started os))
  have hclosed : ((request.started os).requestFiles mungeMode).outputFile = none :=
    hu.sameFiles.outputFile.trans (newDownload_isFresh request).outputFile
  have hbooked := (started_booked request os).untouched
    (DownloadWorld.untouched_requestFiles mungeMode _) fun _ => hclosed
  exact .of_closed hbooked hclosed (hu.ledger ▸ .nil) (List.Sublist.refl _)

omit [MuscleText] in
theorem streams_accepted {sessionId : String} {server : UploadWorld}
    (h : server.IsNewSession sessionId)
    (peerAddress : String) : UploadWorld.Streaming sessionId [] mungeModeNone []
      (server.sessionAccepted sessionId peerAddress) := by
  refine UploadWorld.Streams.streaming ⟨?_, trivial, fun _ => ?_, { peerAddress },
    Hashtable.get?_put_self .., ?_⟩
  · rw [UploadWorld.sessionAccepted, UploadWorld.sentTo_act]
    exact (List.append_nil _).trans h.1
  · rw [UploadWorld.sessionAccepted, UploadWorld.drainsFor_act]
    exact h.2
  · refine ⟨rfl, rfl, ?_, ?_, List.Sublist.refl _, Bool.noConfusion⟩
    · intro _ file sent hc
      cases hc
    · intro stream hs
      cases hs

theorem begun_underway {sessionId : String} {server : UploadWorld} (hscan : server.AsScanned)
    (hnew : server.IsNewSession sessionId) (peerAddress : String) (request : DownloadRequest)
    (os : OperatingSystem) (mungeMode : Int32) :
    (begun server sessionId peerAddress request os mungeMode).Underway mungeMode := by
  have hmessages := DownloadWorld.requestFiles_messages mungeMode (request.started os)
  have hstarted : (request.started os).messages = [] := DownloadWorld.start_messages ..
  rw [hstarted, List.nil_append] at hmessages
  refine ⟨?_, ⟨_, _, congrArg (List.filterMap Occurrence.sent?) hmessages, rfl⟩, ?_,
    [], mungeModeNone, [], .inl ⟨Nat.zero_le 1, rfl, rfl⟩, ?_, rfl, ?_⟩
  · exact hscan.congr (server.extends_handle (e := .sessionAccepted sessionId peerAddress) rfl)
  · intro message hm
    have hmem : Occurrence.received message ∈
        ((request.started os).requestFiles mungeMode).messages := List.mem_filter.mpr ⟨hm, rfl⟩
    rw [hmessages] at hmem
    simp at hmem
  · exact streams_accepted hnew peerAddress
  · exact consumes_requested request os _ mungeMode

end Transfer

namespace DownloadWorld

/-- The names of the files that were reported, in the order of the reports. -/
def reportedNames (w : DownloadWorld) : List String :=
  w.ledger.reports.filterMap fun report => report.2.map fun file => file.header.fileName

def AllChecksumsPass (w : DownloadWorld) : Prop :=
  ∀ message data, .received message ∈ w.history → message.what = .fileData →
    message.findData fieldData = some data → passesChecksum message data = true

end DownloadWorld

namespace Transfer

/-- Every chunk passes its check, every reported file is the shared file of its name, byte for
byte, and the files come in the order they were asked for. -/
structure Faithful (t : Transfer) : Prop where
  checksums : t.download.AllChecksumsPass
  exact : ∀ path file?, (path, file?) ∈ t.download.ledger.reports → ∃ file shared,
    file? = some file ∧ t.server.sharedFiles.get? file.header.fileName = some shared ∧
      t.server.disk.file? shared.absolutePath = some file.bytes
  order : t.download.reportedNames.Sublist (requestedNames t.download.toFileDownload)

theorem exists_copied (h : List.Forall₂ (IsCopyOf disk) files reports) (hm : report ∈ reports) :
    ∃ file ∈ files, IsCopyOf disk file report := by
  induction h with
  | nil => cases hm
  | cons hcopy _ ih =>
    rcases List.mem_cons.mp hm with rfl | hm
    · exact ⟨_, List.mem_cons_self, hcopy⟩
    · obtain ⟨file, hf, hcopy⟩ := ih hm
      exact ⟨file, List.mem_cons_of_mem _ hf, hcopy⟩

theorem reportedNames_of_copies {w : DownloadWorld}
    (h : List.Forall₂ (IsCopyOf disk) files w.ledger.reports) :
    w.reportedNames = files.map SharedFile.fileName := by
  rw [DownloadWorld.reportedNames]
  generalize w.ledger.reports = reports at h
  induction h with
  | nil => rfl
  | cons hcopy _ ih =>
    obtain ⟨whole, -, hreport⟩ := hcopy
    rw [List.filterMap_cons, hreport, ih]
    rfl

theorem Underway.faithful [MuscleText] {t : Transfer} (h : t.Underway mungeMode) :
    t.Faithful := by
  obtain ⟨requested, streamed, consumed, hstage, ⟨pieces, hseen, hs⟩, -, hc⟩ := h.stream
  obtain ⟨files, hcopies, hsublist⟩ := hc.copied
  have hoffered : files.Sublist (t.server.offered (requestedNames t.download.toFileDownload)) := by
    obtain ⟨peer, -, hi⟩ := hs.record
    have hannounced : (announced pieces).Sublist requested :=
      (List.sublist_append_left ..).trans hi.order
    exact hsublist.trans ((Piece.announced_mono hseen).trans
      (hannounced.trans hstage.offered))
  refine ⟨?_, ?_, ?_⟩
  · intro message data hm hw hd
    have hsent := h.received message hm
    rw [hs.sentTo] at hsent
    obtain ⟨piece, -, rfl⟩ := List.mem_map.mp hsent
    cases piece with
    | notice => cases hw
    | header file =>
      rw [render, UploadWorld.fileHeader_what] at hw
      cases hw
    | data bytes =>
      rw [render, UploadWorld.fileData_data] at hd
      cases hd
      exact UploadWorld.fileData_passesChecksum ..
  · intro path file? hm
    obtain ⟨file, hf, whole, hwhole, rfl⟩ := exists_copied hcopies hm
    obtain ⟨hshared, -⟩ := h.asScanned.of_mem_offered (hoffered.subset hf)
    exact ⟨_, file, rfl, hshared, hwhole⟩
  · rw [reportedNames_of_copies hcopies]
    exact (hoffered.map _).trans (h.asScanned.offered_names _)

theorem run_underway [MuscleText] {sessionId : String} {server : UploadWorld}
    (hscan : server.AsScanned) (hnew : server.IsNewSession sessionId) (peerAddress : String)
    (request : DownloadRequest) (os : OperatingSystem)
    (hmode : mungeMode = mungeModeNone ∨ mungeMode = mungeModeXor) (es : List TransferEvent) :
    machine.EveryState (fun t => t.Underway mungeMode)
      (begun server sessionId peerAddress request os mungeMode) es :=
  EventMachine.everyState_of_preserved (fun _ e h => h.handle hmode e)
    (begun_underway hscan hnew peerAddress request os mungeMode)

/-- Whatever the schedule, what else the server does and what the local disk refuses: nothing
that is reported differs from what is shared. -/
theorem end_to_end_fidelity [MuscleText] (server : UploadWorld) (sessionId peerAddress : String)
    (request : DownloadRequest) (os : OperatingSystem) (mungeMode : Int32)
    (es : List TransferEvent) (hscan : server.AsScanned) (hnew : server.IsNewSession sessionId)
    (hmode : mungeMode = mungeModeNone ∨ mungeMode = mungeModeXor) :
    machine.EveryState Faithful (begun server sessionId peerAddress request os mungeMode) es :=
  (run_underway hscan hnew peerAddress request os hmode es).imp fun _ h => h.faithful

end Transfer

/-- A server with one small file to share. -/
def notesServer (maxSimultaneousUploads : Nat) : UploadWorld :=
  .listening notesShare "/local/0" maxSimultaneousUploads notesDisk

theorem notesServer_asScanned (maxSimultaneousUploads : Nat) :
    (notesServer maxSimultaneousUploads).AsScanned := by
  intro name file hf
  change notesShare.get? name = some file at hf
  rw [notesShare, Hashtable.get?_put] at hf
  split at hf
  · next he =>
    cases hf
    refine ⟨he.symm, fun whole hw => ?_⟩
    change contents notesDisk _ = some whole at hw
    have hcontents : contents notesDisk
        ⟨"notes.txt", "", "/share/notes.txt", "text/plain", 4, 0⟩ = some [1, 2, 3, 4] := by decide
    rw [hcontents] at hw
    cases hw
    rfl
  · cases hf

/-- The file is asked for, announced, sent, and the queue drains. -/
def notesTransfer : List TransferEvent :=
  [.serverReceives, .serverReceives, .downloadReceives {}, .downloadReceives {}, .queueDrained]

theorem end_to_end_fidelity_notes :
    letI := asciiText
    Transfer.machine.EveryState Transfer.Faithful
      (.begun (notesServer 2) "/peer/1" "peer" notesRequest {} mungeModeXor) notesTransfer :=
  letI := asciiText
  Transfer.end_to_end_fidelity (notesServer 2) "/peer/1" "peer" notesRequest {} mungeModeXor
    notesTransfer (notesServer_asScanned 2) ⟨rfl, rfl⟩ (.inr rfl)

end HiTuxShare
