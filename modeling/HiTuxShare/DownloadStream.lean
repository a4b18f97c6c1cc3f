import HiTuxShare.DownloadDelivery
import HiTuxShare.UploadStream

namespace HiTuxShare
set_option autoImplicit true

open Piece (AtEnd LegalStream announced cursor)

/-- The header a shared file is announced with. -/
def headerOf (file : SharedFile) : FileHeader := ⟨file.fileName, file.fileSize⟩

/-- The report is about this file, as it is on the server's disk. -/
def IsCopyOf (disk : Disk) (file : SharedFile) (report : String × Option OutputFile) : Prop :=
  ∃ whole, contents disk file = some whole ∧ report.2 = some ⟨headerOf file, whole⟩

/-- Every file the stream announces has the size it is announced with. -/
def SizesAgree (disk : Disk) (pieces : List TransferPiece) : Prop :=
  ∀ file ∈ announced pieces, ∀ whole, contents disk file = some whole →
    (whole.length : Int) = file.fileSize

namespace DownloadWorld

/-- The open file is the one the stream has reached, as far as the stream has come. -/
structure Copies (w : DownloadWorld) (pieces : List TransferPiece) (path : String)
    (file : SharedFile) (sent : List UInt8) : Prop where
  outputFile : w.outputFile = some path
  cursor : cursor pieces = some (file, sent)
  onDisk : w.ledger.disk.get? path = some ⟨headerOf file, sent⟩

/-- The reports are whole copies of announced files, in the order of the announcements. -/
structure Consumes [MuscleText] (disk : Disk) (pieces : List TransferPiece) (w : DownloadWorld) :
    Prop where
  booked : w.Booked
  progress : ∃ files, List.Forall₂ (IsCopyOf disk) files w.ledger.reports ∧
    (w.outputFile = none ∧ files.Sublist (announced pieces) ∨
      ∃ path file sent, w.Copies pieces path file sent ∧
        (files ++ [file]).Sublist (announced pieces))

theorem abort_outputFile {w : DownloadWorld} (os : OperatingSystem) (reason : String)
    (h : w.isFinished = true → w.outputFile = none) : (w.abort os reason).outputFile = none := by
  cases hf : w.isFinished with
  | true => rw [abort_of_finished os reason hf, h hf]
  | false => rw [abort_toFileDownload os reason hf]

variable [MuscleText]

theorem Consumes.of_closed {w : DownloadWorld} (hb : w.Booked) (ho : w.outputFile = none)
    (hf : List.Forall₂ (IsCopyOf disk) files w.ledger.reports)
    (hs : files.Sublist (announced pieces)) : w.Consumes disk pieces :=
  ⟨hb, files, hf, .inl ⟨ho, hs⟩⟩

theorem Consumes.copied {w : DownloadWorld} (h : w.Consumes disk pieces) :
    ∃ files, List.Forall₂ (IsCopyOf disk) files w.ledger.reports ∧
      files.Sublist (announced pieces) := by
  obtain ⟨files, hf, ⟨-, hs⟩ | ⟨path, file, sent, -, hs⟩⟩ := h.progress
  · exact ⟨files, hf, hs⟩
  · exact ⟨files, hf, (List.sublist_append_left ..).trans hs⟩

/-- Ending a file keeps it exactly if all of it is there. -/
theorem Consumes.finishCurrentFile {w : DownloadWorld} (h : w.Consumes disk pieces)
    (hl : LegalStream (contents disk) pieces) (hsizes : SizesAgree disk pieces)
    (os : OperatingSystem) : (w.finishCurrentFile os).Consumes disk pieces := by
  obtain ⟨files, hf, ⟨ho, hs⟩ | ⟨path, file, sent, hc, hs⟩⟩ := h.progress
  · rwa [finishCurrentFile_of_closed os ho]
  have hbooked := h.booked.finishCurrentFile os
  have hclosed := w.finishCurrentFile_closed os
  obtain ⟨rfl, -, file', hd, hsize, hdone⟩ := h.booked.openFile path hc.outputFile
  obtain rfl := Option.some.inj (hd.symm.trans hc.onDisk)
  cases hcomplete : w.isComplete with
  | false =>
    have hreports : (w.finishCurrentFile os).ledger.reports = w.ledger.reports := by
      rcases (finishCurrentFile_of_short os hc.outputFile hcomplete).2 with hl | hl
      · rw [hl]
      · rw [hl]; rfl
    exact .of_closed hbooked hclosed (hreports ▸ hf) ((List.sublist_append_left ..).trans hs)
  | true =>
    obtain ⟨whole, hwhole, hseen⟩ := hl.cursor_part hc.cursor
    have hlength := hsizes file (hs.subset (by simp)) whole hwhole
    have hall : sent = whole := by
      apply hseen.eq_of_length_le
      simp only [FileDownload.isComplete, Bool.or_eq_true, decide_eq_true_eq] at hcomplete
      change file.fileSize = w.currentFileSize at hsize
      change (sent.length : Int) = w.currentFileBytesDone at hdone
      omega
    have hreports : (w.finishCurrentFile os).ledger.reports =
        w.ledger.reports ++ [(w.outputPath, some ⟨headerOf file, whole⟩)] := by
      rw [(finishCurrentFile_of_complete os hc.outputFile hcomplete).2, Ledger.step, hd, hall]
    refine .of_closed hbooked hclosed ?_ hs
    rw [hreports]
    exact List.rel_append hf (.cons ⟨whole, hwhole, rfl⟩ .nil)

theorem Consumes.received {w : DownloadWorld} (h : w.Consumes disk pieces)
    (message : TransferMessage) : (w.note (.received message)).Consumes disk pieces := by
  obtain ⟨hd, -, hr⟩ := w.ledger.receive_frame message
  obtain ⟨files, hf, hp⟩ := h.progress
  refine ⟨booked_received h.booked message, files, ?_, ?_⟩
  · rwa [note_ledger, Ledger.step, hr]
  · rcases hp with hp | ⟨path, file, sent, hc, hs⟩
    · exact .inl hp
    · refine .inr ⟨path, file, sent, ⟨hc.outputFile, hc.cursor, ?_⟩, hs⟩
      rw [note_ledger, Ledger.step, hd, hc.onDisk]

theorem Consumes.chatter {w : DownloadWorld} (h : w.Consumes disk pieces)
    (hm : IsChatter message) (os : OperatingSystem) :
    (w.messageReceived os message).Consumes disk (pieces ++ [.notice]) := by
  have hu := untouched_chatter os w hm
  have hcursor : cursor (pieces ++ [.notice]) = cursor pieces := Piece.cursor_snoc ..
  have hannounced : announced (pieces ++ [.notice]) = announced pieces :=
    (Piece.announced_snoc ..).trans (List.append_nil _)
  obtain ⟨files, hf, hp⟩ := h.progress
  refine ⟨h.booked.messageReceived os message, files, hu.ledger.symm ▸ hf, ?_⟩
  rw [hannounced]
  rcases hp with ⟨ho, hs⟩ | ⟨path, file, sent, hc, hs⟩
  · exact .inl ⟨hu.sameFiles.outputFile.trans ho, hs⟩
  · exact .inr ⟨path, file, sent, ⟨hu.sameFiles.outputFile.trans hc.outputFile,
      hcursor.trans hc.cursor, by rw [hu.ledger, hc.onDisk]⟩, hs⟩

theorem Consumes.header {w : DownloadWorld} (h : w.Consumes disk pieces)
    (hl : LegalStream (contents disk) pieces) (hsizes : SizesAgree disk pieces)
    (hw : message.what = .fileHeader) (hh : readFileHeader message = some (headerOf file))
    (os : OperatingSystem) :
    (w.messageReceived os message).Consumes disk (pieces ++ [.header file]) := by
  have hbooked := h.booked.messageReceived os message
  have hcursor : cursor (pieces ++ [.header file]) = some (file, []) := Piece.cursor_snoc ..
  have hannounced : announced (pieces ++ [.header file]) = announced pieces ++ [file] :=
    Piece.announced_snoc ..
  have hfinish := (h.received message).finishCurrentFile hl hsizes os
  have hclosed := (w.note (.received message)).finishCurrentFile_closed os
  obtain ⟨files, hf, ⟨-, hs⟩ | ⟨path, file', sent, hc, -⟩⟩ := hfinish.progress
  swap
  · have hopen := hc.outputFile
    rw [hclosed] at hopen
    cases hopen
  rw [messageReceived_header os w hw] at hbooked ⊢
  have hreports := (w.note (.received message)).handleFileHeader_reports os message
  cases ho : (w.note (.received message)).openedBy os (headerOf file) message with
  | none =>
    refine .of_closed hbooked ?_ (hreports.symm ▸ hf) ?_
    · rw [handleFileHeader_refused hh ho]
      exact abort_outputFile os _ fun _ => hclosed
    · rw [hannounced]
      exact hs.trans (List.sublist_append_left ..)
  | some path =>
    obtain ⟨hd, hledger⟩ := handleFileHeader_opened hh ho
    refine ⟨hbooked, files, hreports.symm ▸ hf, .inr ⟨path, file, [], ⟨?_, hcursor, ?_⟩, ?_⟩⟩
    · rw [hd]
    · obtain ⟨-, -, hlast⟩ := (w.note (.received message)).finishCurrentFile_frame os
      have hheader : (w.note (.received message)).ledger.lastHeader = headerOf file := by
        rw [note_ledger, Ledger.step, Ledger.receive_of_header _ hw hh]
      rw [hledger, Ledger.step, hlast, hheader]
      exact Hashtable.get?_put_self ..
    · rw [hannounced]
      exact hs.append (List.Sublist.refl _)

theorem Consumes.wroteChunk {w : DownloadWorld} (h : w.Consumes disk pieces)
    (ho : w.outputFile = some path) (os : OperatingSystem) (bytes : List UInt8) :
    (w.wroteChunk os path bytes).Consumes disk (pieces ++ [.data bytes]) := by
  have hannounced : announced (pieces ++ [.data bytes]) = announced pieces :=
    (Piece.announced_snoc ..).trans (List.append_nil _)
  obtain ⟨files, hf, ⟨hclosed, -⟩ | ⟨path', file, sent, hc, hs⟩⟩ := h.progress
  · rw [ho] at hclosed
    cases hclosed
  obtain rfl := Option.some.inj (ho.symm.trans hc.outputFile)
  have hledger : (w.wroteChunk os path bytes).ledger = { w.ledger with
      disk := w.ledger.disk.put path ⟨headerOf file, sent ++ bytes⟩ } := by
    rw [wroteChunk_ledger, Ledger.append, hc.onDisk]
  refine ⟨h.booked.wroteChunk ho os bytes, files, ?_,
    .inr ⟨path, file, sent ++ bytes, ⟨hc.outputFile, ?_, ?_⟩, hannounced.symm ▸ hs⟩⟩
  · rwa [hledger]
  · rw [Piece.cursor_snoc, hc.cursor]
    rfl
  · rw [hledger]
    exact Hashtable.get?_put_self ..

omit [MuscleText] in
theorem chunkBytes_eq_none {os : OperatingSystem} (hc : IsChunk message bytes)
    (ht : (os.fwrite bytes).length ≠ bytes.length) : chunkBytes os message = none := by
  obtain ⟨-, data, hd, hs, hu⟩ := hc
  simp [chunkBytes, hd, hs, hu, ht]

theorem Consumes.data {w : DownloadWorld} (h : w.Consumes disk pieces)
    (hl : LegalStream (contents disk) (pieces ++ [.data bytes]))
    (hsizes : SizesAgree disk (pieces ++ [.data bytes])) (hc : IsChunk message bytes)
    (os : OperatingSystem) :
    (w.messageReceived os message).Consumes disk (pieces ++ [.data bytes]) := by
  have hannounced : announced (pieces ++ [.data bytes]) = announced pieces :=
    (Piece.announced_snoc ..).trans (List.append_nil _)
  have hbooked := h.booked.messageReceived os message
  have hr := h.received message
  rw [messageReceived_data os w hc.1] at hbooked ⊢
  obtain ⟨files, hf, ⟨ho, hs⟩ | ⟨path, file, sent, hcopy, hs⟩⟩ := hr.progress
  · rw [handleFileData_closed os _ ho]
    exact .of_closed hr.booked ho hf (hannounced.symm ▸ hs)
  · by_cases ht : (os.fwrite bytes).length = bytes.length
    · have hwrote := hr.wroteChunk hcopy.outputFile os bytes
      rw [handleFileData_chunk hcopy.outputFile (chunkBytes_of_isChunk hc ht)]
      split
      · exact hwrote.finishCurrentFile hl hsizes os
      · exact hwrote
    · have hnone := chunkBytes_eq_none hc ht
      obtain ⟨-, data, hd, -⟩ := hc
      have hreports := handleFileData_refused_reports os hcopy.outputFile hd hnone
      refine .of_closed hbooked ?_ (hreports.symm ▸ hf)
        ((List.sublist_append_left ..).trans (hannounced.symm ▸ hs))
      rcases handleFileData_refused os hcopy.outputFile hd hnone with ⟨_, he⟩ | ⟨_, _, he⟩
      · rw [he]
        exact abort_outputFile os _ hr.booked.finishedClosed
      · rw [he]
        exact abort_outputFile os _ hr.booked.finishedClosed

/-- The download takes the next piece of a legal stream, whatever the local disk does. -/
theorem Consumes.next {w : DownloadWorld} (h : w.Consumes disk pieces)
    (hl : LegalStream (contents disk) (pieces ++ [piece]))
    (hsizes : SizesAgree disk (pieces ++ [piece]))
    (hmode : mungeMode = mungeModeNone ∨ mungeMode = mungeModeXor) (localSessionId : String)
    (os : OperatingSystem) :
    (w.messageReceived os (render localSessionId mungeMode piece)).Consumes disk
      (pieces ++ [piece]) := by
  cases piece with
  | notice =>
    have hm : IsChatter (Message.ofWhat TransferCommand.notifyQueued) :=
      ⟨by decide, by decide, by decide⟩
    exact h.chatter hm os
  | header file =>
    refine h.header (Piece.legalStream_snoc.mp hl).1 ?_ (UploadWorld.fileHeader_what ..)
      (UploadWorld.readFileHeader_fileHeader ..) os
    intro other hm
    exact hsizes other (by rw [Piece.announced_snoc]; exact List.mem_append_left _ hm)
  | data bytes => exact h.data hl hsizes (UploadWorld.fileData_isChunk hmode bytes) os

end DownloadWorld

end HiTuxShare
