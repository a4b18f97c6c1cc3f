import HiTuxShare.DownloadCredit
import Mathlib.Data.List.Forall2

namespace HiTuxShare
set_option autoImplicit true

open DownloadWorld

/-- What a peer sends for one file: its header, and everything up to the next one. -/
structure Sending where
  size : Nat
  header : TransferMessage
  body : List TransferMessage

/-- A data message without data, as some senders end a file. -/
def IsMarker (message : TransferMessage) : Prop :=
  message.what = .fileData ∧ message.findData fieldData = none

/-- The chunks among the messages add up to exactly `left` bytes. -/
def Fills : Nat → List TransferMessage → Prop
  | left, [] => left = 0
  | left, message :: rest =>
    IsChatter message ∧ Fills left rest ∨
    (∃ bytes, IsChunk message bytes ∧ bytes.length ≤ left ∧ Fills (left - bytes.length) rest) ∨
    IsMarker message ∧ left = 0 ∧ Fills 0 rest

structure Sends (requested : RequestedFile) (sending : Sending) : Prop where
  isHeader : sending.header.what = .fileHeader
  announces : readFileHeader sending.header = some ⟨requested.fileName, sending.size⟩
  fills : Fills sending.size sending.body

def isData (message : TransferMessage) : Bool := message.what = .fileData

/-- A file of size zero is only finished by the message after its header. -/
def Sending.settles (sending : Sending) : Bool :=
  sending.size ≠ 0 || sending.body.any isData

def Sending.messages (sending : Sending) : List TransferMessage := sending.header :: sending.body

/-- The calls of a session in which a peer sends all this and hangs up. -/
def deliveryCallbacks (greeting : List TransferMessage) (sendings : List Sending) :
    List DownloadCallback :=
  .sessionConnected ::
    (greeting ++ sendings.flatMap Sending.messages).map .messageReceived ++ [.sessionDisconnected]

/-- The report of a sending: the whole file under the announced header. -/
def Reported (sending : Sending) (report : String × Option OutputFile) : Prop :=
  ∃ file, report.2 = some file ∧ readFileHeader sending.header = some file.header ∧
    (file.bytes.length : Int) = file.header.fileSize

namespace DownloadWorld

def AllReported (w : DownloadWorld) (sendings : List Sending) : Prop :=
  List.Forall₂ Reported sendings w.ledger.reports

variable [MuscleText]

/-- A session that is under way. -/
structure InSession (w : DownloadWorld) : Prop where
  booked : w.Booked
  pending : Pending w.toFileDownload
  running : w.isFinished = false

/-- The open file is this sending's, and `left` bytes are to come. -/
structure OpenFor (w : DownloadWorld) (sending : Sending) (left : Nat) (path : String) : Prop where
  outputFile : w.outputFile = some path
  header : ∃ file, w.ledger.disk.get? path = some file ∧
    readFileHeader sending.header = some file.header ∧
    (file.bytes.length : Int) = w.currentFileBytesDone ∧ file.header.fileSize = sending.size
  size : w.currentFileSize = sending.size
  done : w.currentFileBytesDone + left = sending.size

/-- Everything before this sending is reported; of it, `seen` has arrived. -/
structure Receiving (w : DownloadWorld) (front : List Sending) (sending : Sending)
    (seen : List TransferMessage) (left : Nat) : Prop where
  session : w.InSession
  progress :
    w.outputFile = none ∧ left = 0 ∧ (sending.size ≠ 0 ∨ seen.any isData = true) ∧
        w.AllReported (front ++ [sending]) ∨
      ∃ path, w.OpenFor sending left path ∧ (sending.size = 0 → seen.any isData = false) ∧
        w.AllReported front

omit [MuscleText] in
theorem allReported_congr {w w' : DownloadWorld} (h : w'.ledger.reports = w.ledger.reports) :
    w'.AllReported sendings ↔ w.AllReported sendings := by
  rw [AllReported, h]
  rfl

/-- A full file is reported as what it is. -/
theorem AllReported.complete {w : DownloadWorld} (h : w.AllReported front) (hb : w.Booked)
    (ho : w.OpenFor sending 0 path) (os : OperatingSystem) :
    (w.finishCurrentFile os).AllReported (front ++ [sending]) := by
  obtain ⟨hopen, ⟨file, hd, hh, hl, hs⟩, hsize, hdone⟩ := ho
  obtain ⟨rfl, -, -⟩ := hb.openFile path hopen
  have hc : w.isComplete = true := by
    simp only [FileDownload.isComplete, Bool.or_eq_true, decide_eq_true_eq]
    omega
  rw [AllReported, (finishCurrentFile_of_complete os hopen hc).2, Ledger.step, hd]
  exact List.rel_append h (.cons ⟨file, rfl, hh, by omega⟩ .nil)

theorem InSession.messageReceived {w : DownloadWorld} (h : w.InSession)
    (hr : (w.messageReceived os message).isFinished = false) :
    (w.messageReceived os message).InSession :=
  ⟨h.booked.messageReceived os message, Pending.messageReceived h.pending os message, hr⟩

omit [MuscleText] in
theorem finishCurrentFile_state (os : OperatingSystem) (w : DownloadWorld) :
    (w.finishCurrentFile os).state = w.state :=
  finishCurrentFile_field FileDownload.state os w fun _ _ => rfl

omit [MuscleText] in
theorem isFinished_congr {w w' : DownloadWorld} (h : w'.state = w.state) :
    w'.isFinished = w.isFinished := by
  rw [FileDownload.isFinished, h]
  rfl

omit [MuscleText] in
theorem OpenFor.congr {w w' : DownloadWorld} (h : w.OpenFor sending left path)
    (hs : SameFiles w.toFileDownload w'.toFileDownload) (hd : w'.ledger.disk = w.ledger.disk) :
    w'.OpenFor sending left path := by
  obtain ⟨hopen, hfile, hsize, hdone⟩ := h
  refine ⟨hs.outputFile.trans hopen, ?_, hs.currentFileSize.trans hsize, ?_⟩
  · rwa [hd, hs.currentFileBytesDone]
  · rwa [hs.currentFileBytesDone]

omit [MuscleText] in
theorem OpenFor.received {w : DownloadWorld} (h : w.OpenFor sending left path)
    (message : TransferMessage) : (w.note (.received message)).OpenFor sending left path :=
  h.congr (by constructor <;> rfl) (by rw [note_ledger, Ledger.step, (Ledger.receive_frame ..).1])

omit [MuscleText] in
theorem AllReported.received {w : DownloadWorld} (h : w.AllReported sendings)
    (message : TransferMessage) : (w.note (.received message)).AllReported sendings :=
  (allReported_congr (by rw [note_ledger, Ledger.step, (Ledger.receive_frame ..).2.2])).mpr h

theorem booked_received {w : DownloadWorld} (h : w.Booked) (message : TransferMessage) :
    (w.note (.received message)).Booked := by
  rw [Booked, note_ledger]
  exact Bookkeeping.receive h message

theorem Receiving.chatter {w : DownloadWorld} (h : w.Receiving front sending seen left)
    (hm : IsChatter message) (os : OperatingSystem) :
    (w.messageReceived os message).Receiving front sending (seen ++ [message]) left := by
  have hu := untouched_chatter os w hm
  have hseen : (seen ++ [message]).any isData = seen.any isData := by
    simp [isData, hm.not_data]
  have hreports {sendings : List Sending} (hr : w.AllReported sendings) :
      (w.messageReceived os message).AllReported sendings :=
    (allReported_congr (congrArg Ledger.reports hu.ledger)).mpr hr
  have hsession : (w.messageReceived os message).isFinished = false := by
    by_contra hf
    have hs := isFinished_congr (chatter_isFinished os w hm (by simpa using hf))
    rw [hs, h.session.running] at hf
    exact hf rfl
  refine ⟨h.session.messageReceived hsession, ?_⟩
  rw [hseen]
  rcases h.progress with ⟨ho, hl, hd, hr⟩ | ⟨path, ho, hd, hr⟩
  · exact .inl ⟨hu.sameFiles.outputFile.trans ho, hl, hd, hreports hr⟩
  · exact .inr ⟨path, ho.congr hu.sameFiles (congrArg Ledger.disk hu.ledger), hd, hreports hr⟩

omit [MuscleText] in
theorem chunkBytes_of_isChunk {os : OperatingSystem} (hc : IsChunk message bytes)
    (ht : (os.fwrite bytes).length = bytes.length) : chunkBytes os message = some bytes := by
  obtain ⟨-, data, hd, hs, hu⟩ := hc
  simp [chunkBytes, hd, hs, hu, ht]

omit [MuscleText] in
theorem OpenFor.wroteChunk {w : DownloadWorld} (h : w.OpenFor sending left path)
    (os : OperatingSystem) (hle : bytes.length ≤ left) :
    (w.wroteChunk os path bytes).OpenFor sending (left - bytes.length) path := by
  obtain ⟨hopen, ⟨file, hd, hh, hl, hs⟩, hsize, hdone⟩ := h
  refine ⟨hopen, ⟨{ file with bytes := file.bytes ++ bytes }, ?_, hh, ?_, hs⟩, hsize, ?_⟩
  · rw [wroteChunk_ledger, Ledger.append, hd]
    exact Hashtable.get?_put_self ..
  · change ((file.bytes ++ bytes).length : Int) = w.currentFileBytesDone + bytes.length
    rw [List.length_append, Int.natCast_add, hl]
  · change w.currentFileBytesDone + bytes.length + (left - bytes.length : Nat) = sending.size
    omega

theorem Receiving.chunk {w : DownloadWorld} (h : w.Receiving front sending seen left)
    (hc : IsChunk message bytes) (hle : bytes.length ≤ left)
    (ht : w.outputFile ≠ none → (os.fwrite bytes).length = bytes.length) :
    (w.messageReceived os message).Receiving front sending (seen ++ [message])
      (left - bytes.length) := by
  have hseen : (seen ++ [message]).any isData = true := by simp [isData, hc.1]
  have hsession (hs : (w.messageReceived os message).state = w.state) :
      (w.messageReceived os message).InSession :=
    h.session.messageReceived ((isFinished_congr hs).trans h.session.running)
  rw [messageReceived_data os w hc.1] at hsession ⊢
  rcases h.progress with ⟨ho, hl, -, hr⟩ | ⟨path, ho, hd, hr⟩
  · rw [handleFileData_closed os (w.note _) ho] at hsession ⊢
    exact ⟨hsession rfl, .inl ⟨ho, by omega, .inr hseen, hr.received message⟩⟩
  · have hwrote := (ho.received message).wroteChunk os hle
    have hreports : ((w.note (.received message)).wroteChunk os path bytes).AllReported front := by
      refine (allReported_congr ?_).mpr (hr.received message)
      rw [wroteChunk_ledger, Ledger.append]
      split <;> rfl
    rw [handleFileData_chunk (w := w.note _) ho.outputFile
      (chunkBytes_of_isChunk hc (ht (by simp [ho.outputFile])))] at hsession ⊢
    have hsize : w.currentFileSize = sending.size := ho.size
    have hdone := ho.done
    have hpos : 0 ≤ w.currentFileBytesDone := by
      obtain ⟨file, -, -, hl, -⟩ := ho.header
      omega
    split at hsession
    · next hfull =>
      have hfull' : w.currentFileSize ≤ w.currentFileBytesDone + bytes.length := hfull.2
      obtain hzero : left - bytes.length = 0 := by omega
      rw [if_pos hfull]
      rw [hzero] at hwrote ⊢
      have hb := (booked_received h.session.booked message).wroteChunk ho.outputFile os bytes
      exact ⟨hsession (finishCurrentFile_state ..), .inl ⟨finishCurrentFile_closed .., rfl,
        .inr hseen, hreports.complete hb hwrote os⟩⟩
    · next hroom =>
      have hroom' : ¬(0 ≤ w.currentFileSize ∧
        w.currentFileSize ≤ w.currentFileBytesDone + bytes.length) := hroom
      rw [if_neg hroom]
      exact ⟨hsession rfl, .inr ⟨path, hwrote, fun hz => by omega, hreports⟩⟩

theorem Receiving.marker {w : DownloadWorld} (h : w.Receiving front sending seen 0)
    (hm : IsMarker message) (os : OperatingSystem) :
    (w.messageReceived os message).Receiving front sending (seen ++ [message]) 0 := by
  have hseen : (seen ++ [message]).any isData = true := by simp [isData, hm.1]
  have hsession (hs : (w.messageReceived os message).state = w.state) :
      (w.messageReceived os message).InSession :=
    h.session.messageReceived ((isFinished_congr hs).trans h.session.running)
  rw [messageReceived_data os w hm.1] at hsession ⊢
  rcases h.progress with ⟨ho, -, -, hr⟩ | ⟨path, ho, -, hr⟩
  · rw [handleFileData_closed os (w.note _) ho] at hsession ⊢
    exact ⟨hsession rfl, .inl ⟨ho, rfl, .inr hseen, hr.received message⟩⟩
  · rw [handleFileData_ends os (w.note _) ho.outputFile hm.2] at hsession ⊢
    exact ⟨hsession (finishCurrentFile_state ..), .inl ⟨finishCurrentFile_closed .., rfl,
      .inr hseen, (hr.received message).complete (booked_received h.session.booked message)
        (ho.received message) os⟩⟩

theorem Receiving.run {w : DownloadWorld} (h : w.Receiving front sending seen left)
    (hfills : Fills left body) (hes : es.map DownloadEvent.callback = body.map .messageReceived)
    (htakes : machine.EveryStep DiskTakes w es) :
    (machine.run w es).Receiving front sending (seen ++ body) 0 := by
  induction body generalizing w seen left es with
  | nil =>
    obtain rfl := List.map_eq_nil_iff.mp hes
    obtain rfl : left = 0 := hfills
    rwa [List.append_nil]
  | cons message rest ih =>
    obtain ⟨⟨callback, os⟩, es, rfl, rfl, hrest⟩ := List.map_eq_cons_iff.mp hes
    obtain ⟨htake, htakes⟩ := htakes
    rw [List.append_cons, EventMachine.run_cons]
    rcases hfills with ⟨hm, hf⟩ | ⟨bytes, hc, hle, hf⟩ | ⟨hm, rfl, hf⟩
    · exact ih (h.chatter hm os) hf hrest htakes
    · exact ih (h.chunk hc hle fun ho => htake.2 ho bytes hc) hf hrest htakes
    · exact ih (h.marker hm os) hf hrest htakes

theorem InSession.header {w : DownloadWorld} (h : w.InSession)
    (hr : ((w.note (.received sending.header)).finishCurrentFile os).AllReported front)
    (hs : Sends requested sending)
    (ht : w.DiskTakes ⟨.messageReceived sending.header, os⟩) :
    (w.messageReceived os sending.header).Receiving front sending [] sending.size := by
  obtain ⟨path, ho⟩ := Option.isSome_iff_exists.mp (ht.1 hs.isHeader _ hs.announces)
  obtain ⟨hd, hl⟩ := handleFileHeader_opened hs.announces ho
  obtain ⟨-, -, hlast⟩ := (w.note (.received sending.header)).finishCurrentFile_frame os
  have hheader : ((w.note (.received sending.header)).finishCurrentFile os).ledger.lastHeader =
      ⟨requested.fileName, sending.size⟩ := by
    rw [hlast, note_ledger, Ledger.step, Ledger.receive_of_header _ hs.isHeader hs.announces]
  have hsession : (w.messageReceived os sending.header).isFinished = false := by
    rw [messageReceived_header os w hs.isHeader, hd]
    rfl
  refine ⟨h.messageReceived hsession, .inr ⟨path, ?_, fun _ => rfl, ?_⟩⟩
  · rw [messageReceived_header os w hs.isHeader]
    refine ⟨by rw [hd],
      ⟨⟨⟨requested.fileName, sending.size⟩, []⟩, ?_, hs.announces, ?_, rfl⟩, ?_, ?_⟩
    · rw [hl, Ledger.step, hheader]
      exact Hashtable.get?_put_self ..
    · rw [hd]
      rfl
    · rw [hd]
      rfl
    · rw [hd]
      exact Int.zero_add _
  · rw [messageReceived_header os w hs.isHeader, AllReported, hl]
    exact hr

/-- A sending whose bytes are all there is reported by the next header at the latest. -/
theorem Receiving.settled {w : DownloadWorld} (h : w.Receiving front sending seen 0)
    (message : TransferMessage) (os : OperatingSystem) :
    ((w.note (.received message)).finishCurrentFile os).AllReported (front ++ [sending]) := by
  rcases h.progress with ⟨ho, -, -, hr⟩ | ⟨path, ho, -, hr⟩
  · rw [finishCurrentFile_of_closed (w := w.note _) os ho]
    exact hr.received message
  · exact (hr.received message).complete (booked_received h.session.booked message)
      (ho.received message) os

/-- All sendings, one after the other. The last one may still be open. -/
theorem InSession.sendings {w : DownloadWorld} (h : w.InSession)
    (hr : ∀ message os, ((w.note (.received message)).finishCurrentFile os).AllReported front)
    (hs : List.Forall₂ Sends (requested :: more) (sending :: rest))
    (hes : es.map DownloadEvent.callback =
      ((sending :: rest).flatMap Sending.messages).map .messageReceived)
    (htakes : machine.EveryStep DiskTakes w es) :
    ∃ front' last, front ++ sending :: rest = front' ++ [last] ∧
      (machine.run w es).Receiving front' last last.body 0 := by
  induction rest generalizing w front sending requested more es with
  | nil =>
    obtain ⟨hsend, -⟩ := List.forall₂_cons.mp hs
    rw [List.flatMap_singleton, Sending.messages] at hes
    obtain ⟨⟨callback, os⟩, es, rfl, rfl, hbody⟩ := List.map_eq_cons_iff.mp hes
    obtain ⟨htake, htakes⟩ := htakes
    refine ⟨front, sending, rfl, ?_⟩
    exact (h.header (hr _ os) hsend htake).run hsend.fills hbody htakes
  | cons following rest ih =>
    obtain ⟨hsend, hmore⟩ := List.forall₂_cons.mp hs
    rw [List.flatMap_cons, Sending.messages, List.map_append, List.map_cons] at hes
    obtain ⟨es, es', rfl, hes, hes'⟩ := List.map_eq_append_iff.mp hes
    obtain ⟨⟨callback, os⟩, es, rfl, rfl, hbody⟩ := List.map_eq_cons_iff.mp hes
    obtain ⟨⟨htake, htakes⟩, htakes'⟩ := (EventMachine.everyStep_append ..).mp htakes
    have hnow := (h.header (hr _ os) hsend htake).run hsend.fills hbody htakes
    rw [List.nil_append] at hnow
    cases hmore with
    | cons hnext hmore =>
      obtain ⟨front', last, hsplit, hlast⟩ :=
        ih hnow.session hnow.settled (.cons hnext hmore) hes' htakes'
      refine ⟨front', last, by rw [List.append_cons, hsplit], ?_⟩
      rw [EventMachine.run_append]
      exact hlast

end DownloadWorld

end HiTuxShare
