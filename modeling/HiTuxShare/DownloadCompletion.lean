import HiTuxShare.DownloadDelivery

namespace HiTuxShare
set_option autoImplicit true

namespace DownloadWorld

/-- The file was reported as a whole, under the requested name, and lies on the disk as it was
reported. -/
def ReceivedWhole (w : DownloadWorld) (requested : RequestedFile)
    (report : String × Option OutputFile) : Prop :=
  ∃ file, report.2 = some file ∧ w.ledger.disk.get? report.1 = some file ∧
    file.header.fileName = requested.fileName ∧
    (file.bytes.length : Int) = file.header.fileSize

def NothingLost (requested : List RequestedFile) (w : DownloadWorld) : Prop :=
  w.state = .finished ∧ List.Forall₂ w.ReceivedWhole requested w.ledger.reports

theorem fills_no_header (h : Fills left body) : ∀ message ∈ body, message.what ≠ .fileHeader := by
  induction body generalizing left with
  | nil => simp
  | cons message rest ih =>
    have hfirst : message.what ≠ .fileHeader ∧ ∃ left', Fills left' rest := by
      rcases h with ⟨hm, hf⟩ | ⟨bytes, hc, -, hf⟩ | ⟨hm, -, hf⟩
      · exact ⟨hm.not_header, _, hf⟩
      · exact ⟨by simp [hc.1], _, hf⟩
      · exact ⟨by simp [hm.1], _, hf⟩
    obtain ⟨hm, left', hf⟩ := hfirst
    intro other hother
    rcases List.mem_cons.mp hother with rfl | hother
    · exact hm
    · exact ih hf other hother

theorem countP_no_header {messages : List TransferMessage}
    (h : ∀ message ∈ messages, message.what ≠ .fileHeader) :
    (messages.map DownloadCallback.messageReceived).countP isHeaderCallback = 0 := by
  rw [List.countP_eq_zero]
  intro callback hm
  obtain ⟨message, hmessage, rfl⟩ := List.mem_map.mp hm
  simpa [isHeaderCallback] using h message hmessage

theorem countP_sendings (h : List.Forall₂ Sends requested sendings) :
    ((sendings.flatMap Sending.messages).map DownloadCallback.messageReceived).countP
      isHeaderCallback = sendings.length := by
  induction h with
  | nil => rfl
  | cons hs _ ih =>
    have hbody := countP_no_header (fills_no_header hs.fills)
    rw [List.flatMap_cons, List.map_append, List.countP_append, ih, Sending.messages,
      List.map_cons, List.countP_cons, hbody]
    simp only [isHeaderCallback, hs.isHeader, decide_true, ↓reduceIte, List.length_cons]
    omega

theorem countP_deliveryCallbacks {es : List DownloadEvent}
    (hgreeting : ∀ message ∈ greeting, IsChatter message)
    (h : List.Forall₂ Sends requested sendings)
    (hes : es.map DownloadEvent.callback = deliveryCallbacks greeting sendings) :
    es.countP isHeaderEvent = sendings.length := by
  have hmap : es.countP isHeaderEvent = (es.map DownloadEvent.callback).countP isHeaderCallback :=
    List.countP_map.symm
  have hchatter := countP_no_header fun message hm => (hgreeting message hm).not_header
  rw [hmap, hes, deliveryCallbacks, List.countP_append, List.countP_cons, List.map_append,
    List.countP_append, countP_sendings h, hchatter]
  simp [isHeaderCallback]

section
variable [MuscleText]

theorem InSession.greeted {w : DownloadWorld} {greeting : List TransferMessage} (h : w.InSession)
    (hgreeting : ∀ message ∈ greeting, IsChatter message)
    (hes : es.map DownloadEvent.callback = greeting.map .messageReceived) :
    (machine.run w es).InSession ∧ Untouched w (machine.run w es) := by
  induction greeting generalizing w es with
  | nil =>
    obtain rfl := List.map_eq_nil_iff.mp hes
    exact ⟨h, by constructor <;> rfl, rfl⟩
  | cons message rest ih =>
    obtain ⟨⟨callback, os⟩, es, rfl, rfl, hrest⟩ := List.map_eq_cons_iff.mp hes
    have hm := hgreeting message List.mem_cons_self
    have hu := untouched_chatter os w hm
    have hrunning : (w.messageReceived os message).isFinished = false := by
      by_contra hf
      have hs := isFinished_congr (chatter_isFinished os w hm (by simpa using hf))
      rw [hs, h.running] at hf
      exact hf rfl
    obtain ⟨hsession, hrest⟩ := ih (h.messageReceived hrunning)
      (fun other hother => hgreeting other (List.mem_cons_of_mem _ hother)) hrest
    exact ⟨hsession, hu.trans hrest⟩

omit [MuscleText] in
theorem uint32_ofNat_pos (n : Nat) : 0 < UInt32.ofNat n ↔ n % 2 ^ 32 ≠ 0 := by
  rw [UInt32.lt_iff_toNat_lt]
  simp
  omega

theorem connected_inSession (request : DownloadRequest) (os : OperatingSystem) :
    ((request.started os).requestFiles mungeModeXor).InSession ∧
      ((request.started os).requestFiles mungeModeXor).outputFile = none ∧
      ((request.started os).requestFiles mungeModeXor).ledger.reports = [] := by
  have hu := (untouched_started request os).trans (untouched_requestFiles mungeModeXor _)
  have hclosed := hu.sameFiles.outputFile.trans (newDownload_isFresh request).outputFile
  have hbooked := (started_booked request os).handle ⟨.sessionConnected, os⟩
  refine ⟨⟨hbooked, pending_of_closed hclosed, ?_⟩, hclosed, by rw [hu.ledger]; rfl⟩
  rw [requestFiles_toFileDownload]
  rfl

/-- How the hang-up behind the last sending is taken. -/
theorem Receiving.disconnected {w : DownloadWorld} (h : w.Receiving front last last.body 0)
    (os : OperatingSystem) :
    ((w.sessionDisconnected os).state = .finished ↔
      last.settles = true ∧ (front ++ [last]).length % 2 ^ 32 ≠ 0) ∧
    (last.settles = true → (w.sessionDisconnected os).AllReported (front ++ [last])) := by
  have hreports := sessionDisconnected_reports os w
  rcases h.progress with ⟨ho, -, hd, hr⟩ | ⟨path, ho, hd, hr⟩
  · have hsettles : last.settles = true := by
      simpa [Sending.settles] using hd
    have hcount : w.completedFileCount = UInt32.ofNat (front ++ [last]).length := by
      rw [h.session.booked.completed, hr.length_eq]
    refine ⟨?_, fun _ => (allReported_congr hreports).mpr hr⟩
    rw [(sessionDisconnected_closed os h.session.running ho).2, hcount, hsettles]
    simp only [true_and, ← uint32_ofNat_pos]
    split <;> simp_all
  · have hsettles : last.settles = false := by
      have hpending := h.session.pending (by simp [ho.outputFile])
      have hsize := ho.size
      have hdone := ho.done
      have hzero : last.size = 0 := by omega
      simp [Sending.settles, hzero, hd hzero]
    rw [sessionDisconnected_open os h.session.running ho.outputFile,
      abort_toFileDownload os _ h.session.running, hsettles]
    simp

omit [MuscleText] in
theorem delivery_split {es : List DownloadEvent}
    (h : es.map DownloadEvent.callback = deliveryCallbacks greeting sendings) :
    ∃ os chatter files os', es = ⟨.sessionConnected, os⟩ ::
        (chatter ++ files ++ [⟨.sessionDisconnected, os'⟩]) ∧
      chatter.map DownloadEvent.callback = greeting.map .messageReceived ∧
      files.map DownloadEvent.callback =
        (sendings.flatMap Sending.messages).map .messageReceived := by
  rw [deliveryCallbacks, List.cons_append] at h
  obtain ⟨⟨_, os⟩, rest, rfl, rfl, hrest⟩ := List.map_eq_cons_iff.mp h
  obtain ⟨messages, final, rfl, hmessages, hfinal⟩ := List.map_eq_append_iff.mp hrest
  obtain ⟨⟨_, os'⟩, nothing, rfl, rfl, hnothing⟩ := List.map_eq_cons_iff.mp hfinal
  obtain rfl := List.map_eq_nil_iff.mp hnothing
  rw [List.map_append] at hmessages
  obtain ⟨chatter, files, rfl, hchatter, hfiles⟩ := List.map_eq_append_iff.mp hmessages
  exact ⟨os, chatter, files, os', rfl, hchatter, hfiles⟩

theorem delivery_outcome {es : List DownloadEvent} (request : DownloadRequest)
    (os : OperatingSystem) (hne : request.requestedFiles ≠ [])
    (hgreeting : ∀ message ∈ greeting, IsChatter message)
    (hs : List.Forall₂ Sends request.requestedFiles sendings)
    (hes : es.map DownloadEvent.callback = deliveryCallbacks greeting sendings)
    (htakes : machine.EveryStep DiskTakes (request.started os) es) :
    ∃ front last, sendings = front ++ [last] ∧
      ((machine.run (request.started os) es).state = .finished ↔
        last.settles = true ∧ sendings.length % 2 ^ 32 ≠ 0) ∧
      (last.settles = true → (machine.run (request.started os) es).AllReported sendings) := by
  obtain ⟨os₁, chatter, files, os₂, rfl, hchatter, hfiles⟩ := delivery_split hes
  obtain ⟨-, htakes⟩ := htakes
  obtain ⟨htakes, -⟩ := (EventMachine.everyStep_append ..).mp htakes
  obtain ⟨-, htakes⟩ := (EventMachine.everyStep_append ..).mp htakes
  obtain ⟨hconnected, hclosed, hnone⟩ := connected_inSession request os
  obtain ⟨hsession, hu⟩ := hconnected.greeted hgreeting hchatter
  rw [EventMachine.run_cons, EventMachine.run_append, EventMachine.run_append]
  have hready (message : TransferMessage) (os' : OperatingSystem) :
      (((machine.run ((request.started os).requestFiles mungeModeXor) chatter).note
        (.received message)).finishCurrentFile os').AllReported [] := by
    rw [finishCurrentFile_of_closed (w := note _ _) os' (hu.sameFiles.outputFile.trans hclosed)]
    apply AllReported.received
    rw [AllReported, hu.ledger, hnone]
    exact .nil
  generalize request.requestedFiles = requested at hs hne
  cases hs with
  | nil => exact (hne rfl).elim
  | cons hfirst hmore =>
    obtain ⟨front, last, hsplit, hlast⟩ :=
      hsession.sendings hready (.cons hfirst hmore) hfiles htakes
    rw [List.nil_append] at hsplit
    obtain ⟨hstate, hreports⟩ := hlast.disconnected os₂
    rw [hsplit]
    exact ⟨front, last, rfl, hstate, hreports⟩

theorem AllReported.receivedWhole {w : DownloadWorld} (hb : w.Booked)
    (hs : List.Forall₂ Sends requested sendings) (h : w.AllReported sendings) :
    List.Forall₂ w.ReceivedWhole requested w.ledger.reports := by
  have hintact := hb.intact
  rw [AllReported] at h
  generalize w.ledger.reports = reports at h hintact
  induction h generalizing requested with
  | nil =>
    cases hs
    exact .nil
  | cons hreport _ ih =>
    cases hs with
    | cons hsend hs =>
      obtain ⟨file, hfile, hheader, hlength⟩ := hreport
      obtain ⟨file', hfile', hdisk⟩ := hintact _ _ List.mem_cons_self
      obtain rfl : file = file' := Option.some.inj (hfile.symm.trans hfile')
      have hname := Option.some.inj (hheader.symm.trans hsend.announces)
      exact .cons ⟨file, hfile, hdisk, by rw [hname], hlength⟩
        (ih hs fun _ _ hm => hintact _ _ (List.mem_cons_of_mem _ hm))

/-- A peer sends everything that was asked for and hangs up: nothing is lost exactly if the disk
took it all, the last file was not left without a message behind its empty self, and the count of
completed files has not wrapped around to zero. -/
theorem delivered_sessions (request : DownloadRequest) (os : OperatingSystem)
    (greeting : List TransferMessage) (sendings : List Sending) (es : List DownloadEvent)
    (hne : request.requestedFiles ≠ [])
    (hgreeting : ∀ message ∈ greeting, IsChatter message)
    (hs : List.Forall₂ Sends request.requestedFiles sendings)
    (hes : es.map DownloadEvent.callback = deliveryCallbacks greeting sendings) :
    NothingLost request.requestedFiles (machine.run (request.started os) es) ↔
      machine.EveryStep DiskTakes (request.started os) es ∧
      (∀ last ∈ sendings.getLast?, last.settles = true) ∧ sendings.length % 2 ^ 32 ≠ 0 := by
  have hbooked := run_booked request os es
  constructor
  · rintro ⟨hfinished, hwhole⟩
    have htakes : machine.EveryStep DiskTakes (request.started os) es := by
      by_contra hrefused
      have hlt := (credit_run (started_booked request os) es).2 hrefused
      have hstart : (request.started os).credit = 0 := by
        have hu := untouched_started request os
        rw [credit, hu.ledger, hu.sameFiles.outputFile, (newDownload_isFresh request).outputFile]
        rfl
      rw [hstart, countP_deliveryCallbacks hgreeting hs hes, credit, ← hwhole.length_eq,
        hs.length_eq] at hlt
      omega
    obtain ⟨front, last, rfl, hstate, -⟩ := delivery_outcome request os hne hgreeting hs hes htakes
    obtain ⟨hsettles, hwrap⟩ := hstate.mp hfinished
    exact ⟨htakes, by simpa using hsettles, hwrap⟩
  · rintro ⟨htakes, hsettles, hwrap⟩
    obtain ⟨front, last, rfl, hstate, hreports⟩ :=
      delivery_outcome request os hne hgreeting hs hes htakes
    have hlast : last.settles = true := hsettles last (by simp)
    exact ⟨hstate.mpr ⟨hlast, hwrap⟩, (hreports hlast).receivedWhole hbooked hs⟩

end

/-- A request for two files, of which the one in front is empty. -/
def emptyThenNotes : DownloadRequest :=
  { notesRequest with requestedFiles := [⟨"empty.txt", "", 0⟩, ⟨"notes.txt", "", 4⟩] }

def emptyThenNotesSent : List Sending :=
  [⟨0, headerFor "empty.txt" 0, []⟩, ⟨4, headerFor "notes.txt" 4, [dataFor [1, 2, 3, 4]]⟩]

theorem delivered_sessions_notes :
    letI := asciiText
    let es := [⟨.sessionConnected, {}⟩, ⟨.messageReceived (headerFor "empty.txt" 0), {}⟩,
      ⟨.messageReceived (headerFor "notes.txt" 4), {}⟩,
      ⟨.messageReceived (dataFor [1, 2, 3, 4]), {}⟩, ⟨.sessionDisconnected, {}⟩]
    (NothingLost emptyThenNotes.requestedFiles (machine.run (emptyThenNotes.started {}) es) ↔
      machine.EveryStep DiskTakes (emptyThenNotes.started {}) es ∧
      (∀ last ∈ emptyThenNotesSent.getLast?, last.settles = true) ∧ 2 % 2 ^ 32 ≠ 0) ∧
    NothingLost emptyThenNotes.requestedFiles (machine.run (emptyThenNotes.started {}) es) := by
  let _ := asciiText
  intro es
  have hchunk : IsChunk (dataFor [1, 2, 3, 4]) [1, 2, 3, 4] :=
    ⟨rfl, [1, 2, 3, 4], by decide, by decide, by decide⟩
  have hsends : List.Forall₂ Sends emptyThenNotes.requestedFiles emptyThenNotesSent :=
    .cons ⟨rfl, by decide, rfl⟩
      (.cons ⟨rfl, by decide, .inr (.inl ⟨_, hchunk, by decide, rfl⟩)⟩ .nil)
  have hiff := delivered_sessions emptyThenNotes {} [] emptyThenNotesSent es (by decide) (by simp)
    hsends rfl
  refine ⟨hiff, hiff.mpr ⟨⟨trivial, ?_, ?_, ⟨fun h => (by cases h), fun _ bytes _ => rfl⟩, trivial,
    trivial⟩, by decide, by decide⟩⟩
  · refine ⟨fun _ header hh => ?_, fun _ bytes hc => by cases hc.1⟩
    obtain rfl : ⟨"empty.txt", 0⟩ = header := Option.some.inj ((by decide :
      readFileHeader (headerFor "empty.txt" 0) = some ⟨"empty.txt", 0⟩).symm.trans hh)
    decide +kernel
  · refine ⟨fun _ header hh => ?_, fun _ bytes hc => by cases hc.1⟩
    obtain rfl : ⟨"notes.txt", 4⟩ = header := Option.some.inj ((by decide :
      readFileHeader (headerFor "notes.txt" 4) = some ⟨"notes.txt", 4⟩).symm.trans hh)
    decide +kernel

/-- A request for one file that is empty. -/
def emptyRequest : DownloadRequest :=
  { notesRequest with requestedFiles := [⟨"empty.txt", "", 0⟩] }

/-- An empty file at the end of a delivery is thrown away and the download fails, even though
the disk would take everything. -/
theorem empty_last_file_is_lost :
    ¬ ∀ [MuscleText] (request : DownloadRequest) (os : OperatingSystem)
      (greeting : List TransferMessage) (sendings : List Sending) (es : List DownloadEvent),
      request.requestedFiles ≠ [] → (∀ message ∈ greeting, IsChatter message) →
      List.Forall₂ Sends request.requestedFiles sendings →
      es.map DownloadEvent.callback = deliveryCallbacks greeting sendings →
      machine.EveryStep DiskTakes (request.started os) es →
      NothingLost request.requestedFiles (machine.run (request.started os) es) := by
  intro h
  let _ := asciiText
  have hsends : Sends ⟨"empty.txt", "", 0⟩ ⟨0, headerFor "empty.txt" 0, []⟩ :=
    ⟨rfl, by decide, rfl⟩
  have htakes : machine.EveryStep DiskTakes (emptyRequest.started {})
      [⟨.sessionConnected, {}⟩, ⟨.messageReceived (headerFor "empty.txt" 0), {}⟩,
        ⟨.sessionDisconnected, {}⟩] := by
    refine ⟨trivial, ⟨fun _ header hh => ?_, fun _ bytes hc => nomatch hc.1⟩, trivial, trivial⟩
    obtain rfl : ⟨"empty.txt", 0⟩ = header := Option.some.inj ((by decide :
      readFileHeader (headerFor "empty.txt" 0) = some ⟨"empty.txt", 0⟩).symm.trans hh)
    decide +kernel
  have hlost := h emptyRequest {} [] [⟨0, headerFor "empty.txt" 0, []⟩] _ (by decide) (by simp)
    (.cons hsends .nil) rfl htakes
  exact absurd hlost.1 (by decide +kernel)

end DownloadWorld

end HiTuxShare
