import HiTuxShare.DownloadContainment

namespace HiTuxShare
set_option autoImplicit true

open DownloadWorld

def headerFor (fileName : String) (fileSize : Int) : TransferMessage :=
  (Message.ofWhat TransferCommand.fileHeader)
    |>.addString fieldFileName fileName
    |>.addInt64 fieldFileSize fileSize

def DownloadWorld.CompletesNoMore (w : DownloadWorld) : Prop :=
  w.ledger.reports.length ≤ w.requestedFiles.length

/-- Only what the request names is created, and not more of it than was asked for. -/
def OnlyRequested [MuscleText] (w : DownloadWorld) : Prop :=
  (∀ path header, (path, header) ∈ w.ledger.created →
    ∃ requested ∈ w.requestedFiles, CarriesName path requested.fileName) ∧
  w.CompletesNoMore

/-- A peer asked for one file announces another one. -/
def unrequestedRun : List DownloadEvent :=
  [⟨.sessionConnected, {}⟩, ⟨.messageReceived (headerFor "virus.exe" 0), {}⟩]

/-- The same peer goes on with more files than it was asked for, whatever their names. -/
def longRun : List DownloadEvent :=
  [⟨.sessionConnected, {}⟩, ⟨.messageReceived (headerFor "notes.txt" 0), {}⟩,
    ⟨.messageReceived (headerFor "notes.txt" 0), {}⟩,
    ⟨.messageReceived (headerFor "notes.txt" 0), {}⟩]

theorem toList_suffix_append (text ending : String) :
    ending.toList <:+ (text ++ ending).toList := by
  rw [String.toList_append]
  exact List.suffix_append ..

theorem not_carriesName_of_suffix [MuscleText] {path fileName : String}
    (hplain : ¬(sanitizePathComponent fileName).toList <:+ path.toList)
    (hrenamed : ¬(")" ++ (stemAndExtension (sanitizePathComponent fileName)).2).toList <:+
      path.toList) : ¬CarriesName path fileName := by
  rintro ⟨directory, rfl | ⟨attempt, rfl⟩⟩
  · exact hplain (toList_suffix_append ..)
  · apply hrenamed
    have hsplit : directory ++ "/" ++ renamed (sanitizePathComponent fileName) attempt =
        directory ++ "/" ++ ((stemAndExtension (sanitizePathComponent fileName)).1 ++ " (" ++
          toString attempt) ++ (")" ++ (stemAndExtension (sanitizePathComponent fileName)).2) := by
      simp only [renamed, String.append_assoc]
    rw [hsplit]
    exact toList_suffix_append ..

/-- Nothing compares an announced name with the request, or counts the files against it. -/
theorem unrequested_file_is_created :
    (¬ ∀ [MuscleText] (request : DownloadRequest) (os : OperatingSystem) (es : List DownloadEvent),
      machine.EveryState OnlyRequested (request.started os) es) ∧
    ¬ ∀ [MuscleText] (request : DownloadRequest) (os : OperatingSystem) (es : List DownloadEvent),
      machine.EveryState CompletesNoMore (request.started os) es := by
  constructor
  · intro h
    have hlast := (@h asciiText notesRequest {} unrequestedRun).last.1 "/downloads/virus.exe"
      ⟨"virus.exe", 0⟩ (by decide +kernel)
    obtain ⟨requested, hm, hname⟩ := hlast
    obtain rfl : requested = ⟨"notes.txt", "", 4⟩ := by
      have hrequested : ((@machine asciiText).run (notesRequest.started {})
          unrequestedRun).requestedFiles = [⟨"notes.txt", "", 4⟩] := by decide +kernel
      rw [hrequested] at hm
      exact List.mem_singleton.mp hm
    let _ := asciiText
    exact not_carriesName_of_suffix (by decide +kernel) (by decide +kernel) hname
  · intro h
    have hcount := (@h asciiText notesRequest {} longRun).last
    have hmore : ¬((@machine asciiText).run (notesRequest.started {}) longRun).CompletesNoMore := by
      rw [CompletesNoMore]
      decide +kernel
    exact hmore hcount

/-- What a session does promise: every file it creates goes back to a header received in it,
whose name it carries, and there are no more completed files than headers. -/
theorem created_files_are_announced [MuscleText] (request : DownloadRequest)
    (os : OperatingSystem) (es : List DownloadEvent) :
    (∀ path header, (path, header) ∈ (machine.run (request.started os) es).ledger.created →
      header ∈ (machine.run (request.started os) es).ledger.headers ∧
        CarriesName path header.fileName) ∧
    (machine.run (request.started os) es).ledger.reports.length ≤
      (machine.run (request.started os) es).ledger.headers.length := by
  have hbooked := run_booked request os es
  refine ⟨hbooked.named, ?_⟩
  exact ((Nat.le_add_right ..).trans hbooked.reportsCreated).trans hbooked.createdAnnounced

end HiTuxShare
