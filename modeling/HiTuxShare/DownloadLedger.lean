import HiTuxShare.Hashtable
import HiTuxShare.TransferProtocol

namespace HiTuxShare
set_option autoImplicit true

inductive DownloadState where
  | idle
  | connecting
  | requesting
  | queuedRemotely
  | transferring
  | finished
  | failed
  deriving DecidableEq

/-- One thing that happened to a download, or that it did. -/
inductive Occurrence where
  | inputPolicySet (rateLimit : Nat)
  | connectSessionAdded (hostName : String) (port : Nat)
  | threadStarted
  | threadShutDown
  | received (message : TransferMessage)
  | sent (message : TransferMessage)
  | opened (path : String)
  | wrote (path : String) (bytes : List UInt8)
  | removed (path : String)
  | downloadStateChanged (state : DownloadState)
  | downloadProgress
  | downloadFileCompleted (path : String)
  deriving DecidableEq

/-- What a `FILE_HEADER` announces. -/
structure FileHeader where
  fileName : String
  fileSize : Int
  deriving DecidableEq

def readFileHeader (message : TransferMessage) : Option FileHeader :=
  match message.findString fieldFileName, message.findInt64 fieldFileSize with
  | some fileName, some fileSize => some ⟨fileName, fileSize⟩
  | _, _ => none

/-- A file the download has put on the disk, with the header that opened it. -/
structure OutputFile where
  header : FileHeader
  bytes : List UInt8
  deriving DecidableEq

/-- What a history adds up to. A report keeps the file as it stood on the disk at that moment. -/
structure Ledger where
  lastHeader : FileHeader
  headers : List FileHeader
  disk : Hashtable String OutputFile
  created : List (String × FileHeader)
  reports : List (String × Option OutputFile)

namespace Ledger

def empty : Ledger := ⟨⟨"", 0⟩, [], .empty, [], []⟩

def receive (l : Ledger) (message : TransferMessage) : Ledger :=
  match readFileHeader message with
  | none => l
  | some header =>
    if message.what = .fileHeader then
      { l with lastHeader := header, headers := l.headers ++ [header] }
    else l

def append (l : Ledger) (path : String) (bytes : List UInt8) : Ledger :=
  match l.disk.get? path with
  | some file => { l with disk := l.disk.put path { file with bytes := file.bytes ++ bytes } }
  | none => l

def discard (l : Ledger) (path : String) : Ledger := { l with disk := l.disk.remove path }

def step (l : Ledger) : Occurrence → Ledger
  | .received message => l.receive message
  | .opened path =>
    { l with disk := l.disk.put path ⟨l.lastHeader, []⟩
             created := l.created ++ [(path, l.lastHeader)] }
  | .wrote path bytes => l.append path bytes
  | .removed path => l.discard path
  | .downloadFileCompleted path => { l with reports := l.reports ++ [(path, l.disk.get? path)] }
  | _ => l

def replay (history : List Occurrence) : Ledger := history.foldl step empty

@[simp] theorem replay_append (history : List Occurrence) (occurrence : Occurrence) :
    replay (history ++ [occurrence]) = (replay history).step occurrence := by
  simp only [replay, List.foldl_append, List.foldl_cons, List.foldl_nil]

@[simp] theorem receive_frame (l : Ledger) (message : TransferMessage) :
    (l.receive message).disk = l.disk ∧ (l.receive message).created = l.created ∧
      (l.receive message).reports = l.reports := by
  rw [receive]
  split
  · exact ⟨rfl, rfl, rfl⟩
  · split <;> exact ⟨rfl, rfl, rfl⟩

theorem receive_of_header {message : TransferMessage} (l : Ledger)
    (hw : message.what = .fileHeader) (hh : readFileHeader message = some header) :
    l.receive message = { l with lastHeader := header, headers := l.headers ++ [header] } := by
  simp only [receive, hw, hh, ↓reduceIte]

theorem receive_of_what_ne {message : TransferMessage} (l : Ledger)
    (hw : message.what ≠ .fileHeader) : l.receive message = l := by
  rw [receive]
  split
  · rfl
  · exact if_neg hw

end Ledger

end HiTuxShare
