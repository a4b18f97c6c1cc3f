import HiTuxShare.UploadServer

namespace HiTuxShare
set_option autoImplicit true

/-- A link that loops has to come to an end. -/
def maximumScanDepth : Nat := 32

inductive FileKind where
  | directory
  | regular
  | other
  deriving DecidableEq

/-- What `stat` says about a path, symbolic links followed. -/
structure FileStatus where
  kind : FileKind
  size : Int := 0
  modificationTime : Int32 := 0

/-- The file system at one moment: the names `readdir` is going to return for a directory that is
opened now, and the state of every path. `typesByExtension` is the table of MIME types. -/
structure FileSystem where
  opendir : String → Option (List String)
  stat : String → Option FileStatus
  typesByExtension : String → Option String := fun _ => none

/-- The extension is what comes behind the last dot, if anything does. -/
def guessMimeType (typesByExtension : String → Option String) (fileName : String) : String :=
  let extension := (fileName.toList.reverse.takeWhile (· ≠ '.')).reverse
  if '.' ∉ fileName.toList ∨ extension = [] then ""
  else (typesByExtension (.ofList (extension.map Char.toLower))).getD ""

/-- One `_ScanDirectory` that has not returned, with the entries it has still to read. -/
structure OpenDirectory where
  directoryPath : String
  relativePath : String
  unread : List String
  deriving DecidableEq

/-- Where the scanning thread stands between two of its locked sections, the innermost directory
first. -/
inductive ThreadPosition where
  | starting
  | scanning (opened : List OpenDirectory)
  | claiming (file : SharedFile) (opened : List OpenDirectory)
  | adding (file : SharedFile) (opened : List OpenDirectory)
  | ended
  deriving DecidableEq

/-- Walks the share folder on a thread of its own. -/
structure ShareScanner where
  shareDirectory : String := ""
  pendingFiles : List SharedFile := []
  claimedNames : List String := []
  duplicateNameCount : UInt32 := 0
  threadRunning : Bool := false
  scanFinished : Bool := false
  shouldAbort : Bool := false
  thread : ThreadPosition := .ended

/-- A call of `_ScanDirectory`, up to its loop. -/
def enterDirectory (fs : FileSystem) (directoryPath relativePath : String)
    (opened : List OpenDirectory) : List OpenDirectory :=
  if maximumScanDepth < opened.length then opened
  else
    match fs.opendir directoryPath with
    | none => opened
    | some names => ⟨directoryPath, relativePath, names⟩ :: opened

/-- What the loop does with one entry, up to the lock it claims the name under. -/
def visitEntry (fs : FileSystem) (directory : OpenDirectory) (entryName : String)
    (opened : List OpenDirectory) : ThreadPosition :=
  -- A dot-file is nearly always something the user did not mean to publish.
  if entryName.toList.head? = some '.' then .scanning opened
  else
    let fullPath := directory.directoryPath ++ "/" ++ entryName
    match fs.stat fullPath with
    | none => .scanning opened
    | some information =>
      match information.kind with
      | .directory =>
        .scanning (enterDirectory fs fullPath
          (if directory.relativePath = "" then entryName
            else directory.relativePath ++ "/" ++ entryName) opened)
      | .regular =>
        .claiming
          { fileName := entryName
            relativePath := directory.relativePath
            absolutePath := fullPath
            kind := guessMimeType fs.typesByExtension entryName
            fileSize := information.size
            modificationTime := information.modificationTime } opened
      | .other => .scanning opened

namespace ShareScanner

/-- The scanning thread goes on to its next locked section and through it. -/
def threadStep (fs : FileSystem) (s : ShareScanner) : ShareScanner :=
  match s.thread with
  | .starting => { s with thread := .scanning (enterDirectory fs s.shareDirectory "" []) }
  | .scanning [] => { s with scanFinished := true, thread := .ended }
  | .scanning (directory :: outer) =>
    match directory.unread with
    | [] => { s with thread := .scanning outer }
    | entryName :: unread =>
      if s.shouldAbort then { s with thread := .scanning outer }
      else
        { s with thread := visitEntry fs directory entryName ({ directory with unread } :: outer) }
  | .claiming file opened =>
    -- The first file of a name wins, the others are counted.
    if file.fileName ∈ s.claimedNames then
      { s with duplicateNameCount := s.duplicateNameCount + 1, thread := .scanning opened }
    else { s with claimedNames := s.claimedNames ++ [file.fileName], thread := .adding file opened }
  | .adding file opened =>
    { s with pendingFiles := s.pendingFiles ++ [file], thread := .scanning opened }
  | .ended => s

/-- How many steps the thread still makes at most once it has been told to abort. -/
def stepsToEnd : ThreadPosition → Nat
  | .starting => 3
  | .scanning opened => opened.length + 1
  | .claiming _ opened => opened.length + 3
  | .adding _ opened => opened.length + 2
  | .ended => 0

/-- `pthread_join` -/
def join (fs : FileSystem) (s : ShareScanner) : ShareScanner :=
  (threadStep fs)^[stepsToEnd s.thread] s

def stopScan (fs : FileSystem) (s : ShareScanner) : ShareScanner :=
  if s.threadRunning then
    { join fs { s with shouldAbort := true } with threadRunning := false }
  else s

/-- `created` is whether `pthread_create` succeeds. -/
def startScan (fs : FileSystem) (created : Bool) (s : ShareScanner) : ShareScanner :=
  let s := s.stopScan fs
  if s.shareDirectory = "" then s
  else
    let s := { s with
      pendingFiles := []
      claimedNames := []
      duplicateNameCount := 0
      scanFinished := false
      shouldAbort := false }
    if created then { s with threadRunning := true, thread := .starting } else s

def takeDiscoveredFiles (s : ShareScanner) : List SharedFile × ShareScanner :=
  (s.pendingFiles, { s with pendingFiles := [] })

def takeScanFinished (s : ShareScanner) : Bool × ShareScanner :=
  (s.scanFinished, { s with scanFinished := false })

end ShareScanner

end HiTuxShare
