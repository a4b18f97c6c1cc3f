import HiTuxShare.ChatCommandParser

namespace HiTuxShare
set_option autoImplicit true

/-- A line for the chat log. -/
structure ChatMessage extends ChatDetails where
  type : LogMessageType := .informationMessage
  text : String := ""
  isFromLocalUser : Bool := false
  isHighlighted : Bool := false
  deriving DecidableEq

/-- A pattern that matches the same names in any letter case. -/
class CaseInsensitivePatterns where
  toCaseInsensitive : String → String

/-- Enough for patterns without a letter. -/
abbrev plainPatterns : CaseInsensitivePatterns := ⟨fun pattern => pattern⟩

/-- Which users a list separated by commas is about. -/
structure UserFilterSet where
  pattern : String := ""
  deriving DecidableEq

namespace UserFilterSet
variable [MuscleText]

def splitEntries (pattern : String) : List String :=
  ((pattern.toList.splitOn ',').map fun token => String.ofList (trimmed token)).filter (· ≠ "")

def setPattern (pattern : String) : UserFilterSet := ⟨trimmedText pattern⟩

/-- An entry is a session ID or a pattern for names. -/
def matchesUser [MuscleLibrary] [CaseInsensitivePatterns] (filter : UserFilterSet)
    (userName sessionId : String) : Bool :=
  (splitEntries filter.pattern).any fun entry =>
    entry = sessionId || (userName ≠ "" && MuscleLibrary.matchesPattern
      (CaseInsensitivePatterns.toCaseInsensitive entry) userName)

end UserFilterSet

structure CalendarDate where
  year : Nat
  month : Nat
  day : Nat
  deriving DecidableEq

def twoDigits (n : Nat) : String := if n < 10 then "0" ++ toString n else toString n

def CalendarDate.text (date : CalendarDate) : String :=
  toString date.year ++ "-" ++ twoDigits date.month ++ "-" ++ twoDigits date.day

/-- What the system answers while one line is logged; there may be no local time. -/
structure LogAnswer where
  today : Option CalendarDate := none
  timeOfDay : String := "??:??:??"
  mkdirFails : String → Bool := fun _ => false
  fopenFails : Bool := false

def LogAnswer.todaysDate (answer : LogAnswer) : String :=
  (answer.today.map CalendarDate.text).getD "unknown"

structure OpenLogFile where
  path : String
  date : String
  deriving DecidableEq

/-- A line, as it is appended to a file. -/
structure LogEntry where
  path : String
  line : String
  deriving DecidableEq

structure ChatLogger where
  isEnabled : Bool := false
  directory : String := ""
  serverName : String := ""
  file : Option OpenLogFile := none
  deriving DecidableEq

def isSafeInFileName (character : Char) : Bool :=
  character.isAlphanum || character = '.' || character = '-' || character = '_'

/-- Nothing in it can lead to another directory. -/
def sanitizeForFileName (text : String) : String :=
  let safe := (text.toList.map fun character =>
    if isSafeInFileName character then character else '_').dropWhile (· = '.')
  if safe ≠ [] then .ofList safe else "chat"

/-- What the files of a server are called. -/
def logName (serverName : String) : String :=
  if serverName ≠ "" then sanitizeForFileName serverName else "chat"

def logPath (directory serverName date : String) : String :=
  directory ++ "/" ++ logName serverName ++ "-" ++ date ++ ".log"

def logLine (timestamp : String) (message : ChatMessage) : String :=
  let privateMarker := if message.isPrivate then "[private] " else ""
  if message.isAction then
    "[" ++ timestamp ++ "] " ++ privateMarker ++ "* " ++ message.senderName ++ " " ++
      message.text ++ "\n"
  else if message.senderName ≠ "" then
    "[" ++ timestamp ++ "] " ++ privateMarker ++ "<" ++ message.senderName ++ "> " ++
      message.text ++ "\n"
  else "[" ++ timestamp ++ "] *** " ++ message.text ++ "\n"

namespace ChatLogger

def closeFile (logger : ChatLogger) : ChatLogger := { logger with file := none }

def setEnabled (logger : ChatLogger) (enabled : Bool) : ChatLogger :=
  if enabled = logger.isEnabled then logger
  else
    let logger := { logger with isEnabled := enabled }
    if enabled then logger else logger.closeFile

def setLogDirectory (logger : ChatLogger) (directory : String) : ChatLogger :=
  if directory = logger.directory then logger else { logger with directory }.closeFile

def setServerName (logger : ChatLogger) (serverName : String) : ChatLogger :=
  if serverName = logger.serverName then logger else { logger with serverName }.closeFile

/-- There is an open file afterwards unless something fails. -/
def ensureFileOpen [MuscleText] (logger : ChatLogger) (answer : LogAnswer) : ChatLogger :=
  if logger.file.any fun file => answer.todaysDate = file.date then logger
  else
    let logger := logger.closeFile
    if logger.directory = "" ∨ createDirectoryTree answer.mkdirFails logger.directory = false then
      logger
    else if answer.fopenFails then logger
    else
      { logger with
        file := some {
          path := logPath logger.directory logger.serverName answer.todaysDate
          date := answer.todaysDate } }

/-- With the logger comes what it has written. -/
def log [MuscleText] (logger : ChatLogger) (answer : LogAnswer) (message : ChatMessage) :
    ChatLogger × Option LogEntry :=
  if logger.isEnabled = false then (logger, none)
  else
    let logger := logger.ensureFileOpen answer
    (logger, logger.file.map fun file => ⟨file.path, logLine answer.timeOfDay message⟩)

/-- The file that is open is the one that the directory and the server name stand for. -/
def WellNamed (logger : ChatLogger) : Prop :=
  ∀ file ∈ logger.file, file.path = logPath logger.directory logger.serverName file.date

theorem WellNamed.setEnabled {logger : ChatLogger} (h : logger.WellNamed) (enabled : Bool) :
    (logger.setEnabled enabled).WellNamed := by
  simp only [ChatLogger.setEnabled]
  split
  · exact h
  · split
    · exact h
    · intro file hfile
      cases hfile

theorem WellNamed.setLogDirectory {logger : ChatLogger} (h : logger.WellNamed)
    (directory : String) : (logger.setLogDirectory directory).WellNamed := by
  rw [ChatLogger.setLogDirectory]
  split
  · exact h
  · intro file hfile
    cases hfile

theorem WellNamed.setServerName {logger : ChatLogger} (h : logger.WellNamed)
    (serverName : String) : (logger.setServerName serverName).WellNamed := by
  rw [ChatLogger.setServerName]
  split
  · exact h
  · intro file hfile
    cases hfile

section
variable [MuscleText]

theorem ensureFileOpen_names (logger : ChatLogger) (answer : LogAnswer) :
    (logger.ensureFileOpen answer).directory = logger.directory ∧
      (logger.ensureFileOpen answer).serverName = logger.serverName := by
  simp only [ensureFileOpen]
  split
  · exact ⟨rfl, rfl⟩
  · split
    · exact ⟨rfl, rfl⟩
    · split <;> exact ⟨rfl, rfl⟩

theorem WellNamed.ensureFileOpen {logger : ChatLogger} (h : logger.WellNamed)
    (answer : LogAnswer) : (logger.ensureFileOpen answer).WellNamed := by
  have hclosed : logger.closeFile.WellNamed := by
    intro file hfile
    cases hfile
  simp only [ChatLogger.ensureFileOpen]
  split
  · exact h
  · split
    · exact hclosed
    · split
      · exact hclosed
      · intro file hfile
        cases hfile
        rfl

theorem log_names (logger : ChatLogger) (answer : LogAnswer) (message : ChatMessage) :
    (logger.log answer message).1.directory = logger.directory ∧
      (logger.log answer message).1.serverName = logger.serverName := by
  rw [log]
  split
  · exact ⟨rfl, rfl⟩
  · exact logger.ensureFileOpen_names answer

theorem WellNamed.log {logger : ChatLogger} (h : logger.WellNamed) (answer : LogAnswer)
    (message : ChatMessage) : (logger.log answer message).1.WellNamed := by
  rw [ChatLogger.log]
  split
  · exact h
  · exact h.ensureFileOpen answer

theorem ensureFileOpen_date {logger : ChatLogger} {answer : LogAnswer} {file : OpenLogFile}
    (h : (logger.ensureFileOpen answer).file = some file) : file.date = answer.todaysDate := by
  simp only [ensureFileOpen] at h
  split at h
  · next hdate =>
    rw [h] at hdate
    exact (of_decide_eq_true hdate).symm
  · split at h
    · cases h
    · split at h <;> cases h
      rfl

/-- A line goes to today's file of the server whose name the logger was given. -/
theorem log_path {logger : ChatLogger} (h : logger.WellNamed)
    (hlog : (logger.log answer message).2 = some entry) :
    entry.path = logPath logger.directory logger.serverName answer.todaysDate := by
  rw [log] at hlog
  split at hlog
  · cases hlog
  · obtain ⟨file, hfile, rfl⟩ := Option.map_eq_some_iff.mp hlog
    obtain ⟨hdirectory, hserver⟩ := logger.ensureFileOpen_names answer
    rw [← hdirectory, ← hserver, ← ensureFileOpen_date hfile]
    exact h.ensureFileOpen answer file hfile

end

end ChatLogger

end HiTuxShare
