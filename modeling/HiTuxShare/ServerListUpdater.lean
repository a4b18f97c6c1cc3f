import HiTuxShare.ChatWindow
import HiTuxShare.Trimming

namespace HiTuxShare
set_option autoImplicit true

/-- How Qt brings a text into one letter case. -/
class QtCase where
  toLower : String → String
  toLower_empty : toLower "" = ""

/-- The letter case of plain letters. -/
abbrev plainCase : QtCase where
  toLower := toLowerCase
  toLower_empty := rfl

def serverListUrls : List String := [
  "https://beshare.tycomsystems.com/servers.txt",
  "http://beshare.tycomsystems.com/servers.txt"]

def maximumBodySize : Nat := 256 * 1024

/-- What is left of the first such character, and what is right of it. -/
def leftOf (character : Char) (text : String) : String :=
  .ofList (text.toList.takeWhile (· ≠ character))

def rightOf (character : Char) (text : String) : String :=
  .ofList (text.toList.dropWhile (· ≠ character)).tail

def containsChar (text : String) (character : Char) : Bool := character ∈ text.toList

def linesOf (text : String) : List String := (text.toList.splitOn '\n').map String.ofList

section
variable [QtWidgets] [QtCase]

/-- A line up to its comment. -/
def withoutComment (rawLine : String) : String :=
  let line := trimmedQString rawLine
  if containsChar line '#' then trimmedQString (leftOf '#' line) else line

/-- What a line of the list comes down to, if it is not skipped: a key in small letters and without
its prefix, and a host. -/
def parseLine (rawLine : String) : Option (String × String) :=
  let line := withoutComment rawLine
  if line = "" then none
  else if containsChar line '=' = false ∨ leftOf '=' line = "" then none
  else
    let key := QtCase.toLower (trimmedQString (leftOf '=' line))
    let value := trimmedQString (rightOf '=' line)
    if value = "" then none
    else
      let key := if startsWith key "beshare_" then substring key 8 else key
      if containsChar value '/' ∨ containsChar value ' ' ∨ containsChar value ':' then none
      else some (key, value)

/-- One round of the loop of `_ParseBody`: the hosts to add, and those to remove. -/
def addLine (servers : List String × List String) (rawLine : String) :
    List String × List String :=
  match parseLine rawLine with
  | none => servers
  | some (key, value) =>
    if key = "addserver" then (servers.1 ++ [value], servers.2)
    else if key = "removeserver" then (servers.1, servers.2 ++ [value])
    else servers

variable [QtLibrary]

def parseBody (body : String) : List String × List String :=
  (linesOf (toQString body)).foldl addLine ([], [])

end

inductive UpdaterSignal where
  | serverListReceived (serversToAdd serversToRemove : List String)
  | updateFailed (reason : String)
  deriving DecidableEq

/-- A fetch that is under way has a URL. -/
structure ServerListUpdater where
  reply : Option String := none
  attemptIndex : Nat := 0
  deriving DecidableEq

namespace ServerListUpdater

def isRunning (updater : ServerListUpdater) : Bool := updater.reply.isSome

def start (updater : ServerListUpdater) : ServerListUpdater :=
  if updater.isRunning then updater else { reply := serverListUrls.head?, attemptIndex := 0 }

variable [QtWidgets] [QtCase] [QtLibrary]

/-- The network answers with an error or with the bytes of a body, of which no more than the maximum
is read. -/
def onReplyFinished (updater : ServerListUpdater) (answer : Except String String) :
    ServerListUpdater × Option UpdaterSignal :=
  if updater.reply.isNone then (updater, none)
  else
    match answer with
    | .error errorString =>
      let attemptIndex := updater.attemptIndex + 1
      match serverListUrls[attemptIndex]? with
      | some url => ({ reply := some url, attemptIndex }, none)
      | none => ({ reply := none, attemptIndex }, some (.updateFailed errorString))
    | .ok body =>
      let servers := parseBody (.ofList (body.toList.take maximumBodySize))
      ({ updater with reply := none }, some (.serverListReceived servers.1 servers.2))

end ServerListUpdater

end HiTuxShare
