import HiTuxShare.DownloadPaths
import HiTuxShare.ServerMessages

namespace HiTuxShare
set_option autoImplicit true

inductive ChatCommandType where
  | none
  | unknown
  | action
  | nick
  | status
  | away
  | message
  | ping
  | connect
  | disconnect
  | startQuery
  | stopQuery
  | get
  | ignore
  | watch
  | autopriv
  | alias
  | unalias
  | clear
  | help
  | info
  | quit
  deriving DecidableEq

/-- A line of input, taken apart. For chat and actions `argument` is the text to send. -/
structure ChatCommand where
  type : ChatCommandType := .none
  commandName : String := ""
  target : String := ""
  argument : String := ""
  deriving DecidableEq

structure CommandTableEntry where
  name : String
  type : ChatCommandType
  takesTarget : Bool

def commandTable : List CommandTableEntry := [
  ⟨"nick", .nick, false⟩,
  ⟨"status", .status, false⟩,
  ⟨"away", .away, false⟩,
  ⟨"msg", .message, true⟩,
  ⟨"ping", .ping, true⟩,
  ⟨"connect", .connect, false⟩,
  ⟨"start", .startQuery, false⟩,
  ⟨"query", .startQuery, false⟩,
  ⟨"stop", .stopQuery, false⟩,
  ⟨"get", .get, false⟩,
  ⟨"ignore", .ignore, false⟩,
  ⟨"watch", .watch, false⟩,
  ⟨"autopriv", .autopriv, false⟩,
  ⟨"alias", .alias, true⟩,
  ⟨"unalias", .unalias, false⟩,
  ⟨"disconnect", .disconnect, false⟩,
  ⟨"clear", .clear, false⟩,
  ⟨"help", .help, false⟩,
  ⟨"info", .info, false⟩,
  ⟨"quit", .quit, false⟩]

def toLowerCase (text : String) : String := .ofList (text.toList.map Char.toLower)

/-- The text from an index on. -/
def substring (text : String) (beginIndex : Nat) : String := .ofList (text.toList.drop beginIndex)

/-- What stands before the first space, and what stands after it. -/
def splitAtSpace (text : String) : Option (String × String) :=
  match text.toList.dropWhile (· ≠ ' ') with
  | [] => none
  | _ :: rest => some (.ofList (text.toList.takeWhile (· ≠ ' ')), .ofList rest)

section
variable [MuscleText]

def trimmedText (text : String) : String := .ofList (trimmed text.toList)

/-- The word and its remainder; a line without a space has none. -/
def splitWord (text : String) : String × String :=
  match splitAtSpace text with
  | some (word, remainder) => (word, trimmedText remainder)
  | none => (text, "")

/-- The part of `Parse` after a single slash. -/
def parseCommandWord (withoutSlash : String) : ChatCommand :=
  let (commandName, remainder) := splitWord withoutSlash
  match commandTable.find? fun entry => entry.name = toLowerCase commandName with
  | some entry =>
    if entry.takesTarget then
      let (target, argument) := splitWord remainder
      { type := entry.type, commandName, target, argument }
    else { type := entry.type, commandName, argument := remainder }
  | none => { type := .unknown, commandName }

/-- Two slashes stand for one that starts no command. An action keeps its prefix, by which the
other clients know it. -/
def parse (input : String) : ChatCommand :=
  let trimmedInput := trimmedText input
  if trimmedInput = "" then {}
  else if startsWith trimmedInput "/" = false then { argument := trimmedInput }
  else if startsWith trimmedInput "//" then { argument := substring trimmedInput 1 }
  else if trimmedInput = "/me" ∨ startsWith trimmedInput actionPrefix then
    { type := .action, commandName := "me", argument := trimmedInput }
  else parseCommandWord (substring trimmedInput 1)

end

/-- What a line can be expanded to, by the first word of the line. -/
abbrev ChatAliases := Hashtable String String

namespace ChatAliases
variable [MuscleText]

def setAlias (aliases : ChatAliases) (name value : String) : ChatAliases :=
  let cleanName := toLowerCase (trimmedText name)
  if cleanName = "" ∨ trimmedText value = "" then aliases
  else aliases.put cleanName (trimmedText value)

def removeAlias (aliases : ChatAliases) (name : String) : ChatAliases :=
  aliases.remove (toLowerCase (trimmedText name))

/-- What an alias stands for is not expanded again. -/
def expand (aliases : ChatAliases) (input : String) : String :=
  let trimmedInput := trimmedText input
  if startsWith trimmedInput "/" = false ∨ startsWith trimmedInput "//" then input
  else
    let (word, remainder) := splitWord (substring trimmedInput 1)
    match aliases.get? (toLowerCase word) with
    | none => input
    | some value => if remainder ≠ "" then value ++ " " ++ remainder else value

end ChatAliases

theorem startsWith_iff_begins : startsWith text start = true ↔ start.toList <+: text.toList :=
  List.isPrefixOf_iff_prefix

theorem startsWith_of_shorter (h : startsWith text longer = true)
    (hp : start.toList <+: longer.toList) : startsWith text start = true :=
  startsWith_iff_begins.mpr (hp.trans (startsWith_iff_begins.mp h))

/-- A text cannot begin in two ways that are no beginnings of each other. -/
theorem startsWith_false (h : startsWith text start = true) (hp : ¬start.toList <+: other.toList)
    (hp' : ¬other.toList <+: start.toList) : startsWith text other = false := by
  by_contra hnot
  have hother := startsWith_iff_begins.mp (Bool.eq_true_of_not_eq_false hnot)
  exact (List.prefix_or_prefix_of_prefix (startsWith_iff_begins.mp h) hother).elim hp hp'

theorem substring_toList (text : String) (beginIndex : Nat) :
    (substring text beginIndex).toList = text.toList.drop beginIndex := String.toList_ofList

section
variable [MuscleText]

theorem splitWord_fst (text : String) :
    (splitWord text).1.toList = text.toList.takeWhile (· ≠ ' ') := by
  rw [splitWord, splitAtSpace]
  cases h : text.toList.dropWhile (· ≠ ' ') with
  | nil =>
    have hall := List.takeWhile_append_dropWhile (p := (· ≠ ' ')) (l := text.toList)
    rw [h, List.append_nil] at hall
    exact hall.symm
  | cons space rest => exact String.toList_ofList

/-- A command word is unknown, or selects the entry with its name. -/
theorem parseCommandWord_cases (withoutSlash : String) :
    (parseCommandWord withoutSlash).type = .unknown ∨
      ∃ entry ∈ commandTable, entry.name = toLowerCase (splitWord withoutSlash).1 ∧
        (parseCommandWord withoutSlash).type = entry.type ∧
        (entry.takesTarget = true → (parseCommandWord withoutSlash).argument =
          (splitWord (splitWord withoutSlash).2).2) := by
  unfold parseCommandWord
  dsimp only
  cases hfind : commandTable.find? fun entry =>
      entry.name = toLowerCase (splitWord withoutSlash).1 with
  | none => exact .inl rfl
  | some entry =>
    refine .inr ⟨entry, List.mem_of_find?_eq_some hfind,
      of_decide_eq_true (List.find?_some hfind :), ?_⟩
    dsimp only
    split
    · exact ⟨rfl, fun _ => rfl⟩
    · next htarget => exact ⟨rfl, fun h => absurd h htarget⟩

theorem parseCommandWord_type (withoutSlash : String) :
    (parseCommandWord withoutSlash).type ≠ .none ∧
      (parseCommandWord withoutSlash).type ≠ .action := by
  have htable : ∀ entry ∈ commandTable, entry.type ≠ .none ∧ entry.type ≠ .action := by decide
  rcases parseCommandWord_cases withoutSlash with hunknown | ⟨entry, hentry, -, htype, -⟩
  · rw [hunknown]
    decide
  · rw [htype]
    exact htable entry hentry

theorem parseCommandWord_message {withoutSlash : String}
    (h : (parseCommandWord withoutSlash).type = .message) :
    toLowerCase (splitWord withoutSlash).1 = "msg" ∧
      (parseCommandWord withoutSlash).argument = (splitWord (splitWord withoutSlash).2).2 := by
  have htable : ∀ entry ∈ commandTable, entry.type = .message →
      entry.name = "msg" ∧ entry.takesTarget = true := by decide
  rcases parseCommandWord_cases withoutSlash with
    hunknown | ⟨entry, hentry, hword, htype, hargument⟩
  · rw [hunknown] at h
    cases h
  · obtain ⟨hname, htarget⟩ := htable entry hentry (htype ▸ h)
    exact ⟨hword.symm.trans hname, hargument htarget⟩

theorem parse_eq (input : String) : parse input =
    if startsWith (trimmedText input) "/" = false then { argument := trimmedText input }
    else if startsWith (trimmedText input) "//" then
      { argument := substring (trimmedText input) 1 }
    else if trimmedText input = "/me" ∨ startsWith (trimmedText input) actionPrefix then
      { type := .action, commandName := "me", argument := trimmedText input }
    else parseCommandWord (substring (trimmedText input) 1) := by
  simp only [parse]
  split
  · next he =>
    rw [he, if_pos (by decide)]
  · rfl

end

end HiTuxShare
