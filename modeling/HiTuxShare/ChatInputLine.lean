import Mathlib.Data.List.Basic
import Mathlib.Tactic.Common

namespace HiTuxShare
set_option autoImplicit true

/-- A text in the units that the positions of a line edit count. -/
abbrev Utf16 := List UInt16

def fromLatin1 (text : String) : Utf16 := text.toList.map fun character => character.toNat.toUInt16

/-- Which units of a text are white space. -/
class QtCharacters where
  isSpace : UInt16 → Bool

/-- The white space of ASCII, and no other. -/
abbrev plainCharacters : QtCharacters :=
  ⟨fun character => character = 0x20 || 0x09 ≤ character && character ≤ 0x0D⟩

/-- The longest text that fits in a line edit. -/
def maxLength : Nat := 32767

structure QLineEdit where
  text : Utf16
  cursorPosition : Nat
  text_length : text.length ≤ maxLength
  cursorPosition_le : cursorPosition ≤ text.length

namespace QLineEdit

def empty : QLineEdit where
  text := []
  cursorPosition := 0
  text_length := Nat.zero_le _
  cursorPosition_le := Nat.le_refl _

/-- A text that is too long is cut off, and the cursor goes behind it. -/
def setText (field : QLineEdit) (text : Utf16) : QLineEdit :=
  { field with
    text := text.take maxLength
    cursorPosition := (text.take maxLength).length
    text_length := List.length_take_le maxLength text
    cursorPosition_le := Nat.le_refl _ }

/-- A position behind the text is none. -/
def setCursorPosition (field : QLineEdit) (position : Nat) : QLineEdit :=
  if h : position ≤ field.text.length then
    { field with cursorPosition := position, cursorPosition_le := h }
  else field

def clear (field : QLineEdit) : QLineEdit := field.setText []

/-- A text of Latin-1, with the cursor behind it. -/
def typed (text : String) : QLineEdit := empty.setText (fromLatin1 text)

end QLineEdit

def leadingCompletionSuffix : Utf16 := fromLatin1 ": "
def maximumHistoryEntries : Nat := 100

/-- The entry field of the chat. Its provider of completions reads `κ`, whatever that is when it
is called. -/
structure ChatInputLine (κ : Type u) extends QLineEdit where
  completionProvider : Option (κ → Utf16 → List Utf16)
  history : List Utf16
  historyPosition : Int
  pendingLine : Utf16
  completionMatches : List Utf16
  completionIndex : Nat
  completionPrefixStart : Nat
  completionPrefix : Utf16
  isCompleting : Bool

/-- `QString::replace`, of a number of characters from a position on. -/
def replaced (text : Utf16) (position : Nat) (length : Int) (after : Utf16) : Utf16 :=
  if text.length < position then text
  else
    let length := min length (text.length - position)
    text.take position ++ after ++ text.drop (position + length).toNat

/-- The start of the word before a position. -/
def wordStart [QtCharacters] (text : Utf16) : Nat → Nat
  | 0 => 0
  | position + 1 =>
    if QtCharacters.isSpace (text.getD position 0) then position + 1 else wordStart text position

namespace ChatInputLine

def new (provider : Option (κ → Utf16 → List Utf16)) : ChatInputLine κ where
  toQLineEdit := .empty
  completionProvider := provider
  history := []
  historyPosition := 0
  pendingLine := []
  completionMatches := []
  completionIndex := 0
  completionPrefixStart := 0
  completionPrefix := []
  isCompleting := false

def resetCompletionState (input : ChatInputLine κ) : ChatInputLine κ :=
  { input with
    isCompleting := false
    completionMatches := []
    completionIndex := 0
    completionPrefix := []
    completionPrefixStart := 0 }

/-- The history with a line that was entered, unless it repeats the one before. -/
def remembered (history : List Utf16) (line : Utf16) : List Utf16 :=
  if line = [] ∨ history.getLast? = some line then history
  else (history ++ [line]).drop ((history ++ [line]).length - maximumHistoryEntries)

def acceptCurrentLine (input : ChatInputLine κ) : ChatInputLine κ :=
  let history := remembered input.history input.text
  let input := resetCompletionState
    { input with history, historyPosition := history.length, pendingLine := [] }
  { input with toQLineEdit := input.toQLineEdit.clear }

/-- Whatever is being typed is kept before it is walked away from. -/
def stashPendingLine (input : ChatInputLine κ) : ChatInputLine κ :=
  if input.historyPosition = input.history.length then { input with pendingLine := input.text }
  else input

def showEntry (input : ChatInputLine κ) (position : Int) : ChatInputLine κ :=
  let shown := if position = input.history.length then input.pendingLine
    else input.history.getD position.toNat []
  let field := input.toQLineEdit.setText shown
  { input with
    historyPosition := position
    toQLineEdit := field.setCursorPosition field.text.length }

def navigateHistory (input : ChatInputLine κ) (direction : Int) : ChatInputLine κ :=
  if input.history = [] then input
  else
    let input := input.stashPendingLine
    let newPosition := input.historyPosition + direction
    if newPosition < 0 ∨ input.history.length < newPosition then input
    else input.showEntry newPosition

/-- The match that is on goes from the start of the word to the cursor. -/
def writeCompletion (input : ChatInputLine κ) : ChatInputLine κ :=
  let completion := input.completionMatches.getD input.completionIndex [] ++
    if input.completionPrefixStart = 0 then leadingCompletionSuffix else []
  let newText := replaced input.text input.completionPrefixStart
    (input.cursorPosition - input.completionPrefixStart) completion
  { input with
    toQLineEdit := (input.toQLineEdit.setText newText).setCursorPosition
      (input.completionPrefixStart + completion.length) }

/-- The matches of the word between a position and the cursor. -/
def searchMatches (input : ChatInputLine κ) (start : Nat) (provider : Utf16 → List Utf16) :
    ChatInputLine κ :=
  let word := (input.text.drop start).take (input.cursorPosition - start)
  { input with
    completionPrefixStart := start
    completionPrefix := word
    completionMatches := provider word
    completionIndex := 0 }

variable [QtCharacters]

def performCompletion (input : ChatInputLine κ) (read : κ) : ChatInputLine κ :=
  match input.completionProvider with
  | none => input
  | some provider =>
    if input.isCompleting then
      writeCompletion { input with
        completionIndex := (input.completionIndex + 1) % input.completionMatches.length }
    else
      let start := wordStart input.text input.cursorPosition
      if start = input.cursorPosition then input
      else
        let input := input.searchMatches start (provider read)
        if input.completionMatches = [] then input
        else writeCompletion { input with isCompleting := true }

end ChatInputLine

/-- The keys: the line edit makes of another key whatever it does, and the window accepts the line
once the return key has been handled. -/
inductive KeyPress (κ : Type u) where
  | up
  | down
  | tab (read : κ)
  | returnKey
  | other (edited : QLineEdit)

namespace ChatInputLine
variable [QtCharacters]

def keyPressEvent (input : ChatInputLine κ) : KeyPress κ → ChatInputLine κ
  | .up => input.navigateHistory (-1)
  | .down => input.navigateHistory 1
  | .tab read => input.performCompletion read
  | .returnKey => input.resetCompletionState.acceptCurrentLine
  | .other edited => { input.resetCompletionState with toQLineEdit := edited }

end ChatInputLine

end HiTuxShare
