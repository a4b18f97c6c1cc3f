import HiTuxShare.StyleCheck

namespace HiTuxShare
namespace StyleCheck
set_option autoImplicit true

/-- What kind of token the characters read last may belong to. -/
inductive Word where
  | none
  | name
  | number
  deriving DecidableEq

def isNameChar (character : Char) : Bool := character.isAlphanum || character = '_'

/-- The token that goes on, or begins, with a character outside literals and comments. -/
def Word.next (word : Word) (character : Char) : Word :=
  if isNameChar character then
    if word ≠ .none then word else if character.isDigit then .number else .name
  else if character = '.' ∧ word = .number then .number
  else .none

/-- What encloses a literal. -/
inductive Quote where
  | single
  | double
  deriving DecidableEq

def Quote.character : Quote → Char
  | .single => '\''
  | .double => '"'

/-- Where a C++ text is after some of its characters: outside literals and comments, in a
literal (also behind a backslash of it), in a `//` comment, or in a block comment, with
places of their own between the two characters of a marker. -/
inductive LexState where
  | code (word : Word)
  | literal (quote : Quote)
  | escaped (quote : Quote)
  | lineOpening
  | lineComment
  | opening
  | block
  | closing
  deriving DecidableEq

namespace LexState

def inLiteral : LexState → Bool
  | .literal _ | .escaped _ => true
  | _ => false

def inComment : LexState → Bool
  | .lineOpening | .lineComment | .opening | .block | .closing => true
  | _ => false

def inBlock : LexState → Bool
  | .opening | .block | .closing => true
  | _ => false

/-- Where the text is after a character, which `upcoming` follows. An apostrophe inside
a number separates its digits. -/
def next (state : LexState) (character : Char) (upcoming : Option Char) : LexState :=
  match state with
  | .code word =>
    if character = '/' ∧ upcoming = some '/' then .lineOpening
    else if character = '/' ∧ upcoming = some '*' then .opening
    else if character = '"' then .literal .double
    else if character = '\'' then
      if word = .number ∧ upcoming.any isNameChar then .code .number else .literal .single
    else .code (word.next character)
  | .literal quote =>
    if character = '\\' then .escaped quote
    else if character = quote.character then .code .none
    else .literal quote
  | .escaped quote => .literal quote
  | .lineOpening => .lineComment
  | .lineComment => .lineComment
  | .opening => .block
  | .block => if character = '*' ∧ upcoming = some '/' then .closing else .block
  | .closing => .code .none

/-- Where the text is when a line has ended: only a block comment goes on. -/
def lineEnd (state : LexState) : LexState := if state.inBlock then .block else .code .none

/-- A line can begin so only behind a backslash that cuts a marker in two. -/
def cut : LexState → Bool
  | .lineOpening | .opening | .closing => true
  | _ => false

end LexState

/-- A backslash that ends a line joins it with the next one. -/
def JoinsLines (character : Char) (line : List Char) (following : List (List Char)) : Prop :=
  character = '\\' ∧ line = [] ∧ following ≠ []

instance : Decidable (JoinsLines character line following) :=
  inferInstanceAs (Decidable (_ ∧ _ ∧ _))

/-- The character that comes next, past the line ends that are joined. -/
def nextChar : List Char → List (List Char) → Option Char
  | [], _ => none
  | character :: _, [] => some character
  | character :: line, nextLine :: following =>
    if character = '\\' ∧ line = [] then nextChar nextLine following else some character

/-- The characters of a line that are outside comments, and where the text is behind it. -/
def lexLine (state : LexState) : List Char → List (List Char) → List Char × LexState
  | [], _ => ([], state.lineEnd)
  | character :: line, following =>
    if JoinsLines character line following then
      (if state.inComment then [] else [character], state)
    else
      let state' := state.next character (nextChar line following)
      let (outside, ending) := lexLine state' line following
      (if state.inComment || state'.inComment then outside else character :: outside, ending)

/-- The characters of every line that are outside comments. -/
def outsideComments (state : LexState) : List (List Char) → List (List Char)
  | [] => []
  | line :: lines =>
    let (outside, ending) := lexLine state line lines
    outside :: outsideComments ending lines

/-- A literal has a marker that opens a comment in what stands of it on the line. -/
def QuotesMarker (state : LexState) : List Char → List (List Char) → Prop
  | [], _ => False
  | character :: line, following =>
    state.inLiteral ∧ OpensComment (character :: line) ∨
      QuotesMarker (state.next character (nextChar line following)) line following

instance QuotesMarker.decidable (state : LexState) (line : List Char)
    (following : List (List Char)) : Decidable (QuotesMarker state line following) :=
  match line with
  | [] => inferInstanceAs (Decidable False)
  | character :: line =>
    have := QuotesMarker.decidable (state.next character (nextChar line following)) line following
    inferInstanceAs (Decidable (state.inLiteral ∧ OpensComment (character :: line) ∨ _))

/-- No literal has a marker in it. -/
def PlainLiterals (state : LexState) : List (List Char) → Prop
  | [] => True
  | line :: lines =>
    ¬QuotesMarker state line lines ∧ PlainLiterals (lexLine state line lines).2 lines

instance PlainLiterals.decidable (state : LexState) (lines : List (List Char)) :
    Decidable (PlainLiterals state lines) :=
  match lines with
  | [] => inferInstanceAs (Decidable True)
  | line :: lines =>
    have := PlainLiterals.decidable (lexLine state line lines).2 lines
    inferInstanceAs (Decidable (¬QuotesMarker state line lines ∧ _))

/-- No line begins inside a marker, and one that begins in a `//` comment is empty or looks
like another `//` comment. -/
def LinesBeginPlainly (state : LexState) : List (List Char) → Prop
  | [] => True
  | line :: lines =>
    (state.cut = false ∧ (state = .lineComment → line = [] ∨ ['/', '/'] <+: line)) ∧
      LinesBeginPlainly (lexLine state line lines).2 lines

instance LinesBeginPlainly.decidable (state : LexState) (lines : List (List Char)) :
    Decidable (LinesBeginPlainly state lines) :=
  match lines with
  | [] => inferInstanceAs (Decidable True)
  | line :: lines =>
    have := LinesBeginPlainly.decidable (lexLine state line lines).2 lines
    inferInstanceAs (Decidable ((state.cut = false ∧
      (state = .lineComment → line = [] ∨ ['/', '/'] <+: line)) ∧ _))

/-- A line begins inside the marker that closes a comment, or begins in a `//` comment with
a text that looks like a block comment. Only then can a wrong reading leave the right text. -/
def MayCoincide (state : LexState) : List (List Char) → Prop
  | [] => False
  | line :: lines =>
    (state = .closing ∨ state = .lineComment ∧ ['/', '*'] <+: line) ∨
      MayCoincide (lexLine state line lines).2 lines

theorem nextChar_of_not_joins (h : ¬JoinsLines character line following) :
    nextChar (character :: line) following = some character := by
  cases following with
  | nil => rfl
  | cons => exact if_neg fun hjoins => h ⟨hjoins.1, hjoins.2, List.cons_ne_nil _ _⟩

theorem not_joinsLines (h : character ≠ '\\') : ¬JoinsLines character line following :=
  fun hjoins => h hjoins.1

theorem lexLine_joins (h : JoinsLines character line following) :
    lexLine state (character :: line) following =
      (if state.inComment then [] else [character], state) := by
  rw [lexLine, if_pos h]

theorem lexLine_outside (h : ¬JoinsLines character line following)
    (hstate : state.inComment = false)
    (hnext : (state.next character (nextChar line following)).inComment = false) :
    lexLine state (character :: line) following =
      (character :: (lexLine (state.next character (nextChar line following)) line following).1,
        (lexLine (state.next character (nextChar line following)) line following).2) := by
  rw [lexLine, if_neg h]
  simp [hstate, hnext]

theorem lexLine_inside (h : ¬JoinsLines character line following)
    (hstate : state.inComment ∨ (state.next character (nextChar line following)).inComment) :
    lexLine state (character :: line) following =
      lexLine (state.next character (nextChar line following)) line following := by
  rw [lexLine, if_neg h]
  simp [hstate]

theorem lexLine_lineComment (line : List Char) (following : List (List Char)) :
    (lexLine .lineComment line following).1 = [] ∧
      (lexLine .lineComment line following).2.inBlock = false ∧
      (lexLine .lineComment line following).2.cut = false := by
  induction line with
  | nil => exact ⟨rfl, rfl, rfl⟩
  | cons character line ih =>
    by_cases hjoins : JoinsLines character line following
    · rw [lexLine_joins hjoins]
      exact ⟨rfl, rfl, rfl⟩
    · rw [lexLine_inside hjoins (.inl rfl)]
      exact ih

theorem lexLine_last (state : LexState) (line : List Char) :
    (lexLine state line []).2.cut = false := by
  induction line generalizing state with
  | nil => cases state <;> rfl
  | cons character line ih =>
    rw [lexLine, if_neg fun hjoins => hjoins.2.2 rfl]
    exact ih _

/-- The second character of a marker is on the line, or a backslash comes between the two. -/
theorem marker_cases (h : nextChar line following = some character) :
    (∃ rest, line = character :: rest ∧ ¬JoinsLines character rest following) ∨
      line = ['\\'] ∧ JoinsLines '\\' [] following := by
  cases line with
  | nil => simp [nextChar] at h
  | cons second line =>
    by_cases hjoins : JoinsLines second line following
    · obtain ⟨rfl, rfl, hmore⟩ := hjoins
      exact .inr ⟨rfl, rfl, rfl, hmore⟩
    · rw [nextChar_of_not_joins hjoins] at h
      cases h
      exact .inl ⟨line, rfl, hjoins⟩

theorem notInComment {state : LexState} (h : state.inComment = false) :
    state.inBlock = false ∧ state.cut = false ∧ state ≠ .lineComment := by
  cases state with
  | code => exact ⟨rfl, rfl, LexState.noConfusion⟩
  | literal => exact ⟨rfl, rfl, LexState.noConfusion⟩
  | escaped => exact ⟨rfl, rfl, LexState.noConfusion⟩
  | _ => cases h

theorem inComment_of_inLiteral {state : LexState} (hstate : state.inLiteral) :
    state.inComment = false := by
  cases state with
  | literal => rfl
  | escaped => rfl
  | _ => cases hstate

theorem inComment_next_literal {state : LexState} (hstate : state.inLiteral) :
    (state.next character upcoming).inComment = false := by
  cases state with
  | literal quote =>
    simp only [LexState.next]
    split
    · rfl
    · split
      · rfl
      · rfl
  | escaped => rfl
  | _ => cases hstate

theorem inComment_next_code
    (h : ¬(character = '/' ∧ (upcoming = some '/' ∨ upcoming = some '*'))) :
    ((LexState.code word).next character upcoming).inComment = false := by
  simp only [LexState.next]
  rw [if_neg fun hslash => h ⟨hslash.1, .inl hslash.2⟩,
    if_neg fun hstar => h ⟨hstar.1, .inr hstar.2⟩]
  split
  · rfl
  · split
    · split
      · rfl
      · rfl
    · rfl

theorem inLiteral_next_slash {state : LexState} (hstate : state.inLiteral) :
    (state.next '/' upcoming).inLiteral := by
  cases state with
  | literal quote => cases quote <;> rfl
  | escaped quote => rfl
  | _ => cases hstate

theorem hasMarker_lexLine_cons (hjoins : ¬JoinsLines character line following)
    (h : HasMarker (lexLine (state.next character (nextChar line following)) line following).1) :
    HasMarker (lexLine state (character :: line) following).1 := by
  by_cases hinside : state.inComment ∨ (state.next character (nextChar line following)).inComment
  · rw [lexLine_inside hjoins hinside]
    exact h
  · simp only [not_or, Bool.not_eq_true] at hinside
    rw [lexLine_outside hjoins hinside.1 hinside.2]
    exact .inr h

/-- A marker in a literal is outside comments, so it stands in what the text keeps. -/
theorem hasMarker_of_quotesMarker (hquotes : QuotesMarker state line following) :
    HasMarker (lexLine state line following).1 := by
  induction line generalizing state with
  | nil => cases hquotes
  | cons character line ih =>
    by_cases hjoins : JoinsLines character line following
    · obtain ⟨rfl, rfl, _⟩ := hjoins
      simp [QuotesMarker, opensComment_cons] at hquotes
    rcases hquotes with ⟨hliteral, hopens⟩ | hlater
    · obtain ⟨rfl, hsecond⟩ := opensComment_cons.mp hopens
      cases line with
      | nil => simp at hsecond
      | cons second line =>
        have hjoins' : ¬JoinsLines second line following := by
          rintro ⟨rfl, _⟩
          simp at hsecond
        rw [lexLine_outside hjoins (inComment_of_inLiteral hliteral)
            (inComment_next_literal hliteral),
          lexLine_outside hjoins' (inComment_next_literal hliteral)
            (inComment_next_literal (inLiteral_next_slash hliteral))]
        exact .inl (opensComment_cons.mpr ⟨rfl, hsecond⟩)
    · exact hasMarker_lexLine_cons hjoins (ih hlater)

theorem not_quotesMarker_lineComment (line : List Char) (following : List (List Char)) :
    ¬QuotesMarker .lineComment line following := by
  induction line with
  | nil => exact id
  | cons character line ih =>
    rintro (⟨hliteral, -⟩ | hlater)
    · cases hliteral
    · exact ih hlater

end StyleCheck
end HiTuxShare
