import HiTuxShare.SourceComments

namespace HiTuxShare
namespace StyleCheck
set_option autoImplicit true

namespace LexState

def inCode : LexState → Bool
  | .code _ => true
  | _ => false

theorem inLiteral_next_comment {state : LexState} (h : state.inComment = true) :
    (state.next character upcoming).inLiteral = false := by
  cases state with
  | code => cases h
  | literal => cases h
  | escaped => cases h
  | block =>
    simp only [next]
    split
    · rfl
    · rfl
  | _ => rfl

theorem inLiteral_next_code (h : ¬IsQuote character) :
    ((code word).next character upcoming).inLiteral = false := by
  simp only [next]
  rw [if_neg fun hdouble => h (.inl hdouble), if_neg fun hsingle => h (.inr hsingle)]
  split
  · rfl
  · split
    · rfl
    · rfl

theorem next_code_double : (code word).next '"' upcoming = literal .double := rfl

theorem next_code_single : (code word).next '\'' upcoming = code .number ∨
    (code word).next '\'' upcoming = literal .single := by
  by_cases h : word = .number ∧ upcoming.any isNameChar
  · exact .inl (by simp [next, h])
  · exact .inr (by simp only [next]; simp [h])

end LexState

/-- What the rules are to see of a character: nothing of a comment, and of a literal its quotes,
written as `strip_literals` writes them. -/
def shown (state state' : LexState) (character : Char) : List Char :=
  if state.inComment || state'.inComment then []
  else
    match state.inLiteral, state'.inLiteral with
    | false, false => [character]
    | true, true => []
    | _, _ => ['"']

/-- The code of a line: its characters outside comments, without the contents of literals. -/
def codeLine (state : LexState) : List Char → List (List Char) → List Char
  | [], _ => []
  | character :: line, following =>
    if JoinsLines character line following then if state.inComment then [] else [character]
    else
      let state' := state.next character (nextChar line following)
      shown state state' character ++ codeLine state' line following

def codeLines (state : LexState) : List (List Char) → List (List Char)
  | [] => []
  | line :: lines => codeLine state line lines :: codeLines (lexLine state line lines).2 lines

/-- Behind a quote the line ends, or is joined with the next one. -/
def NothingBehind (line : List Char) (following : List (List Char)) : Prop :=
  line = [] ∨ line = ['\\'] ∧ following ≠ []

instance : Decidable (NothingBehind line following) := inferInstanceAs (Decidable (_ ∨ _))

/-- A literal is closed on its line, or is a string of which nothing stands on the line. An
apostrophe that separates digits has none behind it that would close it. -/
def QuoteFits (state : LexState) (quote : Char) (line : List Char)
    (following : List (List Char)) : Prop :=
  (state.inLiteral = true → literalRest quote (lexLine state line following).1 ≠ none ∨
    quote = '"' ∧ NothingBehind line following) ∧
  (state.inLiteral = false → literalRest quote (lexLine state line following).1 = none)

instance : Decidable (QuoteFits state quote line following) :=
  inferInstanceAs (Decidable ((_ = _ → _ ∨ _ ∧ _) ∧ (_ = _ → _)))

/-- The quotes of a line outside literals and comments all fit. -/
def LiteralsFit (state : LexState) : List Char → List (List Char) → Prop
  | [], _ => True
  | character :: line, following =>
    let state' := state.next character (nextChar line following)
    (state.inCode = true ∧ IsQuote character → QuoteFits state' character line following) ∧
      (¬JoinsLines character line following → LiteralsFit state' line following)

instance LiteralsFit.decidable (state : LexState) (line : List Char)
    (following : List (List Char)) : Decidable (LiteralsFit state line following) :=
  match line with
  | [] => inferInstanceAs (Decidable True)
  | character :: line =>
    have := LiteralsFit.decidable (state.next character (nextChar line following)) line following
    inferInstanceAs (Decidable ((_ → _) ∧ (_ → _)))

/-- No line begins in a literal. -/
def LiteralsEndOnLines (state : LexState) : List (List Char) → Prop
  | [] => True
  | line :: lines =>
    state.inLiteral = false ∧ LiteralsEndOnLines (lexLine state line lines).2 lines

instance LiteralsEndOnLines.decidable (state : LexState) (lines : List (List Char)) :
    Decidable (LiteralsEndOnLines state lines) :=
  match lines with
  | [] => inferInstanceAs (Decidable True)
  | line :: lines =>
    have := LiteralsEndOnLines.decidable (lexLine state line lines).2 lines
    inferInstanceAs (Decidable (state.inLiteral = false ∧ _))

def EveryLineFits (state : LexState) : List (List Char) → Prop
  | [] => True
  | line :: lines =>
    LiteralsFit state line lines ∧ EveryLineFits (lexLine state line lines).2 lines

instance EveryLineFits.decidable (state : LexState) (lines : List (List Char)) :
    Decidable (EveryLineFits state lines) :=
  match lines with
  | [] => inferInstanceAs (Decidable True)
  | line :: lines =>
    have := EveryLineFits.decidable (lexLine state line lines).2 lines
    inferInstanceAs (Decidable (LiteralsFit state line lines ∧ _))

theorem codeLine_joins (h : JoinsLines character line following) :
    codeLine state (character :: line) following =
      if state.inComment then [] else [character] := by
  rw [codeLine, if_pos h]

theorem codeLine_cons (h : ¬JoinsLines character line following) :
    codeLine state (character :: line) following =
      shown state (state.next character (nextChar line following)) character ++
        codeLine (state.next character (nextChar line following)) line following := by
  rw [codeLine, if_neg h]

theorem literalsFit_cons (hjoins : ¬JoinsLines character line following)
    (h : ¬(state.inCode = true ∧ IsQuote character)) :
    LiteralsFit state (character :: line) following ↔
      LiteralsFit (state.next character (nextChar line following)) line following := by
  rw [LiteralsFit, and_iff_right fun hquote => absurd hquote h]
  exact forall_prop_of_true hjoins

/-- A literal that is open at some place of a line is closed before `rest`. -/
structure ClosesBefore (quote : Quote) (line : List Char) (following : List (List Char))
    (rest : List Char) : Prop where
  shorter : rest.length < line.length
  stripped : literalRest quote.character (lexLine (.literal quote) line following).1 =
    some (lexLine (.code .none) rest following).1
  shown : codeLine (.literal quote) line following =
    '"' :: codeLine (.code .none) rest following
  fits : LiteralsFit (.literal quote) line following ↔ LiteralsFit (.code .none) rest following

/-- It is not closed on the line, of which nothing shows but a backslash that joins it. -/
structure StaysOpen (quote : Quote) (line : List Char) (following : List (List Char)) : Prop where
  stripped : literalRest quote.character (lexLine (.literal quote) line following).1 = none
  kept : (lexLine (.literal quote) line following).1 = line
  shown : codeLine (.literal quote) line following =
    if line.getLast? = some '\\' ∧ following ≠ [] then ['\\'] else []
  fits : LiteralsFit (.literal quote) line following

theorem quote_character_ne (quote : Quote) : quote.character ≠ '\\' := by
  cases quote with
  | single => decide
  | double => decide

theorem not_inCode_of_inLiteral {state : LexState} (h : state.inLiteral = true) :
    ¬(state.inCode = true ∧ IsQuote character) := by
  rintro ⟨hcode, -⟩
  cases state with
  | code => cases h
  | _ => cases hcode

theorem codeLine_contents {state : LexState} (hjoins : ¬JoinsLines character line following)
    (hstate : state.inLiteral = true)
    (hnext : (state.next character (nextChar line following)).inLiteral = true) :
    codeLine state (character :: line) following =
      codeLine (state.next character (nextChar line following)) line following := by
  rw [codeLine_cons hjoins, shown, inComment_of_inLiteral hstate, inComment_of_inLiteral hnext,
    hstate, hnext]
  rfl

theorem lexLine_contents {state : LexState} (hjoins : ¬JoinsLines character line following)
    (hstate : state.inLiteral = true) :
    (lexLine state (character :: line) following).1 =
      character :: (lexLine (state.next character (nextChar line following)) line following).1 := by
  rw [lexLine_outside hjoins (inComment_of_inLiteral hstate) (inComment_next_literal hstate)]

theorem staysOpen_nil (quote : Quote) (following : List (List Char)) :
    StaysOpen quote [] following where
  stripped := rfl
  kept := rfl
  shown := rfl
  fits := trivial

/-- A backslash is the last character of the line, joining it or not. -/
theorem staysOpen_backslash (quote : Quote) (following : List (List Char)) :
    StaysOpen quote ['\\'] following := by
  by_cases hjoins : JoinsLines '\\' [] following
  · constructor
    · rw [lexLine_joins hjoins]
      rfl
    · rw [lexLine_joins hjoins]
      rfl
    · exact (codeLine_joins hjoins).trans (if_pos ⟨rfl, hjoins.2.2⟩).symm
    · exact ⟨fun h => absurd h (not_inCode_of_inLiteral rfl), fun h => absurd hjoins h⟩
  · have hlast : following = [] := by
      by_contra hmore
      exact hjoins ⟨rfl, rfl, hmore⟩
    rw [hlast] at hjoins ⊢
    exact ⟨by rw [lexLine_contents hjoins rfl]; rfl, by rw [lexLine_contents hjoins rfl]; rfl,
      by rw [codeLine_contents hjoins rfl rfl]; rfl,
      (literalsFit_cons hjoins (not_inCode_of_inLiteral rfl)).mpr trivial⟩

/-- Contents of a literal that neither close it nor end the line. -/
structure Passes (quote : Quote) (front line : List Char) (following : List (List Char)) :
    Prop where
  kept : (lexLine (.literal quote) (front ++ line) following).1 =
    front ++ (lexLine (.literal quote) line following).1
  stripped : ∀ text, literalRest quote.character (front ++ text) =
    literalRest quote.character text
  shown : codeLine (.literal quote) (front ++ line) following =
    codeLine (.literal quote) line following
  fits : LiteralsFit (.literal quote) (front ++ line) following ↔
    LiteralsFit (.literal quote) line following
  joined : (front ++ line).getLast? = some '\\' ∧ following ≠ [] ↔
    line.getLast? = some '\\' ∧ following ≠ []

theorem Passes.closesBefore (h : Passes quote front line following)
    (hcloses : ClosesBefore quote line following rest) :
    ClosesBefore quote (front ++ line) following rest where
  shorter := by
    rw [List.length_append]
    exact hcloses.shorter.trans_le (Nat.le_add_left _ _)
  stripped := by rw [h.kept, h.stripped, hcloses.stripped]
  shown := h.shown.trans hcloses.shown
  fits := h.fits.trans hcloses.fits

theorem Passes.staysOpen (h : Passes quote front line following)
    (hopen : StaysOpen quote line following) : StaysOpen quote (front ++ line) following where
  stripped := by rw [h.kept, h.stripped, hopen.stripped]
  kept := by rw [h.kept, hopen.kept]
  shown := by
    rw [h.shown, hopen.shown]
    simp only [h.joined]
  fits := h.fits.mpr hopen.fits

theorem getLast?_joined (h : ¬JoinsLines character line following) :
    (character :: line).getLast? = some '\\' ∧ following ≠ [] ↔
      line.getLast? = some '\\' ∧ following ≠ [] := by
  cases line with
  | nil =>
    refine iff_of_false ?_ fun hlast => by cases hlast.1
    rintro ⟨hlast, hmore⟩
    cases hlast
    exact h ⟨rfl, rfl, hmore⟩
  | cons second line => rw [List.getLast?_cons_cons]

theorem passes_character (hbackslash : character ≠ '\\') (hquote : character ≠ quote.character) :
    Passes quote [character] line following := by
  have hjoins : ¬JoinsLines character line following := not_joinsLines hbackslash
  have hnext (upcoming : Option Char) :
      (LexState.literal quote).next character upcoming = .literal quote := by
    simp only [LexState.next, if_neg hbackslash, if_neg hquote]
  constructor
  · exact (lexLine_contents hjoins rfl).trans (by rw [hnext]; rfl)
  · intro text
    rw [List.singleton_append, literalRest_cons hbackslash, if_neg hquote]
  · exact (codeLine_contents hjoins rfl (by rw [hnext]; rfl)).trans (by rw [hnext])
  · exact (literalsFit_cons hjoins (not_inCode_of_inLiteral rfl)).trans (by rw [hnext])
  · exact getLast?_joined hjoins

theorem passes_escape (hjoins : ¬JoinsLines character line following) :
    Passes quote ['\\', character] line following := by
  have hfirst : ¬JoinsLines '\\' (character :: line) following :=
    fun h => List.cons_ne_nil _ _ h.2.1
  constructor
  · exact (lexLine_contents hfirst rfl).trans
      (congrArg _ (@lexLine_contents _ _ _ (.escaped quote) hjoins rfl))
  · exact fun text => literalRest_escape
  · exact (codeLine_contents hfirst rfl rfl).trans
      (@codeLine_contents _ _ _ (.escaped quote) hjoins rfl rfl)
  · exact (literalsFit_cons hfirst (not_inCode_of_inLiteral rfl)).trans
      (@literalsFit_cons _ _ _ (.escaped quote) hjoins (not_inCode_of_inLiteral rfl))
  · exact (getLast?_joined hfirst).trans (getLast?_joined hjoins)

theorem staysOpen_escapedJoin (quote : Quote)
    (hjoins : JoinsLines character line following) :
    StaysOpen quote ('\\' :: character :: line) following := by
  obtain ⟨rfl, rfl, hmore⟩ := hjoins
  have hfirst : ¬JoinsLines '\\' ['\\'] following := fun h => List.cons_ne_nil _ _ h.2.1
  have hsecond : JoinsLines '\\' [] following := ⟨rfl, rfl, hmore⟩
  have hkept : (lexLine (.literal quote) ['\\', '\\'] following).1 = ['\\', '\\'] :=
    (lexLine_contents hfirst rfl).trans (by rw [lexLine_joins hsecond]; rfl)
  constructor
  · rw [hkept]
    rfl
  · exact hkept
  · rw [codeLine_contents hfirst rfl rfl, codeLine_joins hsecond]
    exact (if_pos ⟨rfl, hmore⟩).symm
  · exact ⟨fun h => absurd h (not_inCode_of_inLiteral rfl), fun _ =>
      ⟨fun h => absurd h (not_inCode_of_inLiteral rfl), fun h => absurd hsecond h⟩⟩

theorem closesBefore_quote (quote : Quote) (line : List Char) (following : List (List Char)) :
    ClosesBefore quote (quote.character :: line) following line := by
  have hbackslash := quote_character_ne quote
  have hjoins : ¬JoinsLines quote.character line following := not_joinsLines hbackslash
  have hnext (upcoming : Option Char) :
      (LexState.literal quote).next quote.character upcoming = .code .none := by
    simp only [LexState.next, if_neg hbackslash, if_pos]
  constructor
  · exact Nat.lt_succ_self _
  · rw [lexLine_contents hjoins rfl, hnext, literalRest_cons hbackslash, if_pos rfl]
  · rw [codeLine_cons hjoins, hnext]
    rfl
  · rw [literalsFit_cons hjoins (not_inCode_of_inLiteral rfl), hnext]

/-- The induction goes over one character of the contents, or two of them if the first is a
backslash. -/
theorem literal_closes_or_stays (quote : Quote) (line : List Char)
    (following : List (List Char)) :
    (∃ rest, ClosesBefore quote line following rest) ∨ StaysOpen quote line following := by
  match line with
  | [] => exact .inr (staysOpen_nil quote following)
  | character :: line =>
    by_cases hbackslash : character = '\\'
    · subst hbackslash
      match line with
      | [] => exact .inr (staysOpen_backslash quote following)
      | second :: line =>
        by_cases hjoins : JoinsLines second line following
        · exact .inr (staysOpen_escapedJoin quote hjoins)
        · have hpasses : Passes quote ['\\', second] line following := passes_escape hjoins
          exact (literal_closes_or_stays quote line following).imp
            (fun ⟨rest, hcloses⟩ => ⟨rest, hpasses.closesBefore hcloses⟩) hpasses.staysOpen
    · by_cases hquote : character = quote.character
      · rw [hquote]
        exact .inl ⟨line, closesBefore_quote quote line following⟩
      · have hpasses : Passes quote [character] line following :=
          passes_character hbackslash hquote
        exact (literal_closes_or_stays quote line following).imp
          (fun ⟨rest, hcloses⟩ => ⟨rest, hpasses.closesBefore hcloses⟩) hpasses.staysOpen
termination_by line.length

/-- What `strip_literals` makes of the line shows, unless nothing of the literal stands on it. -/
theorem nothingBehind_iff : stripLiterals line =
      (if line.getLast? = some '\\' ∧ following ≠ [] then ['\\'] else []) ↔
    NothingBehind line following := by
  by_cases hjoined : line.getLast? = some '\\' ∧ following ≠ []
  · rw [if_pos hjoined, stripLiterals_eq_backslash]
    refine ⟨fun h => .inr ⟨h, hjoined.2⟩, ?_⟩
    rintro (rfl | ⟨h, -⟩)
    · cases hjoined.1
    · exact h
  · rw [if_neg hjoined, stripLiterals_eq_nil]
    refine ⟨.inl, ?_⟩
    rintro (h | ⟨rfl, hmore⟩)
    · exact h
    · exact absurd ⟨rfl, hmore⟩ hjoined

/-- `strip_literals` leaves of a line what the rules are to see. -/
def ShowsAlike (state : LexState) (line : List Char) (following : List (List Char)) : Prop :=
  stripLiterals (lexLine state line following).1 = codeLine state line following ↔
    LiteralsFit state line following

theorem isQuote_character (quote : Quote) : IsQuote quote.character := by
  cases quote with
  | single => exact .inr rfl
  | double => exact .inl rfl

theorem opens_iff (quote : Quote)
    (ih : ∀ rest, rest.length < line.length → ShowsAlike (.code .none) rest following) :
    stripLiterals (quote.character :: (lexLine (.literal quote) line following).1) =
        '"' :: codeLine (.literal quote) line following ↔
      QuoteFits (.literal quote) quote.character line following ∧
        LiteralsFit (.literal quote) line following := by
  have hquote := isQuote_character quote
  rcases literal_closes_or_stays quote line following with ⟨rest, hcloses⟩ | hopen
  · have hfits : QuoteFits (.literal quote) quote.character line following := by
      refine ⟨fun _ => .inl ?_, fun h => by cases h⟩
      rw [hcloses.stripped]
      exact Option.some_ne_none _
    rw [stripLiterals_closed hquote hcloses.stripped, hcloses.shown, hcloses.fits,
      and_iff_right hfits, List.cons.injEq, List.cons.injEq, and_iff_right rfl, and_iff_right rfl]
    exact ih rest hcloses.shorter
  · have hfits : QuoteFits (.literal quote) quote.character line following ↔
        quote.character = '"' ∧ NothingBehind line following := by
      refine ⟨fun h => (h.1 rfl).resolve_left fun hne => hne hopen.stripped,
        fun h => ⟨fun _ => .inr h, fun hliteral => by cases hliteral⟩⟩
    rw [stripLiterals_open hquote hopen.stripped, hopen.shown, hopen.kept, List.cons.injEq,
      nothingBehind_iff, hfits, and_iff_left hopen.fits]

/-- An apostrophe between digits that a later one closes takes all between them along. -/
theorem separates_iff (h : ShowsAlike (.code .number) line following) :
    stripLiterals ('\'' :: (lexLine (.code .number) line following).1) =
        '\'' :: codeLine (.code .number) line following ↔
      QuoteFits (.code .number) '\'' line following ∧
        LiteralsFit (.code .number) line following := by
  have hfits : QuoteFits (.code .number) '\'' line following ↔
      literalRest '\'' (lexLine (.code .number) line following).1 = none :=
    ⟨fun h => h.2 rfl, fun h => ⟨fun hliteral => (by cases hliteral), fun _ => h⟩⟩
  rw [hfits]
  cases hrest : literalRest '\'' (lexLine (.code .number) line following).1 with
  | some rest =>
    rw [stripLiterals_closed (.inr rfl) hrest, List.cons.injEq]
    exact iff_of_false (fun hsame => absurd hsame.1 (by decide)) fun hnone => by cases hnone.1
  | none =>
    rw [stripLiterals_open (.inr rfl) hrest, List.cons.injEq, and_iff_right rfl, and_iff_right rfl]
    exact h

theorem showsAlike_joins {state : LexState} (hjoins : JoinsLines character line following) :
    ShowsAlike state (character :: line) following := by
  have hquote : ¬IsQuote character := by
    rw [hjoins.1]
    decide
  refine iff_of_true ?_ ⟨fun h => absurd h.2 hquote, fun h => absurd hjoins h⟩
  rw [lexLine_joins hjoins, codeLine_joins hjoins]
  split
  · exact stripLiterals_nil
  · rw [stripLiterals_cons hquote, stripLiterals_nil]

theorem showsAlike_inside {state : LexState} (hjoins : ¬JoinsLines character line following)
    (hinside : state.inComment = true ∨
      (state.next character (nextChar line following)).inComment = true)
    (hquote : ¬(state.inCode = true ∧ IsQuote character))
    (ih : ShowsAlike (state.next character (nextChar line following)) line following) :
    ShowsAlike state (character :: line) following := by
  have hshown : shown state (state.next character (nextChar line following)) character = [] :=
    if_pos (by rwa [Bool.or_eq_true])
  rw [ShowsAlike, lexLine_inside hjoins hinside, codeLine_cons hjoins, hshown,
    literalsFit_cons hjoins hquote]
  exact ih

theorem showsAlike_quote (hjoins : ¬JoinsLines character line following)
    (hquote : IsQuote character)
    (ih : ∀ word rest, rest.length ≤ line.length → ShowsAlike (.code word) rest following) :
    ShowsAlike (.code word) (character :: line) following := by
  have hopens (quote : Quote) := opens_iff quote fun rest hlt => ih .none rest hlt.le
  have hfits : LiteralsFit (.code word) (character :: line) following ↔
      QuoteFits ((LexState.code word).next character (nextChar line following)) character line
          following ∧
        LiteralsFit ((LexState.code word).next character (nextChar line following)) line
          following := by
    rw [LiteralsFit]
    exact and_congr (forall_prop_of_true ⟨rfl, hquote⟩) (forall_prop_of_true hjoins)
  have hnext : ((LexState.code word).next character (nextChar line following)).inComment = false :=
    inComment_next_code fun h => by
      rw [h.1] at hquote
      revert hquote
      decide
  rw [ShowsAlike, hfits, lexLine_outside hjoins rfl hnext, codeLine_cons hjoins]
  rcases hquote with rfl | rfl
  · exact hopens .double
  · rcases @LexState.next_code_single word (nextChar line following) with hnumber | hliteral
    · rw [hnumber]
      exact separates_iff (ih .number line le_rfl)
    · rw [hliteral]
      exact hopens .single

theorem showsAlike_code (hjoins : ¬JoinsLines character line following)
    (hquote : ¬IsQuote character)
    (hnext : ((LexState.code word).next character (nextChar line following)).inComment = false)
    (ih : ShowsAlike ((LexState.code word).next character (nextChar line following)) line
      following) :
    ShowsAlike (.code word) (character :: line) following := by
  have hshown : shown (.code word) ((LexState.code word).next character (nextChar line following))
      character = [character] := by
    rw [shown, hnext, LexState.inLiteral_next_code hquote]
    rfl
  rw [ShowsAlike, lexLine_outside hjoins rfl hnext, codeLine_cons hjoins, hshown,
    literalsFit_cons hjoins fun h => hquote h.2, stripLiterals_cons hquote, List.singleton_append,
    List.cons.injEq, and_iff_right rfl]
  exact ih

/-- The induction is on the length of a line, as a literal is read at once. -/
theorem showsAlike (state : LexState) (line : List Char) (following : List (List Char))
    (hstate : state.inLiteral = false) : ShowsAlike state line following := by
  match line with
  | [] => exact iff_of_true stripLiterals_nil trivial
  | character :: line =>
    by_cases hjoins : JoinsLines character line following
    · exact showsAlike_joins hjoins
    have ih (word : Word) (rest : List Char) (_ : rest.length ≤ line.length) :
        ShowsAlike (.code word) rest following := showsAlike _ rest following rfl
    by_cases hcomment : state.inComment = true
    · refine showsAlike_inside hjoins (.inl hcomment) (fun h => ?_)
        (showsAlike _ line following (LexState.inLiteral_next_comment hcomment))
      cases state with
      | code => cases hcomment
      | _ => cases h.1
    cases state with
    | code word =>
      by_cases hquote : IsQuote character
      · exact showsAlike_quote hjoins hquote ih
      have hnot : ((LexState.code word).next character (nextChar line following)).inLiteral =
          false := LexState.inLiteral_next_code hquote
      have hline := showsAlike _ line following hnot
      cases hnext : ((LexState.code word).next character (nextChar line following)).inComment with
      | true => exact showsAlike_inside hjoins (.inr hnext) (fun h => hquote h.2) hline
      | false => exact showsAlike_code hjoins hquote hnext hline
    | literal => cases hstate
    | escaped => cases hstate
    | _ => exact absurd rfl hcomment
termination_by line.length
decreasing_by
  · exact Nat.lt_succ_of_le ‹_›
  · exact Nat.lt_succ_self _
  · exact Nat.lt_succ_self _

theorem showsLinesAlike (state : LexState) (lines : List (List Char))
    (h : LiteralsEndOnLines state lines) :
    (outsideComments state lines).map stripLiterals = codeLines state lines ↔
      EveryLineFits state lines := by
  induction lines generalizing state with
  | nil => exact iff_of_true rfl trivial
  | cons line lines ih =>
    rw [outsideComments, codeLines, EveryLineFits, List.map_cons, List.cons.injEq, ih _ h.2]
    exact and_congr_left fun _ => showsAlike state line lines h.1

end StyleCheck
end HiTuxShare
