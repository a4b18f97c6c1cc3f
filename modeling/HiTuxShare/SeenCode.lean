import HiTuxShare.SeenLiterals

namespace HiTuxShare
namespace StyleCheck
set_option autoImplicit true

/-- The numbers of the lines of code where a rule fires. -/
def firings (rule : List Char → Bool) (code : List (List Char)) : List Nat :=
  (code.zipIdx 1).filterMap fun (line, number) => if rule line then some number else none

/-- The linter takes from a file exactly what is outside its comments, and every rule about the
structure of the code fires where it fires on the code. -/
def SeesExactlyTheCode (lines : List (List Char)) : Prop :=
  uncommentedLines false lines = outsideComments (.code .none) lines ∧
    ∀ rule, structuralFindings rule (uncommentedLines false lines) =
      firings rule (codeLines (.code .none) lines)

theorem structuralFindings_eq (rule : List Char → Bool) (uncommented : List (List Char)) :
    structuralFindings rule uncommented = firings rule (uncommented.map stripLiterals) := by
  rw [structuralFindings, firings, List.zipIdx_map, List.filterMap_map]
  rfl

theorem mem_firings {rule : List Char → Bool} :
    number + 1 ∈ firings rule code ↔ ∃ line, code[number]? = some line ∧ rule line = true := by
  simp [firings, List.mem_filterMap, List.mk_mem_zipIdx_iff_le_and_getElem?_sub]

/-- Two files on which every rule fires alike are the same. -/
theorem eq_of_firings (h : ∀ rule, firings rule code = firings rule code') : code = code' := by
  have hlines (number : Nat) (line : List Char) :
      code[number]? = some line ↔ code'[number]? = some line := by
    have hmem := congrArg (number + 1 ∈ ·) (h fun read => read = line)
    simpa [mem_firings] using hmem
  exact List.ext_getElem? fun number => Option.ext fun line => hlines number line

/-- What `strip_comments` makes of a line, against what the text has there. A marker that is
cut stays where it opens a comment and is missed where it closes one. -/
def AgreesWith (stripped : List Char × Bool) (lexed : List Char × LexState) : Prop :=
  match lexed.2 with
  | .closing => True
  | .lineOpening | .opening => stripped = (lexed.1 ++ ['/', '\\'], false)
  | ending => stripped = (lexed.1, ending.inBlock)

theorem AgreesWith.cons (h : AgreesWith stripped lexed) (character : Char) :
    AgreesWith (character :: stripped.1, stripped.2) (character :: lexed.1, lexed.2) := by
  obtain ⟨outside, ending⟩ := lexed
  cases ending with
  | closing => trivial
  | _ => cases h; rfl

theorem AgreesWith.of_uncut (hcut : lexed.2.cut = false)
    (h : stripped = (lexed.1, lexed.2.inBlock)) : AgreesWith stripped lexed := by
  obtain ⟨outside, ending⟩ := lexed
  cases ending with
  | lineOpening => cases hcut
  | opening => cases hcut
  | closing => cases hcut
  | _ => exact h

theorem AgreesWith.cases (h : AgreesWith stripped lexed) :
    lexed.2 = .closing ∨ lexed.2.cut = true ∧ stripped.1 ≠ lexed.1 ∨
      lexed.2.cut = false ∧ stripped = (lexed.1, lexed.2.inBlock) := by
  obtain ⟨outside, ending⟩ := lexed
  cases ending with
  | closing => exact .inl rfl
  | lineOpening => exact .inr (.inl ⟨rfl, by rw [show stripped = _ from h]; simp⟩)
  | opening => exact .inr (.inl ⟨rfl, by rw [show stripped = _ from h]; simp⟩)
  | _ => exact .inr (.inr ⟨rfl, h⟩)

/-- The two ways of reading a line. -/
def ReadsAlike (state : LexState) (line : List Char) (following : List (List Char)) : Prop :=
  AgreesWith (stripComments line state.inBlock) (lexLine state line following)

theorem stripComments_backslash (inBlock : Bool) :
    stripComments ['\\'] inBlock = (if inBlock then [] else ['\\'], inBlock) := by
  cases inBlock with
  | false => rw [stripComments_code (by simp [opensComment_cons]), stripComments_nil]; rfl
  | true => rw [stripComments_comment (by simp), stripComments_nil]; rfl

theorem readsAlike_nil {state : LexState} (hstate : state.cut = false) :
    ReadsAlike state [] following := by
  rw [ReadsAlike, stripComments_nil]
  cases state with
  | code => rfl
  | literal => rfl
  | escaped => rfl
  | lineComment => rfl
  | block => rfl
  | _ => cases hstate

theorem readsAlike_joins (hjoins : JoinsLines character line following)
    (hstate : state.cut = false) (hcomment : state ≠ .lineComment) :
    ReadsAlike state (character :: line) following := by
  rw [ReadsAlike, lexLine_joins hjoins]
  obtain ⟨rfl, rfl, _⟩ := hjoins
  rw [stripComments_backslash]
  cases state with
  | code => rfl
  | literal => rfl
  | escaped => rfl
  | lineComment => cases hcomment rfl
  | block => rfl
  | _ => cases hstate

theorem readsAlike_outside (hjoins : ¬JoinsLines character line following)
    (hopens : ¬OpensComment (character :: line)) (hstate : state.inComment = false)
    (hnext : (state.next character (nextChar line following)).inComment = false)
    (ih : ReadsAlike (state.next character (nextChar line following)) line following) :
    ReadsAlike state (character :: line) following := by
  rw [ReadsAlike, (notInComment hnext).1] at ih
  rw [ReadsAlike, (notInComment hstate).1, stripComments_code hopens,
    lexLine_outside hjoins hstate hnext]
  exact ih.cons character

/-- Every line of at most some length that begins outside `//` comments and markers and quotes
no marker is read alike. -/
def ReadsShortLinesAlike (following : List (List Char)) (bound : Nat) : Prop :=
  ∀ state line, line.length ≤ bound → state.cut = false → state ≠ .lineComment →
    ¬QuotesMarker state line following → ReadsAlike state line following

theorem readsAlike_literal {state : LexState} (ih : ReadsShortLinesAlike following line.length)
    (hjoins : ¬JoinsLines character line following) (hstate : state.inLiteral)
    (hplain : ¬QuotesMarker state (character :: line) following) :
    ReadsAlike state (character :: line) following := by
  have hnext : (state.next character (nextChar line following)).inComment = false :=
    inComment_next_literal hstate
  have hopens : ¬OpensComment (character :: line) := fun h => hplain (.inl ⟨hstate, h⟩)
  obtain ⟨-, hcut, hcomment⟩ := notInComment hnext
  exact readsAlike_outside hjoins hopens (inComment_of_inLiteral hstate) hnext
    (ih _ line le_rfl hcut hcomment fun hquotes => hplain (.inr hquotes))

theorem readsAlike_block (ih : ReadsShortLinesAlike following line.length)
    (hjoins : ¬JoinsLines character line following)
    (hplain : ¬QuotesMarker .block (character :: line) following) :
    ReadsAlike .block (character :: line) following := by
  have hlater := fun hquotes => hplain (.inr hquotes)
  rw [ReadsAlike, lexLine_inside hjoins (.inl rfl)]
  by_cases hclosing : character = '*' ∧ nextChar line following = some '/'
  · have hnext : LexState.block.next character (nextChar line following) = .closing :=
      if_pos hclosing
    rw [hnext] at hlater ⊢
    rcases marker_cases hclosing.2 with ⟨rest, rfl, hslash⟩ | ⟨rfl, hcut⟩
    · rw [lexLine_inside hslash (.inl rfl), hclosing.1]
      change AgreesWith (stripComments ('*' :: '/' :: rest) true) _
      rw [stripComments_closing]
      exact ih (.code .none) rest (Nat.le_succ _) rfl LexState.noConfusion
        fun hquotes => hlater (.inr hquotes)
    · rw [lexLine_joins hcut]
      trivial
  · have hnext : LexState.block.next character (nextChar line following) = .block :=
      if_neg hclosing
    rw [hnext] at hlater ⊢
    have hcomment : ¬['*', '/'] <+: character :: line := by
      rintro ⟨rest, hrest⟩
      cases hrest
      exact hclosing ⟨rfl, nextChar_of_not_joins (not_joinsLines (by decide))⟩
    change AgreesWith (stripComments (character :: line) true) _
    rw [stripComments_comment hcomment]
    exact ih .block line le_rfl rfl LexState.noConfusion hlater

theorem readsAlike_code (ih : ReadsShortLinesAlike following line.length)
    (hjoins : ¬JoinsLines character line following)
    (hplain : ¬QuotesMarker (.code word) (character :: line) following) :
    ReadsAlike (.code word) (character :: line) following := by
  have hlater := fun hquotes => hplain (.inr hquotes)
  have hcutMarker : stripComments ['/', '\\'] false = (['/', '\\'], false) := by
    rw [stripComments_code (by simp [opensComment_cons]), stripComments_backslash]
    rfl
  by_cases hslashes : character = '/' ∧ nextChar line following = some '/'
  · have hnext : (LexState.code word).next character (nextChar line following) = .lineOpening :=
      if_pos hslashes
    rw [ReadsAlike, lexLine_inside hjoins (.inr (by rw [hnext]; rfl)), hnext, hslashes.1]
    rcases marker_cases hslashes.2 with ⟨rest, rfl, hslash⟩ | ⟨rfl, hcut⟩
    · rw [lexLine_inside hslash (.inl rfl)]
      obtain ⟨hnone, hblock, huncut⟩ := lexLine_lineComment rest following
      change AgreesWith (stripComments ('/' :: '/' :: rest) false)
        (lexLine .lineComment rest following)
      apply AgreesWith.of_uncut huncut
      rw [stripComments_slashes, hnone, hblock]
    · rw [lexLine_joins hcut]
      exact hcutMarker
  by_cases hstar : character = '/' ∧ nextChar line following = some '*'
  · have hnext : (LexState.code word).next character (nextChar line following) = .opening := by
      rw [LexState.next, if_neg hslashes, if_pos hstar]
    rw [ReadsAlike, lexLine_inside hjoins (.inr (by rw [hnext]; rfl)), hnext, hstar.1]
    rw [hnext] at hlater
    rcases marker_cases hstar.2 with ⟨rest, rfl, hasterisk⟩ | ⟨rfl, hcut⟩
    · rw [lexLine_inside hasterisk (.inl rfl)]
      change AgreesWith (stripComments ('/' :: '*' :: rest) false)
        (lexLine .block rest following)
      rw [stripComments_opening]
      exact ih .block rest (Nat.le_succ _) rfl LexState.noConfusion
        fun hquotes => hlater (.inr hquotes)
    · rw [lexLine_joins hcut]
      exact hcutMarker
  have hmarker : ¬(character = '/' ∧
      (nextChar line following = some '/' ∨ nextChar line following = some '*')) := by
    rintro ⟨hcharacter, hslash | hasterisk⟩
    · exact hslashes ⟨hcharacter, hslash⟩
    · exact hstar ⟨hcharacter, hasterisk⟩
  have hopens : ¬OpensComment (character :: line) := by
    rintro (⟨rest, hrest⟩ | ⟨rest, hrest⟩)
    · cases hrest
      exact hslashes ⟨rfl, nextChar_of_not_joins (not_joinsLines (by decide))⟩
    · cases hrest
      exact hstar ⟨rfl, nextChar_of_not_joins (not_joinsLines (by decide))⟩
  have hnext : ((LexState.code word).next character (nextChar line following)).inComment = false :=
    inComment_next_code hmarker
  obtain ⟨-, hcut, hcomment⟩ := notInComment hnext
  exact readsAlike_outside hjoins hopens rfl hnext (ih _ line le_rfl hcut hcomment hlater)

/-- The induction is on the length of a line, as a marker takes two characters at once. -/
theorem readsShortLinesAlike (following : List (List Char)) (bound : Nat) :
    ReadsShortLinesAlike following bound := by
  induction bound with
  | zero =>
    intro state line hlength hstate _ _
    rw [List.length_eq_zero_iff.mp (Nat.le_zero.mp hlength)]
    exact readsAlike_nil hstate
  | succ bound ih =>
    intro state line hlength hstate hcomment hplain
    cases line with
    | nil => exact readsAlike_nil hstate
    | cons character line =>
      have ih' : ReadsShortLinesAlike following line.length := fun state rest hrest =>
        ih state rest (hrest.trans (Nat.le_of_succ_le_succ hlength))
      by_cases hjoins : JoinsLines character line following
      · exact readsAlike_joins hjoins hstate hcomment
      cases state with
      | code word => exact readsAlike_code ih' hjoins hplain
      | literal quote => exact readsAlike_literal ih' hjoins rfl hplain
      | escaped quote => exact readsAlike_literal ih' hjoins rfl hplain
      | block => exact readsAlike_block ih' hjoins hplain
      | lineComment => cases hcomment rfl
      | _ => cases hstate

/-- A marker that is cut is cut in front of another line, which then does not begin plainly. -/
theorem not_linesBeginPlainly_of_cut
    (hcut : (lexLine state line lines).2.cut = true) :
    ¬LinesBeginPlainly (lexLine state line lines).2 lines := by
  cases lines with
  | nil =>
    rw [lexLine_last] at hcut
    cases hcut
  | cons next lines =>
    rintro ⟨⟨huncut, -⟩, -⟩
    rw [huncut] at hcut
    cases hcut

theorem mayCoincide_of_closing (hend : (lexLine state line lines).2 = .closing) :
    MayCoincide (lexLine state line lines).2 lines := by
  cases lines with
  | nil =>
    have hlast := lexLine_last state line
    rw [hend] at hlast
    cases hlast
  | cons next lines => exact .inl (.inl hend)

theorem stripComments_carried (line : List Char) (h : ¬['/', '*'] <+: line) :
    (stripComments line false = ([], false) ∧ (line = [] ∨ ['/', '/'] <+: line)) ∨
      ((stripComments line false).1 ≠ [] ∧ ¬(line = [] ∨ ['/', '/'] <+: line)) := by
  cases line with
  | nil => exact .inl ⟨stripComments_nil, .inl rfl⟩
  | cons character line =>
    by_cases hslashes : ['/', '/'] <+: character :: line
    · obtain ⟨rest, hrest⟩ := hslashes
      rw [← hrest]
      exact .inl ⟨stripComments_slashes, .inr ⟨rest, rfl⟩⟩
    · refine .inr ⟨?_, ?_⟩
      · rw [stripComments_code (not_or.mpr ⟨hslashes, h⟩)]
        exact List.cons_ne_nil _ _
      · exact not_or.mpr ⟨List.cons_ne_nil _ _, hslashes⟩

/-- What is claimed of the lines from some place of the text on. -/
def ReadsLinesAlike (state : LexState) (lines : List (List Char)) : Prop :=
  uncommentedLines state.inBlock lines = outsideComments state lines ↔
    LinesBeginPlainly state lines ∧ PlainLiterals state lines

theorem readsLinesAlike_carried (h : ¬['/', '*'] <+: line)
    (ih : ReadsLinesAlike (lexLine .lineComment line lines).2 lines) :
    ReadsLinesAlike .lineComment (line :: lines) := by
  obtain ⟨hnone, hblock, -⟩ := lexLine_lineComment line lines
  rw [ReadsLinesAlike, hblock] at ih
  rw [ReadsLinesAlike, uncommentedLines, outsideComments, List.cons.injEq, hnone,
    LinesBeginPlainly, PlainLiterals]
  change (stripComments line false).1 = [] ∧
    uncommentedLines (stripComments line false).2 lines = _ ↔ _
  rcases stripComments_carried line h with ⟨hread, hplainly⟩ | ⟨hread, hplainly⟩
  · rw [hread, ih]
    constructor
    · rintro ⟨-, hbegin, hplain⟩
      exact ⟨⟨⟨rfl, fun _ => hplainly⟩, hbegin⟩, not_quotesMarker_lineComment line lines, hplain⟩
    · rintro ⟨⟨-, hbegin⟩, -, hplain⟩
      exact ⟨rfl, hbegin, hplain⟩
  · exact iff_of_false (fun hsame => hread hsame.1) fun hbegin => hplainly (hbegin.1.1.2 rfl)

theorem readsLinesAlike_cons {state : LexState} (hstate : state.cut = false)
    (hcomment : state ≠ .lineComment) (hend : (lexLine state line lines).2 ≠ .closing)
    (ih : (lexLine state line lines).2.cut = false →
      ReadsLinesAlike (lexLine state line lines).2 lines) :
    ReadsLinesAlike state (line :: lines) := by
  rw [ReadsLinesAlike, uncommentedLines, outsideComments, List.cons.injEq, LinesBeginPlainly,
    PlainLiterals]
  by_cases hquotes : QuotesMarker state line lines
  · have hmarker := hasMarker_of_quotesMarker hquotes
    refine iff_of_false (fun hsame => ?_) fun hplain => hplain.2.1 hquotes
    rw [← hsame.1] at hmarker
    exact not_hasMarker_stripComments line state.inBlock hmarker
  have hreads := readsShortLinesAlike lines line.length state line le_rfl hstate hcomment hquotes
  rcases hreads.cases with hclosing | ⟨hcut, hdiffer⟩ | ⟨huncut, hsame⟩
  · exact absurd hclosing hend
  · exact iff_of_false (fun hsame => hdiffer hsame.1)
      fun hbegin => not_linesBeginPlainly_of_cut hcut hbegin.1.2
  · rw [hsame]
    constructor
    · rintro ⟨-, hlines⟩
      obtain ⟨hbegin, hplain⟩ := (ih huncut).mp hlines
      exact ⟨⟨⟨hstate, fun h => absurd h hcomment⟩, hbegin⟩, hquotes, hplain⟩
    · rintro ⟨⟨-, hbegin⟩, -, hplain⟩
      exact ⟨rfl, (ih huncut).mpr ⟨hbegin, hplain⟩⟩

theorem readsLinesAlike (state : LexState) (lines : List (List Char)) (hstate : state.cut = false)
    (h : ¬MayCoincide state lines) : ReadsLinesAlike state lines := by
  induction lines generalizing state with
  | nil => simp [ReadsLinesAlike, uncommentedLines, outsideComments, LinesBeginPlainly,
      PlainLiterals]
  | cons line lines ih =>
    obtain ⟨hhere, hlater⟩ := not_or.mp h
    by_cases hcomment : state = .lineComment
    · subst hcomment
      exact readsLinesAlike_carried (fun hstar => hhere (.inr ⟨rfl, hstar⟩))
        (ih _ (lexLine_lineComment line lines).2.2 hlater)
    · exact readsLinesAlike_cons hstate hcomment
        (fun hclosing => hlater (mayCoincide_of_closing hclosing)) fun huncut => ih _ huncut hlater

/-- Lines that begin plainly leave nothing to coincidence. -/
theorem not_mayCoincide (h : LinesBeginPlainly state lines) : ¬MayCoincide state lines := by
  induction lines generalizing state with
  | nil => exact id
  | cons line lines ih =>
    obtain ⟨⟨huncut, hplainly⟩, hlater⟩ := h
    rintro ((rfl | ⟨hcomment, rest, hrest⟩) | hcoincide)
    · cases huncut
    · rcases hplainly hcomment with hempty | ⟨rest', hrest'⟩
      · rw [hempty] at hrest
        cases hrest
      · rw [← hrest] at hrest'
        cases hrest'
    · exact ih hlater hcoincide

/-- The linter sees exactly the code of a file if the lines begin plainly, no literal has `//` or
`/*` in it and every quote is read as what it is. Otherwise it sees it by a coincidence at most, as
far as the contents of literals are not carried over to another line. -/
theorem sees_exactly_the_code_iff (lines : List (List Char)) :
    (LinesBeginPlainly (.code .none) lines ∧ PlainLiterals (.code .none) lines ∧
        LiteralsEndOnLines (.code .none) lines ∧ EveryLineFits (.code .none) lines →
      SeesExactlyTheCode lines) ∧
    (¬MayCoincide (.code .none) lines → SeesExactlyTheCode lines →
      LinesBeginPlainly (.code .none) lines ∧ PlainLiterals (.code .none) lines ∧
        (LiteralsEndOnLines (.code .none) lines → EveryLineFits (.code .none) lines)) := by
  have hreads (h : ¬MayCoincide (.code .none) lines) := readsLinesAlike (.code .none) lines rfl h
  constructor
  · rintro ⟨hbegin, hplain, hend, hfits⟩
    have hsame : uncommentedLines false lines = outsideComments (.code .none) lines :=
      (hreads (not_mayCoincide hbegin)).mpr ⟨hbegin, hplain⟩
    have hshown := (showsLinesAlike (.code .none) lines hend).mpr hfits
    refine ⟨hsame, fun rule => ?_⟩
    rw [hsame, structuralFindings_eq, hshown]
  · rintro h ⟨hsame, hrules⟩
    obtain ⟨hbegin, hplain⟩ := (hreads h).mp hsame
    refine ⟨hbegin, hplain, fun hend => (showsLinesAlike (.code .none) lines hend).mp ?_⟩
    refine eq_of_firings fun rule => ?_
    rw [← hrules rule, hsame, structuralFindings_eq]

/-- Literals, comments and a separated number, with lines that are joined. -/
theorem plain_lines_are_seen :
    SeesExactlyTheCode ["x = \"a'\\\"\" + 'b'; // \"/*\" \\".toList, "// b".toList,
      "/* it's".toList, "*/ y = 1'000 / 2;".toList] :=
  (sees_exactly_the_code_iff _).1 (by decide)

/-- A literal with `/*` in it hides the code up to the next `*/`, and an apostrophe between digits
hides it up to the next apostrophe. -/
theorem quoted_marker_hides_code :
    uncommentedLines false ["s = \"/*\";".toList, "x = TRUE;".toList] = ["s = \"".toList, []] ∧
      ¬SeesExactlyTheCode ["s = \"/*\";".toList, "x = TRUE;".toList] ∧
      stripLiterals "int a = 1'000; bool b = TRUE; int c = 2'000;".toList =
        "int a = 1\"\"000;".toList ∧
      ¬SeesExactlyTheCode ["int a = 1'000; bool b = TRUE; int c = 2'000;".toList] := by
  have hlines : ["s = \"/*\";".toList, "x = TRUE;".toList] =
      [['s', ' ', '=', ' ', '"', '/', '*', '"', ';'],
        ['x', ' ', '=', ' ', 'T', 'R', 'U', 'E', ';']] := rfl
  have hseen : uncommentedLines false ["s = \"/*\";".toList, "x = TRUE;".toList] =
      ["s = \"".toList, []] := by
    rw [hlines]
    simp [uncommentedLines, stripComments_code, stripComments_comment, opensComment_cons]
  have hstripped : stripLiterals "int a = 1'000; bool b = TRUE; int c = 2'000;".toList =
      "int a = 1\"\"000;".toList := by
    have hline : "int a = 1'000; bool b = TRUE; int c = 2'000;".toList =
        "int a = 1".toList ++ '\'' :: "000; bool b = TRUE; int c = 2'000;".toList := by decide
    have hrest : literalRest '\'' "000; bool b = TRUE; int c = 2'000;".toList =
        some ("000;".toList ++ []) := by decide
    rw [hline, stripLiterals_append (by decide), stripLiterals_closed (.inr rfl) hrest,
      stripLiterals_append (by decide), stripLiterals_nil]
    decide
  refine ⟨hseen, fun hsees => ?_, hstripped, fun hsees => ?_⟩
  · have hsame := hseen.symm.trans hsees.1
    revert hsame
    decide
  · have hfires := hsees.2 fun line => "TRUE".toList <:+: line
    rw [hsees.1, structuralFindings_eq] at hfires
    have houtside : outsideComments (.code .none)
        ["int a = 1'000; bool b = TRUE; int c = 2'000;".toList] =
        ["int a = 1'000; bool b = TRUE; int c = 2'000;".toList] := by decide
    rw [houtside, List.map_singleton, hstripped] at hfires
    revert hfires
    decide

end StyleCheck
end HiTuxShare
