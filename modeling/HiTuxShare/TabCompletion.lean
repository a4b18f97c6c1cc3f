import HiTuxShare.ChatInputLine
import Mathlib.Data.List.GetD

namespace HiTuxShare
set_option autoImplicit true

/-- A line with the cursor behind a part of it. -/
structure HasPart (line : QLineEdit) (before part after : Utf16) : Prop where
  text : line.text = before ++ part ++ after
  cursor : line.cursorPosition = before.length + part.length

/-- What a candidate becomes when it is written behind a text. -/
def written (before candidate : Utf16) : Utf16 :=
  candidate ++ if before = [] then leadingCompletionSuffix else []

theorem length_written (before candidate : Utf16) :
    (written before candidate).length ≤ candidate.length + 2 := by
  rw [written, List.length_append]
  apply Nat.add_le_add_left
  split
  · exact Nat.le_refl 2
  · exact Nat.zero_le 2

/-- A completion, with all that it was chosen from. -/
structure Cycle where
  before : Utf16
  candidates : List Utf16
  index : Nat
  index_lt : index < candidates.length

namespace Cycle

def written (cycle : Cycle) : Utf16 :=
  HiTuxShare.written cycle.before (cycle.candidates.get ⟨cycle.index, cycle.index_lt⟩)

/-- After the last candidate comes the first one again. -/
def next (cycle : Cycle) : Cycle :=
  { cycle with
    index := (cycle.index + 1) % cycle.candidates.length
    index_lt := Nat.mod_lt _ (Nat.zero_lt_of_lt cycle.index_lt) }

end Cycle

theorem getLast?_take {text : Utf16} (h : index < text.length) :
    (text.take (index + 1)).getLast? = some (text.getD index 0) := by
  rw [List.getLast?_take, if_neg (Nat.succ_ne_zero _), Nat.add_sub_cancel,
    List.getElem?_eq_getElem h, List.getD_eq_getElem _ _ h]
  rfl

theorem hasPart_setText (field : QLineEdit) (hroom : (before ++ part ++ after).length ≤ maxLength) :
    HasPart ((field.setText (before ++ part ++ after)).setCursorPosition
      (before.length + part.length)) before part after := by
  have htake := List.take_of_length_le hroom
  have hcursor : before.length + part.length ≤
      (field.setText (before ++ part ++ after)).text.length := by
    change _ ≤ ((before ++ part ++ after).take maxLength).length
    rw [htake, List.length_append, List.length_append]
    exact Nat.le_add_right _ _
  rw [QLineEdit.setCursorPosition, dif_pos hcursor]
  exact ⟨htake, rfl⟩

theorem replaced_part (before word after text : Utf16) :
    replaced (before ++ word ++ after) before.length word.length text = before ++ text ++ after := by
  have hlength : ¬(before ++ word ++ after).length < before.length := by
    rw [List.length_append, List.length_append]
    omega
  have hmin : min (word.length : Int) ((before ++ word ++ after).length - before.length) =
      word.length := by
    apply Int.min_eq_left
    rw [List.length_append, List.length_append]
    omega
  have hend : ((before.length : Int) + word.length).toNat = (before ++ word).length := by
    rw [List.length_append]
    omega
  rw [replaced, if_neg hlength]
  simp only [hmin, hend, List.drop_left]
  rw [List.append_assoc before word, List.take_left]

section
variable [QtCharacters]

/-- A whole word, behind a text. -/
structure IsWord (before word : Utf16) : Prop where
  ne : word ≠ []
  solid : ∀ character ∈ word, QtCharacters.isSpace character = false
  start : ∀ character ∈ before.getLast?, QtCharacters.isSpace character = true

/-- The completion that a Tab has to write: the next one of those that the Tab before it went
through, or the first one of the word at the cursor. -/
inductive Completes (answers : Option (Utf16 → List Utf16)) :
    Option Cycle → QLineEdit → Cycle → Utf16 → Prop where
  | next {cycle : Cycle} (hpart : HasPart line cycle.before cycle.written after) :
    Completes answers (some cycle) line cycle.next after
  | fresh {cycle : Cycle} (hanswers : answers = some provider) (hword : IsWord cycle.before word)
    (hpart : HasPart line cycle.before word after) (hcandidates : cycle.candidates = provider word)
    (hindex : cycle.index = 0) : Completes answers none line cycle after

/-- What a Tab does to a line, with nothing before the word or behind the cursor changed. -/
inductive TabEffect (answers : Option (Utf16 → List Utf16)) :
    Option Cycle → QLineEdit → QLineEdit → Option Cycle → Prop where
  | writes {cycle : Cycle} (hcompletes : Completes answers previous line cycle after)
    (hpart : HasPart line' cycle.before cycle.written after) :
    TabEffect answers previous line line' (some cycle)
  | nothing (hnone : ∀ cycle after, ¬Completes answers none line cycle after) :
    TabEffect answers none line line none

theorem TabEffect.unanswered (h : TabEffect (some answer) none line line' cycle)
    (hnone : ∀ before word after, line.text = before ++ word ++ after → answer word = []) :
    line' = line := by
  cases h with
  | nothing => rfl
  | @writes _ _ _ _ cycle hcompletes hwrites =>
    cases hcompletes with
    | fresh hanswers hword hpart hcandidates hindex =>
      have hlt := cycle.index_lt
      rw [hcandidates, ← Option.some.inj hanswers, hnone _ _ _ hpart.text] at hlt
      exact absurd hlt (Nat.not_lt_zero _)

theorem wordStart_le (text : Utf16) (position : Nat) : wordStart text position ≤ position := by
  induction position with
  | zero => exact Nat.le_refl 0
  | succ position ih =>
    rw [wordStart]
    split
    · exact Nat.le_refl _
    · exact Nat.le_succ_of_le ih

theorem solid_of_wordStart {text : Utf16} (hle : wordStart text position ≤ index)
    (hlt : index < position) : QtCharacters.isSpace (text.getD index 0) = false := by
  induction position with
  | zero => exact absurd hlt (Nat.not_lt_zero _)
  | succ position ih =>
    rw [wordStart] at hle
    split at hle
    · omega
    · next hsolid =>
      rcases Nat.lt_succ_iff_lt_or_eq.mp hlt with hlt | rfl
      · exact ih hle hlt
      · exact Bool.eq_false_iff.mpr hsolid

theorem space_of_wordStart {text : Utf16} (h : wordStart text position = index + 1) :
    QtCharacters.isSpace (text.getD index 0) = true := by
  induction position with
  | zero => cases h
  | succ position ih =>
    rw [wordStart] at h
    split at h
    · next hspace =>
      cases h
      exact hspace
    · exact ih h

theorem isWord_wordStart (line : QLineEdit)
    (hne : wordStart line.text line.cursorPosition ≠ line.cursorPosition) :
    let start := wordStart line.text line.cursorPosition
    IsWord (line.text.take start)
      ((line.text.drop start).take (line.cursorPosition - start)) where
  ne := by
    intro hnil
    have hlength := congrArg List.length hnil
    have hle := wordStart_le line.text line.cursorPosition
    have hcursor := line.cursorPosition_le
    rw [List.length_take, List.length_drop, List.length_nil] at hlength
    omega
  solid := by
    intro character hm
    obtain ⟨i, hi, rfl⟩ := List.mem_iff_getElem.mp hm
    rw [List.length_take, List.length_drop] at hi
    have hlt : wordStart line.text line.cursorPosition + i < line.cursorPosition := by omega
    have hsolid := solid_of_wordStart (Nat.le_add_right _ i) hlt
    rw [List.getElem_take, List.getElem_drop]
    rwa [List.getD_eq_getElem _ _ (by omega)] at hsolid
  start := by
    intro character hlast
    have hle := wordStart_le line.text line.cursorPosition
    have hcursor := line.cursorPosition_le
    cases hstart : wordStart line.text line.cursorPosition with
    | zero =>
      rw [hstart, List.take_zero] at hlast
      cases hlast
    | succ index =>
      rw [hstart, getLast?_take (by omega), Option.mem_some] at hlast
      rw [← hlast]
      exact space_of_wordStart hstart

theorem hasPart_wordStart (line : QLineEdit) :
    let start := wordStart line.text line.cursorPosition
    HasPart line (line.text.take start) ((line.text.drop start).take (line.cursorPosition - start))
      (line.text.drop line.cursorPosition) := by
  have hle := wordStart_le line.text line.cursorPosition
  have hcursor := line.cursorPosition_le
  refine ⟨?_, ?_⟩
  · have hdrop : line.text.drop line.cursorPosition =
        (line.text.drop (wordStart line.text line.cursorPosition)).drop
          (line.cursorPosition - wordStart line.text line.cursorPosition) := by
      rw [List.drop_drop, Nat.add_sub_cancel' hle]
    rw [hdrop, List.append_assoc, List.take_append_drop, List.take_append_drop]
  · rw [List.length_take, List.length_take, List.length_drop]
    omega

theorem wordStart_of_part {line : QLineEdit} (hword : IsWord before word)
    (hpart : HasPart line before word after) :
    wordStart line.text line.cursorPosition = before.length := by
  have hsteps : ∀ length ≤ word.length,
      wordStart line.text (before.length + length) = before.length := by
    intro length hle
    induction length with
    | zero =>
      rcases List.eq_nil_or_concat before with rfl | ⟨initial, character, rfl⟩
      · rfl
      · have hspace := hword.start character (by simp)
        have hget : line.text.getD initial.length 0 = character := by
          rw [hpart.text]
          simp
        rw [Nat.add_zero, List.length_concat, wordStart, hget, if_pos hspace]
    | succ length ih =>
      have hget : line.text.getD (before.length + length) 0 = word.get ⟨length, hle⟩ := by
        rw [hpart.text, List.getD_eq_getElem _ _ (by simp; omega)]
        simp [Nat.lt_of_succ_le hle]
      have hsolid := hword.solid _ (List.get_mem word ⟨length, hle⟩)
      rw [← Nat.add_assoc, wordStart, hget, hsolid, if_neg Bool.false_ne_true]
      exact ih (Nat.le_of_succ_le hle)
  rw [hpart.cursor]
  exact hsteps word.length (Nat.le_refl _)

end

def KeyPress.isTab : KeyPress κ → Bool
  | .tab _ => true
  | _ => false

namespace ChatInputLine

def cycle? (input : ChatInputLine κ) : Option Cycle :=
  if h : input.isCompleting = true ∧ input.completionIndex < input.completionMatches.length then
    some
      { before := input.text.take input.completionPrefixStart
        candidates := input.completionMatches
        index := input.completionIndex
        index_lt := h.2 }
  else none

def answers (input : ChatInputLine κ) (read : κ) : Option (Utf16 → List Utf16) :=
  input.completionProvider.map fun provider => provider read

theorem hasPart_writeCompletion {input : ChatInputLine κ} (cycle : Cycle)
    (hmatches : input.completionMatches = cycle.candidates)
    (hindex : input.completionIndex = cycle.index)
    (hstart : input.completionPrefixStart = cycle.before.length)
    (hpart : HasPart input.toQLineEdit cycle.before word after)
    (hroom : (cycle.before ++ cycle.written ++ after).length ≤ maxLength) :
    HasPart input.writeCompletion.toQLineEdit cycle.before cycle.written after := by
  have hwritten : (input.completionMatches.getD input.completionIndex [] ++
      if input.completionPrefixStart = 0 then leadingCompletionSuffix else []) =
        cycle.written := by
    rw [hmatches, hindex, hstart, List.getD_eq_getElem _ _ cycle.index_lt, Cycle.written, written]
    simp only [List.length_eq_zero_iff]
    rfl
  have hlength : (input.cursorPosition : Int) - input.completionPrefixStart = word.length := by
    rw [hpart.cursor, hstart]
    omega
  have htext : replaced input.text input.completionPrefixStart
      (input.cursorPosition - input.completionPrefixStart) cycle.written =
        cycle.before ++ cycle.written ++ after := by
    rw [hlength, hpart.text, hstart]
    exact replaced_part cycle.before word after cycle.written
  have hwrites : input.writeCompletion.toQLineEdit =
      (input.toQLineEdit.setText (cycle.before ++ cycle.written ++ after)).setCursorPosition
        (cycle.before.length + cycle.written.length) := by
    rw [writeCompletion]
    dsimp only
    rw [hwritten, htext, hstart]
  rw [hwrites]
  exact hasPart_setText input.toQLineEdit hroom

/-- The fields describe the completion that is on the line. -/
structure Holds (cycle : Cycle) (input : ChatInputLine κ) : Prop where
  provider : input.completionProvider ≠ none
  isCompleting : input.isCompleting = true
  matches_eq : input.completionMatches = cycle.candidates
  index : input.completionIndex = cycle.index
  start : input.completionPrefixStart = cycle.before.length
  part : ∃ after, HasPart input.toQLineEdit cycle.before cycle.written after

theorem Holds.cycle?_eq {input : ChatInputLine κ} (h : Holds cycle input) :
    input.cycle? = some cycle := by
  obtain ⟨after, hpart⟩ := h.part
  have hlt : input.completionIndex < input.completionMatches.length := by
    rw [h.index, h.matches_eq]
    exact cycle.index_lt
  have hbefore : input.text.take input.completionPrefixStart = cycle.before := by
    rw [h.start, hpart.text, List.append_assoc, List.take_left]
  rw [cycle?, dif_pos ⟨h.isCompleting, hlt⟩, Option.some_inj]
  cases cycle
  simp only [Cycle.mk.injEq]
  exact ⟨hbefore, h.matches_eq, h.index⟩

theorem candidates_of_cycle? {input : ChatInputLine κ} (h : input.cycle? = some cycle) :
    cycle.candidates = input.completionMatches := by
  rw [cycle?] at h
  split at h
  · cases h
    rfl
  · cases h

theorem cycle?_eq_none {input : ChatInputLine κ} (h : input.isCompleting = false) :
    input.cycle? = none := by
  rw [cycle?, dif_neg]
  rw [h]
  exact fun hand => Bool.false_ne_true hand.1

/-- The fields know of the completion that the key before wrote, and of no other. -/
structure Tracks (afterTab : Bool) (previous : Option Cycle) (input : ChatInputLine κ) : Prop where
  clear : previous = none → afterTab = true → input.isCompleting = false
  holds : ∀ cycle, previous = some cycle → Holds cycle input

theorem tracks_none {input : ChatInputLine κ} (h : afterTab = true → input.isCompleting = false) :
    Tracks afterTab none input :=
  ⟨fun _ => h, fun _ hsome => absurd hsome.symm (Option.some_ne_none _)⟩

theorem Holds.tracks {input : ChatInputLine κ} (h : Holds cycle input) :
    Tracks true (some cycle) input :=
  ⟨fun hnone => absurd hnone (Option.some_ne_none _), fun _ hsome => Option.some.inj hsome ▸ h⟩

theorem tracks_untabbed (input : ChatInputLine κ) : Tracks false none input :=
  tracks_none fun h => absurd h Bool.false_ne_true

section
variable [QtCharacters]

/-- There is room in the field for what a Tab has to write. -/
def HasRoom (input : ChatInputLine κ) (read : κ) : Prop :=
  ∀ cycle after, Completes (input.answers read) input.cycle? input.toQLineEdit cycle after →
    (cycle.before ++ cycle.written ++ after).length ≤ maxLength

theorem Holds.tab {input : ChatInputLine κ} {read : κ} (h : Holds cycle input)
    (hroom : input.HasRoom read) :
    ∃ after, HasPart input.toQLineEdit cycle.before cycle.written after ∧
      HasPart (input.performCompletion read).toQLineEdit cycle.before cycle.next.written after ∧
        Holds cycle.next (input.performCompletion read) := by
  obtain ⟨after, hpart⟩ := h.part
  have hfits := hroom cycle.next after (h.cycle?_eq ▸ .next hpart)
  have hnext : (input.completionIndex + 1) % input.completionMatches.length =
      cycle.next.index := by
    rw [h.index, h.matches_eq]
    rfl
  obtain ⟨provider, hprovider⟩ := Option.ne_none_iff_exists'.mp h.provider
  have hpress : input.performCompletion read =
      writeCompletion { input with completionIndex := cycle.next.index } := by
    rw [performCompletion, hprovider, ← hnext]
    exact if_pos h.isCompleting
  have hwrites : HasPart (input.performCompletion read).toQLineEdit cycle.next.before
      cycle.next.written after := by
    rw [hpress]
    exact hasPart_writeCompletion cycle.next h.matches_eq rfl h.start hpart hfits
  refine ⟨after, hpart, hwrites, ?_⟩
  rw [hpress] at hwrites ⊢
  exact ⟨h.provider, h.isCompleting, h.matches_eq, rfl, h.start, after, hwrites⟩

theorem not_completes {input : ChatInputLine κ} {read : κ}
    (h : ∀ provider, input.completionProvider = some provider →
      let start := wordStart input.text input.cursorPosition
      start ≠ input.cursorPosition →
        provider read ((input.text.drop start).take (input.cursorPosition - start)) = []) :
    ∀ cycle after, ¬Completes (input.answers read) none input.toQLineEdit cycle after := by
  intro cycle after hcompletes
  cases hcompletes with
  | @fresh _ word _ _ _ hanswers hword hpart hcandidates hindex =>
    rw [answers, Option.map_eq_some_iff] at hanswers
    obtain ⟨provider, hprovider, rfl⟩ := hanswers
    have hstart := wordStart_of_part hword hpart
    have hlength := List.length_pos_iff.mpr hword.ne
    have hcursor := hpart.cursor
    have hnone := h provider hprovider (by omega)
    have hfound : (input.text.drop cycle.before.length).take
        (input.cursorPosition - cycle.before.length) = word := by
      rw [hcursor, hpart.text, Nat.add_sub_cancel_left, List.append_assoc, List.drop_left,
        List.take_left]
    rw [hstart, hfound, ← hcandidates] at hnone
    have hlt := cycle.index_lt
    rw [hnone] at hlt
    exact absurd hlt (Nat.not_lt_zero _)

theorem performCompletion_idle {input : ChatInputLine κ} {read : κ}
    (hidle : input.isCompleting = false) (hprovider : input.completionProvider = some provider)
    (hstart : wordStart input.text input.cursorPosition ≠ input.cursorPosition) :
    let found := input.searchMatches (wordStart input.text input.cursorPosition) (provider read)
    input.performCompletion read =
      if found.completionMatches = [] then found
      else writeCompletion { found with isCompleting := true } := by
  intro found
  rw [performCompletion, hprovider]
  dsimp only
  rw [hidle, if_neg Bool.false_ne_true, if_neg hstart]

theorem freshTab_some {input : ChatInputLine κ} {read : κ} (hidle : input.isCompleting = false)
    (hroom : input.HasRoom read) (hprovider : input.completionProvider = some provider)
    (hstart : wordStart input.text input.cursorPosition ≠ input.cursorPosition)
    (hsome : (input.searchMatches (wordStart input.text input.cursorPosition)
      (provider read)).completionMatches ≠ []) :
    ∃ cycle after, Completes (input.answers read) none input.toQLineEdit cycle after ∧
      HasPart (input.performCompletion read).toQLineEdit cycle.before cycle.written after ∧
        Holds cycle (input.performCompletion read) := by
  have hpart := hasPart_wordStart input.toQLineEdit
  let found := input.searchMatches (wordStart input.text input.cursorPosition) (provider read)
  let cycle : Cycle :=
    { before := input.text.take (wordStart input.text input.cursorPosition)
      candidates := found.completionMatches
      index := 0
      index_lt := List.length_pos_iff.mpr hsome }
  have hanswers : input.answers read = some (provider read) := by
    rw [answers, hprovider]
    rfl
  have hcompletes : Completes (input.answers read) none input.toQLineEdit cycle
      (input.text.drop input.cursorPosition) :=
    .fresh hanswers (isWord_wordStart input.toQLineEdit hstart) hpart rfl rfl
  have hlength : wordStart input.text input.cursorPosition = cycle.before.length := by
    rw [List.length_take]
    exact (Nat.min_eq_left (Nat.le_trans (wordStart_le _ _) input.cursorPosition_le)).symm
  have hfits := hroom cycle _ ((cycle?_eq_none hidle).symm ▸ hcompletes)
  have hpress : input.performCompletion read = writeCompletion { found with isCompleting := true } :=
    (performCompletion_idle hidle hprovider hstart).trans (if_neg hsome)
  have hwrites : HasPart (input.performCompletion read).toQLineEdit cycle.before cycle.written
      (input.text.drop input.cursorPosition) := by
    rw [hpress]
    exact hasPart_writeCompletion cycle rfl rfl hlength hpart hfits
  have hprovided : input.completionProvider ≠ none := by
    rw [hprovider]
    exact Option.some_ne_none provider
  refine ⟨cycle, _, hcompletes, hwrites, ?_⟩
  rw [hpress] at hwrites ⊢
  exact ⟨hprovided, rfl, rfl, rfl, hlength, _, hwrites⟩

/-- A Tab without a completion before it finds the word at the cursor, or does nothing. -/
theorem freshTab {input : ChatInputLine κ} {read : κ} (hidle : input.isCompleting = false)
    (hroom : input.HasRoom read) :
    (∃ cycle after, Completes (input.answers read) none input.toQLineEdit cycle after ∧
      HasPart (input.performCompletion read).toQLineEdit cycle.before cycle.written after ∧
        Holds cycle (input.performCompletion read)) ∨
    (∀ cycle after, ¬Completes (input.answers read) none input.toQLineEdit cycle after) ∧
      (input.performCompletion read).toQLineEdit = input.toQLineEdit ∧
        (input.performCompletion read).isCompleting = false := by
  cases hprovider : input.completionProvider with
  | none =>
    have hpress : input.performCompletion read = input := by
      rw [performCompletion, hprovider]
    have hnone : ∀ cycle after,
        ¬Completes (input.answers read) none input.toQLineEdit cycle after := by
      apply not_completes
      intro provider h
      rw [hprovider] at h
      cases h
    rw [hpress]
    exact .inr ⟨hnone, rfl, hidle⟩
  | some provider =>
    by_cases hstart : wordStart input.text input.cursorPosition = input.cursorPosition
    · have hpress : input.performCompletion read = input := by
        rw [performCompletion, hprovider]
        dsimp only
        rw [hidle, if_neg Bool.false_ne_true, if_pos hstart]
      rw [hpress]
      exact .inr ⟨not_completes fun _ _ hne => absurd hstart hne, rfl, hidle⟩
    · by_cases hmatches : (input.searchMatches (wordStart input.text input.cursorPosition)
          (provider read)).completionMatches = []
      · have hnone : ∀ cycle after,
            ¬Completes (input.answers read) none input.toQLineEdit cycle after := by
          apply not_completes
          intro provider' h _ _
          rw [hprovider, Option.some_inj] at h
          rw [← h]
          exact hmatches
        rw [performCompletion_idle hidle hprovider hstart, if_pos hmatches]
        exact .inr ⟨hnone, rfl, hidle⟩
      · exact .inl (freshTab_some hidle hroom hprovider hstart hmatches)

/-- What a key does to the line, and which completion it leaves to the next key. -/
def KeyEffect (previous : Option Cycle) (input : ChatInputLine κ) :
    KeyPress κ → Option Cycle → Prop
  | .tab read, cycle => TabEffect (input.answers read) previous input.toQLineEdit
      (input.keyPressEvent (.tab read)).toQLineEdit cycle
  | _, cycle => cycle = none

/-- Each Tab touches the word that it completes and nothing else. -/
def TouchesOnlyWords : Option Cycle → ChatInputLine κ → List (KeyPress κ) → Prop
  | _, _, [] => True
  | previous, input, key :: keys => ∃ cycle, KeyEffect previous input key cycle ∧
      TouchesOnlyWords cycle (input.keyPressEvent key) keys

/-- No completion is gone on with after another key, and what is written fits. -/
def KeyFits (afterTab : Bool) (input : ChatInputLine κ) : KeyPress κ → Prop
  | .tab read => (input.isCompleting = true → afterTab = true) ∧ input.HasRoom read
  | _ => True

def KeysFit : Bool → ChatInputLine κ → List (KeyPress κ) → Prop
  | _, _, [] => True
  | afterTab, input, key :: keys => KeyFits afterTab input key ∧
      KeysFit key.isTab (input.keyPressEvent key) keys

theorem Tracks.tab {input : ChatInputLine κ} {read : κ} (h : Tracks afterTab previous input)
    (hfits : KeyFits afterTab input (.tab read)) :
    ∃ cycle, KeyEffect previous input (.tab read) cycle ∧
      Tracks true cycle (input.keyPressEvent (.tab read)) := by
  obtain ⟨hclear, hroom⟩ := hfits
  cases previous with
  | some cycle =>
    obtain ⟨after, hpart, hwrites, hholds⟩ := (h.holds cycle rfl).tab hroom
    exact ⟨some cycle.next, .writes (.next hpart) hwrites, hholds.tracks⟩
  | none =>
    have hidle : input.isCompleting = false := by
      rw [← Bool.not_eq_true]
      intro hcompleting
      have hnot := h.clear rfl (hclear hcompleting)
      exact Bool.false_ne_true (hnot.symm.trans hcompleting)
    rcases freshTab hidle hroom with ⟨cycle, after, hcompletes, hwrites, hholds⟩ |
      ⟨hnone, hsame, hstill⟩
    · exact ⟨some cycle, .writes hcompletes hwrites, hholds.tracks⟩
    · have heffect : TabEffect (input.answers read) none input.toQLineEdit
          (input.performCompletion read).toQLineEdit none := by
        rw [hsame]
        exact .nothing hnone
      exact ⟨none, heffect, tracks_none fun _ => hstill⟩

theorem Tracks.key {input : ChatInputLine κ} (h : Tracks afterTab previous input)
    {key : KeyPress κ} (hfits : KeyFits afterTab input key) :
    ∃ cycle, KeyEffect previous input key cycle ∧
      Tracks key.isTab cycle (input.keyPressEvent key) := by
  cases key with
  | tab read => exact h.tab hfits
  | up => exact ⟨none, rfl, tracks_untabbed _⟩
  | down => exact ⟨none, rfl, tracks_untabbed _⟩
  | returnKey => exact ⟨none, rfl, tracks_untabbed _⟩
  | other edited => exact ⟨none, rfl, tracks_untabbed _⟩

theorem Tracks.touchesOnlyWords {input : ChatInputLine κ} (h : Tracks afterTab previous input)
    {keys : List (KeyPress κ)} (hfit : KeysFit afterTab input keys) :
    TouchesOnlyWords previous input keys := by
  induction keys generalizing afterTab previous input with
  | nil => trivial
  | cons key keys ih =>
    obtain ⟨cycle, heffect, htracks⟩ := h.key hfit.1
    exact ⟨cycle, heffect, ih htracks hfit.2⟩

/-- Whatever the line was before, the keys that fit keep to the words. -/
theorem tabs_touch_only_words (input : ChatInputLine κ) (keys : List (KeyPress κ))
    (hfit : KeysFit false input keys) : TouchesOnlyWords none input keys :=
  (tracks_untabbed input).touchesOnlyWords hfit

theorem hasRoom_of_length {input : ChatInputLine κ} {read : κ}
    (hanswers : ∀ answer ∈ input.answers read, ∀ word, ∀ candidate ∈ answer word,
      input.text.length + candidate.length + 2 ≤ maxLength)
    (hmatches : ∀ candidate ∈ input.completionMatches,
      input.text.length + candidate.length + 2 ≤ maxLength) : input.HasRoom read := by
  have hfits : ∀ {part after} (cycle : Cycle),
      HasPart input.toQLineEdit cycle.before part after →
      (∀ candidate ∈ cycle.candidates, input.text.length + candidate.length + 2 ≤ maxLength) →
      (cycle.before ++ cycle.written ++ after).length ≤ maxLength := by
    intro part after cycle hpart hcandidates
    have hcandidate := hcandidates _ (List.get_mem cycle.candidates ⟨cycle.index, cycle.index_lt⟩)
    have hlength := length_written cycle.before
      (cycle.candidates.get ⟨cycle.index, cycle.index_lt⟩)
    rw [hpart.text, List.length_append, List.length_append] at hcandidate
    rw [List.length_append, List.length_append, Cycle.written]
    omega
  intro cycle after hcompletes
  generalize hprevious : input.cycle? = previous at hcompletes
  cases hcompletes with
  | @next _ _ previous hpart =>
    refine hfits previous.next hpart fun candidate hm => hmatches candidate ?_
    rwa [← candidates_of_cycle? hprevious]
  | @fresh _ word _ _ _ hanswer hword hpart hcandidates hindex =>
    refine hfits cycle hpart fun candidate hm => hanswers _ hanswer word candidate ?_
    rwa [← hcandidates]

end

section
attribute [local instance] plainCharacters

/-- Two users whose names start with "ke". -/
def keNames (word : Utf16) : List Utf16 :=
  if word = fromLatin1 "ke" then [fromLatin1 "kevin", fromLatin1 "kermit"] else []

def keProvider : Option (Unit → Utf16 → List Utf16) := some fun _ => keNames

theorem tabs_touch_only_words_ke : TouchesOnlyWords none (new keProvider)
    [.other (.typed "ke"), .tab (), .tab ()] := by
  have hnames : ∀ word, ∀ candidate ∈ keNames word, 7 + candidate.length + 2 ≤ maxLength := by
    intro word
    rw [keNames]
    split
    · decide
    · exact fun _ hm => absurd hm List.not_mem_nil
  refine tabs_touch_only_words _ _ ⟨trivial, ⟨by decide, ?_⟩, ⟨by decide, ?_⟩, trivial⟩
  · apply hasRoom_of_length
    · rintro _ ⟨⟩ word candidate hm
      have hlength : ((new keProvider).keyPressEvent (.other (.typed "ke"))).text.length ≤ 7 := by
        decide
      have hfits := hnames word candidate hm
      omega
    · decide
  · apply hasRoom_of_length
    · rintro _ ⟨⟩ word candidate hm
      exact hnames word candidate hm
    · decide

/-- An entry of the history is called up between two Tabs, and overwritten by the second one. -/
def keysWithUp : List (KeyPress Unit) :=
  [.other (.typed "hi"), .returnKey, .other (.typed "ke"), .tab (), .up, .tab ()]

/-- The second Tab goes on with a completion that is not on the line any more. -/
theorem tab_after_up_overwrites :
    ¬∀ keys, TouchesOnlyWords none (new keProvider) keys := by
  intro h
  obtain ⟨_, -, _, -, _, -, _, -, _, rfl, _, heffect, -⟩ := h keysWithUp
  have hsame := TabEffect.unanswered heffect ?_
  · exact absurd (congrArg QLineEdit.text hsame) (by decide)
  · intro before word after htext
    refine if_neg ?_
    rintro rfl
    have hm : (0x6B : UInt16) ∈ before ++ fromLatin1 "ke" ++ after :=
      List.mem_append_left _ (List.mem_append_right _ (by decide))
    rw [← htext] at hm
    exact absurd hm (by decide)

end

end ChatInputLine

end HiTuxShare
