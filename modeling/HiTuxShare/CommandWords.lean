import HiTuxShare.TypedLines

namespace HiTuxShare
set_option autoImplicit true

open MuscleText

/-- How a text is typed that is to be said as it is. -/
def typedAs (text : String) : String := if startsWith text "/" then "/" ++ text else text

section
variable [MuscleText]

theorem trimmedText_escaped {text : String} (htext : trimmedText text = text)
    (hslash : startsWith text "/" = true) : trimmedText ("/" ++ text) = "/" ++ text := by
  obtain ⟨rest, hrest⟩ := startsWith_slash_iff.mp hslash
  have htrim : trim isSpaceChar text.toList = text.toList := by
    rw [← trimmedText_toList, htext]
  have hfirst : isSpaceChar '/' = false :=
    head_of_dropWhile_eq_cons ((dropWhile_of_trim_eq htrim).trans hrest)
  have hblank : ¬IsBlank text.toList := by
    rw [hrest]
    exact not_blank_cons hfirst rest
  apply String.toList_inj.mp
  rw [trimmedText_toList, String.toList_append]
  have hline := trim_slash hfirst [] hblank
  rwa [rdropWhile_of_trim_eq htrim] at hline

/-- Whatever the aliases are, any text can be said. -/
theorem parse_expand_typedAs (aliases : ChatAliases) {text : String}
    (htrimmed : trimmedText text = text) :
    (parse (ChatAliases.expand aliases (typedAs text))).type = .none ∧
      (parse (ChatAliases.expand aliases (typedAs text))).argument = text := by
  rw [typedAs]
  cases hslash : startsWith text "/" with
  | false =>
    have hexpand : ChatAliases.expand aliases text = text := by
      simp only [ChatAliases.expand, htrimmed, hslash, true_or, if_true]
    rw [if_neg Bool.false_ne_true, hexpand, parse_eq, htrimmed, if_pos hslash]
    exact ⟨rfl, rfl⟩
  | true =>
    have hline := trimmedText_escaped htrimmed hslash
    obtain ⟨rest, hrest⟩ := startsWith_slash_iff.mp hslash
    have hlist : ("/" ++ text).toList = '/' :: '/' :: rest := by
      rw [String.toList_append, hrest]
      rfl
    have hescaped : startsWith ("/" ++ text) "//" = true := by
      rw [startsWith, hlist]
      rfl
    have hcommand : startsWith ("/" ++ text) "/" = true := startsWith_slash_iff.mpr ⟨_, hlist⟩
    have hexpand : ChatAliases.expand aliases ("/" ++ text) = "/" ++ text := by
      simp only [ChatAliases.expand, hline, hescaped, or_true, if_true]
    have hargument : substring ("/" ++ text) 1 = text := by
      apply String.toList_inj.mp
      rw [substring_toList, String.toList_append]
      rfl
    rw [if_pos rfl, hexpand, parse_eq, hline, hcommand, if_neg Bool.true_eq_false_eq_False,
      if_pos hescaped, hargument]
    exact ⟨rfl, rfl⟩

end

/-- What follows the slash of two lines that differ in the letter case of the word only. -/
structure RecasedWord (word word' rest : List Char) : Prop where
  one : ' ' ∉ word
  same : word.map Char.toLower = word'.map Char.toLower
  apart : rest = [] ∨ ∃ later, rest = ' ' :: later
  single : ∀ later, word ++ rest ≠ '/' :: later

namespace RecasedWord

theorem symm (h : RecasedWord word word' rest) : RecasedWord word' word rest where
  one := by
    intro hm
    have hlower := List.mem_map_of_mem (f := Char.toLower) hm
    rw [← h.same] at hlower
    obtain ⟨c, hc, hspace⟩ := List.mem_map.mp hlower
    rw [(toLower_eq_iff (by decide) c).mp hspace] at hc
    exact h.one hc
  same := h.same.symm
  apart := h.apart
  single := by
    intro later he
    cases word with
    | nil =>
      have hnil : word' = [] := List.map_eq_nil_iff.mp h.same.symm
      rw [hnil] at he
      exact h.single later he
    | cons first word =>
      cases word' with
      | nil => cases h.same
      | cons first' word' =>
        obtain ⟨rfl, rfl⟩ := List.cons_eq_cons.mp he
        have hfirst : first = '/' :=
          (toLower_eq_iff (by decide) first).mp (List.head_eq_of_cons_eq h.same)
        exact h.single (word ++ rest) (by rw [hfirst, List.cons_append])

theorem takeWhile (h : RecasedWord word word' rest) :
    (word ++ rest).takeWhile (· ≠ ' ') = word := by
  have hall : ∀ c ∈ word, decide (c ≠ ' ') = true := by
    intro c hm
    apply decide_eq_true
    rintro rfl
    exact h.one hm
  rw [List.takeWhile_append_of_pos hall]
  rcases h.apart with rfl | ⟨later, rfl⟩
  · exact List.append_nil word
  · exact List.append_nil word

theorem dropWhile (h : RecasedWord word word' rest) :
    (word ++ rest).dropWhile (· ≠ ' ') = rest := by
  have hsplit := List.takeWhile_append_dropWhile (p := (· ≠ ' ')) (l := word ++ rest)
  rw [h.takeWhile] at hsplit
  exact List.append_cancel_left hsplit

end RecasedWord

section
variable [MuscleText]

/-- The word that `Parse` looks up in its table. -/
def commandWord (input : String) : String := (splitWord (substring (trimmedText input) 1)).1

/-- Two lines with a single slash in front that differ in the letter case of the command word
only. -/
inductive Recased : String → String → Prop where
  | intro (hlead : IsBlank lead) (h : RecasedWord word word' rest) :
    Recased (.ofList (lead ++ '/' :: (word ++ rest))) (.ofList (lead ++ '/' :: (word' ++ rest)))

/-- The argument of an action is the whole line with the word in it. -/
structure SameCommand (command command' : ChatCommand) : Prop where
  type : command.type = command'.type
  target : command.target = command'.target
  argument : command.type ≠ .action → command.argument = command'.argument
  recased : toLowerCase command.argument = toLowerCase command'.argument

/-- Trimming the line takes nothing away from one word that it leaves to the other. -/
theorem RecasedWord.trimmed (hspace : PlainWhiteSpace) (h : RecasedWord word word' rest) :
    ∃ word₁ word₁' rest₁, RecasedWord word₁ word₁' rest₁ ∧
      (word ++ rest).rdropWhile isSpaceChar = word₁ ++ rest₁ ∧
      (word' ++ rest).rdropWhile isSpaceChar = word₁' ++ rest₁ := by
  have hsingle {shorter : List Char} (hshorter : shorter <+: word ++ rest) :
      ∀ later, shorter ≠ '/' :: later := by
    rintro later rfl
    obtain ⟨more, hmore⟩ := hshorter
    exact h.single (later ++ more) hmore.symm
  by_cases hblank : IsBlank rest
  · refine ⟨word.rdropWhile isSpaceChar, word'.rdropWhile isSpaceChar, [], ?_, ?_, ?_⟩
    · constructor
      · exact fun hm => h.one ((List.rdropWhile_prefix isSpaceChar _).subset hm)
      · rw [← rdropWhile_map hspace.toLower, ← rdropWhile_map hspace.toLower, h.same]
      · exact .inl rfl
      · rw [List.append_nil]
        exact hsingle ((List.rdropWhile_prefix isSpaceChar _).trans (List.prefix_append _ _))
    · rw [rdropWhile_append_of_all hblank, List.append_nil]
    · rw [rdropWhile_append_of_all hblank, List.append_nil]
  · refine ⟨word, word', rest.rdropWhile isSpaceChar, ⟨h.one, h.same, ?_, ?_⟩, ?_, ?_⟩
    · rcases h.apart with rfl | ⟨later, rfl⟩
      · exact .inl rfl
      · have hlater : ¬IsBlank later := fun hall =>
          hblank (List.forall_mem_cons.mpr ⟨hspace.space, hall⟩)
        exact .inr ⟨_, rdropWhile_append_of_not_all hlater (l := [' '])⟩
    · exact hsingle ((List.prefix_append_right_inj word).mpr (List.rdropWhile_prefix _ _))
    · exact rdropWhile_append_of_not_all hblank
    · exact rdropWhile_append_of_not_all hblank

theorem Recased.trimmed (hspace : PlainWhiteSpace) (h : Recased input input') :
    ∃ word word' rest, RecasedWord word word' rest ∧
      (trimmedText input).toList = '/' :: (word ++ rest) ∧
      (trimmedText input').toList = '/' :: (word' ++ rest) := by
  obtain @⟨lead, word, word', rest, hlead, h⟩ := h
  have hline (tail : List Char) : (trimmedText (.ofList (lead ++ '/' :: tail))).toList =
      '/' :: tail.rdropWhile isSpaceChar := by
    rw [trimmedText_toList, String.toList_ofList, trim_append_of_all hlead, trim,
      List.dropWhile_cons_of_neg (by rw [hspace.slash]; exact Bool.false_ne_true)]
    exact rdropWhile_cons_of_neg hspace.slash tail
  obtain ⟨word₁, word₁', rest₁, h₁, hword, hword'⟩ := h.trimmed hspace
  refine ⟨word₁, word₁', rest₁, h₁, ?_, ?_⟩
  · rw [hline, hword]
  · rw [hline, hword']

section
variable (h : RecasedWord word word' rest)
  (hline : (trimmedText input).toList = '/' :: (word ++ rest))
include h hline

theorem RecasedWord.commandWord_toList : (commandWord input).toList = word := by
  rw [commandWord, splitWord_fst, substring_toList, hline]
  exact h.takeWhile

theorem RecasedWord.remainder_toList :
    (splitWord (substring (trimmedText input) 1)).2.toList = trim isSpaceChar rest.tail := by
  have htail : (substring (trimmedText input) 1).toList = word ++ rest := by
    rw [substring_toList, hline]
    rfl
  rw [splitWord_snd, htail, h.dropWhile]

theorem RecasedWord.parse_eq : parse input = if word = ['m', 'e'] then
    { type := .action, commandName := "me", argument := trimmedText input }
    else parseCommandWord (substring (trimmedText input) 1) := by
  have hslash : startsWith (trimmedText input) "/" = true := startsWith_slash_iff.mpr ⟨_, hline⟩
  have hsingle : ¬startsWith (trimmedText input) "//" = true := by
    intro htwo
    obtain ⟨later, hlater⟩ := startsWith_iff_begins.mp htwo
    rw [hline] at hlater
    exact h.single later (List.tail_eq_of_cons_eq hlater).symm
  have haction : (trimmedText input = "/me" ∨ startsWith (trimmedText input) actionPrefix = true) ↔
      word = ['m', 'e'] := by
    constructor
    · rintro (heq | hstart)
      · have htail : word ++ rest = ['m', 'e'] :=
          List.tail_eq_of_cons_eq (hline.symm.trans (congrArg String.toList heq))
        rw [← h.takeWhile, htail]
        rfl
      · obtain ⟨later, hlater⟩ := startsWith_iff_begins.mp hstart
        have htail : word ++ rest = 'm' :: 'e' :: ' ' :: later :=
          (List.tail_eq_of_cons_eq (hlater.trans hline)).symm
        rw [← h.takeWhile, htail]
        rfl
    · intro hword
      rcases h.apart with rfl | ⟨later, rfl⟩
      · left
        apply String.toList_inj.mp
        rw [hline, hword]
        rfl
      · right
        apply startsWith_iff_begins.mpr
        rw [hline, hword]
        exact ⟨later, rfl⟩
  rw [HiTuxShare.parse_eq, if_neg (by rw [hslash]; exact Bool.true_eq_false_eq_False),
    if_neg hsingle]
  exact if_congr haction rfl rfl

end

theorem parseCommandWord_recased {line line' : String}
    (hword : toLowerCase (splitWord line).1 = toLowerCase (splitWord line').1)
    (hremainder : (splitWord line).2 = (splitWord line').2) :
    SameCommand (parseCommandWord line) (parseCommandWord line') := by
  simp only [parseCommandWord, hword, hremainder]
  split
  · split
    · exact ⟨rfl, rfl, fun _ => rfl, rfl⟩
    · exact ⟨rfl, rfl, fun _ => rfl, rfl⟩
  · exact ⟨rfl, rfl, fun _ => rfl, rfl⟩

/-- The letter case of a command word matters exactly for the one that stands for an action. -/
theorem parse_ignores_case_iff (hspace : PlainWhiteSpace) (h : Recased input input') :
    SameCommand (parse input) (parse input') ↔
      (commandWord input = "me" ↔ commandWord input' = "me") := by
  obtain ⟨word, word', rest, h, hline, hline'⟩ := h.trimmed hspace
  have hword := h.commandWord_toList hline
  have hword' := h.symm.commandWord_toList hline'
  have hme : commandWord input = "me" ↔ word = ['m', 'e'] := by
    rw [← hword]
    exact String.toList_inj.symm
  have hme' : commandWord input' = "me" ↔ word' = ['m', 'e'] := by
    rw [← hword']
    exact String.toList_inj.symm
  rw [hme, hme', h.parse_eq hline, h.symm.parse_eq hline']
  have htable (line : String) : (parseCommandWord line).type ≠ .action :=
    (parseCommandWord_type line).2
  by_cases hw : word = ['m', 'e']
  · by_cases hw' : word' = ['m', 'e']
    · have hsame : trimmedText input = trimmedText input' := by
        apply String.toList_inj.mp
        rw [hline, hline', hw, hw']
      rw [if_pos hw, if_pos hw', hsame]
      exact iff_of_true ⟨rfl, rfl, fun _ => rfl, rfl⟩ (iff_of_true hw hw')
    · rw [if_pos hw, if_neg hw']
      apply iff_of_false
      · exact fun hcommand => htable _ hcommand.type.symm
      · exact fun hiff => hw' (hiff.mp hw)
  · by_cases hw' : word' = ['m', 'e']
    · rw [if_neg hw, if_pos hw']
      apply iff_of_false
      · exact fun hcommand => htable _ hcommand.type
      · exact fun hiff => hw (hiff.mpr hw')
    · rw [if_neg hw, if_neg hw']
      apply iff_of_true _ (iff_of_false hw hw')
      apply parseCommandWord_recased
      · apply String.toList_inj.mp
        change (toLowerCase (commandWord input)).toList = (toLowerCase (commandWord input')).toList
        rw [toLowerCase, toLowerCase, String.toList_ofList, String.toList_ofList, hword, hword',
          h.same]
      · apply String.toList_inj.mp
        rw [h.remainder_toList hline, h.symm.remainder_toList hline']

end

section
attribute [local instance] asciiText

theorem recased_waves : Recased "/me waves" "/ME waves" := by
  have h : RecasedWord ['m', 'e'] ['M', 'E'] " waves".toList := by
    refine ⟨by decide, by decide, .inr ⟨_, rfl⟩, ?_⟩
    rintro later ⟨⟩
  have hlead : IsBlank [] := fun _ hm => absurd hm List.not_mem_nil
  exact .intro hlead h

/-- In capitals the action is no command at all. -/
theorem shouted_action_is_unknown :
    ¬∀ input input' : String, Recased input input' → SameCommand (parse input) (parse input') := by
  intro h
  have htype := (h "/me waves" "/ME waves" recased_waves).type
  exact absurd htype (by decide)

theorem parse_ignores_case_nick : SameCommand (parse "/nick ann") (parse "/Nick ann") ↔
    (commandWord "/nick ann" = "me" ↔ commandWord "/Nick ann" = "me") := by
  have hword : RecasedWord "nick".toList "Nick".toList " ann".toList := by
    refine ⟨by decide, by decide, .inr ⟨_, rfl⟩, ?_⟩
    rintro later ⟨⟩
  have hlead : IsBlank [] := fun _ hm => absurd hm List.not_mem_nil
  have h : Recased "/nick ann" "/Nick ann" := .intro hlead hword
  exact parse_ignores_case_iff asciiText_plainWhiteSpace h

/-- With an alias for waving, the text of an action is said. -/
theorem parse_expand_typedAs_action :
    (parse (ChatAliases.expand (.put .empty "me" "/me waves") (typedAs "/me waves"))).type =
        .none ∧
      (parse (ChatAliases.expand (.put .empty "me" "/me waves") (typedAs "/me waves"))).argument =
        "/me waves" := by
  have htrimmed : trimmedText "/me waves" = "/me waves" := by decide
  exact parse_expand_typedAs (.put .empty "me" "/me waves") htrimmed

end

end HiTuxShare
