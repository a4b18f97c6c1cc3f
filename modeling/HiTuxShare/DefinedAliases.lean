import HiTuxShare.ChatWindowEvents
import HiTuxShare.TypedLines

namespace HiTuxShare
set_option autoImplicit true

open MuscleText

namespace ApplicationSettings

theorem strings_addPairs (settings : ApplicationSettings) (pairs : List (String × String)) :
    (pairs.foldl (fun settings pair =>
      (settings.addString fieldAliasName pair.1).addString fieldAliasValue pair.2)
        settings).strings fieldAliasName = settings.strings fieldAliasName ++ pairs.map Prod.fst ∧
    (pairs.foldl (fun settings pair =>
      (settings.addString fieldAliasName pair.1).addString fieldAliasValue pair.2)
        settings).strings fieldAliasValue = settings.strings fieldAliasValue ++ pairs.map Prod.snd := by
  induction pairs generalizing settings with
  | nil => exact ⟨(List.append_nil _).symm, (List.append_nil _).symm⟩
  | cons pair pairs ih =>
    have hname : fieldAliasName ≠ fieldAliasValue := by decide
    rw [List.foldl_cons, (ih _).1, (ih _).2]
    simp only [Message.strings, Message.addString]
    rw [Message.items_add_of_ne _ _ _ hname.symm, Message.items_add_self, Message.items_add_self,
      Message.items_add_of_ne _ _ _ hname, List.append_assoc, List.append_assoc]
    exact ⟨rfl, rfl⟩

theorem getAliases_setAliases (settings : ApplicationSettings) (aliases : Hashtable String String) :
    (settings.setAliases aliases).getAliases = aliases := by
  have hname : fieldAliasValue ≠ fieldAliasName := by decide
  have hnoNames : ((settings.removeName fieldAliasName).removeName fieldAliasValue).strings
      fieldAliasName = [] :=
    (Message.items_removeName_of_ne _ _ hname).trans (Message.items_removeName_self _ _ _)
  have hnoValues : ((settings.removeName fieldAliasName).removeName fieldAliasValue).strings
      fieldAliasValue = [] := Message.items_removeName_self _ _ _
  obtain ⟨hnames, hvalues⟩ := strings_addPairs
    ((settings.removeName fieldAliasName).removeName fieldAliasValue) aliases.entries
  rw [getAliases, setAliases, hnames, hvalues, hnoNames, hnoValues, List.nil_append,
    List.nil_append, ← List.unzip_fst, ← List.unzip_snd, List.zip_unzip]
  exact aliases.foldl_put_empty

end ApplicationSettings

inductive AliasEvent where
  | line (input : String)
  | restart

theorem toLowerCase_toList (text : String) :
    (toLowerCase text).toList = text.toList.map Char.toLower := String.toList_ofList

theorem toLowerCase_toLowerCase (text : String) :
    toLowerCase (toLowerCase text) = toLowerCase text := by
  apply String.toList_inj.mp
  rw [toLowerCase_toList, toLowerCase_toList, List.map_map]
  exact List.map_congr_left fun c _ => toLower_toLower c

theorem equalsIgnoreCase_iff {text text' : String} :
    equalsIgnoreCase text text' ↔ toLowerCase text = toLowerCase text' := by
  rw [← String.toList_inj, toLowerCase_toList, toLowerCase_toList]
  rfl

section
variable [MuscleText]

/-- What an event makes of the definition of a name. -/
def AliasEvent.redefined (name : String) (value : Option String) : AliasEvent → Option String
  | .line input =>
    let command := parse input
    match command.type with
    | .alias =>
      if command.target ≠ "" ∧ command.argument ≠ "" ∧
        equalsIgnoreCase (trimmedText command.target) name then some command.argument else value
    | .unalias =>
      if command.argument ≠ "" ∧ equalsIgnoreCase command.argument name then none else value
    | _ => value
  | .restart => value

/-- The latest definition of a name that was accepted, unless it has been removed since. -/
def definition (es : List AliasEvent) (name : String) : Option String :=
  es.foldl (fun value e => e.redefined name value) none

/-- Every defined name is expanded, whatever its letter case, and nothing else is. -/
structure AliasesWork (aliases : ChatAliases) (meaning : String → Option String) : Prop where
  expands : meaning name = some value → ∀ rest,
    ChatAliases.expand aliases ("/" ++ name ++ " " ++ rest) =
      if trimmedText rest = "" then value else value ++ " " ++ trimmedText rest
  others : (∀ name, (meaning name).isSome → (splitWord (trimmedText input)).1 ≠ "/" ++ name) →
    ChatAliases.expand aliases input = input

/-- A name and a value as they are kept. -/
structure CleanAlias (name value : String) : Prop where
  lower : toLowerCase name = name
  trimmed : trimmedText name = name
  ne : name ≠ ""
  one : ' ' ∉ name.toList
  trimmedValue : trimmedText value = value
  valueNe : value ≠ ""

theorem trimmedText_trimmedText (text : String) :
    trimmedText (trimmedText text) = trimmedText text := by
  apply String.toList_inj.mp
  rw [trimmedText_toList, trimmedText_toList, trim_trim]

theorem trimmedText_eq_empty_iff {text : String} :
    trimmedText text = "" ↔ IsBlank text.toList := by
  rw [← String.toList_inj, trimmedText_toList]
  exact trim_eq_nil_iff

theorem toLowerCase_trimmedText (hspace : PlainWhiteSpace) (text : String) :
    toLowerCase (trimmedText text) = trimmedText (toLowerCase text) := by
  apply String.toList_inj.mp
  rw [toLowerCase_toList, trimmedText_toList, trimmedText_toList, toLowerCase_toList,
    trim_map hspace.toLower]

theorem trimmedText_of_toLowerCase (hspace : PlainWhiteSpace) {text : String}
    (h : trimmedText (toLowerCase text) = toLowerCase text) : trimmedText text = text := by
  have hlower := congrArg String.toList h
  rw [trimmedText_toList, toLowerCase_toList, trim_map hspace.toLower] at hlower
  have hlength := congrArg List.length hlower
  rw [List.length_map, List.length_map] at hlength
  apply String.toList_inj.mp
  rw [trimmedText_toList]
  exact (trim_sublist _ _).eq_of_length hlength

theorem parse_command {input : String}
    (h : (parse input).type ≠ .none ∧ (parse input).type ≠ .action) :
    parse input = parseCommandWord (substring (trimmedText input) 1) := by
  rw [parse_eq] at h ⊢
  split at h
  · exact absurd rfl h.1
  · split at h
    · exact absurd rfl h.1
    · split at h
      · exact absurd rfl h.2
      · next hslash hescaped haction =>
        rw [if_neg hslash, if_neg hescaped, if_neg haction]

theorem trimmedText_splitWord_snd (text : String) :
    trimmedText (splitWord text).2 = (splitWord text).2 := by
  apply String.toList_inj.mp
  rw [trimmedText_toList, splitWord_snd, trim_trim]

theorem parseCommandWord_parts (line : String) :
    ((parseCommandWord line).target = "" ∨
      (parseCommandWord line).target = (splitWord (splitWord line).2).1) ∧
      trimmedText (parseCommandWord line).argument = (parseCommandWord line).argument := by
  simp only [parseCommandWord]
  split
  · split
    · exact ⟨.inr rfl, trimmedText_splitWord_snd _⟩
    · exact ⟨.inl rfl, trimmedText_splitWord_snd _⟩
  · exact ⟨.inl rfl, String.toList_inj.mp (trimmedText_toList _)⟩

theorem splitWord_fst_clean {text : String} (htext : trimmedText text = text)
    (hne : (splitWord text).1 ≠ "") :
    trimmedText (splitWord text).1 ≠ "" ∧ ' ' ∉ (splitWord text).1.toList := by
  have hword := splitWord_fst text
  constructor
  · intro hblank
    have hall := trimmedText_eq_empty_iff.mp hblank
    have htrim : trim isSpaceChar text.toList = text.toList := by
      rw [← trimmedText_toList, htext]
    cases hchars : (splitWord text).1.toList with
    | nil => exact hne (String.toList_inj.mp hchars)
    | cons first word =>
      have hprefix : first :: word <+: text.toList := by
        rw [← hchars, hword]
        exact List.takeWhile_prefix _
      obtain ⟨rest, hrest⟩ := hprefix
      have hfirst : isSpaceChar first = false :=
        head_of_dropWhile_eq_cons ((dropWhile_of_trim_eq htrim).trans hrest.symm)
      exact not_blank_cons hfirst word (hchars ▸ hall)
  · intro hm
    rw [hword] at hm
    have hspace := List.mem_takeWhile_imp hm
    exact of_decide_eq_true hspace rfl

theorem cleanAlias_of_accepted (hspace : PlainWhiteSpace) {input : String}
    (htype : (parse input).type = .alias) (htarget : (parse input).target ≠ "")
    (hargument : (parse input).argument ≠ "") :
    CleanAlias (toLowerCase (trimmedText (parse input).target)) (parse input).argument := by
  have hcommand : parse input = parseCommandWord (substring (trimmedText input) 1) := by
    apply parse_command
    rw [htype]
    decide
  have hparts := parseCommandWord_parts (substring (trimmedText input) 1)
  rw [← hcommand] at hparts
  have htarget' := hparts.1.resolve_left htarget
  rw [htarget'] at htarget ⊢
  obtain ⟨hblank, hone⟩ := splitWord_fst_clean (trimmedText_splitWord_snd _) htarget
  constructor
  · exact toLowerCase_toLowerCase _
  · rw [← toLowerCase_trimmedText hspace, trimmedText_trimmedText]
  · intro hempty
    have hlist := congrArg String.toList hempty
    rw [toLowerCase_toList] at hlist
    exact hblank (String.toList_inj.mp (List.map_eq_nil_iff.mp hlist))
  · intro hm
    rw [toLowerCase_toList] at hm
    obtain ⟨c, hc, hlower⟩ := List.mem_map.mp hm
    obtain rfl := (toLower_eq_iff (by decide) c).mp hlower
    rw [trimmedText_toList] at hc
    exact hone ((trim_sublist _ _).subset hc)
  · exact hparts.2
  · exact hargument

theorem trimmedText_called (hspace : PlainWhiteSpace) {name : String}
    (htrimmed : trimmedText name = name) (hne : name ≠ "") (rest : String) :
    ∃ tail, (trimmedText ("/" ++ name ++ " " ++ rest)).toList = '/' :: (name.toList ++ tail) ∧
      (tail = [] ∨ ∃ later, tail = ' ' :: later) ∧
      trim isSpaceChar tail.tail = trim isSpaceChar rest.toList := by
  have hline : ("/" ++ name ++ " " ++ rest).toList = '/' :: name.toList ++ ' ' :: rest.toList := by
    simp only [String.toList_append]
    rw [List.append_assoc]
    rfl
  have htrim : trim isSpaceChar name.toList = name.toList := by rw [← trimmedText_toList, htrimmed]
  have hname : ¬IsBlank name.toList := by
    intro hblank
    exact hne (htrimmed.symm.trans (trimmedText_eq_empty_iff.mpr hblank))
  rw [trimmedText_toList, hline]
  by_cases hblank : IsBlank rest.toList
  · have htail : IsBlank (' ' :: rest.toList) := List.forall_mem_cons.mpr ⟨hspace.space, hblank⟩
    refine ⟨[], ?_, .inl rfl, (trim_eq_nil_iff.mpr hblank).symm⟩
    have hslash := trim_slash hspace.slash [] hname
    rw [rdropWhile_of_trim_eq htrim] at hslash
    rw [← trim_rdropWhile, rdropWhile_append_of_all htail, trim_rdropWhile, List.append_nil]
    exact hslash
  · have htail : ¬IsBlank (' ' :: rest.toList) := not_blank_append hblank [' ']
    have hcut : (' ' :: rest.toList).rdropWhile isSpaceChar =
        ' ' :: rest.toList.rdropWhile isSpaceChar :=
      rdropWhile_append_of_not_all hblank (l := [' '])
    refine ⟨_, trim_slash hspace.slash name.toList htail, .inr ⟨_, hcut⟩, ?_⟩
    rw [hcut]
    exact trim_rdropWhile _ _

theorem expand_called (hspace : PlainWhiteSpace) (aliases : ChatAliases) {name : String}
    (htrimmed : trimmedText name = name) (hne : name ≠ "") (hone : ' ' ∉ name.toList)
    (hslash : startsWith name "/" = false)
    (hdefined : aliases.get? (toLowerCase name) = some value) (rest : String) :
    ChatAliases.expand aliases ("/" ++ name ++ " " ++ rest) =
      if trimmedText rest = "" then value else value ++ " " ++ trimmedText rest := by
  obtain ⟨tail, hline, htail, hrest⟩ := trimmedText_called hspace htrimmed hne rest
  have hall : ∀ c ∈ name.toList, decide (c ≠ ' ') = true := by
    intro c hm
    apply decide_eq_true
    rintro rfl
    exact hone hm
  have hword : (name.toList ++ tail).takeWhile (· ≠ ' ') = name.toList ∧
      (name.toList ++ tail).dropWhile (· ≠ ' ') = tail := by
    rw [List.takeWhile_append_of_pos hall, List.dropWhile_append_of_pos hall]
    rcases htail with rfl | ⟨later, rfl⟩
    · exact ⟨List.append_nil _, rfl⟩
    · exact ⟨List.append_nil _, rfl⟩
  have hcut : (substring (trimmedText ("/" ++ name ++ " " ++ rest)) 1).toList =
      name.toList ++ tail := by
    rw [substring_toList, hline]
    rfl
  have hfst : (splitWord (substring (trimmedText ("/" ++ name ++ " " ++ rest)) 1)).1 = name := by
    apply String.toList_inj.mp
    rw [splitWord_fst, hcut, hword.1]
  have hsnd : (splitWord (substring (trimmedText ("/" ++ name ++ " " ++ rest)) 1)).2 =
      trimmedText rest := by
    apply String.toList_inj.mp
    rw [splitWord_snd, hcut, hword.2, trimmedText_toList, hrest]
  have hnot : ¬(startsWith (trimmedText ("/" ++ name ++ " " ++ rest)) "/" = false ∨
      startsWith (trimmedText ("/" ++ name ++ " " ++ rest)) "//") := by
    rintro (hno | htwo)
    · exact absurd (hno.symm.trans (startsWith_slash_iff.mpr ⟨_, hline⟩)) Bool.false_ne_true
    · obtain ⟨later, hlater⟩ := startsWith_iff_begins.mp htwo
      have hname : name.toList ++ tail = '/' :: later :=
        (List.tail_eq_of_cons_eq (hlater.trans hline)).symm
      cases hchars : name.toList with
      | nil => exact hne (String.toList_inj.mp hchars)
      | cons first word =>
        rw [hchars] at hname
        obtain rfl := List.head_eq_of_cons_eq hname
        exact absurd (hslash.symm.trans (startsWith_slash_iff.mpr ⟨_, hchars⟩)) Bool.false_ne_true
  simp only [ChatAliases.expand, if_neg hnot, hfst, hsnd, hdefined]
  by_cases hblank : trimmedText rest = ""
  · rw [if_pos hblank, if_neg (not_not.mpr hblank)]
  · rw [if_neg hblank, if_pos hblank]

/-- With a slash of its own in front the name is an escaped text. -/
theorem expand_escaped (hspace : PlainWhiteSpace) (aliases : ChatAliases) {name : String}
    (htrimmed : trimmedText name = name) (hslash : startsWith name "/" = true) (rest : String) :
    ChatAliases.expand aliases ("/" ++ name ++ " " ++ rest) = "/" ++ name ++ " " ++ rest := by
  have hne : name ≠ "" := by
    rintro rfl
    cases hslash
  obtain ⟨tail, hline, -, -⟩ := trimmedText_called hspace htrimmed hne rest
  obtain ⟨later, hlater⟩ := startsWith_slash_iff.mp hslash
  have htwo : startsWith (trimmedText ("/" ++ name ++ " " ++ rest)) "//" = true := by
    rw [startsWith_iff_begins, hline, hlater]
    exact ⟨_, rfl⟩
  simp only [ChatAliases.expand, htwo, or_true, if_true]

theorem trimmedText_ne_of_space (hspace : PlainWhiteSpace) (text : String) :
    trimmedText (text ++ " ") ≠ text ++ " " := by
  intro h
  have htrim := congrArg String.toList h
  rw [trimmedText_toList, String.toList_append] at htrim
  have hend := rdropWhile_of_trim_eq htrim
  have hlast : (text.toList ++ " ".toList).rdropWhile isSpaceChar =
      text.toList.rdropWhile isSpaceChar := List.rdropWhile_concat_pos _ _ _ hspace.space
  rw [hlast] at hend
  have hlength := (List.rdropWhile_prefix isSpaceChar text.toList).length_le
  rw [hend, List.length_append] at hlength
  exact absurd hlength (Nat.not_succ_le_self _)

/-- The word that a line is looked up by. -/
theorem expand_ne {aliases : ChatAliases} (h : ChatAliases.expand aliases input ≠ input) :
    ∃ word, (aliases.get? (toLowerCase word)).isSome ∧
      (splitWord (trimmedText input)).1 = "/" ++ word := by
  simp only [ChatAliases.expand] at h
  split at h
  · exact absurd rfl h
  · next hslash =>
    split at h
    · exact absurd rfl h
    · next value hdefined =>
      refine ⟨_, Option.isSome_of_eq_some hdefined, ?_⟩
      rw [not_or, Bool.not_eq_false, startsWith_iff_begins] at hslash
      obtain ⟨rest, hrest⟩ := hslash.1
      apply String.toList_inj.mp
      rw [String.toList_append, splitWord_fst, splitWord_fst, substring_toList, ← hrest]
      rfl

/-- The aliases are what the definitions are so far. -/
structure Mirrors (aliases : ChatAliases) (meaning : String → Option String) : Prop where
  get : ∀ name, aliases.get? (toLowerCase name) = meaning name
  clean : ∀ e ∈ aliases.entries, CleanAlias e.1 e.2

theorem CleanAlias.setAlias (aliases : ChatAliases)
    (h : CleanAlias (toLowerCase (trimmedText name)) value) :
    ChatAliases.setAlias aliases name value =
      aliases.put (toLowerCase (trimmedText name)) value := by
  simp only [ChatAliases.setAlias, h.trimmedValue]
  exact if_neg (not_or.mpr ⟨h.ne, h.valueNe⟩)

namespace Mirrors

theorem empty : Mirrors .empty (definition []) where
  get _ := rfl
  clean _ hm := absurd hm List.not_mem_nil

theorem cleanAlias (h : Mirrors aliases meaning) (hdefined : meaning name = some value) :
    CleanAlias (toLowerCase name) value := by
  rw [← h.get] at hdefined
  exact h.clean _ (Hashtable.get?_eq_some_iff.mp hdefined)

theorem put (h : Mirrors aliases meaning) {word value : String}
    (hclean : CleanAlias (toLowerCase word) value) :
    Mirrors (aliases.put (toLowerCase word) value) fun name =>
      if equalsIgnoreCase word name then some value else meaning name := by
  constructor
  · intro name
    rw [Hashtable.get?_put, h.get]
    exact if_congr (eq_comm.trans equalsIgnoreCase_iff.symm) rfl rfl
  · intro e hm
    rcases Hashtable.mem_entries_put hm with rfl | hm
    · exact hclean
    · exact h.clean e hm

theorem remove (h : Mirrors aliases meaning) (word : String) :
    Mirrors (aliases.remove (toLowerCase word)) fun name =>
      if equalsIgnoreCase word name then none else meaning name := by
  constructor
  · intro name
    rw [Hashtable.get?_remove, h.get]
    exact if_congr (eq_comm.trans equalsIgnoreCase_iff.symm) rfl rfl
  · intro e hm
    exact h.clean e (List.mem_of_mem_filter hm)

/-- Storing the aliases and setting them again brings back the same ones. -/
theorem reloaded (h : Mirrors aliases meaning) (settings : ApplicationSettings) :
    (settings.setAliases aliases).getAliases.entries.foldl
      (fun aliases (pair : String × String) => ChatAliases.setAlias aliases pair.1 pair.2)
      .empty = aliases := by
  have hset (aliases : ChatAliases) {e : String × String} (hclean : CleanAlias e.1 e.2) :
      ChatAliases.setAlias aliases e.1 e.2 = aliases.put e.1 e.2 := by
    have hname : toLowerCase (trimmedText e.1) = e.1 := by rw [hclean.trimmed, hclean.lower]
    have hset : ChatAliases.setAlias aliases e.1 e.2 =
        aliases.put (toLowerCase (trimmedText e.1)) e.2 :=
      CleanAlias.setAlias aliases (hname.symm ▸ hclean)
    rwa [hname] at hset
  rw [ApplicationSettings.getAliases_setAliases]
  calc _ = aliases.entries.foldl (fun aliases e => aliases.put e.1 e.2) .empty :=
        List.foldl_ext _ _ _ fun aliases e hm => hset aliases (h.clean e hm)
    _ = aliases := aliases.foldl_put_empty

end Mirrors

/-- Both conditions are about the same definitions: each name that was accepted is expanded exactly
if none of them begins with a slash. -/
theorem Mirrors.aliasesWork_iff (hspace : PlainWhiteSpace) (h : Mirrors aliases meaning) :
    AliasesWork aliases meaning ↔
      ∀ name, (meaning name).isSome → startsWith name "/" = false := by
  constructor
  · intro hwork name hdefined
    obtain ⟨value, hvalue⟩ := Option.isSome_iff_exists.mp hdefined
    have hclean := h.cleanAlias hvalue
    have htrimmed := trimmedText_of_toLowerCase hspace hclean.trimmed
    by_contra hslash
    have hexpand := hwork.expands hvalue ""
    rw [expand_escaped hspace aliases htrimmed (Bool.eq_true_of_not_eq_false hslash),
      if_pos (String.toList_inj.mp (trimmedText_toList "")), String.append_empty] at hexpand
    have hvalueTrimmed := hclean.trimmedValue
    rw [← hexpand] at hvalueTrimmed
    exact trimmedText_ne_of_space hspace _ hvalueTrimmed
  · intro hslash
    constructor
    · intro name value hvalue rest
      have hclean := h.cleanAlias hvalue
      have htrimmed := trimmedText_of_toLowerCase hspace hclean.trimmed
      have hne : name ≠ "" := by
        rintro rfl
        exact hclean.ne rfl
      have hone : ' ' ∉ name.toList := by
        intro hm
        apply hclean.one
        rw [toLowerCase_toList]
        exact List.mem_map_of_mem (f := Char.toLower) hm
      have hdefined : aliases.get? (toLowerCase name) = some value := (h.get name).trans hvalue
      exact expand_called hspace aliases htrimmed hne hone
        (hslash name (Option.isSome_of_eq_some hvalue)) hdefined rest
    · intro input hother
      by_contra hne
      obtain ⟨word, hdefined, hword⟩ := expand_ne hne
      rw [h.get] at hdefined
      exact hother word hdefined hword

end

namespace ChatWindowWorld

section
variable [QtWidgets]

theorem appendLocalLine_aliases (w : ChatWindowWorld) (type : LogMessageType) (text : String) :
    (w.appendLocalLine type text).aliases = w.aliases := rfl

theorem saveAliases_aliases (w : ChatWindowWorld) : w.saveAliases.aliases = w.aliases := rfl

variable [MuscleText]

theorem handleAliasCommand_aliases (w : ChatWindowWorld) (target argument : String) :
    (w.handleAliasCommand target argument).aliases =
      if target = "" ∨ argument = "" then w.aliases
      else ChatAliases.setAlias w.aliases target argument := by
  rw [handleAliasCommand, listAliases]
  by_cases htarget : target = ""
  · rw [if_pos htarget, if_pos (Or.inl htarget)]
    split
    · rfl
    · apply List.foldlRecOn (motive := fun w' : ChatWindowWorld => w'.aliases = w.aliases)
      · rfl
      · exact fun w' h _ _ => h
  · rw [if_neg htarget]
    by_cases hargument : argument = ""
    · rw [if_pos hargument, if_pos (Or.inr hargument)]
      rfl
    · rw [if_neg hargument, if_neg (not_or.mpr ⟨htarget, hargument⟩), saveAliases_aliases,
        appendLocalLine_aliases]

theorem handleUnaliasCommand_aliases (w : ChatWindowWorld) (argument : String) :
    (w.handleUnaliasCommand argument).aliases =
      if argument = "" then w.aliases else ChatAliases.removeAlias w.aliases argument := by
  simp only [handleUnaliasCommand]
  split <;> rfl

end

section
variable [QtWidgets] [MuscleText] [Environment]

/-- What a line about aliases does, and what a fresh window makes of what is stored. -/
def handleAliasEvent (w : ChatWindowWorld) : AliasEvent → ChatWindowWorld
  | .line input =>
    let command := parse input
    match command.type with
    | .alias => w.handleAliasCommand command.target command.argument
    | .unalias => w.handleUnaliasCommand command.argument
    | _ => w
  | .restart => w.saveAliases.unloaded.applySettings

def aliasMachine : EventMachine ChatWindowWorld AliasEvent := ⟨handleAliasEvent⟩

theorem handleAliasEvent_eq [QtLibrary] [MuscleLibrary] [CaseInsensitivePatterns]
    (w : ChatWindowWorld) (a : WindowAnswers) {input : String}
    (h : (parse input).type = .alias ∨ (parse input).type = .unalias) :
    w.handleAliasEvent (.line input) = w.handleCommand a (parse input) := by
  rcases h with h | h
  · simp only [handleAliasEvent, handleCommand, h]
  · simp only [handleAliasEvent, handleCommand, h]

theorem aliasLine_mirrors (hspace : PlainWhiteSpace) {w : ChatWindowWorld}
    (h : Mirrors w.aliases meaning) (htype : (parse input).type = .alias) :
    Mirrors (w.handleAliasEvent (.line input)).aliases
      fun name => (AliasEvent.line input).redefined name (meaning name) := by
  simp only [handleAliasEvent, AliasEvent.redefined, htype]
  rw [handleAliasCommand_aliases]
  by_cases hempty : (parse input).target = "" ∨ (parse input).argument = ""
  · have hnot (name : String) : ¬((parse input).target ≠ "" ∧ (parse input).argument ≠ "" ∧
        equalsIgnoreCase (trimmedText (parse input).target) name) :=
      fun ⟨htarget, hargument, _⟩ => hempty.elim htarget hargument
    simp only [if_pos hempty, if_neg (hnot _)]
    exact h
  · obtain ⟨htarget, hargument⟩ := not_or.mp hempty
    have hclean := cleanAlias_of_accepted hspace htype htarget hargument
    rw [if_neg hempty, hclean.setAlias]
    simp only [ne_eq, htarget, hargument, not_false_eq_true, true_and]
    exact h.put hclean

theorem unaliasLine_mirrors {w : ChatWindowWorld} (h : Mirrors w.aliases meaning)
    (htype : (parse input).type = .unalias) :
    Mirrors (w.handleAliasEvent (.line input)).aliases
      fun name => (AliasEvent.line input).redefined name (meaning name) := by
  have hcommand : parse input = parseCommandWord (substring (trimmedText input) 1) := by
    apply parse_command
    rw [htype]
    decide
  have htrimmed : trimmedText (parse input).argument = (parse input).argument := by
    rw [hcommand]
    exact (parseCommandWord_parts _).2
  simp only [handleAliasEvent, AliasEvent.redefined, htype]
  rw [handleUnaliasCommand_aliases]
  by_cases hargument : (parse input).argument = ""
  · simp only [hargument, ne_eq, not_true_eq_false, false_and, if_true, if_false]
    exact h
  · rw [if_neg hargument, ChatAliases.removeAlias, htrimmed]
    simp only [ne_eq, hargument, not_false_eq_true, true_and]
    exact h.remove _

theorem handleAliasEvent_mirrors (hspace : PlainWhiteSpace) {w : ChatWindowWorld}
    (h : Mirrors w.aliases meaning) (e : AliasEvent) :
    Mirrors (w.handleAliasEvent e).aliases fun name => e.redefined name (meaning name) := by
  cases e with
  | line input =>
    by_cases halias : (parse input).type = .alias
    · exact aliasLine_mirrors hspace h halias
    · by_cases hunalias : (parse input).type = .unalias
      · exact unaliasLine_mirrors h hunalias
      · simp only [handleAliasEvent, AliasEvent.redefined]
        exact h
  | restart =>
    have hreloaded : (w.handleAliasEvent .restart).aliases = w.aliases := h.reloaded w.settings
    rw [hreloaded]
    exact h

theorem run_mirrors (hspace : PlainWhiteSpace) {w : ChatWindowWorld} (hnew : w.aliases = .empty)
    (es : List AliasEvent) : Mirrors (aliasMachine.run w es).aliases (definition es) := by
  induction es using List.reverseRecOn with
  | nil =>
    rw [EventMachine.run_nil, hnew]
    exact .empty
  | append_singleton es e ih =>
    rw [EventMachine.run_append]
    have hstep := handleAliasEvent_mirrors hspace ih e
    have hdefinition : definition (es ++ [e]) = fun name => e.redefined name (definition es name) := by
      funext name
      rw [definition, List.foldl_append]
      rfl
    rw [hdefinition]
    exact hstep

/-- After every run of lines and restarts the aliases work exactly if none of those that are defined
has a name with a slash in front. -/
theorem aliases_work_iff (hspace : PlainWhiteSpace) {w : ChatWindowWorld}
    (hnew : w.aliases = .empty) (es : List AliasEvent) :
    AliasesWork (aliasMachine.run w es).aliases (definition es) ↔
      ∀ name, (definition es name).isSome → startsWith name "/" = false :=
  (run_mirrors hspace hnew es).aliasesWork_iff hspace

end

section
attribute [local instance] plainWidgets asciiText noEnvironment

def emptyWindow : ChatWindowWorld where
  settings := .ofWhat ()
  settingsFile := .ofWhat ()

/-- "/alias /hi" says that "//hi" now stands for something, which is then an escaped text. -/
theorem slashed_alias_is_dead : ¬∀ es : List AliasEvent,
    AliasesWork (aliasMachine.run emptyWindow es).aliases (definition es) := by
  intro h
  have hwork := h [.line "/alias /hi /me waves"]
  have hdefined : definition [.line "/alias /hi /me waves"] "/hi" = some "/me waves" := by decide
  have hexpand := hwork.expands hdefined "there"
  exact absurd hexpand (by decide)

/-- An alias is redefined, kept over a restart, and another one is removed. -/
def redefinedAlias : List AliasEvent := [
  .line "/alias Hi /me nods",
  .line "/alias g /msg",
  .line "/alias hi /me waves",
  .restart,
  .line "/unalias G"]

theorem redefined_slashed {name input : String} (hname : startsWith name "/" = true)
    (htarget : (trimmedText (parse input).target).toList.head?.map Char.toLower ≠ some '/') :
    (AliasEvent.line input).redefined name none = none := by
  have hother : ¬equalsIgnoreCase (trimmedText (parse input).target) name := by
    obtain ⟨rest, hrest⟩ := startsWith_iff_begins.mp hname
    intro hsame
    rw [equalsIgnoreCase, ← hrest] at hsame
    obtain ⟨first, letters, hletters, hfirst, -⟩ := List.map_eq_cons_iff.mp hsame
    rw [hletters] at htarget
    exact htarget (congrArg some hfirst)
  simp only [AliasEvent.redefined]
  split
  · exact if_neg fun h => hother h.2.2
  · exact ite_self _
  · rfl

theorem definition_eq_none (h : ∀ e ∈ es, e.redefined name none = none) :
    definition es name = none := by
  induction es with
  | nil => rfl
  | cons e es ih =>
    obtain ⟨he, hes⟩ := List.forall_mem_cons.mp h
    rw [definition, List.foldl_cons, he]
    exact ih hes

theorem aliases_work_redefined :
    (AliasesWork (aliasMachine.run emptyWindow redefinedAlias).aliases
        (definition redefinedAlias) ↔
      ∀ name, (definition redefinedAlias name).isSome → startsWith name "/" = false) ∧
    ∀ name, (definition redefinedAlias name).isSome → startsWith name "/" = false := by
  refine ⟨aliases_work_iff asciiText_plainWhiteSpace rfl redefinedAlias, fun name hsome => ?_⟩
  by_contra hslash
  rw [Bool.not_eq_false] at hslash
  have hnone : definition redefinedAlias name = none := by
    apply definition_eq_none
    simp only [redefinedAlias, List.forall_mem_cons]
    exact ⟨redefined_slashed hslash (by decide),
      redefined_slashed hslash (by decide), redefined_slashed hslash (by decide),
      rfl, redefined_slashed hslash (by decide), List.forall_mem_nil _⟩
  rw [hnone] at hsome
  cases hsome

end

end ChatWindowWorld

end HiTuxShare
