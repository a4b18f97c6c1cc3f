import HiTuxShare.ListModels
import HiTuxShare.ChatWindow
import HiTuxShare.Utf16Text

namespace HiTuxShare
set_option autoImplicit true

/-- What Qt knows of characters. The units of a pair are no letters, and a letter has as many units
in its other letter case. -/
class QtUnicode where
  isLetterOrNumber : Nat → Bool
  equalsIgnoringCase : Utf16 → Utf16 → Bool
  isLetterOrNumber_surrogate : ∀ {code}, 0xD800 ≤ code → code < 0xE000 →
    isLetterOrNumber code = false
  high_of_equals : ∀ {text text'}, equalsIgnoringCase text text' = true →
    text.map isHighSurrogate = text'.map isHighSurrogate
  low_of_equals : ∀ {text text'}, equalsIgnoringCase text text' = true →
    text.map isLowSurrogate = text'.map isLowSurrogate

section
variable [QtUnicode]

open QtUnicode

def occursAt (haystack name : Utf16) (index : Nat) : Bool :=
  index + name.length ≤ haystack.length &&
    equalsIgnoringCase ((haystack.drop index).take name.length) name

/-- `QString::indexOf`: the first position from `start` on. -/
def indexOf (haystack name : Utf16) (start : Nat) : Option Nat :=
  (List.range' start (haystack.length + 1 - start)).find? (occursAt haystack name)

def isLetterOrNumberAt (haystack : Utf16) (position : Nat) : Bool :=
  haystack[position]?.any fun unit => isLetterOrNumber unit.toNat

def startsCleanly (haystack : Utf16) (index : Nat) : Bool :=
  index = 0 || !isLetterOrNumberAt haystack (index - 1)

def endsCleanly (haystack : Utf16) (after : Nat) : Bool :=
  haystack.length ≤ after || !isLetterOrNumberAt haystack after

/-- The loop over the occurrences; none means that it has not ended after so many rounds. -/
def searchFrom (haystack name : Utf16) : Nat → Option Nat → Option Bool
  | 0, _ => none
  | _ + 1, none => some false
  | rounds + 1, some index =>
    if startsCleanly haystack index && endsCleanly haystack (index + name.length) then some true
    else searchFrom haystack name rounds (indexOf haystack name (index + 1))

theorem indexOf_eq_some (h : indexOf haystack name start = some index) :
    start ≤ index ∧ index ≤ haystack.length ∧ occursAt haystack name index = true ∧
      ∀ i, start ≤ i → i < index → occursAt haystack name i = false := by
  obtain ⟨hoccurs, hrange, hnone⟩ := List.find?_range'_eq_some.mp h
  obtain ⟨hstart, hend⟩ := List.mem_range'_1.mp hrange
  refine ⟨hstart, by omega, hoccurs, ?_⟩
  intro i hi hlt
  simpa using hnone i hi hlt

theorem indexOf_eq_none (h : indexOf haystack name start = none) (hi : start ≤ i) :
    occursAt haystack name i = false := by
  rcases Nat.lt_or_ge haystack.length i with hfar | hnear
  · rw [occursAt, decide_eq_false (by omega), Bool.false_and]
  · simpa using List.find?_range'_eq_none.mp h i hi (by omega)

/-- An occurrence that the loop accepts. -/
def CleanAt (haystack name : Utf16) (index : Nat) : Prop :=
  occursAt haystack name index = true ∧ startsCleanly haystack index = true ∧
    endsCleanly haystack (index + name.length) = true

/-- The next search starts one unit behind an occurrence, so none is passed over, and there are no
more rounds than positions. -/
theorem searchFrom_spec (haystack name : Utf16) (rounds start : Nat)
    (h : haystack.length + 1 - start < rounds) :
    ∃ result, searchFrom haystack name rounds (indexOf haystack name start) = some result ∧
      (result = true ↔ ∃ index, start ≤ index ∧ CleanAt haystack name index) := by
  induction rounds generalizing start with
  | zero => exact absurd h (Nat.not_lt_zero _)
  | succ rounds ih =>
    cases hindex : indexOf haystack name start with
    | none =>
      refine ⟨false, rfl, iff_of_false Bool.false_ne_true ?_⟩
      rintro ⟨index, hstart, hoccurs, -⟩
      rw [indexOf_eq_none hindex hstart] at hoccurs
      cases hoccurs
    | some index =>
      obtain ⟨hstart, hend, hoccurs, hfirst⟩ := indexOf_eq_some hindex
      rw [searchFrom]
      split
      · next hclean =>
        obtain ⟨hbefore, hbehind⟩ := Bool.and_eq_true_iff.mp hclean
        exact ⟨true, rfl, iff_of_true rfl ⟨index, hstart, hoccurs, hbefore, hbehind⟩⟩
      · next hclean =>
        obtain ⟨result, hresult, hiff⟩ := ih (index + 1) (by omega)
        refine ⟨result, hresult, hiff.trans ⟨?_, ?_⟩⟩
        · rintro ⟨i, hi, hclean⟩
          exact ⟨i, by omega, hclean⟩
        · rintro ⟨i, hi, hcleanAt⟩
          refine ⟨i, ?_, hcleanAt⟩
          by_contra hbefore
          rcases Nat.lt_or_ge i index with hlt | hge
          · rw [CleanAt, hfirst i hi hlt] at hcleanAt
            exact Bool.false_ne_true hcleanAt.1
          · obtain rfl : i = index := by omega
            exact hclean (Bool.and_eq_true_iff.mpr hcleanAt.2)

/-- A letter or digit of the Basic Multilingual Plane. -/
def isPlaneLetter (c : Char) : Bool := c.toNat < 0x10000 && isLetterOrNumber c.toNat

theorem isLetterOrNumber_high (h : isHighSurrogate unit = true) :
    isLetterOrNumber unit.toNat = false := by
  simp only [isHighSurrogate, Bool.and_eq_true, decide_eq_true_eq] at h
  exact isLetterOrNumber_surrogate h.1 (by omega)

theorem isLetterOrNumber_low (h : isLowSurrogate unit = true) :
    isLetterOrNumber unit.toNat = false := by
  simp only [isLowSurrogate, Bool.and_eq_true, decide_eq_true_eq] at h
  exact isLetterOrNumber_surrogate (by omega) h.2

theorem isLetterOrNumberAt_behind (front behind : List Char) :
    isLetterOrNumberAt (toUtf16 (front ++ behind)) (toUtf16 front).length =
      behind.head?.any isPlaneLetter := by
  rw [isLetterOrNumberAt, toUtf16_append, List.getElem?_append_right (Nat.le_refl _),
    Nat.sub_self, ← List.head?_eq_getElem?]
  cases behind with
  | nil => rfl
  | cons c behind =>
    rw [toUtf16_cons, List.head?_cons, Option.any_some, isPlaneLetter]
    have hc := storedAs c
    generalize utf16Of c = units at hc
    cases hc with
    | single hc hunit => 
      rw [decide_eq_true hc, ← hunit]
      rfl
    | pair hc hhigh =>
      rw [decide_eq_false (Nat.not_lt_of_le hc)]
      exact isLetterOrNumber_high hhigh

theorem isLetterOrNumberAt_before (front : List Char) (c : Char) (behind : List Char) :
    isLetterOrNumberAt (toUtf16 ((front ++ [c]) ++ behind)) ((toUtf16 (front ++ [c])).length - 1) =
      isPlaneLetter c := by
  have hsplit : toUtf16 ((front ++ [c]) ++ behind) =
      toUtf16 front ++ (utf16Of c ++ toUtf16 behind) := by
    simp only [toUtf16_append, toUtf16_cons, toUtf16_nil, List.append_nil, List.append_assoc]
  rw [isLetterOrNumberAt, hsplit, toUtf16_append, List.length_append, toUtf16_cons, toUtf16_nil,
    List.append_nil, isPlaneLetter]
  have hc := storedAs c
  generalize utf16Of c = units at hc
  cases hc with
  | single hc hunit =>
    rw [List.length_singleton, Nat.add_sub_cancel, List.getElem?_append_right (Nat.le_refl _),
      Nat.sub_self, decide_eq_true hc, ← hunit]
    rfl
  | @pair high low hc _ hlow =>
    have hposition : (toUtf16 front).length + [high, low].length - 1 =
        (toUtf16 front).length + 1 := rfl
    rw [hposition, List.getElem?_append_right (Nat.le_add_right ..), Nat.add_sub_cancel_left,
      decide_eq_false (Nat.not_lt_of_le hc)]
    exact isLetterOrNumber_low hlow

/-- A stretch of a text that is the name but for the letter case. -/
structure NamedAt (text name before middle behind : List Char) : Prop where
  split : text = before ++ (middle ++ behind)
  same : equalsIgnoringCase (toUtf16 middle) (toUtf16 name) = true

/-- No such character right before, and none right behind. -/
def Apart (p : Char → Bool) (before behind : List Char) : Prop :=
  before.getLast?.any p = false ∧ behind.head?.any p = false

theorem NamedAt.length (h : NamedAt text name before middle behind) :
    (toUtf16 middle).length = (toUtf16 name).length := by
  simpa using congrArg List.length (high_of_equals h.same)

theorem NamedAt.occursAt (h : NamedAt text name before middle behind) :
    occursAt (toUtf16 text) (toUtf16 name) (toUtf16 before).length = true := by
  rw [HiTuxShare.occursAt, h.split, toUtf16_append, toUtf16_append, ← h.length,
    List.drop_left, List.take_left, h.same, Bool.and_true, decide_eq_true_eq, List.length_append,
    List.length_append]
  omega

/-- An occurrence neither starts nor ends within a pair, as the name does not. -/
theorem exists_namedAt {text name : List Char} (hname : name ≠ [])
    (h : occursAt (toUtf16 text) (toUtf16 name) index = true) :
    ∃ before middle behind, NamedAt text name before middle behind ∧
      (toUtf16 before).length = index := by
  obtain ⟨hfits, hsame⟩ := Bool.and_eq_true_iff.mp h
  rw [decide_eq_true_eq] at hfits
  have hpos : 0 < (toUtf16 name).length := List.length_pos_iff.mpr (toUtf16_ne_nil hname)
  obtain ⟨before, rest, rfl, hbefore⟩ := exists_split text index (by omega) (by
    intro j high low _ _ hlow _
    have hhead := congrArg List.head? (low_of_equals hsame)
    rw [List.head?_map, List.head?_map, List.head?_take, if_neg (by omega), List.head?_drop,
      hlow, Option.map_some] at hhead
    obtain ⟨unit, hunit, he⟩ := Option.map_eq_some_iff.mp hhead.symm
    rw [← he]
    exact head?_toUtf16 name hunit)
  subst hbefore
  rw [toUtf16_append, List.drop_left] at hsame
  rw [toUtf16_append, List.length_append] at hfits
  obtain ⟨middle, behind, rfl, hmiddle⟩ := exists_split rest (toUtf16 name).length (by omega) (by
    intro j high low hj hhigh _ htrue
    have hlast := congrArg List.getLast? (high_of_equals hsame)
    rw [List.getLast?_map, List.getLast?_map, List.getLast?_take, if_neg (by omega), hj,
      Nat.add_sub_cancel, hhigh, Option.some_or, Option.map_some] at hlast
    obtain ⟨unit, hunit, he⟩ := Option.map_eq_some_iff.mp hlast.symm
    rw [← he, getLast?_toUtf16 name hunit] at htrue
    cases htrue)
  refine ⟨before, middle, behind, ⟨rfl, ?_⟩, rfl⟩
  rwa [← hmiddle, toUtf16_append, List.take_left] at hsame

theorem startsCleanly_iff (before behind : List Char) :
    startsCleanly (toUtf16 (before ++ behind)) (toUtf16 before).length = true ↔
      before.getLast?.any isPlaneLetter = false := by
  rcases List.eq_nil_or_concat before with rfl | ⟨front, c, rfl⟩
  · exact iff_of_true rfl rfl
  · have hpos : 0 < (toUtf16 (front ++ [c])).length :=
      List.length_pos_iff.mpr (toUtf16_ne_nil (List.append_ne_nil_of_right_ne_nil _
        (List.cons_ne_nil c [])))
    rw [List.concat_eq_append, startsCleanly, decide_eq_false (by omega), Bool.false_or,
      isLetterOrNumberAt_before, List.getLast?_concat, Option.any_some, Bool.not_eq_true']

theorem endsCleanly_iff (front behind : List Char) :
    endsCleanly (toUtf16 (front ++ behind)) (toUtf16 front).length = true ↔
      behind.head?.any isPlaneLetter = false := by
  rw [endsCleanly, isLetterOrNumberAt_behind, Bool.or_eq_true, Bool.not_eq_true', decide_eq_true_eq]
  apply or_iff_right_of_imp
  intro hend
  cases behind with
  | nil => rfl
  | cons c behind =>
    have hpos := List.length_pos_iff.mpr (toUtf16_ne_nil (List.cons_ne_nil c behind))
    rw [toUtf16_append, List.length_append] at hend
    omega

theorem cleanAt_iff {text name : List Char} (hname : name ≠ []) :
    CleanAt (toUtf16 text) (toUtf16 name) index ↔ ∃ before middle behind,
      NamedAt text name before middle behind ∧ (toUtf16 before).length = index ∧
        Apart isPlaneLetter before behind := by
  have happly {before middle behind : List Char} (hn : NamedAt text name before middle behind) :
      startsCleanly (toUtf16 text) (toUtf16 before).length = true ∧
          endsCleanly (toUtf16 text) ((toUtf16 before).length + (toUtf16 name).length) = true ↔
        Apart isPlaneLetter before behind := by
    have hafter : (toUtf16 before).length + (toUtf16 name).length =
        (toUtf16 (before ++ middle)).length := by
      rw [toUtf16_append, List.length_append, hn.length]
    have hsplit : text = (before ++ middle) ++ behind := by rw [hn.split, List.append_assoc]
    apply and_congr
    · rw [hn.split]
      exact startsCleanly_iff before _
    · rw [hafter, hsplit]
      exact endsCleanly_iff _ behind
  constructor
  · rintro ⟨hoccurs, hclean⟩
    obtain ⟨before, middle, behind, hn, rfl⟩ := exists_namedAt hname hoccurs
    exact ⟨before, middle, behind, hn, rfl, (happly hn).mp hclean⟩
  · rintro ⟨before, middle, behind, hn, rfl, hapart⟩
    exact ⟨hn.occursAt, (happly hn).mpr hapart⟩

/-- Some occurrence of the name has no such character beside it. -/
def StandsAlone (p : Char → Bool) (text name : List Char) : Prop :=
  ∃ before middle behind, NamedAt text name before middle behind ∧ Apart p before behind

theorem exists_cleanAt_iff {text name : List Char} (hname : name ≠ []) :
    (∃ index, 0 ≤ index ∧ CleanAt (toUtf16 text) (toUtf16 name) index) ↔
      StandsAlone isPlaneLetter text name := by
  constructor
  · rintro ⟨index, -, hclean⟩
    obtain ⟨before, middle, behind, hn, -, hapart⟩ := (cleanAt_iff hname).mp hclean
    exact ⟨before, middle, behind, hn, hapart⟩
  · rintro ⟨before, middle, behind, hn, hapart⟩
    exact ⟨_, Nat.zero_le _, (cleanAt_iff hname).mpr ⟨before, middle, behind, hn, rfl, hapart⟩⟩

def isLetterOrDigit (c : Char) : Bool := isLetterOrNumber c.toNat

theorem StandsAlone.of_letterOrDigit (h : StandsAlone isLetterOrDigit text name) :
    StandsAlone isPlaneLetter text name := by
  have hplane {character : Option Char} (h : character.any isLetterOrDigit = false) :
      character.any isPlaneLetter = false := by
    cases character with
    | none => rfl
    | some c =>
      rw [Option.any_some, isLetterOrDigit] at h
      rw [Option.any_some, isPlaneLetter, h, Bool.and_false]
  obtain ⟨before, middle, behind, hn, hbefore, hbehind⟩ := h
  exact ⟨before, middle, behind, hn, hplane hbefore, hplane hbehind⟩

variable [QtLibrary] [QtWidgets]

def localNameOf (userName : String) : List Char := (trimmedQString (toQString userName)).toList

def mentionsLocalUser (rounds : Nat) (userName text : String) : Option Bool :=
  let localName := toUtf16 (localNameOf userName)
  if localName = [] then some false
  else
    let haystack := toUtf16 (toQString text).toList
    searchFrom haystack localName rounds (indexOf haystack localName 0)

/-- The search ends with an answer, which is whether the name stands alone somewhere. -/
def DetectsMentions (userName text : String) : Prop :=
  ∃ enough result, (∀ more, mentionsLocalUser (enough + more) userName text = some result) ∧
    (result = true ↔
      StandsAlone isLetterOrDigit (toQString text).toList (localNameOf userName))

theorem mentionsLocalUser_spec {userName : String} (text : String)
    (hname : localNameOf userName ≠ []) (more : Nat) :
    ∃ result,
      mentionsLocalUser ((toUtf16 (toQString text).toList).length + 2 + more) userName text =
        some result ∧
      (result = true ↔
        StandsAlone isPlaneLetter (toQString text).toList (localNameOf userName)) := by
  obtain ⟨result, hresult, hiff⟩ := searchFrom_spec (toUtf16 (toQString text).toList)
    (toUtf16 (localNameOf userName)) ((toUtf16 (toQString text).toList).length + 2 + more) 0
    (by omega)
  refine ⟨result, ?_, hiff.trans (exists_cleanAt_iff hname)⟩
  rw [mentionsLocalUser]
  exact (if_neg (toUtf16_ne_nil hname)).trans hresult

/-- The units of a pair are no letters to the loop, so a mention is seen too much exactly where each
occurrence without a letter or digit of the Basic Multilingual Plane beside it has another one. -/
theorem detectsMentions_iff (userName text : String) (hname : localNameOf userName ≠ []) :
    DetectsMentions userName text ↔
      (StandsAlone isPlaneLetter (toQString text).toList (localNameOf userName) →
        StandsAlone isLetterOrDigit (toQString text).toList (localNameOf userName)) := by
  constructor
  · rintro ⟨enough, result, hresult, hiff⟩ hplane
    obtain ⟨found, hfound, hspec⟩ := mentionsLocalUser_spec text hname enough
    have hmore := hresult ((toUtf16 (toQString text).toList).length + 2)
    rw [Nat.add_comm, hfound] at hmore
    exact hiff.mp (Option.some.inj hmore ▸ hspec.mpr hplane)
  · intro h
    obtain ⟨result, _, hspec⟩ := mentionsLocalUser_spec text hname 0
    refine ⟨(toUtf16 (toQString text).toList).length + 2, result, fun more => ?_,
      hspec.trans ⟨h, StandsAlone.of_letterOrDigit⟩⟩
    obtain ⟨found, hfound, hspec'⟩ := mentionsLocalUser_spec text hname more
    rw [hfound, Bool.eq_iff_iff.mpr (hspec'.trans hspec.symm)]

end

section

/-- The bytes of a message that starts with a character outside of the Basic Multilingual Plane. -/
def ideographBytes : String := "\xf0\xa0\x80\x80sam"

/-- How this message and plain ASCII are read. -/
abbrev ideographQt : QtLibrary where
  fromUtf8 text := if text = ideographBytes then "𠀀sam" else text
  isUtf8 text := text = ideographBytes || text.toList.all fun c => c.toNat < 128
  fromUtf8_injective := by
    have hother {text : String} (hvalid : (decide (text = ideographBytes) ||
        text.toList.all fun c => c.toNat < 128) = true) (hne : text ≠ ideographBytes) :
        text ≠ "𠀀sam" := by
      rintro rfl
      exact absurd hvalid (by decide)
    intro text text' h h' he
    by_cases ht : text = ideographBytes
    · by_cases ht' : text' = ideographBytes
      · rw [ht, ht']
      · rw [if_pos ht, if_neg ht'] at he
        exact absurd he.symm (hother h' ht')
    · by_cases ht' : text' = ideographBytes
      · rw [if_neg ht, if_pos ht'] at he
        exact absurd he (hother h ht)
      · rwa [if_neg ht, if_neg ht'] at he
  fromUtf8_newline := by
    intro text _ hm
    split at hm
    · exact absurd hm (by decide)
    · exact hm

def lowerUnit (unit : UInt16) : UInt16 :=
  if 0x41 ≤ unit.toNat ∧ unit.toNat ≤ 0x5A then UInt16.ofNat (unit.toNat + 0x20) else unit

theorem lowerUnit_surrogate (unit : UInt16) :
    isHighSurrogate (lowerUnit unit) = isHighSurrogate unit ∧
      isLowSurrogate (lowerUnit unit) = isLowSurrogate unit := by
  rw [lowerUnit]
  split
  · next h =>
    have hlower : (UInt16.ofNat (unit.toNat + 0x20)).toNat = unit.toNat + 0x20 :=
      UInt16.toNat_ofNat_of_lt' (by rw [UInt16.size]; omega)
    simp only [isHighSurrogate, isLowSurrogate, hlower]
    constructor <;>
      rw [decide_eq_false (by omega), Bool.false_and, decide_eq_false (by omega), Bool.false_and]
  · exact ⟨rfl, rfl⟩

/-- The letters and digits of ASCII and the ideographs of one block. -/
abbrev ideographUnicode : QtUnicode where
  isLetterOrNumber code := 0x30 ≤ code && code ≤ 0x39 || 0x41 ≤ code && code ≤ 0x5A ||
    0x61 ≤ code && code ≤ 0x7A || 0x20000 ≤ code && code ≤ 0x2A6DF
  equalsIgnoringCase text text' := text.map lowerUnit = text'.map lowerUnit
  isLetterOrNumber_surrogate := by
    intro code hlow hhigh
    simp only [Bool.or_eq_false_iff, Bool.and_eq_false_iff, decide_eq_false_iff_not]
    omega
  high_of_equals := by
    intro text text' h
    have hmap := congrArg (List.map isHighSurrogate) (of_decide_eq_true h)
    simpa only [List.map_map, Function.comp_def, (lowerUnit_surrogate _).1] using hmap
  low_of_equals := by
    intro text text' h
    have hmap := congrArg (List.map isLowSurrogate) (of_decide_eq_true h)
    simpa only [List.map_map, Function.comp_def, (lowerUnit_surrogate _).2] using hmap

attribute [local instance] ideographQt ideographUnicode plainWidgets

theorem ideograph_before_a_name_is_missed :
    localNameOf "sam" ≠ [] ∧ ¬DetectsMentions "sam" ideographBytes := by
  have hname : localNameOf "sam" = "sam".toList := by decide
  have htext : (toQString ideographBytes).toList = "𠀀sam".toList := by decide
  refine ⟨by rw [hname]; decide, ?_⟩
  rintro ⟨enough, result, hresult, hiff⟩
  obtain ⟨found, hfound, hspec⟩ := mentionsLocalUser_spec ideographBytes
    (by rw [hname]; decide) enough
  have hmore := hresult ((toUtf16 (toQString ideographBytes).toList).length + 2)
  rw [Nat.add_comm, hfound] at hmore
  rw [htext, hname] at hspec hiff
  have htrue : found = true := hspec.mpr
    ⟨['𠀀'], "sam".toList, [], ⟨by decide, by decide⟩, by decide, by decide⟩
  obtain ⟨before, middle, behind, hn, hbefore, -⟩ := hiff.mp (Option.some.inj hmore ▸ htrue)
  -- The name is in one place only, which is right behind the ideograph.
  have honly : ∀ n < 5, occursAt (toUtf16 "𠀀sam".toList) (toUtf16 "sam".toList)
      (toUtf16 ("𠀀sam".toList.take n)).length = true →
        ("𠀀sam".toList.take n).getLast?.any isLetterOrDigit = true := by decide
  have hbeginning : before = "𠀀sam".toList.take before.length := by
    rw [hn.split, List.take_left]
  have hlength : before.length < 5 := by
    have htotal : 4 = before.length + (middle ++ behind).length :=
      (congrArg List.length hn.split).trans List.length_append
    omega
  have hoccurs := hn.occursAt
  rw [hbeginning] at hoccurs hbefore
  rw [honly before.length hlength hoccurs] at hbefore
  cases hbefore

theorem name_on_its_own_is_detected : DetectsMentions "sam" "hi Sam!" := by
  have hname : localNameOf "sam" = "sam".toList := by decide
  refine (detectsMentions_iff "sam" "hi Sam!" (by rw [hname]; decide)).mpr fun _ => ?_
  rw [hname]
  exact ⟨"hi ".toList, "Sam".toList, "!".toList, ⟨by decide, by decide⟩, by decide, by decide⟩

end

end HiTuxShare
