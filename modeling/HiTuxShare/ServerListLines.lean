import HiTuxShare.ServerListUpdater

namespace HiTuxShare
set_option autoImplicit true

/-- Who finds less than somebody else finds the same exactly if each single find is the same. -/
theorem filterMap_eq_filterMap_iff {f g : α → Option β} (hfg : ∀ a, g a = none ∨ g a = f a)
    (l : List α) : l.filterMap f = l.filterMap g ↔ ∀ a ∈ l, f a = g a := by
  constructor
  · intro h a hm
    by_contra hne
    have hle (l : List α) : (l.filterMap g).length ≤ (l.filterMap f).length := by
      rw [List.length_filterMap_eq_countP, List.length_filterMap_eq_countP]
      apply List.countP_mono_left
      intro a _ ha
      rcases hfg a with hnone | hsame
      · rw [hnone] at ha
        cases ha
      · rwa [← hsame]
    obtain ⟨front, behind, rfl⟩ := List.append_of_mem hm
    have hnone : g a = none := (hfg a).resolve_right (Ne.symm hne)
    cases hsome : f a with
    | none => exact hne (hsome.trans hnone.symm)
    | some b =>
      have hfront := hle front
      have hbehind := hle behind
      have hlength := congrArg List.length h
      rw [List.filterMap_append, List.filterMap_append, List.filterMap_cons_some hsome,
        List.filterMap_cons_none hnone, List.length_append, List.length_append, List.length_cons]
        at hlength
      omega
  · exact fun h => List.filterMap_congr h

theorem strippedKey_eq_iff {word : String} (hword : startsWith word "beshare_" = false)
    (key : String) :
    (if startsWith key "beshare_" then substring key 8 else key) = word ↔
      key = word ∨ key = "beshare_" ++ word := by
  by_cases hkey : startsWith key "beshare_" = true
  · obtain ⟨rest, hrest⟩ := startsWith_iff_begins.mp hkey
    have hcut : (substring key 8).toList = rest := by
      rw [substring_toList, ← hrest]
      rfl
    have hne : key ≠ word := by
      rintro rfl
      exact absurd (hkey.symm.trans hword) Bool.true_eq_false_eq_False
    rw [if_pos hkey, or_iff_right hne, ← String.toList_inj, ← String.toList_inj, hcut,
      String.toList_append, ← hrest, List.append_cancel_left_eq]
  · have hne : key ≠ "beshare_" ++ word := by
      rintro rfl
      apply hkey
      rw [startsWith_iff_begins, String.toList_append]
      exact List.prefix_append _ _
    rw [if_neg hkey, or_iff_left hne]

section
variable [QtWidgets]

theorem trimmedQString_toList (text : String) :
    (trimmedQString text).toList = trim QtWidgets.isSpace text.toList := String.toList_ofList

theorem withoutComment_eq (hhash : QtWidgets.isSpace '#' = false) (rawLine : String) :
    withoutComment rawLine = trimmedQString (leftOf '#' rawLine) := by
  have hstop (c : Char) (hc : QtWidgets.isSpace c = true) : decide (c ≠ '#') = true := by
    apply decide_eq_true
    rintro rfl
    exact absurd (hc.symm.trans hhash) Bool.true_eq_false_eq_False
  have hcut : trimmedQString (leftOf '#' (trimmedQString rawLine)) =
      trimmedQString (leftOf '#' rawLine) := by
    apply String.toList_inj.mp
    rw [trimmedQString_toList, trimmedQString_toList, leftOf, leftOf, String.toList_ofList,
      String.toList_ofList, trimmedQString_toList]
    exact trim_takeWhile_trim hstop _
  simp only [withoutComment]
  split
  · exact hcut
  · next hno =>
    rw [← hcut]
    apply String.toList_inj.mp
    have hall : ∀ c ∈ (trimmedQString rawLine).toList, decide (c ≠ '#') = true := by
      intro c hm
      apply decide_eq_true
      rintro rfl
      exact hno (decide_eq_true hm)
    rw [trimmedQString_toList (leftOf _ _), leftOf, String.toList_ofList,
      List.takeWhile_eq_self_iff.mpr hall, trimmedQString_toList, trim_trim]

/-- No path, no scheme and no white space. -/
def isHost (value : String) : Bool := value.toList.all fun character =>
  character ≠ '/' && character ≠ ':' && !QtWidgets.isSpace character

/-- What the code takes for a host. -/
def looksLikeHost (value : String) : Bool :=
  !(containsChar value '/' || containsChar value ' ' || containsChar value ':')

theorem isHost_iff (hspace : QtWidgets.isSpace ' ' = true) (value : String) :
    isHost value = true ↔
      looksLikeHost value = true ∧ ∀ c ∈ value.toList, QtWidgets.isSpace c = false := by
  simp only [isHost, looksLikeHost, containsChar, List.all_eq_true, Bool.and_eq_true,
    decide_eq_true_eq, Bool.not_eq_true', Bool.or_eq_false_iff, decide_eq_false_iff_not]
  constructor
  · intro h
    refine ⟨⟨⟨?_, ?_⟩, ?_⟩, fun c hm => (h c hm).2⟩
    · exact fun hm => (h _ hm).1.1 rfl
    · exact fun hm => absurd (hspace.symm.trans (h _ hm).2) Bool.true_eq_false_eq_False
    · exact fun hm => (h _ hm).1.2 rfl
  · rintro ⟨⟨⟨hslash, -⟩, hcolon⟩, hall⟩ c hm
    refine ⟨⟨?_, ?_⟩, hall c hm⟩
    · rintro rfl
      exact hslash hm
    · rintro rfl
      exact hcolon hm

variable [QtCase]

/-- What a line gives a key, in whatever letter case and with or without the prefix. -/
def valueOf (word rawLine : String) : Option String :=
  let line := trimmedQString (leftOf '#' rawLine)
  let key := QtCase.toLower (trimmedQString (leftOf '=' line))
  let value := trimmedQString (rightOf '=' line)
  if containsChar line '=' ∧ (key = word ∨ key = "beshare_" ++ word) ∧ value ≠ "" then some value
  else none

/-- The hosts that a list names under a key. -/
def hostsOf (word text : String) : List String :=
  (linesOf text).filterMap fun rawLine => (valueOf word rawLine).filter isHost

def hostsTaken (word text : String) : List String :=
  (linesOf text).filterMap fun rawLine => (valueOf word rawLine).filter looksLikeHost

/-- The code reads of a line what it gives the key, if that looks like a host. -/
theorem parseLine_eq (hhash : QtWidgets.isSpace '#' = false) {word : String}
    (hword : startsWith word "beshare_" = false) (hne : word ≠ "") (rawLine : String) :
    ((parseLine rawLine).bind fun e => if e.1 = word then some e.2 else none) =
      (valueOf word rawLine).filter looksLikeHost := by
  simp only [parseLine, valueOf, withoutComment_eq hhash]
  generalize trimmedQString (leftOf '#' rawLine) = line
  generalize hvalue : trimmedQString (rightOf '=' line) = value
  generalize hkey : QtCase.toLower (trimmedQString (leftOf '=' line)) = key
  by_cases hline : line = ""
  · rw [if_pos hline, hline, if_neg fun h => absurd h.1 Bool.false_ne_true]
    rfl
  rw [if_neg hline]
  by_cases hequals : containsChar line '=' = true
  · by_cases hleft : leftOf '=' line = ""
    · have hempty : trimmedQString "" = "" := String.toList_inj.mp (trimmedQString_toList "")
      have hnokey : ¬(key = word ∨ key = "beshare_" ++ word) := by
        rw [hleft, hempty, QtCase.toLower_empty] at hkey
        rw [← hkey]
        rintro (rfl | hlong)
        · exact hne rfl
        · have hlist := congrArg String.toList hlong
          rw [String.toList_append] at hlist
          cases hlist
      rw [if_pos (Or.inr hleft), if_neg fun h => hnokey h.2.1]
      rfl
    · have hform : ¬(containsChar line '=' = false ∨ leftOf '=' line = "") := by
        rw [hequals]
        exact not_or.mpr ⟨Bool.true_eq_false_eq_False, hleft⟩
      rw [if_neg hform]
      by_cases hnovalue : value = ""
      · rw [if_pos hnovalue, if_neg fun h => h.2.2 hnovalue]
        rfl
      rw [if_neg hnovalue]
      have hlooks : looksLikeHost value = true ↔
          ¬(containsChar value '/' ∨ containsChar value ' ' ∨ containsChar value ':') := by
        simp only [looksLikeHost, Bool.not_eq_true', Bool.or_eq_false_iff, not_or, Bool.not_eq_true,
          and_assoc]
      have hkeys : (if startsWith key "beshare_" then substring key 8 else key) = word ↔
          containsChar line '=' ∧ (key = word ∨ key = "beshare_" ++ word) ∧ value ≠ "" := by
        rw [strippedKey_eq_iff hword]
        exact ⟨fun h => ⟨hequals, h, hnovalue⟩, fun h => h.2.1⟩
      by_cases hlook : looksLikeHost value = true
      · rw [if_neg (hlooks.mp hlook), Option.bind_some]
        by_cases hk : (if startsWith key "beshare_" then substring key 8 else key) = word
        · rw [if_pos hk, if_pos (hkeys.mp hk)]
          exact (if_pos hlook).symm
        · rw [if_neg hk, if_neg (mt hkeys.mpr hk)]
          rfl
      · rw [if_pos (not_not.mp (mt hlooks.mpr hlook))]
        split
        · exact (if_neg hlook).symm
        · rfl
  · rw [if_pos (Or.inl (Bool.eq_false_of_not_eq_true hequals)), if_neg fun h => hequals h.1]
    rfl

/-- Each entry goes to the end of one of the two lists. -/
theorem addLine_eq_bind (servers : List String × List String) (rawLine : String) :
    addLine servers rawLine =
      (servers.1 ++ ((parseLine rawLine).bind fun e =>
          if e.1 = "addserver" then some e.2 else none).toList,
        servers.2 ++ ((parseLine rawLine).bind fun e =>
          if e.1 = "removeserver" then some e.2 else none).toList) := by
  unfold addLine
  cases parseLine rawLine with
  | none => simp only [Option.bind_none, Option.toList_none, List.append_nil]
  | some entry =>
    obtain ⟨key, value⟩ := entry
    simp only [Option.bind_some]
    by_cases hadd : key = "addserver"
    · have hremove : key ≠ "removeserver" := by
        rw [hadd]
        decide
      rw [if_pos hadd, if_pos hadd, if_neg hremove]
      simp only [Option.toList_some, Option.toList_none, List.append_nil]
    · rw [if_neg hadd, if_neg hadd]
      by_cases hremove : key = "removeserver"
      · rw [if_pos hremove, if_pos hremove]
        simp only [Option.toList_some, Option.toList_none, List.append_nil]
      · rw [if_neg hremove, if_neg hremove]
        simp only [Option.toList_none, List.append_nil]

theorem addLine_eq (hhash : QtWidgets.isSpace '#' = false) (servers : List String × List String)
    (rawLine : String) : addLine servers rawLine =
      (servers.1 ++ ((valueOf "addserver" rawLine).filter looksLikeHost).toList,
        servers.2 ++ ((valueOf "removeserver" rawLine).filter looksLikeHost).toList) := by
  have hneAdd : "addserver" ≠ "" ∧ startsWith "addserver" "beshare_" = false := by decide
  have hneRemove : "removeserver" ≠ "" ∧ startsWith "removeserver" "beshare_" = false := by decide
  have hadd := parseLine_eq hhash hneAdd.2 hneAdd.1 rawLine
  have hremove := parseLine_eq hhash hneRemove.2 hneRemove.1 rawLine
  rw [addLine_eq_bind]
  exact Prod.ext (congrArg (fun found => servers.1 ++ found.toList) hadd)
    (congrArg (fun found => servers.2 ++ found.toList) hremove)

theorem foldl_addLine (hhash : QtWidgets.isSpace '#' = false) (lines : List String)
    (servers : List String × List String) : lines.foldl addLine servers =
      (servers.1 ++ lines.filterMap fun rawLine =>
          (valueOf "addserver" rawLine).filter looksLikeHost,
        servers.2 ++ lines.filterMap fun rawLine =>
          (valueOf "removeserver" rawLine).filter looksLikeHost) := by
  induction lines generalizing servers with
  | nil => simp only [List.foldl_nil, List.filterMap_nil, List.append_nil]
  | cons rawLine lines ih =>
    have hcons (word : String) :
        (rawLine :: lines).filterMap (fun rawLine => (valueOf word rawLine).filter looksLikeHost) =
          ((valueOf word rawLine).filter looksLikeHost).toList ++
            lines.filterMap fun rawLine => (valueOf word rawLine).filter looksLikeHost := by
      rw [List.filterMap_cons]
      cases (valueOf word rawLine).filter looksLikeHost <;> rfl
    rw [List.foldl_cons, ih, addLine_eq hhash, hcons, hcons, List.append_assoc, List.append_assoc]

theorem parseBody_eq [QtLibrary] (hhash : QtWidgets.isSpace '#' = false) (body : String) :
    parseBody body =
      (hostsTaken "addserver" (toQString body), hostsTaken "removeserver" (toQString body)) :=
  foldl_addLine hhash (linesOf (toQString body)) ([], [])

/-- A line gives one of the two keys a value. -/
def Gives (rawLine value : String) : Prop :=
  valueOf "addserver" rawLine = some value ∨ valueOf "removeserver" rawLine = some value

theorem forall_gives_iff {lines : List String} {P : String → Prop} :
    (∀ rawLine ∈ lines, ∀ value, Gives rawLine value → P value) ↔
      (∀ rawLine ∈ lines, ∀ value, valueOf "addserver" rawLine = some value → P value) ∧
        ∀ rawLine ∈ lines, ∀ value, valueOf "removeserver" rawLine = some value → P value := by
  simp only [Gives, or_imp, forall_and]

/-- What is to be offered of a body: nothing at all of one that is too long. -/
def fetchedHosts [QtLibrary] (word body : String) : List String :=
  if maximumBodySize < body.toList.length then [] else hostsOf word (toQString body)

/-- A short body has no other white space in its hosts than the code looks for, and the start of a
long one has no hosts. -/
structure FitsParser [QtLibrary] (body : String) : Prop where
  short : body.toList.length ≤ maximumBodySize → ∀ rawLine ∈ linesOf (toQString body),
    ∀ value, Gives rawLine value → looksLikeHost value = true →
      ∀ c ∈ value.toList, QtWidgets.isSpace c = false
  long : maximumBodySize < body.toList.length →
    ∀ rawLine ∈ linesOf (toQString (.ofList (body.toList.take maximumBodySize))),
      ∀ value, Gives rawLine value → looksLikeHost value = false

theorem hostsTaken_eq_iff (hspace : QtWidgets.isSpace ' ' = true) (word text : String) :
    hostsTaken word text = hostsOf word text ↔ ∀ rawLine ∈ linesOf text, ∀ value,
      valueOf word rawLine = some value → looksLikeHost value = true →
        ∀ c ∈ value.toList, QtWidgets.isSpace c = false := by
  rw [hostsTaken, hostsOf, filterMap_eq_filterMap_iff]
  · apply forall₂_congr
    intro rawLine _
    cases valueOf word rawLine with
    | none => simp
    | some value =>
      have hhost := isHost_iff hspace value
      simp only [Option.filter_some, Option.some.injEq, forall_eq']
      cases hlook : looksLikeHost value with
      | false =>
        have hnot : ¬isHost value = true := fun h => absurd (hlook.symm.trans (hhost.mp h).1)
          Bool.false_ne_true
        simp [hnot]
      | true =>
        rw [hlook, eq_self, true_and] at hhost
        rw [← hhost]
        cases isHost value <;> simp
  · intro rawLine
    cases valueOf word rawLine with
    | none => exact .inl rfl
    | some value =>
      rw [Option.filter_some, Option.filter_some]
      by_cases hhost : isHost value = true
      · rw [if_pos hhost, if_pos ((isHost_iff hspace value).mp hhost).1]
        exact .inr rfl
      · exact .inl (if_neg hhost)

theorem hostsTaken_eq_nil_iff (word text : String) :
    hostsTaken word text = [] ↔ ∀ rawLine ∈ linesOf text, ∀ value,
      valueOf word rawLine = some value → looksLikeHost value = false := by
  simp only [hostsTaken, List.filterMap_eq_nil_iff, Option.filter_eq_none_iff, Bool.not_eq_true]

variable [QtLibrary]

/-- What a signal, if there is one, offers to add and to remove. -/
def offered (signal : Option UpdaterSignal) : List String × List String :=
  match signal with
  | some (.serverListReceived serversToAdd serversToRemove) => (serversToAdd, serversToRemove)
  | _ => ([], [])

theorem onReplyFinished_servers (hhash : QtWidgets.isSpace '#' = false)
    {updater : ServerListUpdater} (hrunning : updater.isRunning = true) (body : String) :
    offered (updater.onReplyFinished (.ok body)).2 =
      (hostsTaken "addserver" (toQString (.ofList (body.toList.take maximumBodySize))),
        hostsTaken "removeserver" (toQString (.ofList (body.toList.take maximumBodySize)))) := by
  have hreply : updater.reply.isNone = false := by
    rw [Option.isNone_eq_false_iff]
    exact hrunning
  rw [← parseBody_eq hhash]
  simp only [ServerListUpdater.onReplyFinished, hreply, Bool.false_eq_true, if_false, offered]

/-- Whatever body arrives, what is offered is right exactly if the body fits the parser. -/
theorem onReplyFinished_right_iff (hhash : QtWidgets.isSpace '#' = false)
    (hspace : QtWidgets.isSpace ' ' = true) {updater : ServerListUpdater}
    (hrunning : updater.isRunning = true) (body : String) :
    offered (updater.onReplyFinished (.ok body)).2 =
        (fetchedHosts "addserver" body, fetchedHosts "removeserver" body) ↔
      FitsParser body := by
  rw [onReplyFinished_servers hhash hrunning, Prod.mk.injEq, fetchedHosts, fetchedHosts]
  by_cases hlong : maximumBodySize < body.toList.length
  · rw [if_pos hlong, if_pos hlong, hostsTaken_eq_nil_iff, hostsTaken_eq_nil_iff,
      ← forall_gives_iff]
    exact ⟨fun h => ⟨fun hshort => absurd hlong (Nat.not_lt.mpr hshort), fun _ => h⟩,
      fun h => h.long hlong⟩
  · have hshort := Nat.not_lt.mp hlong
    rw [if_neg hlong, if_neg hlong, List.take_of_length_le hshort, String.ofList_toList,
      hostsTaken_eq_iff hspace, hostsTaken_eq_iff hspace, ← forall_gives_iff]
    exact ⟨fun h => ⟨fun _ => h, fun h => absurd h hlong⟩, fun h => h.short hshort⟩

end

/-- An entry and a long comment. -/
def commentedBody (entry : String) (length : Nat) : String :=
  .ofList (entry.toList ++ '\n' :: .replicate length '#')

theorem length_commentedBody (entry : String) (length : Nat) :
    length < (commentedBody entry length).toList.length := by
  rw [commentedBody, String.toList_ofList, List.length_append, List.length_cons,
    List.length_replicate]
  omega

theorem mem_linesOf_commentedBody {entry : String} (hentry : '\n' ∉ entry.toList)
    (hlength : entry.toList.length < length) :
    entry ∈ linesOf (.ofList ((commentedBody entry length).toList.take length)) := by
  have hread : (commentedBody entry length).toList.take length = entry.toList ++
      '\n' :: (List.replicate length '#').take (length - entry.toList.length - 1) := by
    have hrest : length - entry.toList.length = length - entry.toList.length - 1 + 1 := by omega
    rw [commentedBody, String.toList_ofList, List.take_append,
      List.take_of_length_le (Nat.le_of_lt hlength), hrest, List.take_succ_cons]
    rfl
  rw [hread, linesOf, String.toList_ofList, List.splitOn_append_cons_self,
    List.splitOn_eq_singleton hentry, List.singleton_append, List.map_cons, String.ofList_toList]
  exact List.mem_cons_self

section
attribute [local instance] plainWidgets plainQt plainCase

/-- A body that is too long is parsed all the same. -/
theorem oversized_body_is_parsed :
    ¬∀ (updater : ServerListUpdater) (body : String), updater.isRunning = true →
      offered (updater.onReplyFinished (.ok body)).2 =
        (fetchedHosts "addserver" body, fetchedHosts "removeserver" body) := by
  intro h
  have hright := h (ServerListUpdater.start {}) (commentedBody "addserver=a" maximumBodySize) rfl
  have hshort : "addserver=a".toList.length < maximumBodySize := by decide
  have hline := mem_linesOf_commentedBody (by decide) hshort
  have hlong := length_commentedBody "addserver=a" maximumBodySize
  rw [onReplyFinished_servers (by decide) rfl, fetchedHosts, if_pos hlong, Prod.mk.injEq,
    hostsTaken_eq_nil_iff] at hright
  have hvalue : valueOf "addserver" "addserver=a" = some "a" := by decide
  exact absurd (hright.1 _ hline "a" hvalue) (by decide)

/-- Both keys, with comments, with and without the prefix, and one that has a path. -/
def plainBody : String :=
  "# servers\nbeshare_addserver = a.example # ours\r\nRemoveServer=b.example\naddserver=c/d\n"

theorem onReplyFinished_right_plain :
    (offered ((ServerListUpdater.start {}).onReplyFinished (.ok plainBody)).2 =
        (fetchedHosts "addserver" plainBody, fetchedHosts "removeserver" plainBody) ↔
      FitsParser plainBody) ∧ FitsParser plainBody := by
  refine ⟨onReplyFinished_right_iff (by decide) (by decide) rfl plainBody, ?_, ?_⟩
  · intro _
    have hvalues : ∀ word ∈ ["addserver", "removeserver"],
        ∀ value ∈ (linesOf (toQString plainBody)).filterMap (valueOf word),
          value.toList.any QtWidgets.isSpace = false := by decide
    have hspaces (value : String) (hvalue : value.toList.any QtWidgets.isSpace = false) :
        ∀ c ∈ value.toList, QtWidgets.isSpace c = false := fun c hc =>
      Bool.eq_false_iff.mpr (List.any_eq_false.mp hvalue c hc)
    rintro rawLine hm value (hadd | hremove) _
    · exact hspaces value (hvalues _ (by decide) value
        (List.mem_filterMap.mpr ⟨rawLine, hm, hadd⟩))
    · exact hspaces value (hvalues _ (by decide) value
        (List.mem_filterMap.mpr ⟨rawLine, hm, hremove⟩))
  · have hshort : ¬maximumBodySize < plainBody.toList.length := by decide
    exact fun hlong => absurd hlong hshort

end

end HiTuxShare
