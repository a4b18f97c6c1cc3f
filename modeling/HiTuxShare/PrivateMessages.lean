import HiTuxShare.ChatEcho
import HiTuxShare.TypedLines

namespace HiTuxShare
set_option autoImplicit true

open MuscleText

/-- The name a row of the list of users shows. -/
def UserListEntry.shownName [QtLibrary] (entry : UserListEntry) : String :=
  toQString entry.user.displayName

/-- What a double click on a row puts into the input line. -/
def onUserDoubleClicked (userName : String) : Option String :=
  if userName = "" then none else some ("/msg " ++ userName ++ " ")

theorem startsWith_msg (h : line.toList = '/' :: 'm' :: 's' :: 'g' :: ' ' :: rest) :
    startsWith line "/ms" = true := by
  rw [startsWith, h]
  rfl

section
variable [MuscleText]

/-- What a name contributes up to the first space that counts, and from there on. -/
def firstWord (name : String) : String :=
  .ofList ((name.toList.dropWhile isSpaceChar).takeWhile (· ≠ ' '))

def laterWords (name : String) : List Char :=
  (name.toList.dropWhile isSpaceChar).dropWhile (· ≠ ' ')

/-- The whole name is taken for the target. -/
structure IsOneWord (name : String) : Prop where
  notBlank : ¬IsBlank name.toList
  blankEnd : IsBlank (laterWords name)

theorem IsOneWord.firstWord_ne (hspace : isSpaceChar ' ' = true) (h : IsOneWord name) :
    firstWord name ≠ "" := by
  intro he
  have hword := congrArg String.toList he
  rw [firstWord, String.toList_ofList] at hword
  cases hd : name.toList.dropWhile isSpaceChar with
  | nil => exact h.notBlank (List.dropWhile_eq_nil_iff.mp hd)
  | cons first rest =>
    have hfirst := head_of_dropWhile_eq_cons hd
    have hne : first ≠ ' ' := by
      rintro rfl
      exact absurd (hspace.symm.trans hfirst) Bool.true_eq_false_eq_False
    have htake : (first :: rest).takeWhile (· ≠ ' ') = first :: rest.takeWhile (· ≠ ' ') :=
      List.takeWhile_cons_of_pos (decide_eq_true hne)
    rw [hd, htake] at hword
    cases hword

theorem parseCommandWord_msg {withoutSlash : String} (h : (splitWord withoutSlash).1 = "msg") :
    parseCommandWord withoutSlash = {
      type := .message
      commandName := "msg"
      target := (splitWord (splitWord withoutSlash).2).1
      argument := (splitWord (splitWord withoutSlash).2).2 } := by
  simp only [parseCommandWord, h]
  rfl

/-- What the parser splits a target off from. -/
def clickedRest (name text : String) : List Char :=
  trim isSpaceChar (name.toList ++ ' ' :: text.toList.rdropWhile isSpaceChar)

theorem trimmed_clicked (hslash : isSpaceChar '/' = false) (name : String) {text : String}
    (htext : ¬IsBlank text.toList) : (trimmedText ("/msg " ++ name ++ " " ++ text)).toList =
      '/' :: 'm' :: 's' :: 'g' :: ' ' ::
        (name.toList ++ ' ' :: text.toList.rdropWhile isSpaceChar) := by
  have htrim := trim_slash hslash ("msg ".toList ++ name.toList ++ [' ']) htext
  rw [trimmedText_toList, String.toList_append, String.toList_append, String.toList_append]
  simpa using htrim

theorem splitWord_msg (h : line.toList = '/' :: 'm' :: 's' :: 'g' :: ' ' :: rest) :
    splitWord (substring line 1) = ("msg", .ofList (trim isSpaceChar rest)) := by
  have htail : (substring line 1).toList = 'm' :: 's' :: 'g' :: ' ' :: rest := by
    rw [substring_toList, h]
    rfl
  apply Prod.ext
  · apply String.toList_inj.mp
    rw [splitWord_fst, htail]
    simp
  · apply String.toList_inj.mp
    rw [splitWord_snd, htail, String.toList_ofList]
    rfl

theorem parse_clicked (hslash : isSpaceChar '/' = false) (name : String) {text : String}
    (htext : ¬IsBlank text.toList) : parse ("/msg " ++ name ++ " " ++ text) = {
      type := .message
      commandName := "msg"
      target := (splitWord (.ofList (clickedRest name text))).1
      argument := (splitWord (.ofList (clickedRest name text))).2 } := by
  have hline := trimmed_clicked hslash name htext
  rw [parse_eq]
  generalize trimmedText ("/msg " ++ name ++ " " ++ text) = line at hline
  have hstart : startsWith line "/ms" = true := startsWith_msg hline
  have hslashes : startsWith line "/" = true := startsWith_of_shorter hstart (by decide)
  have hescape : startsWith line "//" = false := startsWith_false hstart (by decide) (by decide)
  have haction : startsWith line actionPrefix = false :=
    startsWith_false hstart (by decide) (by decide)
  have hbare : line ≠ "/me" := by
    rintro rfl
    exact absurd hstart (by decide)
  simp only [hslashes, hescape, haction, hbare, Bool.true_eq_false, Bool.false_eq_true, or_self,
    if_false]
  have hword := splitWord_msg hline
  rw [parseCommandWord_msg (congrArg Prod.fst hword), hword]
  rfl

theorem expand_clicked (hslash : isSpaceChar '/' = false) {aliases : ChatAliases}
    (hmsg : aliases.get? "msg" = none) (name : String) {text : String}
    (htext : ¬IsBlank text.toList) :
    ChatAliases.expand aliases ("/msg " ++ name ++ " " ++ text) =
      "/msg " ++ name ++ " " ++ text := by
  have hline := trimmed_clicked hslash name htext
  have hstart := startsWith_msg hline
  have hslashes : startsWith (trimmedText ("/msg " ++ name ++ " " ++ text)) "/" = true :=
    startsWith_of_shorter hstart (show "/".toList <+: "/ms".toList by decide)
  have hnot : ¬(startsWith (trimmedText ("/msg " ++ name ++ " " ++ text)) "/" = false ∨
      startsWith (trimmedText ("/msg " ++ name ++ " " ++ text)) "//" = true) := by
    rw [hslashes, startsWith_false hstart (by decide) (by decide)]
    decide
  simp only [ChatAliases.expand, if_neg hnot, splitWord_msg hline]
  rw [show toLowerCase "msg" = "msg" by decide, hmsg]

theorem clickedRest_of_blank (hspace : isSpaceChar ' ' = true) (hname : IsBlank name.toList)
    (text : String) : clickedRest name text = trim isSpaceChar text.toList := by
  rw [clickedRest, trim_append_of_all hname, trim_space hspace, trim_rdropWhile]

theorem rdropWhile_typed (htext : ¬IsBlank text) :
    (' ' :: text.rdropWhile isSpaceChar).rdropWhile isSpaceChar =
      ' ' :: text.rdropWhile isSpaceChar :=
  (rdropWhile_append_of_not_all (l := [' ']) (not_all_rdropWhile htext)).trans
    (congrArg (' ' :: ·) (List.rdropWhile_idempotent _ _))

theorem trim_before_typed (hfront : ¬IsBlank front) (htext : ¬IsBlank text) :
    trim isSpaceChar (front ++ ' ' :: text.rdropWhile isSpaceChar) =
      front.dropWhile isSpaceChar ++ ' ' :: text.rdropWhile isSpaceChar := by
  have htyped : ¬IsBlank (' ' :: text.rdropWhile isSpaceChar) :=
    not_blank_append (not_all_rdropWhile htext) [' ']
  rw [trim_append_of_not_all hfront htyped, rdropWhile_typed htext]

/-- A name of one word is the target, and what was typed is the text. -/
theorem split_of_isOneWord (hspace : isSpaceChar ' ' = true) (hname : IsOneWord name)
    (htext : ¬IsBlank text.toList) :
    (splitWord (.ofList (clickedRest name text))).1 = firstWord name ∧
      (splitWord (.ofList (clickedRest name text))).2 = trimmedText text := by
  rw [clickedRest, trim_before_typed hname.notBlank htext]
  refine ⟨String.toList_inj.mp ?_, String.toList_inj.mp ?_⟩
  · rw [splitWord_fst, String.toList_ofList, takeWhile_before_space, firstWord,
      String.toList_ofList]
  · rw [splitWord_snd_eq hspace, String.toList_ofList, dropWhile_before_space]
    exact (trim_append_of_all hname.blankEnd).trans ((trim_space hspace _).trans
      ((trim_rdropWhile _ _).trans (trimmedText_toList text).symm))

theorem length_behind_first_word (hspace : isSpaceChar ' ' = true) (htext : ¬IsBlank text) :
    ((trim isSpaceChar text).dropWhile (· ≠ ' ')).length < (trim isSpaceChar text).length := by
  have hne : trim isSpaceChar text ≠ [] := fun he => htext (trim_eq_nil_iff.mp he)
  have htrimmed := trim_trim isSpaceChar text
  generalize trim isSpaceChar text = rest at hne htrimmed
  cases rest with
  | nil => exact absurd rfl hne
  | cons first rest =>
    by_cases hfirst : first = ' '
    · rw [hfirst, trim_space hspace] at htrimmed
      have hle := length_trim_le isSpaceChar rest
      rw [htrimmed] at hle
      exact absurd hle (Nat.not_succ_le_self _)
    · have hdrop : (first :: rest).dropWhile (· ≠ ' ') = rest.dropWhile (· ≠ ' ') :=
        List.dropWhile_cons_of_pos (decide_eq_true hfirst)
      rw [hdrop]
      exact Nat.lt_succ_of_le (List.dropWhile_sublist _).length_le

/-- Otherwise part of what was typed becomes the target, or part of the name becomes text. -/
theorem split_of_not_isOneWord (hspace : isSpaceChar ' ' = true) (hname : ¬IsOneWord name)
    (htext : ¬IsBlank text.toList) :
    (splitWord (.ofList (clickedRest name text))).2 ≠ trimmedText text := by
  intro heq
  have hlength := congrArg (fun text : String => text.toList.length) heq
  simp only [splitWord_snd_eq hspace, String.toList_ofList, trimmedText_toList] at hlength
  by_cases hblank : IsBlank name.toList
  · rw [clickedRest_of_blank hspace hblank] at hlength
    have hle := length_trim_le isSpaceChar
      ((trim isSpaceChar text.toList).dropWhile (· ≠ ' '))
    have hlt := length_behind_first_word hspace htext
    omega
  · have hlater : ¬IsBlank (laterWords name) := fun hend => hname ⟨hblank, hend⟩
    rw [clickedRest, trim_before_typed hblank htext, dropWhile_before_space] at hlength
    rw [laterWords] at hlater
    rw [trim_before_typed hlater htext, List.length_append, List.length_cons,
      ← trim_rdropWhile isSpaceChar text.toList] at hlength
    have hle := length_trim_le isSpaceChar (text.toList.rdropWhile isSpaceChar)
    omega

end

/-- The message that one line of chat goes out in. -/
def chatLine (localSessionId targetSessionId text : String) : ServerMessage :=
  let chatMessage := (Message.ofWhat .newChatText)
    |>.addString fieldSession localSessionId
    |>.addString fieldText text
  { toMessage :=
      if targetSessionId ≠ "*" then chatMessage.addBool fieldPrivate true else chatMessage
    keys := [makeSessionTargetPath targetSessionId] }

theorem chatLine_inj (h : chatLine localSessionId sessionId text =
    chatLine localSessionId' sessionId' text') : sessionId = sessionId' := by
  have hkey : makeSessionTargetPath sessionId = makeSessionTargetPath sessionId' :=
    List.head_eq_of_cons_eq (congrArg (·.keys) h)
  apply String.toList_inj.mp
  have hpath := congrArg String.toList hkey
  simp only [makeSessionTargetPath, String.toList_append, List.append_assoc] at hpath
  exact List.append_cancel_right (List.append_cancel_left hpath)

theorem chatLine_what (localSessionId sessionId text : String) :
    (chatLine localSessionId sessionId text).what = .newChatText := by
  simp only [chatLine]
  split <;> rfl

theorem chatLine_text (localSessionId sessionId text : String) :
    (chatLine localSessionId sessionId text).findString fieldText = some text := by
  simp only [chatLine]
  split <;> rfl

namespace ConnectionWorld

theorem sendChatText_eq (c : ConnectionWorld) (hc : c.isConnected = true) (htext : text ≠ "")
    (targetSessionId : String) : c.sendChatText targetSessionId text =
      c.sendToServer (chatLine c.localSessionId targetSessionId text) := by
  have hgoes : ¬(c.isConnected = false ∨ text = "") := by
    rw [hc]
    exact fun h => h.elim Bool.noConfusion htext
  rw [sendChatText, if_neg hgoes]
  rfl

theorem sendChatText_off (c : ConnectionWorld) (hc : c.isConnected = false)
    (targetSessionId text : String) : c.sendChatText targetSessionId text = c := by
  rw [sendChatText, if_pos (.inl hc)]

theorem foldl_sendChatText (users : List ResolvedUser) (c : ConnectionWorld)
    (hc : c.isConnected = true) (htext : text ≠ "") :
    users.foldl (fun c user => c.sendChatText user.sessionId text) c = { c with
      history := c.history ++ users.map fun user =>
        .sent (chatLine c.localSessionId user.sessionId text) } := by
  induction users generalizing c with
  | nil => rw [List.foldl_nil, List.map_nil, List.append_nil]
  | cons user users ih =>
    rw [List.foldl_cons, c.sendChatText_eq hc htext]
    apply (ih (c.sendToServer (chatLine c.localSessionId user.sessionId text)) hc).trans
    simp only [sendToServer, note, List.append_assoc, List.map_cons, List.singleton_append]

theorem foldl_sendChatText_off (users : List ResolvedUser) (c : ConnectionWorld)
    (hc : c.isConnected = false) (text : String) :
    users.foldl (fun c user => c.sendChatText user.sessionId text) c = c := by
  induction users with
  | nil => rfl
  | cons user users ih => rw [List.foldl_cons, c.sendChatText_off hc, ih]

end ConnectionWorld

namespace ChatWindowWorld

section
variable [QtWidgets] [MuscleText] [QtLibrary]

theorem sendPrivateMessageTo_getAt (targets : List ResolvedUser) (w : ChatWindowWorld)
    (a : WindowAnswers) (text : String) (index : Nat) :
    (targets.foldl (fun w user =>
        w.sendPrivateMessageTo a text user) w).connections.getAt index =
      (w.connections.getAt index).map fun c => { c with
        world := (targets.filter fun user => user.connection = index).foldl
          (fun c user => c.sendChatText user.sessionId text) c.world } := by
  induction targets generalizing w with
  | nil =>
    rw [List.foldl_nil, List.filter_nil]
    exact Option.map_id'.symm
  | cons user targets ih =>
    have hstep : (w.sendPrivateMessageTo a text user).connections.getAt index =
        (w.connections.getAt index).map fun c =>
          if user.connection = index then
            { c with world := c.world.sendChatText user.sessionId text }
          else c := by
      rw [sendPrivateMessageTo, echo_connections]
      exact w.connections.getAt_onConnection ..
    rw [List.foldl_cons, ih, hstep, Option.map_map]
    by_cases h : user.connection = index
    · have hfilter : (user :: targets).filter (fun user => user.connection = index) =
          user :: targets.filter fun user => user.connection = index :=
        List.filter_cons_of_pos (decide_eq_true h)
      simp only [hfilter, h, if_true]
      rfl
    · have hfilter : (user :: targets).filter (fun user => user.connection = index) =
          targets.filter fun user => user.connection = index :=
        List.filter_cons_of_neg (by simpa using h)
      simp only [hfilter, h, if_false]
      rfl

theorem sendPrivateMessageTo_online {w : ChatWindowWorld} (targets : List ResolvedUser)
    (a : WindowAnswers) (hc : w.connections.getAt index = some c)
    (hup : c.world.isConnected = true) (htext : text ≠ "") :
    ∃ c', (targets.foldl (fun w user =>
        w.sendPrivateMessageTo a text user) w).connections.getAt index = some c' ∧
      c'.world.toServerConnection = c.world.toServerConnection ∧
      c'.world.history.drop (w.connections.historyAt index).length =
        (targets.filter fun user => user.connection = index).map fun user =>
          .sent (chatLine c.world.localSessionId user.sessionId text) := by
  have hlater := sendPrivateMessageTo_getAt targets w a text index
  rw [hc, Option.map_some, c.world.foldl_sendChatText _ hup htext] at hlater
  refine ⟨_, hlater, rfl, ?_⟩
  rw [ConnectionManagerWorld.historyAt_eq hc, List.drop_left]

theorem sendPrivateMessageTo_offline {w : ChatWindowWorld} (targets : List ResolvedUser)
    (a : WindowAnswers) (hc : w.connections.getAt index = some c)
    (hdown : c.world.isConnected = false) (text : String) :
    (targets.foldl (fun w user =>
      w.sendPrivateMessageTo a text user) w).connections.getAt index = some c := by
  rw [sendPrivateMessageTo_getAt targets w a text index, hc, Option.map_some,
    c.world.foldl_sendChatText_off _ hdown]

theorem of_mem_occurrencesSince {w : ChatWindowWorld} {targets : List ResolvedUser}
    {a : WindowAnswers} (htext : text ≠ "")
    (h : (c', o) ∈ w.connections.occurrencesSince (targets.foldl (fun w user =>
      w.sendPrivateMessageTo a text user) w).connections) :
    ∃ index c, w.connections.getAt index = some c ∧ c.world.isConnected = true ∧
      c'.world.toServerConnection = c.world.toServerConnection ∧
      ∃ user ∈ targets, user.connection = index ∧
        o = .sent (chatLine c.world.localSessionId user.sessionId text) := by
  obtain ⟨index, hc', ho⟩ := ConnectionManagerWorld.mem_occurrencesSince.mp h
  cases hc : w.connections.getAt index with
  | none =>
    have hlater := sendPrivateMessageTo_getAt targets w a text index
    rw [hc] at hlater
    exact absurd (hc'.symm.trans hlater) (Option.some_ne_none c')
  | some c =>
    cases hup : c.world.isConnected with
    | false =>
      cases hc'.symm.trans (sendPrivateMessageTo_offline targets a hc hup text)
      rw [ConnectionManagerWorld.historyAt_eq hc, List.drop_length] at ho
      cases ho
    | true =>
      obtain ⟨c'', hc'', hsame, hdrop⟩ := sendPrivateMessageTo_online targets a hc hup htext
      cases hc'.symm.trans hc''
      rw [hdrop] at ho
      obtain ⟨user, hm, rfl⟩ := List.mem_map.mp ho
      obtain ⟨hm, hindex⟩ := List.mem_filter.mp hm
      exact ⟨index, c, hc, hup, hsame, user, hm, of_decide_eq_true hindex, rfl⟩

theorem mem_occurrencesSince_of_target {w : ChatWindowWorld} {targets : List ResolvedUser}
    (a : WindowAnswers) (htext : text ≠ "") {user : ResolvedUser} (hm : user ∈ targets)
    (hc : w.connections.getAt user.connection = some c) (hup : c.world.isConnected = true) :
    ∃ c', c'.world.toServerConnection = c.world.toServerConnection ∧
      (c', .sent (chatLine c.world.localSessionId user.sessionId text)) ∈
        w.connections.occurrencesSince (targets.foldl (fun w user =>
          w.sendPrivateMessageTo a text user) w).connections := by
  obtain ⟨c', hc', hsame, hdrop⟩ := sendPrivateMessageTo_online targets a hc hup htext
  refine ⟨c', hsame, ConnectionManagerWorld.mem_occurrencesSince.mpr
    ⟨user.connection, hc', ?_⟩⟩
  rw [hdrop]
  exact List.mem_map.mpr ⟨user, List.mem_filter.mpr ⟨hm, decide_eq_true rfl⟩, rfl⟩

/-- Something goes out, and all of it is this text, told in private to users who are shown under
this name. The session ID "*" stands for everybody. -/
structure ReachesOnly (w w' : ChatWindowWorld) (name text : String) : Prop where
  sent : w.chatsSince w' ≠ []
  only : ∀ o ∈ w.connections.occurrencesSince w'.connections, ∀ message, o.2 = .sent message →
    message.what = .newChatText → ∃ sessionId user,
      o.1.world.users.get? sessionId = some user ∧ toQString user.displayName = name ∧
        sessionId ≠ "*" ∧ message = chatLine o.1.world.localSessionId sessionId text

variable [MuscleLibrary]

/-- On the servers we are connected to, the word stands for users shown under the name and for
nobody else. -/
structure NamesOnly (m : ConnectionManagerWorld) (word name : String) : Prop where
  somebody : ∃ c ∈ m.connections, c.world.isConnected = true ∧
    ∃ sessionId user, StandsFor c.world.users word sessionId user
  nobodyElse : ∀ c ∈ m.connections, c.world.isConnected = true → ∀ sessionId user,
    StandsFor c.world.users word sessionId user →
      toQString user.displayName = name ∧ sessionId ≠ "*"

theorem sendPrivateMessage_silent {w : ChatWindowWorld} (a : WindowAnswers) (text : String)
    (h : w.connections.isAnyConnected = false ∨ w.connections.resolveToUsers word = []) :
    w.chatsSince (w.sendPrivateMessage a word text) = [] := by
  have hsilent (line : String) : w.chatsSince (w.appendLocalLine .errorMessage line) = [] :=
    chatsSince_of_grows (.refl _ _)
  simp only [sendPrivateMessage]
  split
  · exact hsilent _
  · next hany =>
    rw [if_pos (h.resolve_left hany)]
    exact hsilent _

theorem sendPrivateMessage_eq {w : ChatWindowWorld} (a : WindowAnswers) (text : String)
    (hany : w.connections.isAnyConnected = true) (h : w.connections.resolveToUsers word ≠ []) :
    w.sendPrivateMessage a word text = (w.connections.resolveToUsers word).foldl
      (fun w user => w.sendPrivateMessageTo a text user) w := by
  have hnot : ¬w.connections.isAnyConnected = false := by
    rw [hany]
    exact Bool.true_eq_false_eq_False
  simp only [sendPrivateMessage]
  rw [if_neg hnot, if_neg h]

theorem of_mem_sendPrivateMessage {w : ChatWindowWorld} {a : WindowAnswers} (hword : word ≠ "")
    (htext : text ≠ "") (hsent : w.chatsSince (w.sendPrivateMessage a word text) ≠ [])
    (h : (c', o) ∈ w.connections.occurrencesSince
      (w.sendPrivateMessage a word text).connections) :
    ∃ c ∈ w.connections.connections, c.world.isConnected = true ∧
      c'.world.toServerConnection = c.world.toServerConnection ∧
      ∃ sessionId user, StandsFor c.world.users word sessionId user ∧
        o = .sent (chatLine c.world.localSessionId sessionId text) := by
  have hsilent := mt (sendPrivateMessage_silent a text) hsent
  rw [not_or, Bool.not_eq_false] at hsilent
  rw [sendPrivateMessage_eq a text hsilent.1 hsilent.2] at h
  obtain ⟨index, c, hc, hup, hsame, target, hm, rfl, ho⟩ := of_mem_occurrencesSince htext h
  obtain ⟨d, user, hd, hstands, -⟩ := (mem_resolveToUsers hword).mp hm
  cases hc.symm.trans hd
  exact ⟨c, List.mem_of_getElem? hc, hup, hsame, target.sessionId, user, hstands, ho⟩

theorem mem_sendPrivateMessage {w : ChatWindowWorld} (a : WindowAnswers) (hword : word ≠ "")
    (htext : text ≠ "") (hm : c ∈ w.connections.connections)
    (hup : c.world.isConnected = true) (h : StandsFor c.world.users word sessionId user) :
    ∃ c', c'.world.toServerConnection = c.world.toServerConnection ∧
      (c', .sent (chatLine c.world.localSessionId sessionId text)) ∈
        w.connections.occurrencesSince (w.sendPrivateMessage a word text).connections := by
  obtain ⟨index, hc⟩ := List.mem_iff_getElem?.mp hm
  let target : ResolvedUser := ⟨index, sessionId, user.displayName⟩
  have htarget : target ∈ w.connections.resolveToUsers word :=
    (mem_resolveToUsers hword).mpr ⟨c, user, hc, h, rfl⟩
  have hany : w.connections.isAnyConnected = true := List.any_eq_true.mpr ⟨c, hm, hup⟩
  rw [sendPrivateMessage_eq a text hany (List.ne_nil_of_mem htarget)]
  exact mem_occurrencesSince_of_target a htext htarget hc hup

/-- A private message reaches whom it should exactly if the typed name stands for nobody else. -/
theorem sendPrivateMessage_reachesOnly {w : ChatWindowWorld} {a : WindowAnswers}
    (hword : word ≠ "") (htext : text ≠ "") (name : String) :
    ReachesOnly w (w.sendPrivateMessage a word text) name text ↔
      NamesOnly w.connections word name := by
  constructor
  · intro h
    refine ⟨?_, fun c hm hup sessionId user hstands => ?_⟩
    · obtain ⟨message, hm⟩ := List.exists_mem_of_ne_nil _ h.sent
      obtain ⟨-, c', hm⟩ := mem_chatsSince.mp hm
      obtain ⟨c, hc, hup, -, sessionId, user, hstands, -⟩ :=
        of_mem_sendPrivateMessage hword htext h.sent hm
      exact ⟨c, hc, hup, sessionId, user, hstands⟩
    · obtain ⟨c', hsame, hm⟩ := mem_sendPrivateMessage a hword htext hm hup hstands
      obtain ⟨sessionId', user', hget, hshown, hone, heq⟩ :=
        h.only _ hm _ rfl (chatLine_what ..)
      cases chatLine_inj heq
      rw [hsame] at hget
      cases hget.symm.trans hstands.isUser
      exact ⟨hshown, hone⟩
  · intro h
    obtain ⟨c, hm, hup, sessionId, user, hstands⟩ := h.somebody
    obtain ⟨c', -, hsent⟩ := mem_sendPrivateMessage a hword htext hm hup hstands
    have hne : w.chatsSince (w.sendPrivateMessage a word text) ≠ [] :=
      List.ne_nil_of_mem (mem_chatsSince.mpr ⟨chatLine_what .., c', hsent⟩)
    refine ⟨hne, fun o ho message hmessage _ => ?_⟩
    obtain ⟨d, hd, hup, hsame, sessionId, user, hstands, hline⟩ :=
      of_mem_sendPrivateMessage hword htext hne ho
    obtain ⟨hshown, hone⟩ := h.nobodyElse d hd hup sessionId user hstands
    refine ⟨sessionId, user, ?_, hshown, hone, ?_⟩
    · rw [hsame]
      exact hstands.isUser
    · rw [hsame]
      exact ConnectionOccurrence.sent.inj (hmessage.symm.trans hline)

theorem sendPrivateMessage_text {w : ChatWindowWorld} {a : WindowAnswers} (hword : word ≠ "")
    (hother : other ≠ "")
    (h : ReachesOnly w (w.sendPrivateMessage a word other) name text) : other = text := by
  obtain ⟨message, hm⟩ := List.exists_mem_of_ne_nil _ h.sent
  obtain ⟨hwhat, c', hm⟩ := mem_chatsSince.mp hm
  obtain ⟨c, -, -, -, sessionId, user, -, hline⟩ :=
    of_mem_sendPrivateMessage hword hother h.sent hm
  obtain ⟨sessionId', user', -, -, -, heq⟩ := h.only _ hm message rfl hwhat
  have htext := congrArg (fun m : ServerMessage => m.findString fieldText)
    ((ConnectionOccurrence.sent.inj hline).symm.trans heq)
  simp only [chatLine_text] at htext
  exact Option.some.inj htext

/-- The name is one word that stands for its users and nobody else. -/
structure GoesOnlyTo (m : ConnectionManagerWorld) (name : String) : Prop where
  oneWord : IsOneWord name
  namesOnly : NamesOnly m (firstWord name) name

variable [CaseInsensitivePatterns]

theorem handleCommand_message (w : ChatWindowWorld) (a : WindowAnswers) (commandName : String)
    (htarget : target ≠ "") (hargument : argument ≠ "") :
    w.handleCommand a { type := .message, commandName, target, argument } =
      w.sendPrivateMessage a target argument := by
  have hgiven : ¬(target = "" ∨ argument = "") := not_or.mpr ⟨htarget, hargument⟩
  simp only [handleCommand, if_neg hgiven]

theorem handleCommand_message_silent (w : ChatWindowWorld) (a : WindowAnswers)
    (commandName : String) (h : target = "" ∨ argument = "") : w.chatsSince
      (w.handleCommand a { type := .message, commandName, target, argument }) = [] := by
  apply chatsSince_of_grows
  simp only [handleCommand, if_pos h]
  exact .refl _ _

/-- After a double click, the whole text goes to the users of that name and to nobody else exactly
if the name is one word that stands for them alone; unless an alias takes the place of the command,
the line is parsed as it is. -/
theorem private_message_goes_to_clicked {w : ChatWindowWorld} {a : WindowAnswers}
    {entry : UserListEntry} {inserted text : String} (hspace : isSpaceChar ' ' = true)
    (hslash : isSpaceChar '/' = false)
    (hclick : onUserDoubleClicked entry.shownName = some inserted)
    (htext : trimmedText text ≠ "") :
    (ReachesOnly w (w.handleCommand a (parse (inserted ++ text))) entry.shownName
        (trimmedText text) ↔ GoesOnlyTo w.connections entry.shownName) ∧
      (w.aliases.get? "msg" = none → w.handleUserInput a (inserted ++ text) =
        w.handleCommand a (parse (inserted ++ text))) := by
  have hblank : ¬IsBlank text.toList := by
    intro hall
    apply htext
    rw [trimmedText, trimmed_eq, trim_eq_nil_iff.mpr hall]
  obtain ⟨hname, ⟨⟩⟩ := Option.ite_none_left_eq_some.mp hclick
  refine ⟨?_, fun hmsg => ?_⟩
  · rw [parse_clicked hslash entry.shownName hblank]
    by_cases hone : IsOneWord entry.shownName
    · obtain ⟨htarget, hargument⟩ := split_of_isOneWord hspace hone hblank
      have hword := hone.firstWord_ne hspace
      rw [htarget, hargument, handleCommand_message w a "msg" hword htext,
        sendPrivateMessage_reachesOnly hword htext]
      exact ⟨fun h => ⟨hone, h⟩, GoesOnlyTo.namesOnly⟩
    · apply iff_of_false _ fun h => hone h.oneWord
      intro h
      by_cases hgiven : (splitWord (.ofList (clickedRest entry.shownName text))).1 = "" ∨
          (splitWord (.ofList (clickedRest entry.shownName text))).2 = ""
      · exact h.sent (handleCommand_message_silent w a "msg" hgiven)
      · rw [not_or] at hgiven
        rw [handleCommand_message w a "msg" hgiven.1 hgiven.2] at h
        exact split_of_not_isOneWord hspace hone hblank
          (sendPrivateMessage_text hgiven.1 hgiven.2 h)
  · rw [handleUserInput, expand_clicked hslash hmsg entry.shownName hblank]

end

section
attribute [local instance] plainWidgets asciiText plainQt plainLibrary plainPatterns

/-- Two users of one server; the name of one is the first word of the name of the other. -/
def maryWindow : ChatWindowWorld where
  settings := .ofWhat ()
  settingsFile := .ofWhat ()
  connections := { connections := [{
    serial := 0
    born := 0
    world := {
      connectionState := .connected
      localSessionId := "1"
      serverAddress := "server"
      users := (Hashtable.empty.put "7" { sessionId := "7", userName := "mary ann" }).put "8"
        { sessionId := "8", userName := "mary" } } }] }

def rowOf (sessionId userName : String) : UserListEntry :=
  ⟨{ sessionId, userName }, 0, "server"⟩

theorem private_message_goes_to_mary :
    onUserDoubleClicked (rowOf "8" "mary").shownName = some "/msg mary " ∧
      trimmedText "hello" ≠ "" ∧
      (ReachesOnly maryWindow (maryWindow.handleCommand {} (parse ("/msg mary " ++ "hello")))
          (rowOf "8" "mary").shownName (trimmedText "hello") ↔
        GoesOnlyTo maryWindow.connections (rowOf "8" "mary").shownName) ∧
      (maryWindow.aliases.get? "msg" = none →
        maryWindow.handleUserInput {} ("/msg mary " ++ "hello") =
          maryWindow.handleCommand {} (parse ("/msg mary " ++ "hello"))) := by
  have hclick : onUserDoubleClicked (rowOf "8" "mary").shownName = some "/msg mary " := by decide
  have htext : trimmedText "hello" ≠ "" := by decide
  exact ⟨hclick, htext, private_message_goes_to_clicked (by decide) (by decide) hclick htext⟩

/-- A double click on "mary ann": what is typed after it goes to "mary". -/
theorem message_for_mary_ann_goes_to_mary :
    onUserDoubleClicked (rowOf "7" "mary ann").shownName = some "/msg mary ann " ∧
      maryWindow.chatsSince (maryWindow.handleUserInput {} ("/msg mary ann " ++ "hi")) =
        [chatLine "1" "8" "ann hi"] ∧
      ¬ReachesOnly maryWindow (maryWindow.handleUserInput {} ("/msg mary ann " ++ "hi"))
        (rowOf "7" "mary ann").shownName (trimmedText "hi") := by
  have hparse : parse (ChatAliases.expand maryWindow.aliases ("/msg mary ann " ++ "hi")) =
      { type := .message, commandName := "msg", target := "mary", argument := "ann hi" } := by
    decide
  have hinput : maryWindow.handleUserInput {} ("/msg mary ann " ++ "hi") =
      maryWindow.sendPrivateMessage {} "mary" "ann hi" := by
    rw [handleUserInput, hparse]
    exact handleCommand_message maryWindow {} "msg" (by decide) (by decide)
  rw [hinput]
  refine ⟨by decide, by decide, fun h => ?_⟩
  exact absurd (sendPrivateMessage_text (by decide) (by decide) h) (by decide)

end

end ChatWindowWorld

end HiTuxShare
