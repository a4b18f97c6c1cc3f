import HiTuxShare.ChatWindowFrames

namespace HiTuxShare
set_option autoImplicit true

section
variable [MuscleText]

/-- What follows the command word and the name of a private message. -/
def privateText (line : String) : String := (splitWord (splitWord (substring line 1)).2).2

/-- The first word after the slash is the command. -/
def isMessageCommand (line : String) : Prop :=
  startsWith line "/" = true ∧ toLowerCase (splitWord (substring line 1)).1 = "msg"

/-- None of the lines that sender and receiver take differently: a bare action, an action behind a
second slash, and an action told in private. -/
structure IsPlain (line : String) : Prop where
  notBare : line ≠ "/me"
  notEscaped : startsWith line "//me " = false
  notPrivate : isMessageCommand line → startsWith (privateText line) actionPrefix = false

theorem isMessageCommand_letters (h : isMessageCommand line) :
    ∃ a b, ['/', a, b] <+: line.toList ∧ a.toLower = 'm' ∧ b.toLower = 's' := by
  obtain ⟨hslash, hword⟩ := h
  obtain ⟨rest, hrest⟩ := startsWith_iff_begins.mp hslash
  have htail : (substring line 1).toList = rest := by
    rw [substring_toList, ← hrest]
    rfl
  have hlower := congrArg String.toList hword
  rw [toLowerCase, String.toList_ofList, splitWord_fst, htail] at hlower
  have hprefix := List.takeWhile_prefix (l := rest) (· ≠ ' ')
  generalize rest.takeWhile (· ≠ ' ') = word at hlower hprefix
  have hlength : word.length = 3 := (List.length_map _).symm.trans (congrArg List.length hlower)
  obtain ⟨a, b, c, rfl⟩ := List.length_eq_three.mp hlength
  obtain ⟨ha, hlower⟩ := List.cons_eq_cons.mp hlower
  obtain ⟨hb, -⟩ := List.cons_eq_cons.mp hlower
  refine ⟨a, b, ?_, ha, hb⟩
  rw [← hrest]
  have hshort : [a, b] <+: rest := List.IsPrefix.trans ⟨[c], rfl⟩ hprefix
  exact (List.prefix_append_right_inj ['/']).mpr hshort

theorem not_isMessageCommand_of_escape (h : startsWith line "//" = true) :
    ¬isMessageCommand line := by
  intro hcommand
  obtain ⟨a, b, hletters, ha, -⟩ := isMessageCommand_letters hcommand
  have hprefix : ['/', '/'] <+: ['/', a, b] :=
    List.prefix_of_prefix_length_le (startsWith_iff_begins.mp h) hletters (Nat.le_succ 2)
  obtain ⟨-, hprefix⟩ := List.cons_prefix_cons.mp hprefix
  obtain ⟨rfl, -⟩ := List.cons_prefix_cons.mp hprefix
  exact absurd ha (by decide)

theorem not_isMessageCommand_of_action (h : startsWith line "/me" = true) :
    ¬isMessageCommand line := by
  intro hcommand
  obtain ⟨a, b, hletters, -, hb⟩ := isMessageCommand_letters hcommand
  have hprefix : ['/', 'm', 'e'] <+: ['/', a, b] :=
    List.prefix_of_prefix_length_le (startsWith_iff_begins.mp h) hletters (Nat.le_refl 3)
  obtain ⟨-, hprefix⟩ := List.cons_prefix_cons.mp hprefix
  obtain ⟨-, hprefix⟩ := List.cons_prefix_cons.mp hprefix
  obtain ⟨rfl, -⟩ := List.cons_prefix_cons.mp hprefix
  exact absurd hb (by decide)

theorem isPlain_of_none {input : String} (h : (parse input).type = .none) :
    IsPlain (trimmedText input) ↔ startsWith (parse input).argument actionPrefix = false := by
  rw [parse_eq] at h ⊢
  generalize trimmedText input = line at h ⊢
  split at h
  · next hslash =>
    rw [if_pos hslash]
    have hother {longer : String} (hp : "/".toList <+: longer.toList) :
        startsWith line longer = false := by
      by_contra hnot
      have hstart := startsWith_of_shorter (Bool.eq_true_of_not_eq_false hnot) hp
      exact absurd (hstart.symm.trans hslash) Bool.true_eq_false_eq_False
    refine iff_of_true ⟨?_, hother (by decide), fun hcommand => ?_⟩ (hother (by decide))
    · rintro rfl
      exact absurd hslash (by decide)
    · exact absurd (hcommand.1.symm.trans hslash) Bool.true_eq_false_eq_False
  · next hslash =>
    rw [if_neg hslash]
    split at h
    · next hescape =>
      rw [if_pos hescape]
      obtain ⟨rest, hrest⟩ := startsWith_iff_begins.mp hescape
      have hsame : startsWith (substring line 1) actionPrefix = startsWith line "//me " := by
        rw [startsWith, startsWith, substring_toList, ← hrest]
        rfl
      rw [hsame]
      constructor
      · exact IsPlain.notEscaped
      · intro hno
        refine ⟨?_, hno, fun hcommand => ?_⟩
        · rintro rfl
          exact absurd hescape (by decide)
        · exact absurd hcommand (not_isMessageCommand_of_escape hescape)
    · split at h
      · cases h
      · exact absurd h (parseCommandWord_type _).1

theorem isPlain_of_action {input : String} (h : (parse input).type = .action) :
    IsPlain (trimmedText input) ↔ startsWith (parse input).argument actionPrefix = true := by
  rw [parse_eq] at h ⊢
  generalize trimmedText input = line at h ⊢
  split at h
  · cases h
  next hslash =>
  rw [if_neg hslash]
  split at h
  · cases h
  next hescape =>
  rw [if_neg hescape]
  split at h
  · next haction =>
    rw [if_pos haction]
    constructor
    · intro hplain
      exact haction.resolve_left hplain.notBare
    · intro hstart
      refine ⟨?_, ?_, fun hcommand => ?_⟩
      · rintro rfl
        exact absurd hstart (by decide)
      · exact startsWith_false hstart (by decide) (by decide)
      · have hme : startsWith line "/me" = true := startsWith_of_shorter hstart (by decide)
        exact absurd hcommand (not_isMessageCommand_of_action hme)
  · exact absurd h (parseCommandWord_type _).2

theorem isPlain_of_message {input : String} (h : (parse input).type = .message) :
    IsPlain (trimmedText input) ↔ startsWith (parse input).argument actionPrefix = false := by
  rw [parse_eq] at h ⊢
  generalize trimmedText input = line at h ⊢
  split at h
  · cases h
  next hslash =>
  rw [if_neg hslash]
  split at h
  · cases h
  next hescape =>
  rw [if_neg hescape]
  split at h
  · cases h
  next haction =>
  rw [if_neg haction]
  obtain ⟨hword, hargument⟩ := parseCommandWord_message h
  have hcommand : isMessageCommand line := ⟨Bool.eq_true_of_not_eq_false hslash, hword⟩
  rw [hargument]
  constructor
  · intro hplain
    exact hplain.notPrivate hcommand
  · intro hno
    refine ⟨fun hbare => haction (.inl hbare), ?_, fun _ => hno⟩
    by_contra hnot
    exact hescape (startsWith_of_shorter (Bool.eq_true_of_not_eq_false hnot) (by decide))

end

/-- What other clients show of a line: whether it is an action, and the text. -/
def shownLine (text : String) : Bool × String :=
  let isAction := startsWith text actionPrefix
  (isAction, if isAction then substring text actionPrefix.length else text)

namespace ConnectionWorld

/-- A client takes the message in and shows it so. -/
def Shows (receiver : ConnectionWorld) (message : ServerMessage) (line : Bool × String) : Prop :=
  ∃ details : ChatDetails, receiver.handleChatText message =
      receiver.note (.chatMessageReceived .remoteUserChatMessage line.2 details) ∧
    details.isAction = line.1

theorem note_inj {w : ConnectionWorld} (h : w.note o = w.note o') : o = o' := by
  have hhistory : w.history ++ [o] = w.history ++ [o'] := congrArg (·.history) h
  exact List.head_eq_of_cons_eq (List.append_cancel_left hhistory)

/-- The prefix alone decides what a message looks like at the other end. -/
theorem shows_iff {receiver : ConnectionWorld} {message : ServerMessage}
    (hsession : message.findString fieldSession = some senderSessionId)
    (htext : message.findString fieldText = some text)
    (h : senderSessionId ≠ receiver.localSessionId) :
    receiver.Shows message line ↔ shownLine text = line := by
  simp only [Shows, handleChatText, hsession, htext, h, if_false]
  obtain ⟨isAction, shown⟩ := line
  constructor
  · rintro ⟨details, heq, rfl⟩
    cases note_inj heq
    rfl
  · rintro ⟨⟩
    exact ⟨_, rfl, rfl⟩

end ConnectionWorld

/-- The chat a connection sends is this text, under its own session ID. -/
def ConnectionOccurrence.Carries (text : String) (o : ConnectionOccurrence) : Prop :=
  ∀ message, o = .sent message → message.what = .newChatText →
    (message.findString fieldSession).isSome ∧ message.findString fieldText = some text

theorem ConnectionWorld.sendChatText_carries (w : ConnectionWorld)
    (targetSessionId text : String) :
    DoesOnly (·.Carries text) w (w.sendChatText targetSessionId text) := by
  rw [sendChatText]
  split
  · exact .refl _ w
  · apply DoesOnly.one rfl
    rintro message ⟨⟩ -
    split <;> exact ⟨rfl, rfl⟩

namespace ChatWindowWorld

section
variable [QtWidgets]

/-- What the window has shown of its user's own lines since. -/
def echoesSince (w w' : ChatWindowWorld) : List ChatMessage :=
  (w'.chatLogView.drop w.chatLogView.length).filter (·.type = .localUserChatMessage)

/-- The lines of chat that have gone out since, on whatever connection. -/
def chatsSince (w w' : ChatWindowWorld) : List ServerMessage :=
  (w.connections.occurrencesSince w'.connections).filterMap fun o =>
    match o.2 with
    | .sent message => if message.what = .newChatText then some message else none
    | _ => none

/-- The user sees an echo, and everybody who receives a line sees the same. -/
structure SeesSameLine (w w' : ChatWindowWorld) : Prop where
  echoed : w.echoesSince w' ≠ []
  same : ∀ echo ∈ w.echoesSince w', ∀ message ∈ w.chatsSince w', ∀ receiver : ConnectionWorld,
    message.findString fieldSession ≠ some receiver.localSessionId →
      receiver.Shows message (echo.isAction, echo.text)

theorem mem_chatsSince {w w' : ChatWindowWorld} : message ∈ w.chatsSince w' ↔
    message.what = .newChatText ∧
      ∃ c, (c, .sent message) ∈ w.connections.occurrencesSince w'.connections := by
  simp only [chatsSince, List.mem_filterMap]
  constructor
  · rintro ⟨⟨c, o⟩, hm, heq⟩
    cases o with
    | sent sent =>
      obtain ⟨hwhat, ⟨⟩⟩ := Option.ite_none_right_eq_some.mp heq
      exact ⟨hwhat, c, hm⟩
    | _ => cases heq
  · rintro ⟨hwhat, c, hm⟩
    exact ⟨_, hm, if_pos hwhat⟩

theorem chatsSince_of_grows {w w' : ChatWindowWorld}
    (h : w.connections.Grows ConnectionOccurrence.NoChat w'.connections) :
    w.chatsSince w' = [] := by
  rw [List.eq_nil_iff_forall_not_mem]
  intro message hm
  obtain ⟨hwhat, c, hm⟩ := mem_chatsSince.mp hm
  exact absurd hwhat (of_decide_eq_false (h.occurrencesSince _ hm))

/-- Where all echoes are flagged alike and all messages carry one text, all depends on whether the
text has the prefix. -/
theorem seesSameLine_iff {w w' : ChatWindowWorld} (hechoed : w.echoesSince w' ≠ [])
    (hecho : ∀ echo ∈ w.echoesSince w', echo.isAction = isAction ∧
      echo.text = if isAction then substring text actionPrefix.length else text)
    (hcarries : w.connections.Grows (·.Carries text) w'.connections)
    (hsent : w.chatsSince w' ≠ []) :
    SeesSameLine w w' ↔ startsWith text actionPrefix = isAction := by
  have hmessage : ∀ message ∈ w.chatsSince w', (message.findString fieldSession).isSome ∧
      message.findString fieldText = some text := by
    intro message hm
    obtain ⟨hwhat, c, hm⟩ := mem_chatsSince.mp hm
    exact hcarries.occurrencesSince _ hm message rfl hwhat
  constructor
  · intro h
    obtain ⟨echo, hme⟩ := List.exists_mem_of_ne_nil _ hechoed
    obtain ⟨message, hmm⟩ := List.exists_mem_of_ne_nil _ hsent
    obtain ⟨hsession, htext⟩ := hmessage message hmm
    obtain ⟨senderSessionId, hsession⟩ := Option.isSome_iff_exists.mp hsession
    let receiver : ConnectionWorld := { localSessionId := senderSessionId ++ "x" }
    have hother : senderSessionId ≠ receiver.localSessionId := by
      intro heq
      have hlength : senderSessionId.length = (senderSessionId ++ "x").length :=
        congrArg String.length heq
      simp at hlength
    have hne : message.findString fieldSession ≠ some receiver.localSessionId := by
      rw [hsession]
      exact fun heq => hother (Option.some.inj heq)
    have hshown := (ConnectionWorld.shows_iff hsession htext hother).mp
      (h.same echo hme message hmm receiver hne)
    exact (congrArg Prod.fst hshown).trans (hecho echo hme).1
  · rintro rfl
    refine ⟨hechoed, fun echo hme message hmm receiver hne => ?_⟩
    obtain ⟨hsession, htext⟩ := hmessage message hmm
    obtain ⟨senderSessionId, hsession⟩ := Option.isSome_iff_exists.mp hsession
    have hother : senderSessionId ≠ receiver.localSessionId := by
      rintro rfl
      exact hne hsession
    rw [ConnectionWorld.shows_iff hsession htext hother, (hecho echo hme).1, (hecho echo hme).2]
    rfl

end

section
variable [QtWidgets] [MuscleText]

theorem sendChatToEveryone_echoes {w : ChatWindowWorld}
    (h : w.connections.isAnyConnected = true) (a : WindowAnswers) (text : String)
    (isAction : Bool) : ∃ echo, w.echoesSince (w.sendChatToEveryone a text isAction) = [echo] ∧
      echo.isAction = isAction ∧
        echo.text = if isAction then substring text actionPrefix.length else text := by
  rw [sendChatToEveryone, if_neg (by rw [h]; decide), echoesSince, echo_chatLogView,
    List.drop_left]
  exact ⟨_, rfl, rfl, rfl⟩

theorem sendChatToEveryone_grows (w : ChatWindowWorld) (a : WindowAnswers) (text : String)
    (isAction : Bool) : w.connections.Grows (·.Carries text)
      (w.sendChatToEveryone a text isAction).connections := by
  rw [sendChatToEveryone]
  split
  · exact .refl _ _
  · apply w.connections.onAll_grows
    intro c
    split
    · exact c.world.sendChatText_carries "*" text
    · exact .refl _ _

theorem sendChatToEveryone_off {w : ChatWindowWorld}
    (h : w.connections.isAnyConnected = false) (a : WindowAnswers) (text : String)
    (isAction : Bool) : w.chatsSince (w.sendChatToEveryone a text isAction) = [] := by
  apply chatsSince_of_grows
  rw [sendChatToEveryone, if_pos h]
  exact .refl _ _

theorem sendChatToEveryone_same {w : ChatWindowWorld} {a : WindowAnswers}
    (h : w.chatsSince (w.sendChatToEveryone a text isAction) ≠ []) :
    SeesSameLine w (w.sendChatToEveryone a text isAction) ↔
      startsWith text actionPrefix = isAction := by
  cases hany : w.connections.isAnyConnected with
  | false => exact absurd (sendChatToEveryone_off hany a text isAction) h
  | true =>
    obtain ⟨echo, hechoes, hflag, htext⟩ := sendChatToEveryone_echoes hany a text isAction
    apply seesSameLine_iff _ _ (w.sendChatToEveryone_grows a text isAction) h
    · rw [hechoes]
      exact List.cons_ne_nil _ _
    · intro echo' hm
      rw [hechoes, List.mem_singleton] at hm
      rw [hm]
      exact ⟨hflag, htext⟩

variable [QtLibrary]

theorem sendPrivateMessageTo_chatLogView (targets : List ResolvedUser) (w : ChatWindowWorld)
    (a : WindowAnswers) (text : String) :
    ∃ echoes : List ChatMessage, (targets.foldl (fun w user =>
        w.sendPrivateMessageTo a text user) w).chatLogView = w.chatLogView ++ echoes ∧
      echoes.length = targets.length ∧ ∀ echo ∈ echoes,
        echo.type = .localUserChatMessage ∧ echo.isAction = false ∧ echo.text = text := by
  induction targets generalizing w with
  | nil => exact ⟨[], (List.append_nil _).symm, rfl, fun _ hm => absurd hm List.not_mem_nil⟩
  | cons user targets ih =>
    obtain ⟨echoes, hview, hlength, hall⟩ := ih (w.sendPrivateMessageTo a text user)
    rw [sendPrivateMessageTo, echo_chatLogView, List.append_assoc] at hview
    refine ⟨_, hview, congrArg (· + 1) hlength, fun echo hm => ?_⟩
    rcases List.mem_cons.mp hm with rfl | hm
    · exact ⟨rfl, rfl, rfl⟩
    · exact hall echo hm

theorem sendPrivateMessageTo_grows (targets : List ResolvedUser) (w : ChatWindowWorld)
    (a : WindowAnswers) (text : String) :
    w.connections.Grows (·.Carries text) (targets.foldl (fun w user =>
      w.sendPrivateMessageTo a text user) w).connections := by
  apply List.foldlRecOn
    (motive := fun w' : ChatWindowWorld => w.connections.Grows (·.Carries text) w'.connections)
  · exact .refl _ _
  · intro w' h user _
    apply h.trans
    exact w'.connections.onConnection_grows _ _ fun c => c.sendChatText_carries user.sessionId text

variable [MuscleLibrary]

/-- A private line is shown to its author as speech. -/
theorem sendPrivateMessage_same {w : ChatWindowWorld} {a : WindowAnswers}
    (h : w.chatsSince (w.sendPrivateMessage a target text) ≠ []) :
    SeesSameLine w (w.sendPrivateMessage a target text) ↔
      startsWith text actionPrefix = false := by
  have hsilent (line : String) : w.chatsSince (w.appendLocalLine .errorMessage line) = [] :=
    chatsSince_of_grows (.refl _ _)
  rw [sendPrivateMessage] at h ⊢
  split at h
  · exact absurd (hsilent _) h
  next hany =>
  rw [if_neg hany]
  simp only at h ⊢
  split at h
  · exact absurd (hsilent _) h
  next htargets =>
  rw [if_neg htargets]
  obtain ⟨echoes, hview, hlength, hall⟩ :=
    sendPrivateMessageTo_chatLogView (w.connections.resolveToUsers target) w a text
  have hechoes : w.echoesSince ((w.connections.resolveToUsers target).foldl (fun w user =>
      w.sendPrivateMessageTo a text user) w) = echoes := by
    rw [echoesSince, hview, List.drop_left, List.filter_eq_self]
    exact fun echo hm => decide_eq_true (hall echo hm).1
  apply seesSameLine_iff _ _ (sendPrivateMessageTo_grows _ w a text) h
  · rw [hechoes]
    rintro rfl
    exact htargets (List.eq_nil_of_length_eq_zero hlength.symm)
  · intro echo hm
    rw [hechoes] at hm
    exact (hall echo hm).2

variable [CaseInsensitivePatterns]

/-- A line that goes out is echoed as everybody receives it exactly if it is a plain one. -/
theorem echo_is_what_others_see {w : ChatWindowWorld} {a : WindowAnswers} {input : String}
    (h : w.chatsSince (w.handleUserInput a input) ≠ []) :
    SeesSameLine w (w.handleUserInput a input) ↔
      IsPlain (trimmedText (ChatAliases.expand w.aliases input)) := by
  rw [handleUserInput] at h ⊢
  generalize ChatAliases.expand w.aliases input = line at h ⊢
  by_cases hnone : (parse line).type = .none
  · rw [handleCommand, hnone] at h ⊢
    rw [isPlain_of_none hnone]
    exact sendChatToEveryone_same h
  · by_cases haction : (parse line).type = .action
    · rw [handleCommand, haction] at h ⊢
      rw [isPlain_of_action haction]
      exact sendChatToEveryone_same h
    · by_cases hmessage : (parse line).type = .message
      · rw [isPlain_of_message hmessage]
        rw [handleCommand, hmessage] at h ⊢
        simp only at h ⊢
        split at h
        · exact absurd (chatsSince_of_grows (.refl _ _)) h
        · next hgiven =>
          rw [if_neg hgiven]
          exact sendPrivateMessage_same h
      · have hgrows := w.handleCommand_grows a (parse line) hnone haction hmessage
        exact absurd (chatsSince_of_grows hgrows) h

end

section
attribute [local instance] plainWidgets asciiText plainQt plainLibrary plainPatterns

/-- A window with one connection, as "1" on a server. -/
def onlineWindow : ChatWindowWorld where
  settings := .ofWhat ()
  settingsFile := .ofWhat ()
  connections := { connections := [{
    serial := 0
    born := 0
    world := {
      connectionState := .connected
      localSessionId := "1"
      serverAddress := "server" } }] }

theorem echo_is_what_others_see_waves :
    onlineWindow.chatsSince (onlineWindow.handleUserInput {} "/me waves") ≠ [] ∧
      (SeesSameLine onlineWindow (onlineWindow.handleUserInput {} "/me waves") ↔
        IsPlain (trimmedText (ChatAliases.expand onlineWindow.aliases "/me waves"))) ∧
      IsPlain (trimmedText (ChatAliases.expand onlineWindow.aliases "/me waves")) := by
  have hparse : parse (ChatAliases.expand onlineWindow.aliases "/me waves") =
      { type := .action, commandName := "me", argument := "/me waves" } := by decide
  have hinput : onlineWindow.handleUserInput {} "/me waves" =
      onlineWindow.sendChatToEveryone {} "/me waves" true := by
    rw [handleUserInput, hparse]
    rfl
  have hsent : onlineWindow.chatsSince (onlineWindow.handleUserInput {} "/me waves") ≠ [] := by
    rw [hinput]
    decide
  have hline : trimmedText (ChatAliases.expand onlineWindow.aliases "/me waves") =
      "/me waves" := by decide
  have hcommand : toLowerCase (splitWord (substring "/me waves" 1)).1 ≠ "msg" := by decide
  refine ⟨hsent, echo_is_what_others_see hsent, ?_⟩
  rw [hline]
  exact ⟨by decide, by decide, fun hmessage => absurd hmessage.2 hcommand⟩

/-- Two slashes before an action: the sender sees speech, the others see an action. -/
theorem escaped_action_is_shown_as_action :
    onlineWindow.chatsSince (onlineWindow.handleUserInput {} "//me waves") ≠ [] ∧
      ¬SeesSameLine onlineWindow (onlineWindow.handleUserInput {} "//me waves") := by
  have hparse : parse (ChatAliases.expand onlineWindow.aliases "//me waves") =
      { argument := "/me waves" } := by decide
  have hinput : onlineWindow.handleUserInput {} "//me waves" =
      onlineWindow.sendChatToEveryone {} "/me waves" false := by
    rw [handleUserInput, hparse]
    rfl
  have hsent : onlineWindow.chatsSince (onlineWindow.sendChatToEveryone {} "/me waves" false) ≠
      [] := by decide
  rw [hinput]
  refine ⟨hsent, fun hsame => ?_⟩
  exact absurd ((sendChatToEveryone_same hsent).mp hsame) (by decide)

end

end ChatWindowWorld

end HiTuxShare
