import HiTuxShare.HtmlText
import HiTuxShare.ListModels
import HiTuxShare.LogFiles

namespace HiTuxShare
set_option autoImplicit true

structure QColor where
  red : UInt8
  green : UInt8
  blue : UInt8

/-- How light a colour is, of which Qt takes care. -/
class QtColors where
  lightness : QColor → Nat

/-- The colours of a theme that the log is drawn with. -/
structure QPalette where
  window : QColor
  windowText : QColor
  text : QColor
  disabledText : QColor

/-- Two digits of a colour's name. -/
def hexByte (byte : UInt8) : List Char :=
  [Nat.digitChar (byte.toNat / 16), Nat.digitChar (byte.toNat % 16)]

def QColor.name (color : QColor) : List Char :=
  '#' :: hexByte color.red ++ hexByte color.green ++ hexByte color.blue

/-- `QString::arg` with all arguments at once: what is put in for one place marker is not searched
for others. -/
def arg (template : List Char) (arguments : List (List Char)) : List Char :=
  match template with
  | '%' :: c :: rest =>
    if c.isDigit ∧ c ≠ '0' then
      arguments.getD (c.toNat - '1'.toNat) [] ++ arg rest arguments
    else '%' :: arg (c :: rest) arguments
  | c :: rest => c :: arg rest arguments
  | [] => []

def QPalette.isDark [QtColors] (palette : QPalette) : Bool :=
  QtColors.lightness palette.window < QtColors.lightness palette.windowText

def getColorForMessageType [QtColors] (palette : QPalette) : LogMessageType → QColor
  | .errorMessage => if palette.isDark then ⟨0xff, 0x8a, 0x80⟩ else ⟨0xc5, 0x22, 0x1f⟩
  | .warningMessage => if palette.isDark then ⟨0xff, 0xd5, 0x4f⟩ else ⟨0xb0, 0x60, 0x00⟩
  | .userEventMessage => if palette.isDark then ⟨0x81, 0xc9, 0x95⟩ else ⟨0x0d, 0x65, 0x2d⟩
  | .uploadEventMessage => if palette.isDark then ⟨0x8a, 0xb4, 0xf8⟩ else ⟨0x17, 0x4e, 0xa6⟩
  | .localUserChatMessage => if palette.isDark then ⟨0x8a, 0xb4, 0xf8⟩ else ⟨0x19, 0x67, 0xd2⟩
  | .remoteUserChatMessage => if palette.isDark then ⟨0xc5, 0x92, 0xff⟩ else ⟨0x6a, 0x1b, 0x9a⟩
  | .informationMessage => palette.disabledText

structure ClockTime where
  hour : Nat
  minute : Nat
  second : Nat

def ClockTime.text (time : ClockTime) : List Char :=
  (twoDigits time.hour).toList ++ ':' :: (twoDigits time.minute).toList ++
    ':' :: (twoDigits time.second).toList

/-- What the log view goes by when a line is appended. -/
structure ChatLogView where
  palette : QPalette
  showTimestamps : Bool := true
  currentTime : ClockTime

namespace ChatLogView

def formatTimestamp (view : ChatLogView) : List Char :=
  arg "[%1]".toList [view.currentTime.text]

def appendHtmlLine (view : ChatLogView) (html : List Char) : List Char :=
  (if view.showTimestamps then
    arg "<span style=\"color:%1;\">%2</span> ".toList
      [view.palette.disabledText.name, view.formatTimestamp]
  else []) ++ html

section
variable [QtColors]

def getColor (view : ChatLogView) (type : LogMessageType) : QColor :=
  getColorForMessageType view.palette type

def appendLocalMessage (view : ChatLogView) (type : LogMessageType) (text : String) : List Char :=
  view.appendHtmlLine <| arg "<span style=\"color:%1;\">%2</span>".toList
    [(view.getColor type).name, htmlEscaped text.toList]

variable [QtLibrary]

/-- A name stands before all but an action, and is left out where there is none. A highlighted line
has its text in a colour as well. -/
def appendChatMessage (view : ChatLogView) (message : ChatMessage) : List Char :=
  let senderName := htmlEscaped (toQString message.senderName).toList
  let text := htmlEscaped (toQString message.text).toList
  let color := view.getColor message.type
  let mark :=
    if message.isPrivate then
      arg "<span style=\"color:%1;\">[%2]</span> ".toList
        [(view.getColor .warningMessage).name, "private".toList]
    else []
  view.appendHtmlLine <| mark ++
    if message.isAction then
      arg "<span style=\"color:%1;\">&#42; %2 %3</span>".toList [color.name, senderName, text]
    else if senderName = [] then
      arg "<span style=\"color:%1;\">%2</span>".toList [color.name, text]
    else
      arg "<b style=\"color:%1;\">&lt;%2&gt;</b> <span style=\"color:%3;%4\">%5</span>".toList
        [(view.getColor
            (if message.isFromLocalUser then .localUserChatMessage
            else .remoteUserChatMessage)).name,
          senderName,
          (if message.isHighlighted then view.getColor .userEventMessage
            else view.palette.text).name,
          if message.isHighlighted then "font-weight:bold;".toList else [],
          text]

end

end ChatLogView

/-- What a line looks like beside its words. -/
structure LineStyle where
  type : LogMessageType
  isPrivate : Bool
  isAction : Bool
  isNamed : Bool
  isFromLocalUser : Bool
  isHighlighted : Bool

def ChatMessage.style [QtLibrary] (message : ChatMessage) : LineStyle where
  type := message.type
  isPrivate := message.isPrivate
  isAction := message.isAction
  isNamed := toQString message.senderName ≠ ""
  isFromLocalUser := message.isFromLocalUser
  isHighlighted := message.isHighlighted

/-- The words of a line. An action has its star from the template. -/
def ChatMessage.words [QtLibrary] (message : ChatMessage) : List HtmlPiece :=
  let senderName := (toQString message.senderName).toList
  let text := (toQString message.text).toList
  (if message.isPrivate then htmlPieces "[private] ".toList else []) ++
    if message.isAction then
      .reference "#42".toList :: htmlPieces (" ".toList ++ senderName ++ " ".toList ++ text)
    else if senderName = [] then htmlPieces text
    else htmlPieces ("<".toList ++ senderName ++ "> ".toList ++ text)

def startTag (element : String) (color : QColor) (style : String) : List Char :=
  element.toList ++ (" style=\"color:".toList ++ (color.name ++ (";".toList ++
    (style.toList ++ "\"".toList))))

/-- The two tags of an element with a colour. -/
def colored (element : String) (color : QColor) (style : String) : List (List Char) :=
  [startTag element color style, '/' :: element.toList]

namespace ChatLogView

def timestampWords (view : ChatLogView) : List HtmlPiece :=
  if view.showTimestamps then htmlPieces ("[".toList ++ view.currentTime.text ++ "] ".toList)
  else []

def timestampTags (view : ChatLogView) : List (List Char) :=
  if view.showTimestamps then colored "span" view.palette.disabledText "" else []

/-- The markup of a line, which its style alone decides. -/
def lineTags [QtColors] (view : ChatLogView) (style : LineStyle) : List (List Char) :=
  (if style.isPrivate then colored "span" (view.getColor .warningMessage) "" else []) ++
    if style.isAction ∨ style.isNamed = false then colored "span" (view.getColor style.type) ""
    else
      colored "b" (view.getColor
        (if style.isFromLocalUser then .localUserChatMessage else .remoteUserChatMessage)) "" ++
      if style.isHighlighted then
        colored "span" (view.getColor .userEventMessage) "font-weight:bold;"
      else colored "span" view.palette.text ""

end ChatLogView

theorem mem_hexByte {byte : UInt8} (hm : c ∈ hexByte byte) : ∃ n < 16, c = Nat.digitChar n := by
  have hbyte := byte.toNat_lt
  rcases List.mem_pair.mp hm with rfl | rfl
  · exact ⟨byte.toNat / 16, by omega, rfl⟩
  · exact ⟨byte.toNat % 16, by omega, rfl⟩

/-- No bracket that opens a tag or closes one. -/
def Unbracketed (text : List Char) : Prop := '<' ∉ text ∧ '>' ∉ text

instance : DecidablePred Unbracketed := fun text => inferInstanceAs (Decidable ('<' ∉ text ∧ _))

theorem Unbracketed.append (h : Unbracketed text) (h' : Unbracketed text') :
    Unbracketed (text ++ text') :=
  ⟨List.not_mem_append h.1 h'.1, List.not_mem_append h.2 h'.2⟩

theorem name_unbracketed (color : QColor) : Unbracketed color.name := by
  have hdigits : ∀ n < 16, Nat.digitChar n ≠ '<' ∧ Nat.digitChar n ≠ '>' := by decide
  have hbyte (byte : UInt8) : Unbracketed (hexByte byte) := by
    constructor
    · intro hm
      obtain ⟨n, hn, hc⟩ := mem_hexByte hm
      exact (hdigits n hn).1 hc.symm
    · intro hm
      obtain ⟨n, hn, hc⟩ := mem_hexByte hm
      exact (hdigits n hn).2 hc.symm
  have hstart : Unbracketed ['#'] := by decide
  exact ((hstart.append (hbyte color.red)).append (hbyte color.green)).append (hbyte color.blue)

theorem startTag_unbracketed (color : QColor) (helement : Unbracketed element.toList)
    (hstyle : Unbracketed style.toList) : Unbracketed (startTag element color style) := by
  have hcolor : Unbracketed " style=\"color:".toList := by decide
  have hsemicolon : Unbracketed ";".toList := by decide
  have hquote : Unbracketed "\"".toList := by decide
  exact helement.append (hcolor.append ((name_unbracketed color).append
    (hsemicolon.append (hstyle.append hquote))))

/-- The text of an element between its tags. -/
def inElement (element : String) (color : QColor) (style : String) (html : List Char) :
    List Char :=
  ('<' :: startTag element color style ++ ['>']) ++ html ++ ('<' :: '/' :: element.toList ++ ['>'])

theorem marked_inElement (element : String) (color : QColor) (style : String)
    (helement : Unbracketed element.toList) (hstyle : Unbracketed style.toList)
    (h : MarkedUp html [] others) :
    MarkedUp (inElement element color style html) (colored element color style) others := by
  have hslash : Unbracketed ['/'] := by decide
  exact .element (startTag_unbracketed color helement hstyle) (hslash.append helement) h

theorem marked_literal (text : String) (h : htmlEscaped text.toList = text.toList) :
    MarkedUp text.toList [] (htmlPieces text.toList) := .plain h

theorem marked_time (time : ClockTime) : MarkedUp time.text [] (htmlPieces time.text) := by
  have hdigit : ∀ c : Char, c.isDigit = true ∨ c = ':' → htmlEscape c = [c] := by
    intro c hc
    unfold htmlEscape
    split
    · exact absurd hc (by decide)
    · exact absurd hc (by decide)
    · exact absurd hc (by decide)
    · exact absurd hc (by decide)
    · rfl
  refine .plain (htmlEscaped_eq_self fun c hm => hdigit c ?_)
  rw [ClockTime.text] at hm
  simp only [List.append_assoc, List.cons_append, List.mem_append, List.mem_cons] at hm
  rcases hm with hm | hm | hm | hm | hm
  · exact .inl (twoDigits_isDigit _ c hm)
  · exact .inr hm
  · exact .inl (twoDigits_isDigit _ c hm)
  · exact .inr hm
  · exact .inl (twoDigits_isDigit _ c hm)

namespace ChatLogView

theorem marked_timestamp (view : ChatLogView) (h : MarkedUp html tags others) :
    MarkedUp (view.appendHtmlLine html) (view.timestampTags ++ tags)
      (view.timestampWords ++ others) := by
  refine .append ?_ h
  rw [timestampTags, timestampWords]
  split
  · have harg : arg "<span style=\"color:%1;\">%2</span> ".toList
        [view.palette.disabledText.name, view.formatTimestamp] =
        inElement "span" view.palette.disabledText ""
          ("[".toList ++ view.currentTime.text ++ "]".toList) ++ " ".toList := by
      simp [arg, formatTimestamp, inElement, startTag]
    have hstamp := ((marked_literal "[" rfl).append (marked_time view.currentTime)).append
      (marked_literal "]" rfl)
    have hmarked := (marked_inElement "span" view.palette.disabledText ""
      (by decide) (by decide) hstamp).append (marked_literal " " rfl)
    rw [harg]
    simpa [htmlPieces_append, htmlPieces] using hmarked
  · exact .nil

theorem marked_private (color : QColor) :
    MarkedUp (arg "<span style=\"color:%1;\">[%2]</span> ".toList [color.name, "private".toList])
      (colored "span" color "") (htmlPieces "[private] ".toList) := by
  have harg : arg "<span style=\"color:%1;\">[%2]</span> ".toList
      [color.name, "private".toList] =
      inElement "span" color "" "[private]".toList ++ " ".toList := by
    simp [arg, inElement, startTag]
  rw [harg]
  exact (marked_inElement "span" color "" (by decide) (by decide)
    (marked_literal "[private]" rfl)).append (marked_literal " " rfl)

theorem marked_action (color : QColor) (senderName text : List Char) :
    MarkedUp (arg "<span style=\"color:%1;\">&#42; %2 %3</span>".toList
      [color.name, htmlEscaped senderName, htmlEscaped text]) (colored "span" color "")
      (.reference "#42".toList :: htmlPieces (" ".toList ++ senderName ++ " ".toList ++ text)) := by
  have harg : arg "<span style=\"color:%1;\">&#42; %2 %3</span>".toList
      [color.name, htmlEscaped senderName, htmlEscaped text] = inElement "span" color ""
        ("&#42;".toList ++ (" ".toList ++ htmlEscaped senderName ++ " ".toList ++
          htmlEscaped text)) := by
    simp [arg, inElement, startTag]
  have hstar : MarkedUp "&#42;".toList [] [.reference "#42".toList] :=
    @MarkedUp.reference "#42".toList (by decide)
  have hspace := marked_literal " " rfl
  have hwords :=
    ((hspace.append (.escaped senderName)).append hspace).append (.escaped text)
  rw [harg, htmlPieces_append, htmlPieces_append, htmlPieces_append]
  exact marked_inElement "span" color "" (by decide) (by decide) (hstar.append hwords)

theorem marked_unnamed (color : QColor) (text : List Char) :
    MarkedUp (arg "<span style=\"color:%1;\">%2</span>".toList [color.name, htmlEscaped text])
      (colored "span" color "") (htmlPieces text) := by
  have harg : arg "<span style=\"color:%1;\">%2</span>".toList
      [color.name, htmlEscaped text] = inElement "span" color "" (htmlEscaped text) := by
    simp [arg, inElement, startTag]
  rw [harg]
  exact marked_inElement "span" color "" (by decide) (by decide) (.escaped text)

theorem marked_named (color textColor : QColor) (style : String)
    (hstyle : Unbracketed style.toList) (senderName text : List Char) :
    MarkedUp (arg
      "<b style=\"color:%1;\">&lt;%2&gt;</b> <span style=\"color:%3;%4\">%5</span>".toList
      [color.name, htmlEscaped senderName, textColor.name, style.toList, htmlEscaped text])
      (colored "b" color "" ++ colored "span" textColor style)
      (htmlPieces ("<".toList ++ senderName ++ "> ".toList ++ text)) := by
  have harg : arg
      "<b style=\"color:%1;\">&lt;%2&gt;</b> <span style=\"color:%3;%4\">%5</span>".toList
      [color.name, htmlEscaped senderName, textColor.name, style.toList, htmlEscaped text] =
      inElement "b" color "" (htmlEscaped "<".toList ++ htmlEscaped senderName ++
        htmlEscaped ">".toList) ++ " ".toList ++ inElement "span" textColor style
          (htmlEscaped text) := by
    simp [arg, inElement, startTag, htmlEscaped, htmlEscape]
  have hname := ((MarkedUp.escaped "<".toList).append (.escaped senderName)).append
    (.escaped ">".toList)
  have hmarked := ((marked_inElement "b" color "" (by decide) (by decide) hname).append
    (marked_literal " " rfl)).append
      (marked_inElement "span" textColor style (by decide) hstyle (.escaped text))
  rw [harg]
  simpa [htmlPieces_append, htmlPieces] using hmarked

/-- Of the tags a line has none is a peer's, and what a peer is called and says is written of
references and plain characters only. -/
theorem marked_chatMessage [QtColors] [QtLibrary] (view : ChatLogView) (message : ChatMessage) :
    MarkedUp (view.appendChatMessage message)
      (view.timestampTags ++ view.lineTags message.style)
      (view.timestampWords ++ message.words) := by
  refine view.marked_timestamp (.append ?_ ?_)
  · by_cases hprivate : message.isPrivate = true
    · have hstyle : message.style.isPrivate = true := hprivate
      rw [if_pos hprivate, if_pos hstyle, if_pos hprivate]
      exact ChatLogView.marked_private _
    · have hstyle : ¬message.style.isPrivate = true := hprivate
      rw [if_neg hprivate, if_neg hstyle, if_neg hprivate]
      exact .nil
  · by_cases haction : message.isAction = true
    · have hstyle : message.style.isAction = true ∨ message.style.isNamed = false := .inl haction
      rw [if_pos haction, if_pos hstyle, if_pos haction]
      exact ChatLogView.marked_action _ _ _
    · rw [if_neg haction, if_neg haction]
      by_cases hname : (toQString message.senderName).toList = []
      · have hstyle : message.style.isAction = true ∨ message.style.isNamed = false :=
          .inr (decide_eq_false (not_not.mpr (String.toList_eq_nil_iff.mp hname)))
        rw [if_pos (htmlEscaped_eq_nil.mpr hname), if_pos hstyle, if_pos hname]
        exact ChatLogView.marked_unnamed _ _
      · have hstyle : ¬(message.style.isAction = true ∨ message.style.isNamed = false) := by
          rintro (hs | hs)
          · exact haction hs
          · exact hname (String.toList_eq_nil_iff.mpr (not_not.mp (of_decide_eq_false hs)))
        rw [if_neg fun he => hname (htmlEscaped_eq_nil.mp he), if_neg hstyle, if_neg hname]
        by_cases hmarked : message.isHighlighted = true
        · have hstyle : message.style.isHighlighted = true := hmarked
          rw [if_pos hmarked, if_pos hmarked, if_pos hstyle]
          exact ChatLogView.marked_named _ _ "font-weight:bold;" (by decide) _ _
        · have hstyle : ¬message.style.isHighlighted = true := hmarked
          rw [if_neg hmarked, if_neg hmarked, if_neg hstyle]
          exact ChatLogView.marked_named _ _ "" (by decide) _ _

end ChatLogView

/-- However the HTML of a line is cut into its pieces, the tags are those of the kind of line, and
a peer's name and words are none of them. -/
theorem peer_text_is_no_markup [QtColors] [QtLibrary] (view : ChatLogView)
    (message : ChatMessage) :
    (∃ tags others, MarkedUp (view.appendChatMessage message) tags others) ∧
      ∀ tags others, MarkedUp (view.appendChatMessage message) tags others →
        tags = view.timestampTags ++ view.lineTags message.style ∧
          others = view.timestampWords ++ message.words :=
  ⟨⟨_, _, view.marked_chatMessage message⟩, fun _ _ => (view.marked_chatMessage message).unique⟩

end HiTuxShare
