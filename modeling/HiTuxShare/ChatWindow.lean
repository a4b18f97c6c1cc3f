import HiTuxShare.ApplicationSettings
import HiTuxShare.ChatLogger
import HiTuxShare.ChatTargets
import HiTuxShare.ListModels
import HiTuxShare.Trimming

namespace HiTuxShare
set_option autoImplicit true

/-- The tables with a header whose layout is kept. -/
inductive TableView where
  | results
  | users
  | transfers
  deriving DecidableEq

/-- What the window uses of Qt beside the conversion of strings. A header accepts only a layout of
as many columns as it has, its own in any case. -/
class QtWidgets where
  isSpace : Char → Bool
  accepts : TableView → List UInt8 → Bool
  defaultState : TableView → List UInt8
  defaultState_ne_nil : ∀ view, defaultState view ≠ []
  accepts_defaultState : ∀ view, accepts view (defaultState view) = true
  isSpace_of_isAlphanum : ∀ character, character.isAlphanum = true → isSpace character = false

/-- Headers that take any layout. -/
abbrev plainWidgets : QtWidgets where
  isSpace character := character = ' ' || character = '\t' || character = '\r' || character = '\n'
  accepts _ _ := true
  defaultState _ := [0]
  defaultState_ne_nil _ := List.cons_ne_nil _ _
  accepts_defaultState _ := rfl
  isSpace_of_isAlphanum character h := by
    by_contra hspace
    simp only [Bool.not_eq_false, Bool.or_eq_true, decide_eq_true_eq] at hspace
    rcases hspace with ((rfl | rfl) | rfl) | rfl <;> exact absurd h (by decide)

def trimmedQString [QtWidgets] (text : String) : String :=
  .ofList (trim QtWidgets.isSpace text.toList)

/-- A layout that the header of a table can have, as `saveState` gives it. -/
structure HeaderLayout [QtWidgets] (view : TableView) where
  state : List UInt8
  ne_nil : state ≠ []
  accepted : QtWidgets.accepts view state = true

namespace HeaderLayout
variable [QtWidgets]

def default (view : TableView) : HeaderLayout view where
  state := QtWidgets.defaultState view
  ne_nil := QtWidgets.defaultState_ne_nil view
  accepted := QtWidgets.accepts_defaultState view

/-- A layout that is refused leaves the one there is. -/
def restoreState (layout : HeaderLayout view) (stored : List UInt8) : HeaderLayout view :=
  if h : stored ≠ [] ∧ QtWidgets.accepts view stored = true then ⟨stored, h.1, h.2⟩ else layout

end HeaderLayout

/-- The main window as far as chat, servers and what is kept of it go. A box or a field is the text
in it. -/
structure ChatWindow [QtWidgets] where
  settings : ApplicationSettings
  connections : ConnectionManagerWorld := .new
  aliases : ChatAliases := .empty
  ignoreFilter : UserFilterSet := {}
  watchFilter : UserFilterSet := {}
  autoPrivFilter : UserFilterSet := {}
  chatLogger : ChatLogger := {}
  chatLogView : List ChatMessage := []
  serverAddressBox : String := ""
  serverPortField : UInt16 := 0
  userNameBox : String := ""
  userStatusBox : String := ""
  queryField : String := ""
  layouts : (view : TableView) → HeaderLayout view := HeaderLayout.default

/-- A line of a remote user in a log, with the address of the connection it came from. -/
structure RemoteLine where
  serverAddress : String
  entry : LogEntry
  deriving DecidableEq

/-- The window with the disk: the settings file and all that has been logged. The other two are
history variables: how often the logger has been called, and what remote users said. -/
structure ChatWindowWorld [QtWidgets] extends ChatWindow where
  settingsFile : ApplicationSettings
  logFiles : List LogEntry := []
  logCalls : Nat := 0
  remoteLines : List RemoteLine := []

/-- What the surroundings answer: the network to the connections, and the system to each call of
the logger. -/
structure WindowAnswers where
  networks : Nat → NetworkAnswer := fun _ => {}
  now : UInt64 := 0
  logging : Nat → LogAnswer := fun _ => {}
  pseudoRandomNumber : UInt64 := 0

namespace ConnectionManagerWorld

/-- What the connection at that place has done so far. -/
def historyAt (m : ConnectionManagerWorld) (index : Nat) : List ConnectionOccurrence :=
  ((m.connections[index]?).map (·.world.history)).getD []

/-- What the connections did between two moments, in the order of a loop over them. -/
def occurrencesSince (m m' : ConnectionManagerWorld) :
    List (ManagedConnection × ConnectionOccurrence) :=
  m'.connections.zipIdx.flatMap fun c =>
    (c.1.world.history.drop (m.historyAt c.2).length).map fun o => (c.1, o)

end ConnectionManagerWorld

namespace ChatWindowWorld

section
variable [QtWidgets]

def appendChatMessage (w : ChatWindowWorld) (message : ChatMessage) : ChatWindowWorld :=
  { w with chatLogView := w.chatLogView ++ [message] }

def appendLocalLine (w : ChatWindowWorld) (type : LogMessageType) (text : String) :
    ChatWindowWorld := w.appendChatMessage { type, text }

def save (w : ChatWindowWorld) : ChatWindowWorld := { w with settingsFile := w.settings }

/-- What somebody has typed survives. -/
def populateServerList (w : ChatWindowWorld) : ChatWindowWorld :=
  if w.serverAddressBox ≠ "" then w
  else { w with serverAddressBox := w.settings.getServerAddress }

def populateNameAndStatusLists (w : ChatWindowWorld) : ChatWindowWorld :=
  { w with
    userNameBox := if w.userNameBox = "" then w.settings.getUserName else w.userNameBox
    userStatusBox := if w.userStatusBox = "" then w.settings.getUserStatus else w.userStatusBox }

def localSessionIdAssigned (w : ChatWindowWorld) (serverAddress sessionId : String) :
    ChatWindowWorld :=
  { w with settings := w.settings.rememberServer serverAddress }.populateServerList.appendLocalLine
    .informationMessage ("You are session " ++ sessionId ++ ".")

def getSelectedServerAddress (w : ChatWindowWorld) : String := trimmedQString w.serverAddressBox

def getUserName (w : ChatWindowWorld) : String := trimmedQString w.userNameBox

end

section
variable [QtWidgets] [MuscleText]

/-- `server` is where a line of a remote user came from. -/
def log (w : ChatWindowWorld) (a : WindowAnswers) (message : ChatMessage) (server : Option String) :
    ChatWindowWorld :=
  let (chatLogger, entry) := w.chatLogger.log (a.logging w.logCalls) message
  { w with
    chatLogger
    logFiles := w.logFiles ++ entry.toList
    logCalls := w.logCalls + 1
    remoteLines := w.remoteLines ++
      (server.bind fun serverAddress => entry.map fun e => ⟨serverAddress, e⟩).toList }

def echo (w : ChatWindowWorld) (a : WindowAnswers) (message : ChatMessage) : ChatWindowWorld :=
  (w.appendChatMessage message).log a message none

/-- An action goes out with its prefix, but is shown without it. -/
def sendChatToEveryone (w : ChatWindowWorld) (a : WindowAnswers) (text : String)
    (isAction : Bool) : ChatWindowWorld :=
  if w.connections.isAnyConnected = false then
    w.appendLocalLine .errorMessage "Not connected to a server."
  else
    { w with connections := w.connections.sendChatToAll text }.echo a {
      type := .localUserChatMessage
      senderName := w.settings.getUserName
      isFromLocalUser := true
      isAction
      text := if isAction then substring text actionPrefix.length else text }

variable [QtLibrary]

/-- One round of the loop of `_SendPrivateMessage`. -/
def sendPrivateMessageTo (w : ChatWindowWorld) (a : WindowAnswers) (text : String)
    (user : ResolvedUser) : ChatWindowWorld :=
  { w with connections := w.connections.onConnection user.connection fun c =>
      c.sendChatText user.sessionId text }.echo a {
    type := .localUserChatMessage
    isPrivate := true
    isFromLocalUser := true
    senderName := "to " ++ toQString user.displayName
    text }

variable [MuscleLibrary]

def sendPrivateMessage (w : ChatWindowWorld) (a : WindowAnswers) (target text : String) :
    ChatWindowWorld :=
  if w.connections.isAnyConnected = false then
    w.appendLocalLine .errorMessage "Not connected to a server."
  else
    let targets := w.connections.resolveToUsers target
    if targets = [] then w.appendLocalLine .errorMessage ("No such user: " ++ target)
    else targets.foldl (fun w user => w.sendPrivateMessageTo a text user) w

def pingUser (w : ChatWindowWorld) (a : WindowAnswers) (target : String) : ChatWindowWorld :=
  if w.connections.isAnyConnected = false then
    w.appendLocalLine .errorMessage "Not connected to a server."
  else
    let targets := w.connections.resolveToUsers target
    if targets = [] then w.appendLocalLine .errorMessage ("No such user: " ++ target)
    else
      targets.foldl (fun w user => { w with
        connections := w.connections.onConnection user.connection fun c =>
          c.sendPing a.now user.sessionId }) w

section
variable {P : ChatWindowWorld → Prop} {w : ChatWindowWorld} (a : WindowAnswers)

theorem sendPrivateMessage_induct (target text : String)
    (hnotice : ∀ line, P (w.appendLocalLine .errorMessage line)) (hw : P w)
    (hline : ∀ w' user, P w' → P (w'.sendPrivateMessageTo a text user)) :
    P (w.sendPrivateMessage a target text) := by
  simp only [sendPrivateMessage]
  split
  · exact hnotice _
  · split
    · exact hnotice _
    · exact List.foldlRecOn (motive := P) _ _ hw fun w' h user _ => hline w' user h

omit [MuscleText] [QtLibrary] in
theorem pingUser_induct (target : String)
    (hnotice : ∀ line, P (w.appendLocalLine .errorMessage line)) (hw : P w)
    (hping : ∀ w' (user : ResolvedUser), P w' → P { w' with
      connections := w'.connections.onConnection user.connection fun c =>
        c.sendPing a.now user.sessionId }) : P (w.pingUser a target) := by
  simp only [pingUser]
  split
  · exact hnotice _
  · split
    · exact hnotice _
    · exact List.foldlRecOn (motive := P) _ _ hw fun w' h user _ => hping w' user h

end

variable [CaseInsensitivePatterns]

/-- Ignored users are dropped before anything else sees them. With several servers the name alone
would not tell who has spoken. -/
def chatMessageReceived (w : ChatWindowWorld) (a : WindowAnswers) (serverAddress : String)
    (message : ChatMessage) : ChatWindowWorld :=
  let isRemote := message.type = .remoteUserChatMessage
  if isRemote ∧ w.ignoreFilter.matchesUser message.senderName message.senderSessionId then w
  else
    let displayed := { message with
      senderName :=
        if 1 < w.connections.connections.length ∧ message.senderName ≠ "" then
          message.senderName ++ "@" ++ serverAddress
        else message.senderName
      isHighlighted := message.isHighlighted ∨ isRemote ∧
        w.watchFilter.matchesUser message.senderName message.senderSessionId }
    (w.appendChatMessage displayed).log a displayed (if isRemote then some serverAddress else none)

/-- What the window, as the listener of the connections, does about chat and servers. -/
def callback (w : ChatWindowWorld) (a : WindowAnswers) (serverAddress : String) :
    ConnectionOccurrence → ChatWindowWorld
  | .localSessionIdAssigned sessionId _ =>
    w.localSessionIdAssigned serverAddress (toQString sessionId)
  | .userUpdated user isNewUser =>
    if isNewUser then
      w.appendLocalLine .userEventMessage (toQString user.displayName ++ " has joined.")
    else w
  | .userLeft user =>
    w.appendLocalLine .userEventMessage (toQString user.displayName ++ " has left.")
  | .chatMessageReceived type text details =>
    w.chatMessageReceived a serverAddress { details with type, text }
  | _ => w

/-- The connections have done something, of which they tell the window. -/
def hear (w : ChatWindowWorld) (a : WindowAnswers) (m : ConnectionManagerWorld) : ChatWindowWorld :=
  (w.connections.occurrencesSince m).foldl (fun w o => w.callback a o.1.world.serverAddress o.2)
    { w with connections := m }

end

end ChatWindowWorld

end HiTuxShare
