import HiTuxShare.ChatWindow

namespace HiTuxShare
set_option autoImplicit true

/-- The three lists of users that a command sets. -/
inductive FilterCommand where
  | ignore
  | watch
  | autoPriv
  deriving DecidableEq

def FilterCommand.filterName : FilterCommand → String
  | .ignore => "Ignore"
  | .watch => "Watch"
  | .autoPriv => "Always-notify"

namespace ChatWindowWorld

section
variable [QtWidgets]

def filter (w : ChatWindowWorld) : FilterCommand → UserFilterSet
  | .ignore => w.ignoreFilter
  | .watch => w.watchFilter
  | .autoPriv => w.autoPrivFilter

def setServerAddressBox (w : ChatWindowWorld) (text : String) : ChatWindowWorld :=
  { w with serverAddressBox := text }

def setQueryField (w : ChatWindowWorld) (text : String) : ChatWindowWorld :=
  { w with queryField := text }

/-- The new filter, in force and in the settings file. -/
def setFilter (w : ChatWindowWorld) (filter : UserFilterSet) : FilterCommand → ChatWindowWorld
  | .ignore => { w with
      ignoreFilter := filter
      settings := w.settings.setIgnorePattern filter.pattern }.save
  | .watch => { w with
      watchFilter := filter
      settings := w.settings.setWatchPattern filter.pattern }.save
  | .autoPriv => { w with
      autoPrivFilter := filter
      settings := w.settings.setAutoPrivPattern filter.pattern }.save

end

section
variable [QtWidgets] [MuscleText]

def handleFilterCommand (w : ChatWindowWorld) (kind : FilterCommand) (argument : String) :
    ChatWindowWorld :=
  if argument = "" then
    w.appendLocalLine .informationMessage
      (if (w.filter kind).pattern = "" then kind.filterName ++ " list is empty."
      else kind.filterName ++ " list: " ++ (w.filter kind).pattern)
  else if argument = "-" then
    (w.setFilter {} kind).appendLocalLine .informationMessage (kind.filterName ++ " list cleared.")
  else
    let filter := UserFilterSet.setPattern argument
    (w.setFilter filter kind).appendLocalLine .informationMessage
      (kind.filterName ++ " list set to: " ++ filter.pattern)

def saveAliases (w : ChatWindowWorld) : ChatWindowWorld :=
  { w with settings := w.settings.setAliases w.aliases }.save

def handleUnaliasCommand (w : ChatWindowWorld) (argument : String) : ChatWindowWorld :=
  if argument = "" then w.appendLocalLine .warningMessage "Usage: /unalias <name>"
  else
    let removed := (w.aliases.get? (toLowerCase (trimmedText argument))).isSome
    ({ w with aliases := ChatAliases.removeAlias w.aliases argument }.appendLocalLine
      .informationMessage
        (if removed then "Alias /" ++ argument ++ " removed."
        else "No alias called /" ++ argument ++ ".")).saveAliases

def listAliases (w : ChatWindowWorld) : ChatWindowWorld :=
  if w.aliases.entries = [] then
    w.appendLocalLine .informationMessage "No aliases defined. Try /alias hi /me waves"
  else
    w.aliases.entries.foldl
      (fun w pair => w.appendLocalLine .informationMessage ("  /" ++ pair.1 ++ " -> " ++ pair.2))
      (w.appendLocalLine .informationMessage "Aliases:")

def handleAliasCommand (w : ChatWindowWorld) (target argument : String) : ChatWindowWorld :=
  if target = "" then w.listAliases
  else if argument = "" then
    w.appendLocalLine .warningMessage "Usage: /alias <name> <what it expands to>"
  else
    ({ w with aliases := ChatAliases.setAlias w.aliases target argument }.appendLocalLine
      .informationMessage ("/" ++ target ++ " now expands to: " ++ argument)).saveAliases

def setUserStatus (w : ChatWindowWorld) (status : String) : ChatWindowWorld :=
  { w with
    connections := w.connections.setLocalUserStatus status
    settings := (w.settings.setUserStatus status).rememberStatus status
    userStatusBox := status }.appendLocalLine .informationMessage
      ("Status set to " ++ status ++ ".")

def handleNickCommand (w : ChatWindowWorld) (userName : String) : ChatWindowWorld :=
  if userName = "" then w.appendLocalLine .warningMessage "Usage: /nick <name>"
  else
    { w with
      connections := w.connections.setLocalUserName userName
      settings := (w.settings.setUserName userName).rememberUserName userName
      userNameBox := userName }.populateNameAndStatusLists.appendLocalLine .informationMessage
        ("You are now known as " ++ userName ++ ".")

variable [QtLibrary] [MuscleLibrary] [CaseInsensitivePatterns]

def connectToConfiguredServer (w : ChatWindowWorld) (a : WindowAnswers) : ChatWindowWorld :=
  if w.getSelectedServerAddress = "" then
    w.appendLocalLine .errorMessage "Enter a server address first."
  else if w.getUserName = "" then w.appendLocalLine .errorMessage "Enter a user name first."
  else
    let connections := w.connections.setLocalUserName w.getUserName
    { w with
      connections
      settings := w.settings.rememberUserName w.getUserName }.hear a
        (connections.addConnection (a.networks connections.created) w.getSelectedServerAddress
          w.serverPortField).1

def startQuery (w : ChatWindowWorld) (a : WindowAnswers) : ChatWindowWorld :=
  if w.connections.isAnyConnected = false then
    w.appendLocalLine .errorMessage "Not connected to a server."
  else
    let pattern := trimmedQString w.queryField
    w.hear a (w.connections.startQueryOnAll "*" (if pattern = "" then "*" else pattern))

/-- The part of `_HandleUserInput` after the line has been parsed. Four commands only show texts or
are about files, and closing the window is an event of its own. -/
def handleCommand (w : ChatWindowWorld) (a : WindowAnswers) (command : ChatCommand) :
    ChatWindowWorld :=
  match command.type with
  | .none => w.sendChatToEveryone a command.argument false
  | .action => w.sendChatToEveryone a command.argument true
  | .nick => w.handleNickCommand command.argument
  | .status => w.setUserStatus (if command.argument ≠ "" then command.argument else "here")
  | .away =>
    w.setUserStatus (if command.argument ≠ "" then command.argument else w.settings.getAwayStatus)
  | .message =>
    if command.target = "" ∨ command.argument = "" then
      w.appendLocalLine .warningMessage "Usage: /msg <user> <text>"
    else w.sendPrivateMessage a command.target command.argument
  | .ping =>
    if command.target = "" then w.appendLocalLine .warningMessage "Usage: /ping <user>"
    else w.pingUser a command.target
  | .connect =>
    (if command.argument ≠ "" then w.setServerAddressBox command.argument else w)
      |>.connectToConfiguredServer a
  | .disconnect => w.hear a w.connections.disconnectAll
  | .startQuery =>
    (if command.argument ≠ "" then w.setQueryField command.argument else w).startQuery a
  | .stopQuery => w.hear a w.connections.stopQueryOnAll
  | .ignore => w.handleFilterCommand .ignore command.argument
  | .watch => w.handleFilterCommand .watch command.argument
  | .autopriv => w.handleFilterCommand .autoPriv command.argument
  | .alias => w.handleAliasCommand command.target command.argument
  | .unalias => w.handleUnaliasCommand command.argument
  | .clear => { w with chatLogView := [] }
  | .unknown =>
    w.appendLocalLine .errorMessage
      ("Unknown command \"/" ++ command.commandName ++ "\". Type /help for a list.")
  | .get | .help | .info | .quit => w

def handleUserInput (w : ChatWindowWorld) (a : WindowAnswers) (input : String) :
    ChatWindowWorld := w.handleCommand a (parse (ChatAliases.expand w.aliases input))

end

end ChatWindowWorld

end HiTuxShare
