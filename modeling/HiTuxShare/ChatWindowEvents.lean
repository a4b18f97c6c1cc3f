import HiTuxShare.ChatWindowCommands
import HiTuxShare.ConnectionEvents
import Mathlib.Logic.Function.Basic

namespace HiTuxShare
set_option autoImplicit true

/-- What the settings dialog is left with, as far as it is about chat and servers. -/
structure SettingsDialog where
  userNameField : String
  userStatusField : String
  awayStatusField : String
  firewalledBox : Bool
  connectOnStartupBox : Bool
  chatLoggingBox : Bool
  logFolderField : String

/-- A nameless user is not saved. -/
def SettingsDialog.applyToSettings [QtWidgets] (dialog : SettingsDialog)
    (settings : ApplicationSettings) : ApplicationSettings :=
  let userName := trimmedQString dialog.userNameField
  (if userName ≠ "" then settings.setUserName userName else settings)
    |>.setUserStatus (trimmedQString dialog.userStatusField)
    |>.setAwayStatus (trimmedQString dialog.awayStatusField)
    |>.setFirewalled dialog.firewalledBox
    |>.setConnectOnStartup dialog.connectOnStartupBox
    |>.setChatLoggingEnabled dialog.chatLoggingBox
    |>.setLogDirectory (trimmedQString dialog.logFolderField)

/-- The names under which the layouts of the three headers are written. -/
def savedLayoutName : TableView → String
  | .results => "results.v2"
  | .users => "users.v2"
  | .transfers => "transfers.v2"

/-- The names under which they are read. -/
def restoredLayoutName : TableView → String
  | .results => "results.v2"
  | .users => "users.v2"
  | .transfers => "transfers"

def restoredLayout [QtWidgets] (settings : ApplicationSettings) (layout : HeaderLayout view) :
    HeaderLayout view :=
  match settings.getColumnLayout (restoredLayoutName view) with
  | some stored => layout.restoreState stored
  | none => layout

/-- What the network layer tells a connection. -/
inductive NetworkReport where
  | sessionConnected (connectedTo : String)
  | sessionDisconnected
  | sessionDetached
  | messageReceived (message : ServerMessage)

def NetworkReport.call : NetworkReport → ServerConnectionCall
  | .sessionConnected connectedTo => .sessionConnected connectedTo
  | .sessionDisconnected => .sessionDisconnected
  | .sessionDetached => .sessionDetached
  | .messageReceived message => .messageReceived message

/-- What the user, the network and the sharing of files do to the window. -/
inductive WindowCall [QtWidgets] where
  | handleUserInput (input : String)
  | connectButtonClicked
  | connectAdditionalServer (serverAddress : String)
  | disconnectAll
  | queryButtonClicked
  | queryFieldReturnPressed
  | serverAddressEdited (text : String)
  | serverPortEdited (port : UInt16)
  | userNameEdited (text : String)
  | userStatusEdited (text : String)
  | queryEdited (text : String)
  | showSettings (dialog : SettingsDialog)
  | serverListReceived (serversToAdd serversToRemove : List String)
  | headerChanged (view : TableView) (layout : HeaderLayout view)
  | networkReported (index : Nat) (report : NetworkReport)
  | sharingCalled (call : ConnectionManagerCall)
  | setAdvertisedPort (port : Int32)
  | idleTimerFired (idle : Nat → Bool)
  | restart

structure WindowEvent [QtWidgets] where
  call : WindowCall
  answers : WindowAnswers := {}

namespace ConnectionManagerWorld

def isAnyQueryActive (m : ConnectionManagerWorld) : Bool :=
  m.connections.any fun c => c.world.queryActive

def performIdleTasks (m : ConnectionManagerWorld) (idle : Nat → Bool) : ConnectionManagerWorld :=
  m.onAll fun c => c.world.performIdleTasks (idle c.serial)

/-- The first of the servers is the one that the window shows, the others are the extra ones. -/
def extraServers (m : ConnectionManagerWorld) : List String :=
  m.connections.tail.map (·.world.serverAddress)

end ConnectionManagerWorld

namespace ChatWindowWorld

section
variable [QtWidgets]

def saveExtraServers (w : ChatWindowWorld) : ChatWindowWorld :=
  { w with settings := w.settings.setExtraServers w.connections.extraServers }

def saveColumnLayouts (w : ChatWindowWorld) : ChatWindowWorld :=
  { w with
    settings := w.settings
      |>.setColumnLayout (savedLayoutName .results) (w.layouts .results).state
      |>.setColumnLayout (savedLayoutName .users) (w.layouts .users).state
      |>.setColumnLayout (savedLayoutName .transfers) (w.layouts .transfers).state }

def restoreColumnLayouts (w : ChatWindowWorld) : ChatWindowWorld :=
  { w with layouts := fun view => restoredLayout w.settings (w.layouts view) }

def saveSettings (w : ChatWindowWorld) : ChatWindowWorld :=
  { w with
    settings := w.settings
      |>.setServerAddress w.getSelectedServerAddress
      |>.setServerPort w.serverPortField
      |>.setUserName w.getUserName
      |>.setUserStatus w.settings.getUserStatus }.saveColumnLayouts.saveExtraServers.save

def loadSettings (w : ChatWindowWorld) : ChatWindowWorld :=
  { w.populateServerList with
    serverPortField := w.settings.getServerPort }.populateNameAndStatusLists.restoreColumnLayouts

/-- Only a status that says something counts. -/
def statusEdited (w : ChatWindowWorld) (text : String) : ChatWindowWorld :=
  let status := trimmedQString text
  if status = "" then { w with userStatusBox := text }
  else
    { w with
      userStatusBox := text
      connections := w.connections.setLocalUserStatus status
      settings := (w.settings.setUserStatus status).rememberStatus status }

/-- Neither the selected server nor one we have a connection to can be taken away. -/
def isInUse (w : ChatWindowWorld) (candidate : String) : Bool :=
  equalsIgnoreCase candidate w.getSelectedServerAddress ||
    w.connections.connections.any fun c => equalsIgnoreCase candidate c.world.serverAddress

def serverListReceived (w : ChatWindowWorld) (serversToAdd serversToRemove : List String) :
    ChatWindowWorld :=
  let kept := serversToRemove.foldl
    (fun serverList candidate =>
      if w.isInUse candidate then serverList
      else serverList.filter fun server => ¬equalsIgnoreCase server candidate)
    w.settings.getServerList
  let removedCount := w.settings.getServerList.length - kept.length
  let serverList := serversToAdd.foldl
    (fun serverList candidate =>
      if serverList.any fun server => equalsIgnoreCase server candidate then serverList
      else serverList ++ [candidate])
    kept
  let addedCount := serverList.length - kept.length
  if addedCount = 0 ∧ removedCount = 0 then
    w.appendLocalLine .informationMessage ("Server list checked: " ++
      toString serversToAdd.length ++ " server(s) listed, nothing new.")
  else
    { w with settings := w.settings.setServerList serverList }.save.populateServerList
      |>.appendLocalLine .informationMessage ("Server list updated: " ++ toString addedCount ++
        " added, " ++ toString removedCount ++ " removed.")

end

section
variable [QtWidgets] [MuscleText] [Environment]

/-- All that is stored becomes running behaviour here. -/
def applySettings (w : ChatWindowWorld) : ChatWindowWorld :=
  { { w with
      connections := w.connections
        |>.setLocalUserName w.settings.getUserName
        |>.setLocalUserStatus w.settings.getUserStatus
        |>.setFirewalled w.settings.getFirewalled
      chatLogger := w.chatLogger
        |>.setLogDirectory w.settings.getLogDirectory
        |>.setServerName w.settings.getServerAddress
        |>.setEnabled w.settings.getChatLoggingEnabled
      ignoreFilter := .setPattern w.settings.getIgnorePattern
      watchFilter := .setPattern w.settings.getWatchPattern
      autoPrivFilter := .setPattern w.settings.getAutoPrivPattern
      aliases := w.settings.getAliases.entries.foldl
        (fun aliases (pair : String × String) => ChatAliases.setAlias aliases pair.1 pair.2)
        Hashtable.empty }.populateNameAndStatusLists with
    userStatusBox := w.settings.getUserStatus }

def showSettings (w : ChatWindowWorld) (dialog : SettingsDialog) : ChatWindowWorld :=
  { w with settings := dialog.applyToSettings w.settings }.applySettings.save

variable [QtLibrary] [MuscleLibrary] [CaseInsensitivePatterns]

def connectButtonClicked (w : ChatWindowWorld) (a : WindowAnswers) : ChatWindowWorld :=
  if w.connections.isAnyConnected = false then w.connectToConfiguredServer a
  else w.hear a w.connections.disconnectAll

def queryButtonClicked (w : ChatWindowWorld) (a : WindowAnswers) : ChatWindowWorld :=
  if w.connections.isAnyQueryActive then w.hear a w.connections.stopQueryOnAll
  else w.startQuery a

def connectAdditionalServer (w : ChatWindowWorld) (a : WindowAnswers) (text : String) :
    ChatWindowWorld :=
  let serverAddress := trimmedQString text
  if serverAddress = "" then w
  else if (w.connections.findByAddress serverAddress).isSome then
    w.appendLocalLine .warningMessage ("Already connected to " ++ serverAddress ++ ".")
  else
    let added := w.connections.addConnection (a.networks w.connections.created) serverAddress
      defaultServerPort
    if added.2.isNone then w.appendLocalLine .errorMessage "Too many connections already."
    else (w.hear a added.1).applySettings.saveExtraServers

def restoreExtraServer (w : ChatWindowWorld) (a : WindowAnswers) (serverAddress : String) :
    ChatWindowWorld :=
  w.hear a (w.connections.addConnection (a.networks w.connections.created) serverAddress
    defaultServerPort).1

def restoreExtraServers (w : ChatWindowWorld) (a : WindowAnswers) : ChatWindowWorld :=
  w.settings.getExtraServers.foldl (fun w serverAddress => w.restoreExtraServer a serverAddress) w

/-- A window as it is before anything has been loaded into it, over the disk of another. -/
def unloaded (w : ChatWindowWorld) : ChatWindowWorld where
  settings := w.settingsFile
  userStatusBox := "here"
  settingsFile := w.settingsFile
  logFiles := w.logFiles
  logCalls := w.logCalls
  remoteLines := w.remoteLines

/-- The connections are told who we are. -/
def introduce (w : ChatWindowWorld) (pseudoRandomNumber : UInt64) : ChatWindowWorld :=
  let (settings, installId) := w.settings.getInstallId pseudoRandomNumber
  { w with
    settings
    connections := w.connections
      |>.setInstallId installId
      |>.setLocalUserName settings.getUserName
      |>.setLocalUserStatus settings.getUserStatus }

def greet (w : ChatWindowWorld) : ChatWindowWorld :=
  w.appendLocalLine .informationMessage
    (hituxShareName ++ " " ++ hituxShareVersionString ++ " -- type /help for a list of commands.")

/-- The constructor of the window. -/
def start (w : ChatWindowWorld) (a : WindowAnswers) : ChatWindowWorld :=
  let w := (w.unloaded.loadSettings.introduce a.pseudoRandomNumber).applySettings.greet
  let w := w.restoreExtraServers a
  if w.settings.getConnectOnStartup then w.connectToConfiguredServer a else w

/-- The window no longer listens when its connections are taken down. -/
def closeEvent (w : ChatWindowWorld) : ChatWindowWorld :=
  { w.saveSettings with connections := w.connections.disconnectAll }

def restart (w : ChatWindowWorld) (a : WindowAnswers) : ChatWindowWorld := w.closeEvent.start a

/-- The first window over a settings file. -/
def new (settingsFile : ApplicationSettings) (a : WindowAnswers) : ChatWindowWorld :=
  start { settings := settingsFile, settingsFile } a

def networkReported (w : ChatWindowWorld) (a : WindowAnswers) (index : Nat)
    (report : NetworkReport) : ChatWindowWorld :=
  w.hear a (w.connections.onConnection index fun c => c.handle ⟨report.call, {}, a.now⟩)

/-- The calls about shared files tell the window nothing. -/
def sharingCalled (w : ChatWindowWorld) (call : ConnectionManagerCall) : ChatWindowWorld :=
  if call.isPublication then { w with connections := w.connections.handle { call } } else w

def handle (w : ChatWindowWorld) (e : WindowEvent) : ChatWindowWorld :=
  match e.call with
  | .handleUserInput input => w.handleUserInput e.answers input
  | .connectButtonClicked => w.connectButtonClicked e.answers
  | .connectAdditionalServer serverAddress => w.connectAdditionalServer e.answers serverAddress
  | .disconnectAll => w.hear e.answers w.connections.disconnectAll
  | .queryButtonClicked => w.queryButtonClicked e.answers
  | .queryFieldReturnPressed => w.startQuery e.answers
  | .serverAddressEdited text => w.setServerAddressBox text
  | .serverPortEdited port => { w with serverPortField := port }
  | .userNameEdited text => { w with userNameBox := text }
  | .userStatusEdited text => w.statusEdited text
  | .queryEdited text => w.setQueryField text
  | .showSettings dialog => w.showSettings dialog
  | .serverListReceived serversToAdd serversToRemove =>
    w.serverListReceived serversToAdd serversToRemove
  | .headerChanged view layout => { w with layouts := Function.update w.layouts view layout }
  | .networkReported index report => w.networkReported e.answers index report
  | .sharingCalled call => w.sharingCalled call
  | .setAdvertisedPort port =>
    { w with connections := w.connections.setAdvertisedPort port }
  | .idleTimerFired idle => { w with connections := w.connections.performIdleTasks idle }
  | .restart => w.restart e.answers

def machine : EventMachine ChatWindowWorld WindowEvent := ⟨handle⟩

end

end ChatWindowWorld

end HiTuxShare
