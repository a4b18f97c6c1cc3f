import HiTuxShare.EventMachine
import HiTuxShare.ListModels
import HiTuxShare.ServerMessages

namespace HiTuxShare
set_option autoImplicit true

/-- The part of the main window that lists users and query results. -/
structure ListWindow where
  userListModel : UserListModel := {}
  resultsModel : FileResultModel := {}
  pendingResults : List FileResultEntry := []
  userNamesDirty : Bool := false
  chatLog : List (LogMessageType × String) := []

/-- The registries of the connections the window has, by connection. -/
abbrev Registries := List (Nat × UserRegistry)

namespace ListWindow

def appendUserEvent (w : ListWindow) (text : String) : ListWindow :=
  { w with chatLog := w.chatLog ++ [(.userEventMessage, text)] }

variable [QtLibrary]

def userUpdated (w : ListWindow) (connection : Nat) (serverAddress : String) (user : UserRecord)
    (isNewUser : Bool) : ListWindow :=
  let w := { w with
    userListModel := UserListModel.updateUser w.userListModel connection
      (toQString serverAddress) user
    userNamesDirty := true }
  if isNewUser then w.appendUserEvent (toQString user.displayName ++ " has joined.") else w

/-- Their files went with them. -/
def userLeft (w : ListWindow) (connection : Nat) (user : UserRecord) : ListWindow :=
  { w with
    userListModel := UserListModel.removeUser w.userListModel connection user.sessionId
    resultsModel := FileResultModel.removeResultsForSession w.resultsModel connection
      user.sessionId }.appendUserEvent (toQString user.displayName ++ " has left.")

/-- Only this connection's rows go: another server may still be up. -/
def connectionStateChanged (w : ListWindow) (connection : Nat) (state : ConnectionState) :
    ListWindow :=
  if state = .disconnected then
    { w with
      userListModel := UserListModel.removeUsersForConnection w.userListModel connection
      resultsModel := FileResultModel.removeResultsForConnection w.resultsModel connection }
  else w

def queryResultAdded (w : ListWindow) (connection : Nat) (serverAddress : String)
    (result : FileResult) (sharerName : String) : ListWindow :=
  { w with
    pendingResults := w.pendingResults ++ [{
      result
      connection
      serverName := toQString serverAddress
      sharerName := toQString sharerName }] }

def queryResultRemoved (w : ListWindow) (connection : Nat) (sessionId fileName : String) :
    ListWindow :=
  { w with
    resultsModel := FileResultModel.removeResult w.resultsModel connection sessionId fileName }

def queryResultsCleared (w : ListWindow) (connection : Nat) : ListWindow :=
  { w with
    pendingResults := w.pendingResults.filter fun entry => entry.connection ≠ connection
    resultsModel := FileResultModel.removeResultsForConnection w.resultsModel connection }

/-- A name arrives separately from the files of its user. -/
def updateSharerNames (m : FileResultModel) (registries : Registries) : FileResultModel :=
  registries.foldl (fun m registry =>
    registry.2.entries.foldl (fun m user =>
      FileResultModel.updateSharerName m registry.1 user.1 (toQString user.2.displayName)) m) m

/-- `_OnFlushPendingResults`; the timer may go off at any time. -/
def flushPendingResults (w : ListWindow) (registries : Registries) : ListWindow :=
  let w :=
    if w.pendingResults = [] then w
    else
      { w with
        resultsModel := FileResultModel.addResults w.resultsModel w.pendingResults
        pendingResults := [] }
  if w.userNamesDirty then
    { w with
      resultsModel := updateSharerNames w.resultsModel registries
      userNamesDirty := false }
  else w

/-- The end of a search and its last results appear together. -/
def querySweepStateChanged (w : ListWindow) (registries : Registries) (isSweeping : Bool) :
    ListWindow :=
  if isSweeping then w else w.flushPendingResults registries

/-- What the window, as the listener of a connection, does to its lists. -/
def callback (w : ListWindow) (connection : Nat) (serverAddress : String)
    (registries : Registries) : ConnectionOccurrence → ListWindow
  | .connectionStateChanged state => w.connectionStateChanged connection state
  | .userUpdated user isNewUser => w.userUpdated connection serverAddress user isNewUser
  | .userLeft user => w.userLeft connection user
  | .queryResultAdded result sharerName =>
    w.queryResultAdded connection serverAddress result sharerName
  | .queryResultRemoved sessionId fileName => w.queryResultRemoved connection sessionId fileName
  | .queryResultsCleared => w.queryResultsCleared connection
  | .querySweepStateChanged isSweeping => w.querySweepStateChanged registries isSweeping
  | _ => w

end ListWindow

end HiTuxShare
