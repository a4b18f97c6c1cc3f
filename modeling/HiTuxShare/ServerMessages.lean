import HiTuxShare.ServerConnection

namespace HiTuxShare
set_option autoImplicit true

/-- What a connection uses of muscle beside messages and tables. A clause of a path is returned with
everything that follows it. -/
class MuscleLibrary where
  getPathDepth : String → Nat
  getPathClause : Nat → String → Option String
  matchesPattern : String → String → Bool
  inflateMessage : NodeMessage → Option NodeMessage

open MuscleLibrary

/-- What follows so many slashes. -/
def pathClause : Nat → List Char → Option (List Char)
  | 0, path => some path
  | depth + 1, path =>
    match path.dropWhile (· ≠ '/') with
    | [] => none
    | _ :: rest => pathClause depth rest

/-- Paths with a slash before each clause, the pattern for everything, and nothing deflated. -/
abbrev plainLibrary : MuscleLibrary where
  getPathDepth path := path.toList.count '/'
  getPathClause depth path := (pathClause depth path.toList).map String.ofList
  matchesPattern pattern text := pattern = "*" ∨ pattern = text
  inflateMessage := some

def hostNameDepth : Nat := 1
def sessionIdDepth : Nat := 2
def userNameDepth : Nat := 4
def fileInfoDepth : Nat := 5

/-- Marks an action inside an ordinary line of chat. -/
def actionPrefix : String := "/me "

/-- The key of every node of a query, and the key its results are dropped under. -/
def querySubscriptions : String := "SUBSCRIBE:*beshare/fi*"
def queryResults : String := "beshare/fi*/*"

def startsWith (text start : String) : Bool := start.toList.isPrefixOf text.toList

/-- What stands before the first slash. -/
def firstClause (path : String) : String := .ofList (path.toList.takeWhile (· ≠ '/'))

def makeQuerySubscriptionPath (sessionExpression fileExpression : String) (isFirewalled : Bool) :
    String :=
  "SUBSCRIBE:/*/" ++ sessionExpression ++ "/beshare/" ++
    (if isFirewalled then "files/" else "fi*/") ++ fileExpression

/-- Where the server takes a message for one session, or for all of them. -/
def makeSessionTargetPath (sessionId : String) : String := "/*/" ++ sessionId ++ "/beshare"

/-- The nodes of a user that we read, files apart. -/
inductive UserNode where
  | name
  | userStatus
  | uploadStats
  | bandwidth
  | fileCount
  | fires
  | files
  deriving DecidableEq

/-- The branches of `_HandleUserNode`. -/
def userNode (nodeName : String) : Option UserNode :=
  if startsWith nodeName "name" then some .name
  else if startsWith nodeName "userstatus" then some .userStatus
  else if startsWith nodeName "uploadstats" then some .uploadStats
  else if startsWith nodeName "bandwidth" then some .bandwidth
  else if startsWith nodeName "filecount" then some .fileCount
  else if startsWith nodeName "fires" then some .fires
  else if startsWith nodeName "files" then some .files
  else none

/-- Two generations of clients say their version in two ways. The first client never named itself,
its version begins with a digit. -/
def publishedVersion (node : NodeMessage) : Option String :=
  match node.findString fieldVersionName, node.findString fieldVersionNumber with
  | some versionName, some versionNumber => some (versionName ++ " v" ++ versionNumber)
  | _, _ =>
    (node.findString fieldLegacyVersion).map fun legacyVersion =>
      if legacyVersion.toList.head?.any Char.isDigit then "BeShare v" ++ legacyVersion
      else legacyVersion

def publishedInstallId (node : NodeMessage) : Option UInt64 :=
  (node.findInt64 fieldInstallId).map fun installId => (Int64.ofInt installId).toUInt64

section
variable [MuscleLibrary]

def extractSessionId (nodePath : String) : String :=
  match getPathClause sessionIdDepth nodePath with
  | some sessionClause => firstClause sessionClause
  | none => ""

namespace UserRecord

/-- A field the node does not have is left alone. The host is not a field but a part of the path,
for it is the server that says where a user has connected from. -/
def readName (user : UserRecord) (nodePath : String) (node : NodeMessage) : UserRecord :=
  { user with
    userName := (node.findString fieldName).getD user.userName
    hostName := ((getPathClause hostNameDepth nodePath).map firstClause).getD user.hostName
    port := (node.findInt32 fieldPort).getD user.port
    installId := (publishedInstallId node).getD user.installId
    isBot := (node.findBool fieldBot).getD user.isBot
    supportsPartialHashing :=
      (node.findBool fieldSupportsPartialHashing).getD user.supportsPartialHashing
    supportsSsl := (node.findBool fieldSupportsSsl).getD user.supportsSsl
    supportsRanges := (node.findBool fieldSupportsRanges).getD user.supportsRanges
    clientVersion := (publishedVersion node).getD user.clientVersion }

/-- The record after an update of one of its nodes, if the node has changed it. -/
def readNode (user : UserRecord) (node : UserNode) (nodePath : String) (data : NodeMessage) :
    Option UserRecord :=
  match node with
  | .name => some (user.readName nodePath data)
  | .userStatus =>
    (data.findString fieldUserStatus).map fun userStatus => { user with userStatus }
  | .uploadStats =>
    match data.findInt32 fieldUploadsCurrent, data.findInt32 fieldUploadsMax with
    | some current, some maximum =>
      some { user with uploadsCurrent := current.toUInt32, uploadsMax := maximum.toUInt32 }
    | _, _ => none
  | .bandwidth =>
    match data.findString fieldBandwidthLabel, data.findInt32 fieldBandwidthBits with
    | some bandwidthLabel, some bitsPerSecond =>
      some { user with bandwidthLabel, bandwidthBitsPerSecond := bitsPerSecond.toUInt32 }
    | _, _ => none
  | .fileCount =>
    (data.findInt32 fieldFileCount).map fun fileCount =>
      { user with fileCount := fileCount.toUInt32 }
  | .fires => some { user with isFirewalled := true }
  | .files => some { user with isFirewalled := false }

end UserRecord

/-- The third letter of "files" or "fires" is the whole firewall signal. -/
def fileResult (sessionId fileName nodePath : String) (inflated : NodeMessage) : FileResult where
  sessionId := sessionId
  fileName := fileName
  path := (inflated.findString fieldPath).getD ""
  kind := (inflated.findString fieldKind).getD ""
  fileSize := (inflated.findInt64 fieldFileSize).getD 0
  modificationTime := (inflated.findInt32 fieldModificationTime).getD 0
  isFirewalled :=
    (getPathClause userNameDepth nodePath).any fun share => share.toList[2]? = some 'r'
  attributes := inflated

/-- A departing user is reported as a whole session or as a name that goes, depending on how the
subscription matched. -/
def isUserGone (nodePath : String) : Bool :=
  getPathDepth nodePath = sessionIdDepth ||
    (getPathDepth nodePath = userNameDepth &&
      (getPathClause userNameDepth nodePath).any fun nodeName => startsWith nodeName "name")

namespace ConnectionWorld

def notifyUserUpdated (w : ConnectionWorld) (sessionId : String) (isNewUser : Bool) :
    ConnectionWorld :=
  match w.users.findUser sessionId with
  | some user => w.note (.userUpdated user isNewUser)
  | none => w

def handleNodeRemoved (w : ConnectionWorld) (nodePath : String) : ConnectionWorld :=
  let sessionId := extractSessionId nodePath
  if getPathDepth nodePath = fileInfoDepth then
    match getPathClause fileInfoDepth nodePath with
    | some fileName =>
      if sessionId ≠ "" then w.note (.queryResultRemoved sessionId fileName) else w
    | none => w
  else if isUserGone nodePath = false then w
  else if sessionId = "" then w
  else
    match w.users.removeUser sessionId with
    | some (departedUser, users) => { w with users }.note (.userLeft departedUser)
    | none => w

def handleUserNode (w : ConnectionWorld) (sessionId nodePath : String) (data : NodeMessage) :
    ConnectionWorld :=
  match getPathClause userNameDepth nodePath with
  | none => w
  | some nodeName =>
    let (users, user, isNewUser) := w.users.getOrCreateUser sessionId
    match (userNode nodeName).bind fun node => user.readNode node nodePath data with
    | some user =>
      { w with users := users.put sessionId user }.notifyUserUpdated sessionId isNewUser
    | none =>
      if isNewUser then { w with users }.notifyUserUpdated sessionId isNewUser else { w with users }

/-- The server may still be sending what a former subscription has matched. -/
def handleFileNode (w : ConnectionWorld) (sessionId nodePath : String) (data : NodeMessage) :
    ConnectionWorld :=
  if w.queryActive = false then w
  else
    match getPathClause fileInfoDepth nodePath with
    | none => w
    | some fileName =>
      if matchesPattern w.sessionMatcher sessionId = false ∨
          matchesPattern w.fileNameMatcher fileName = false then w
      else
        match inflateMessage data with
        | none => w
        | some inflated =>
          w.note (.queryResultAdded (fileResult sessionId fileName nodePath inflated)
            (w.users.getDisplayNameForSession sessionId))

/-- Our own state comes back to us through the subscription, but we stay out of our own list. -/
def handleNodeUpdated (w : ConnectionWorld) (nodePath : String) (data : NodeMessage) :
    ConnectionWorld :=
  let sessionId := extractSessionId nodePath
  if getPathDepth nodePath < userNameDepth then w
  else if sessionId = "" then w
  else if getPathDepth nodePath = fileInfoDepth then w.handleFileNode sessionId nodePath data
  else if sessionId = w.localSessionId then w
  else w.handleUserNode sessionId nodePath data

end ConnectionWorld

end

namespace ServerMessage

/-- The sub-messages as the loop over their names reads them: the first one of each name. -/
def updatedNodes (message : ServerMessage) : List (String × NodeMessage) :=
  (message.nodes.map Prod.fst).eraseDups.filterMap fun name =>
    message.nodes.find? fun node => node.1 = name

def hasField (message : ServerMessage) (name : String) : Bool :=
  message.hasName name || message.nodes.any fun node => node.1 = name

/-- `RemoveName`, and then the one item that is added under that name. -/
def replace (message : ServerMessage) (name : String) (value : FieldValue) : ServerMessage :=
  { message with
    toMessage := (message.removeName name).add name value
    nodes := message.nodes.filter fun node => node.1 ≠ name }

end ServerMessage

/-- Our session ID and the host name, as a session root "/<host name>/<session ID>" says them. -/
def parseSessionRoot (sessionRoot : String) : Option (String × String) :=
  if '/' ∈ sessionRoot.toList then
    let sessionId := (sessionRoot.toList.reverse.takeWhile (· ≠ '/')).reverse
    let lastSlashIndex := sessionRoot.toList.length - sessionId.length - 1
    some (.ofList sessionId, .ofList ((sessionRoot.toList.take lastSlashIndex).drop 1))
  else none

namespace ConnectionWorld

def handleDataItems [MuscleLibrary] (w : ConnectionWorld) (message : ServerMessage) :
    ConnectionWorld :=
  message.updatedNodes.foldl (fun w node => w.handleNodeUpdated node.1 node.2)
    (message.removedDataItems.foldl handleNodeRemoved w)

/-- Our own lines have been echoed when we sent them. -/
def handleChatText (w : ConnectionWorld) (message : ServerMessage) : ConnectionWorld :=
  match message.findString fieldSession, message.findString fieldText with
  | some senderSessionId, some text =>
    if senderSessionId = w.localSessionId then w
    else
      let isAction := startsWith text actionPrefix
      w.note (.chatMessageReceived .remoteUserChatMessage
        (if isAction then .ofList (text.toList.drop actionPrefix.length) else text)
        { senderSessionId
          senderName := w.users.getDisplayNameForSession senderSessionId
          isPrivate := message.hasField fieldPrivate
          isAction })
  | _, _ => w

/-- The reply is the message that came in, so that its timestamp goes back unaltered. -/
def pongFor (w : ConnectionWorld) (now : UInt64) (message : ServerMessage)
    (replyToSessionId : String) : ServerMessage :=
  let onlineTime := if 0 < w.loginTime then now - w.loginTime else 0
  { message with what := .clientPong, keys := [makeSessionTargetPath replyToSessionId] }
    |>.replace fieldSession (.string w.localSessionId)
    |>.replace fieldLegacyVersion (.string (hituxShareName ++ " v" ++ hituxShareVersionString))
    |>.replace fieldUptime (.int64 now.toInt64.toInt)
    |>.replace fieldOnlineTime (.int64 onlineTime.toInt64.toInt)

def handlePing (w : ConnectionWorld) (now : UInt64) (message : ServerMessage) : ConnectionWorld :=
  match message.findString fieldSession with
  | some replyToSessionId => w.sendToServer (w.pongFor now message replyToSessionId)
  | none => w

def handlePong (w : ConnectionWorld) (now : UInt64) (message : ServerMessage) : ConnectionWorld :=
  match message.findString fieldSession, message.findInt64 fieldWhen with
  | some senderSessionId, some sentAt =>
    let user := (w.users.findUser senderSessionId).getD { sessionId := senderSessionId }
    w.note (.pingReplyReceived user (now - (Int64.ofInt sentAt).toUInt64)
      ((message.findString fieldLegacyVersion).getD ""))
  | _, _ => w

def handleParameters (w : ConnectionWorld) (message : ServerMessage) : ConnectionWorld :=
  match message.sessionRoot.bind parseSessionRoot with
  | some (localSessionId, serverHostName) =>
    { w with localSessionId, hasPublishedIdentity := true }.note
      (.localSessionIdAssigned localSessionId serverHostName)
  | none => w

/-- Our own ping comes back once the server has sent the matches it held already. -/
def handleResultPong (w : ConnectionWorld) (message : ServerMessage) : ConnectionWorld :=
  match message.findInt32 fieldCount with
  | some count => if w.pingCount - 1 ≤ count then w.note (.querySweepStateChanged false) else w
  | none => w

def messageReceived [MuscleLibrary] (w : ConnectionWorld) (now : UInt64)
    (message : ServerMessage) : ConnectionWorld :=
  match message.what with
  | .resultDataItems => w.handleDataItems message
  | .resultParameters => w.handleParameters message
  | .resultPong => w.handleResultPong message
  | .newChatText => w.handleChatText message
  | .clientPing => w.handlePing now message
  | .clientPong => w.handlePong now message
  | _ => w

/-- That the field is there marks a message as private. -/
def sendChatText (w : ConnectionWorld) (targetSessionId text : String) : ConnectionWorld :=
  if w.isConnected = false ∨ text = "" then w
  else
    let chatMessage := (Message.ofWhat .newChatText)
      |>.addString fieldSession w.localSessionId
      |>.addString fieldText text
    w.sendToServer {
      toMessage :=
        if targetSessionId ≠ "*" then chatMessage.addBool fieldPrivate true else chatMessage
      keys := [makeSessionTargetPath targetSessionId] }

def sendPing (w : ConnectionWorld) (now : UInt64) (targetSessionId : String) : ConnectionWorld :=
  if w.isConnected = false then w
  else
    w.sendToServer {
      toMessage := (Message.ofWhat .clientPing)
        |>.addString fieldSession w.localSessionId
        |>.addInt64 fieldWhen now.toInt64.toInt
      keys := [makeSessionTargetPath targetSessionId] }

def stopQuery (w : ConnectionWorld) : ConnectionWorld :=
  if w.queryActive = false then w
  else
    let w := { w with queryActive := false }
    let w :=
      if w.isConnected then
        (w.sendToServer { toMessage := .ofWhat .removeParameters, keys := [querySubscriptions] })
          |>.sendToServer { toMessage := .ofWhat .jettisonResults, keys := [queryResults] }
      else w
    (w.note .queryResultsCleared).note (.querySweepStateChanged false)

/-- The server answers a ping only after everything it held already; the count tells the answer from
the one to an earlier query. -/
def startQuery (w : ConnectionWorld) (sessionExpression fileExpression : String) :
    ConnectionWorld :=
  if w.isConnected = false then w
  else
    let w := w.stopQuery
    let sessionPattern := if sessionExpression ≠ "" then sessionExpression else "*"
    let filePattern := if fileExpression ≠ "" then fileExpression else "*"
    let subscription := makeQuerySubscriptionPath sessionPattern filePattern w.firewalled
    let w := (w.sendToServer {
      toMessage := (Message.ofWhat .setParameters).addBool subscription true }).sendToServer {
        toMessage := (Message.ofWhat .ping).addInt32 fieldCount w.pingCount }
    { w with
      pingCount := w.pingCount + 1
      queryActive := true
      sessionMatcher := sessionPattern
      fileNameMatcher := filePattern }.note (.querySweepStateChanged true)

/-- `idle` is whether nothing has been sent for the time after which a link might be dropped. -/
def performIdleTasks (w : ConnectionWorld) (idle : Bool) : ConnectionWorld :=
  if w.isConnected = false then w
  else if idle then w.sendToServer { toMessage := .ofWhat .noop }
  else w

end ConnectionWorld

end HiTuxShare
