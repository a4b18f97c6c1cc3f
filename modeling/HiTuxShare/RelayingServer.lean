import HiTuxShare.ClientSteps
import HiTuxShare.FifoLink
import HiTuxShare.NodePaths

namespace HiTuxShare
set_option autoImplicit true

open MuscleLibrary

/-- Where the server puts a publisher in each of its sessions, and the node a subscriber is
addressed by. -/
structure Seats where
  hostOf : Nat → String
  sessionOf : Nat → String
  subscriberNode : String

/-- What a server has of a publisher and a subscriber: how many sessions the publisher has had
before, the nodes of the one it has now and whether it has set any, whether the subscriber is there,
which asks for the users when it logs in, and what it asks of the files with its queries. -/
structure ServerSide where
  sessions : Nat := 0
  node : String → Option NodeMessage := fun _ => none
  hasSet : Bool := false
  hearsUsers : Bool := false
  patterns : List String := []

/-- A server between a publisher and a subscriber. With each message of the publisher, and with the
end of its session, it tells the subscriber something of it; a message of the subscriber it answers,
and takes something back of what the subscriber has not been sent yet. What it says of anybody else
is not among that. -/
class MuscleRelay extends MuscleServer where
  names : String → String → Bool
  State : Type
  start : State
  side : State → ServerSide
  host : State → ServerMessage → State
  tell : State → ServerMessage → List ServerMessage
  endSession : State → State
  tellEnd : State → List ServerMessage
  heed : State → ServerMessage → State
  answer : State → ServerMessage → List ServerMessage
  keep : State → ServerMessage → List ServerMessage → List ServerMessage
  forget : State → State

/-- The patterns of queries among the parameters that are set; the subscription to the users is a
relative one. -/
def askedPatterns (message : ServerMessage) : List String :=
  (message.fields.map Prod.fst).filterMap fun name =>
    if startsWith name "SUBSCRIBE:/" then some (.ofList (name.toList.drop "SUBSCRIBE:".length))
    else none

/-- The nodes of one of our clients: the three that say who it is, and those of its files. -/
inductive IsHostedNode : String → Prop
  | name : IsHostedNode nodeName
  | userStatus : IsHostedNode nodeUserStatus
  | fileCount : IsHostedNode nodeFileCount
  | file (c : ServerConnection) (h : ArePlain [fileName]) :
    IsHostedNode (c.filesNodePath ++ fileName)

/-- A message that sets nodes as our clients do. -/
structure ServerMessage.SetsNodes (message : ServerMessage) : Prop where
  what : message.what = .setData
  hosted : ∀ node ∈ message.nodes, IsHostedNode node.1
  nodup : (message.nodes.map Prod.fst).Nodup

namespace ServerSide

def absolutePath (seats : Seats) (server : ServerSide) (nodePath : String) : String :=
  joinClauses [seats.hostOf server.sessions, seats.sessionOf server.sessions] ++ "/" ++ nodePath

/-- A node under its absolute path. -/
def placed (seats : Seats) (server : ServerSide) (node : String × NodeMessage) :
    String × NodeMessage := (server.absolutePath seats node.1, node.2)

/-- The nodes that a server makes by itself, and that it may keep when the files under them are
gone. -/
def isDirectory (seats : Seats) (server : ServerSide) (path : String) : Bool :=
  path ∈ ["beshare/files", "beshare/fires"].map (server.absolutePath seats)

def withNodes (server : ServerSide) (nodes : List (String × NodeMessage)) : ServerSide :=
  { server with
    node := nodes.foldl (fun node entry => Function.update node entry.1 (some entry.2)) server.node
    hasSet := server.hasSet || !nodes.isEmpty }

def without (server : ServerSide) (gone : String → Bool) : ServerSide :=
  { server with node := fun nodePath => if gone nodePath then none else server.node nodePath }

section
variable [MuscleRelay]

/-- A subscriber hears of the nodes of every user, and of the files its queries name. -/
def isSubscribed (seats : Seats) (server : ServerSide) (nodePath : String) : Bool :=
  server.hearsUsers && (!isFileNode nodePath ||
    server.patterns.any fun pattern =>
      MuscleRelay.names pattern (server.absolutePath seats nodePath))

/-- The nodes that a new subscription is about. -/
def asks (seats : Seats) (server : ServerSide) (message : ServerMessage) (nodePath : String) :
    Bool :=
  if isFileNode nodePath then
    (askedPatterns message).any fun pattern =>
      MuscleRelay.names pattern (server.absolutePath seats nodePath)
  else message.hasName subscribeAll

end

/-- Messages that say of each of these nodes that it is there, once and in whatever order. Nothing
else is said, but of the directories of a session that has set nodes. -/
structure Brings (seats : Seats) (server : ServerSide) (messages : List ServerMessage)
    (news : String × NodeMessage → Prop) : Prop where
  what : ∀ message ∈ messages, message.what = .resultDataItems ∧ message.removedDataItems = []
  once : (((messages.flatMap ServerMessage.updatedNodes).filter fun node =>
    !server.isDirectory seats node.1).map Prod.fst).Nodup
  told : ∀ node, server.isDirectory seats node.1 = false →
    (node ∈ messages.flatMap ServerMessage.updatedNodes ↔
      ∃ entry, news entry ∧ server.placed seats entry = node)
  directories : ∀ node ∈ messages.flatMap ServerMessage.updatedNodes,
    server.isDirectory seats node.1 = true → server.hasSet = true

/-- Messages that say of each of these nodes that it is gone; of the directories they may say what
they like. -/
structure Takes (seats : Seats) (server : ServerSide) (messages : List ServerMessage)
    (gone : String → Prop) : Prop where
  what : ∀ message ∈ messages, message.what = .resultDataItems ∧ message.nodes = []
  told : ∀ path, server.isDirectory seats path = false →
    (path ∈ messages.flatMap ServerMessage.removedDataItems ↔
      ∃ nodePath, gone nodePath ∧ server.absolutePath seats nodePath = path)

end ServerSide

section
variable [MuscleLibrary]

/-- What is left of a message when something that it says of files is taken out. -/
structure ServerMessage.IsLeftOf (part whole : ServerMessage) : Prop where
  what : part.what = .resultDataItems ∧ whole.what = .resultDataItems
  updated : part.updatedNodes.filter (fun node => getPathDepth node.1 ≠ fileInfoDepth) =
    whole.updatedNodes.filter fun node => getPathDepth node.1 ≠ fileInfoDepth
  removed : part.removedDataItems.filter (fun path => getPathDepth path ≠ fileInfoDepth) =
    whole.removedDataItems.filter fun path => getPathDepth path ≠ fileInfoDepth
  fewer : part.updatedNodes ⊆ whole.updatedNodes

/-- What is left of the messages that have not been sent yet. One with nothing left in it may be
gone as a whole. -/
inductive IsLeftOver : List ServerMessage → List ServerMessage → Prop
  | nil : IsLeftOver [] []
  | same (h : IsLeftOver kept queue) : IsLeftOver (message :: kept) (message :: queue)
  | part (hpart : part.IsLeftOf message) (h : IsLeftOver kept queue) :
      IsLeftOver (part :: kept) (message :: queue)
  | gone (hgone : ServerMessage.IsLeftOf { what := .resultDataItems, fields := [] } message)
      (h : IsLeftOver kept queue) : IsLeftOver kept (message :: queue)

theorem IsLeftOver.refl (queue : List ServerMessage) : IsLeftOver queue queue := by
  induction queue with
  | nil => exact .nil
  | cons message queue ih => exact .same ih

variable [MuscleRelay]

open MuscleRelay

/-- What the protocol says of the server, and of the messages that our clients send to it. -/
structure MuscleRelay.Serves (seats : Seats) : Prop where
  /-- Nobody is there at first. -/
  starts : side start = {}
  /-- A `PR_COMMAND_SETDATA` sets nodes. -/
  sets : ∀ state message, message.SetsNodes →
    side (host state message) = (side state).withNodes message.nodes
  /-- A `PR_COMMAND_REMOVEDATA` removes what its keys cover. -/
  removes : ∀ state message, message.what = .removeData →
    side (host state message) =
      (side state).without fun nodePath => message.keys.any (MuscleServer.covers · nodePath)
  /-- No other message of a publisher is about its nodes. -/
  spares : ∀ state message, message.isOurs = true → message.what ≠ .setData →
    message.what ≠ .removeData → side (host state message) = side state
  /-- Nobody is told of anything who is not there. -/
  silent : ∀ state, (side state).hearsUsers = false →
    (∀ message, tell state message = []) ∧ tellEnd state = []
  /-- A subscriber is told of the nodes that are set. -/
  tellsSet : ∀ state message, message.SetsNodes →
    (side (host state message)).Brings seats (tell state message) fun entry =>
      entry ∈ message.nodes ∧ (side state).isSubscribed seats entry.1 = true
  /-- It is told of the nodes that are removed. -/
  tellsRemoved : ∀ state message, message.what = .removeData →
    (side state).Takes seats (tell state message) fun nodePath =>
      (side state).node nodePath ≠ none ∧
        message.keys.any (MuscleServer.covers · nodePath) = true ∧
        (side state).isSubscribed seats nodePath = true
  /-- What is for other clients is passed on, and nothing is told of the rest. -/
  passesOn : ∀ state message, message.isOurs = true → message.what ≠ .setData →
    message.what ≠ .removeData → ∀ told ∈ tell state message,
      told.what = message.what ∧ message.what.isRelayed = true
  /-- A line of chat goes to the nodes that its keys name, and the server overwrites the session
  that it is said to be from. -/
  relays : ∀ state message, message.isOurs = true → message.what = .newChatText →
    tell state message =
      if (side state).hearsUsers = true ∧
          message.keys.any (names · seats.subscriberNode) = true then
        [message.replace fieldSession (.string (seats.sessionOf (side state).sessions))]
      else []
  /-- The nodes of a session that is over are gone. -/
  ends : ∀ state, side (endSession state) =
    { side state with
      sessions := (side state).sessions + 1
      node := fun _ => none
      hasSet := false }
  /-- The subscriber is told so. -/
  tellsEnd : ∀ state, (side state).Takes seats (tellEnd state) fun nodePath =>
    (side state).node nodePath ≠ none ∧ (side state).isSubscribed seats nodePath = true
  /-- A `PR_COMMAND_SETPARAMETERS` adds subscriptions. -/
  subscribes : ∀ state message, message.isOurs = true → message.what = .setParameters →
    side (heed state message) = { side state with
      hearsUsers := message.hasName subscribeAll || (side state).hearsUsers
      patterns := askedPatterns message ++ (side state).patterns }
  /-- Our `PR_COMMAND_REMOVEPARAMETERS` takes back the subscriptions of queries. -/
  unsubscribes : ∀ state message, message.isOurs = true → message.what = .removeParameters →
    side (heed state message) = { side state with patterns := [] }
  /-- No other message of a subscriber is about its subscriptions. -/
  ignores : ∀ state message, message.isOurs = true → message.what ≠ .setParameters →
    message.what ≠ .removeParameters → side (heed state message) = side state
  /-- What a new subscription finds there already is told at once. -/
  answers : ∀ state message, message.isOurs = true → message.what = .setParameters →
    (side (heed state message)).hearsUsers = true →
      (side (heed state message)).Brings seats (answer state message) fun entry =>
        (side state).node entry.1 = some entry.2 ∧ (side state).asks seats message entry.1 = true
  /-- Nothing else is answered with what is the publisher's. -/
  answersNothing : ∀ state message, message.isOurs = true →
    message.what ≠ .setParameters ∨ (side (heed state message)).hearsUsers = false →
      answer state message = []
  /-- Our `PR_COMMAND_JETTISONRESULTS` drops some results of queries. -/
  jettisons : ∀ state message queue, message.isOurs = true →
    message.what = .jettisonResults → IsLeftOver (keep state message queue) queue
  /-- Nothing else is taken back. -/
  keeps : ∀ state message queue, message.isOurs = true → message.what ≠ .jettisonResults →
    keep state message queue = queue
  /-- With its session the subscriber's subscriptions are gone. -/
  forgets : ∀ state, side (forget state) =
    { side state with hearsUsers := false, patterns := [] }

end

section
variable [MuscleRelay]

abbrev ServerState := MuscleRelay.State

namespace ServerState

def side (state : ServerState) : ServerSide := MuscleRelay.side state

/-- The server after what a publisher does, if that is a message. -/
def after (state : ServerState) : ConnectionOccurrence → ServerState
  | .sent message => MuscleRelay.host state message
  | _ => state

def news (state : ServerState) : ConnectionOccurrence → List ServerMessage
  | .sent message => MuscleRelay.tell state message
  | _ => []

def endSession (state : ServerState) : ServerState := MuscleRelay.endSession state

def newsOfEnd (state : ServerState) : List ServerMessage := MuscleRelay.tellEnd state

def afterAll (state : ServerState) (occurrences : List ConnectionOccurrence) : ServerState :=
  occurrences.foldl after state

def newsOfAll (state : ServerState) : List ConnectionOccurrence → List ServerMessage
  | [] => []
  | o :: later => state.news o ++ (state.after o).newsOfAll later

/-- The server after what a subscriber does. -/
def heed (state : ServerState) : ConnectionOccurrence → ServerState
  | .sent message => MuscleRelay.heed state message
  | _ => state

/-- What has not been sent to a subscriber after something it does. -/
def queue (state : ServerState) (inFlight : List ServerMessage) :
    ConnectionOccurrence → List ServerMessage
  | .sent message => MuscleRelay.keep state message inFlight ++ MuscleRelay.answer state message
  | _ => inFlight

def forget (state : ServerState) : ServerState := MuscleRelay.forget state

def heedAll (state : ServerState) (occurrences : List ConnectionOccurrence) : ServerState :=
  occurrences.foldl heed state

def queueAll (state : ServerState) (inFlight : List ServerMessage) :
    List ConnectionOccurrence → List ServerMessage
  | [] => inFlight
  | o :: later => (state.heed o).queueAll (state.queue inFlight o) later

end ServerState

/-- A client that publishes, with its server. -/
structure Publisher extends ConnectionWorld where
  state : ServerState := MuscleRelay.start

/-- A publisher and a subscriber on one server, and what the server has told the subscriber of the
publisher that is still on its way. -/
abbrev SharedServer := FifoLink Publisher ServerMessage ConnectionWorld

end

inductive SharedServerEvent where
  | publisher (e : ServerConnectionEvent)
  | arrival (now : UInt64)
  | subscriber (e : ServerConnectionEvent)

/-- What a connection does in one call. -/
def occurrencesOf [MuscleLibrary] (w : ConnectionWorld) (e : ServerConnectionEvent) :
    List ConnectionOccurrence := (w.handle e).history.drop w.history.length

namespace Publisher
variable [MuscleRelay]

/-- What the server has of the publisher. -/
def server (p : Publisher) : ServerSide := p.state.side

variable [MuscleLibrary]

/-- The server as the messages of a call find it. -/
def hosted (p : Publisher) (e : ServerConnectionEvent) : ServerState :=
  if p.endsSession e then p.state.endSession else p.state

def handle (p : Publisher) (e : ServerConnectionEvent) : Publisher where
  toConnectionWorld := p.toConnectionWorld.handle e
  state := (p.hosted e).afterAll (occurrencesOf p.toConnectionWorld e)

def news (p : Publisher) (e : ServerConnectionEvent) : List ServerMessage :=
  (if p.endsSession e then p.state.newsOfEnd else []) ++
    (p.hosted e).newsOfAll (occurrencesOf p.toConnectionWorld e)

end Publisher

namespace SharedServer
variable [MuscleLibrary] [MuscleRelay]

/-- A message arrives as the next one from the server. -/
def read (now : UInt64) (w : ConnectionWorld) (message : ServerMessage) : ConnectionWorld :=
  w.handle { call := .messageReceived message, now }

def handle (s : SharedServer) : SharedServerEvent → SharedServer
  | .publisher e => s.send (s.source.handle e) (s.source.news e)
  | .arrival now => s.arrive (read now)
  | .subscriber e =>
    let said := occurrencesOf s.replica e
    -- what is on its way to a session that is over never arrives
    let ends := s.replica.endsSession e
    let state := if ends then s.source.state.forget else s.source.state
    { source := { s.source with state := state.heedAll said }
      inFlight := state.queueAll (if ends then [] else s.inFlight) said
      replica := s.replica.handle e }

def machine : EventMachine SharedServer SharedServerEvent := ⟨handle⟩

end SharedServer

end HiTuxShare
