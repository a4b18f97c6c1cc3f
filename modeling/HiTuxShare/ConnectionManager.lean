import HiTuxShare.ServerConnection

namespace HiTuxShare
set_option autoImplicit true

/-- How many servers we connect to at most. -/
def maximumConnections : Nat := 8

/-- Addresses are compared in one letter case. -/
def foldCase (text : String) : List Char := text.toList.map Char.toLower

def equalsIgnoreCase (text text' : String) : Prop :=
  text.toList.map Char.toLower = text'.toList.map Char.toLower

instance : DecidableRel equalsIgnoreCase := fun text text' =>
  inferInstanceAs (Decidable (text.toList.map Char.toLower = text'.toList.map Char.toLower))

/-- One of the four calls by which the manager is told who we are. -/
inductive IdentityChange where
  | installId (installId : UInt64)
  | userName (userName : String)
  | userStatus (status : String)
  | advertisedPort (port : Int32)
  deriving DecidableEq

/-- A connection the manager owns. The other two fields are history variables: how many
connections had been made before it, and how many identity changes had been announced. -/
structure ManagedConnection where
  serial : Nat
  born : Nat
  world : ConnectionWorld

structure ConnectionManager where
  connections : List ManagedConnection := []

/-- The manager with its history: how many connections it has made, and the identity changes in
the order of the calls. -/
structure ConnectionManagerWorld extends ConnectionManager where
  created : Nat := 0
  announced : List IdentityChange := []

namespace ConnectionWorld

def applyIdentity (w : ConnectionWorld) : IdentityChange → ConnectionWorld
  | .installId installId => w.setInstallId installId
  | .userName userName => w.setLocalUserName userName
  | .userStatus status => w.setLocalUserStatus status
  | .advertisedPort port => w.setAdvertisedPort port

end ConnectionWorld

namespace ConnectionManagerWorld

def findByAddress (m : ConnectionManagerWorld) (serverAddress : String) :
    Option ManagedConnection :=
  m.connections.find? fun c => equalsIgnoreCase c.world.serverAddress serverAddress

def findConnection (m : ConnectionManagerWorld) (serial : Nat) : Option ManagedConnection :=
  m.connections.find? fun c => c.serial = serial

/-- The first connected one, or the first one at all. -/
def getPrimary (m : ConnectionManagerWorld) : Option ManagedConnection :=
  (m.connections.find? fun c => c.world.isConnected).or m.connections.head?

/-- The loop of a call that is passed on to the connections one after the other. -/
def onAll (m : ConnectionManagerWorld) (call : ManagedConnection → ConnectionWorld) :
    ConnectionManagerWorld :=
  { m with connections := m.connections.map fun c => { c with world := call c } }

/-- A new connection with the defaults of the constructor, dialled at once. -/
def newConnection (m : ConnectionManagerWorld) (network : NetworkAnswer) (serverAddress : String)
    (port : UInt16) : ManagedConnection where
  serial := m.created
  born := m.announced.length
  world := (ConnectionWorld.connectToServer {} network serverAddress port).1

/-- The connection is returned in the state it is in then. -/
def addConnection (m : ConnectionManagerWorld) (network : NetworkAnswer) (serverAddress : String)
    (port : UInt16) : ConnectionManagerWorld × Option ManagedConnection :=
  match m.findByAddress serverAddress with
  | some existing => (m, some existing)
  | none =>
    if maximumConnections ≤ m.connections.length then (m, none)
    else
      let connection := m.newConnection network serverAddress port
      ({ m with connections := m.connections ++ [connection], created := m.created + 1 },
        some connection)

theorem addConnection_cases (m : ConnectionManagerWorld) (network : NetworkAnswer)
    (serverAddress : String) (port : UInt16) :
    (m.addConnection network serverAddress port).1 = m ∨
      m.findByAddress serverAddress = none ∧
        (m.addConnection network serverAddress port).1 =
          { m with
            connections := m.connections ++ [m.newConnection network serverAddress port]
            created := m.created + 1 } := by
  rw [addConnection]
  split
  · exact .inl rfl
  · next hnone =>
    split
    · exact .inl rfl
    · exact .inr ⟨hnone, rfl⟩

def removeConnection (m : ConnectionManagerWorld) (serial : Nat) : ConnectionManagerWorld :=
  { m with connections := m.connections.filter fun c => c.serial ≠ serial }

def removeAll (m : ConnectionManagerWorld) : ConnectionManagerWorld := { m with connections := [] }

def announce (m : ConnectionManagerWorld) (change : IdentityChange) : ConnectionManagerWorld :=
  { m.onAll fun c => c.world.applyIdentity change with announced := m.announced ++ [change] }

def setInstallId (m : ConnectionManagerWorld) (installId : UInt64) : ConnectionManagerWorld :=
  m.announce (.installId installId)

def setLocalUserName (m : ConnectionManagerWorld) (userName : String) : ConnectionManagerWorld :=
  m.announce (.userName userName)

def setLocalUserStatus (m : ConnectionManagerWorld) (status : String) : ConnectionManagerWorld :=
  m.announce (.userStatus status)

def setAdvertisedPort (m : ConnectionManagerWorld) (port : Int32) : ConnectionManagerWorld :=
  m.announce (.advertisedPort port)

def setFirewalled (m : ConnectionManagerWorld) (firewalled : Bool) : ConnectionManagerWorld :=
  m.onAll fun c => c.world.setFirewalled firewalled

/-- `networks` is what each connection gets for an answer. -/
def connectAll (m : ConnectionManagerWorld) (networks : Nat → NetworkAnswer) :
    ConnectionManagerWorld :=
  m.onAll fun c =>
    if c.world.connectionState = .disconnected ∧ c.world.serverAddress ≠ "" then
      (c.world.connectToServer (networks c.serial) c.world.serverAddress c.world.serverPort).1
    else c.world

def disconnectAll (m : ConnectionManagerWorld) : ConnectionManagerWorld :=
  m.onAll fun c => c.world.disconnectFromServer

def publishSharedFilesOnAll (m : ConnectionManagerWorld) (files : List SharedFile) :
    ConnectionManagerWorld := m.onAll fun c => c.world.publishSharedFiles files

def unpublishAllSharedFiles (m : ConnectionManagerWorld) : ConnectionManagerWorld :=
  m.onAll fun c => c.world.unpublishAllSharedFiles

def publishSharedFileCountOnAll (m : ConnectionManagerWorld) (fileCount : UInt32) :
    ConnectionManagerWorld := m.onAll fun c => c.world.publishSharedFileCount fileCount

/-- A callback from the internal thread of one connection, while that thread runs: what it has
queued is dropped when it is shut down. -/
def deliver (m : ConnectionManagerWorld) (serial : Nat)
    (callback : ConnectionWorld → ConnectionWorld) : ConnectionManagerWorld :=
  m.onAll fun c =>
    if c.serial = serial ∧ c.world.internalThreadRunning = true then callback c.world else c.world

end ConnectionManagerWorld

inductive ConnectionManagerCall where
  | addConnection (serverAddress : String) (port : UInt16)
  | removeConnection (serial : Nat)
  | removeAll
  | setInstallId (installId : UInt64)
  | setLocalUserName (userName : String)
  | setLocalUserStatus (status : String)
  | setAdvertisedPort (port : Int32)
  | setFirewalled (firewalled : Bool)
  | connectAll
  | disconnectAll
  | publishSharedFilesOnAll (files : List SharedFile)
  | unpublishAllSharedFiles
  | publishSharedFileCountOnAll (fileCount : UInt32)
  | sessionConnected (serial : Nat) (connectedTo : String)
  | sessionDisconnected (serial : Nat)
  | sessionDetached (serial : Nat)

/-- A call, with what the network layer answers to a connection it dials, and the time. -/
structure ConnectionManagerEvent where
  call : ConnectionManagerCall
  networks : Nat → NetworkAnswer := fun _ => {}
  now : UInt64 := 0

namespace ConnectionManagerWorld

def handle (m : ConnectionManagerWorld) (e : ConnectionManagerEvent) : ConnectionManagerWorld :=
  match e.call with
  | .addConnection serverAddress port =>
    (m.addConnection (e.networks m.created) serverAddress port).1
  | .removeConnection serial => m.removeConnection serial
  | .removeAll => m.removeAll
  | .setInstallId installId => m.setInstallId installId
  | .setLocalUserName userName => m.setLocalUserName userName
  | .setLocalUserStatus status => m.setLocalUserStatus status
  | .setAdvertisedPort port => m.setAdvertisedPort port
  | .setFirewalled firewalled => m.setFirewalled firewalled
  | .connectAll => m.connectAll e.networks
  | .disconnectAll => m.disconnectAll
  | .publishSharedFilesOnAll files => m.publishSharedFilesOnAll files
  | .unpublishAllSharedFiles => m.unpublishAllSharedFiles
  | .publishSharedFileCountOnAll fileCount => m.publishSharedFileCountOnAll fileCount
  | .sessionConnected serial connectedTo =>
    m.deliver serial fun w => w.sessionConnected e.now connectedTo
  | .sessionDisconnected serial => m.deliver serial ConnectionWorld.sessionDisconnected
  | .sessionDetached serial => m.deliver serial ConnectionWorld.sessionDetached

def machine : EventMachine ConnectionManagerWorld ConnectionManagerEvent := ⟨handle⟩

/-- The manager as the constructor leaves it. -/
def new : ConnectionManagerWorld := {}

end ConnectionManagerWorld

/-- The calls about our shared files. -/
def ConnectionManagerCall.isPublication : ConnectionManagerCall → Bool
  | .setFirewalled _ | .publishSharedFilesOnAll _ | .unpublishAllSharedFiles
  | .publishSharedFileCountOnAll _ => true
  | _ => false

namespace ConnectionManagerWorld

theorem handle_publication (m : ConnectionManagerWorld) (e : ConnectionManagerEvent)
    (h : e.call.isPublication = true) : ∃ call, m.handle e = m.onAll call ∧
      ∀ c, (call c).toServerConnection = { c.world.toServerConnection with
        firewalled := (call c).firewalled
        publishedFileCount := (call c).publishedFileCount } := by
  obtain ⟨call, networks, now⟩ := e
  cases call with
  | setFirewalled firewalled =>
    refine ⟨_, rfl, fun c => ?_⟩
    rw [c.world.setFirewalled_toServerConnection]
  | publishSharedFilesOnAll files =>
    refine ⟨_, rfl, fun c => ?_⟩
    rw [c.world.publishSharedFiles_toServerConnection]
  | unpublishAllSharedFiles =>
    refine ⟨_, rfl, fun c => ?_⟩
    rw [c.world.unpublishAllSharedFiles_toServerConnection]
  | publishSharedFileCountOnAll fileCount =>
    refine ⟨_, rfl, fun c => ?_⟩
    rw [c.world.publishSharedFileCount_toServerConnection]
  | _ => cases h

end ConnectionManagerWorld

end HiTuxShare
