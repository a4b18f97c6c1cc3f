import HiTuxShare.ConnectionManager
import HiTuxShare.EventLog
import HiTuxShare.EventMachine

namespace HiTuxShare
set_option autoImplicit true

/-- Who we say we are on a server. -/
structure LocalIdentity where
  userName : String := "binky"
  userStatus : String := "here"
  installId : UInt64 := 0
  advertisedPort : Int32 := 0

namespace IdentityChange

/-- The name a call sets; an empty one is refused. -/
def newUserName : IdentityChange → Option String
  | .userName name => if name = "" then none else some name
  | _ => none

def newUserStatus : IdentityChange → Option String
  | .userStatus status => some status
  | _ => none

def newInstallId : IdentityChange → Option UInt64
  | .installId number => some number
  | _ => none

def newAdvertisedPort : IdentityChange → Option Int32
  | .advertisedPort port => some port
  | _ => none

end IdentityChange

def LocalIdentity.change (identity : LocalIdentity) (change : IdentityChange) : LocalIdentity where
  userName := change.newUserName.getD identity.userName
  userStatus := change.newUserStatus.getD identity.userStatus
  installId := change.newInstallId.getD identity.installId
  advertisedPort := change.newAdvertisedPort.getD identity.advertisedPort

def ServerConnection.identity (c : ServerConnection) : LocalIdentity :=
  ⟨c.localUserName, c.localUserStatus, c.installId, c.advertisedPort⟩

namespace ConnectionWorld

theorem connectToServer_identity (w : ConnectionWorld) (network : NetworkAnswer)
    (hostName : String) (port : UInt16) :
    (w.connectToServer network hostName port).1.identity = w.identity := by
  by_cases hn : hostName = ""
  · rw [hn, connectToServer_empty]
    rfl
  · by_cases ha : network.accepts
    · rw [connectToServer_accepted w ha hn]
      rfl
    · rw [connectToServer_refused w ha hn]
      rfl

theorem sessionDetached_identity (w : ConnectionWorld) :
    w.sessionDetached.identity = w.identity := by
  by_cases h : w.connectionState = .disconnected
  · rw [sessionDetached_of_down w h]
  · rw [sessionDetached_of_up w h]
    rfl

theorem applyIdentity_identity (w : ConnectionWorld) (change : IdentityChange) :
    (w.applyIdentity change).identity = w.identity.change change := by
  cases change with
  | installId number => rfl
  | userName name =>
    by_cases h : name = ""
    · simp only [applyIdentity, setLocalUserName, if_pos h, LocalIdentity.change,
        IdentityChange.newUserName]
      rfl
    · refine (congrArg ServerConnection.identity (setLocalUserName_toServerConnection w h)).trans ?_
      simp only [LocalIdentity.change, IdentityChange.newUserName, if_neg h]
      rfl
  | userStatus status =>
    exact congrArg ServerConnection.identity (w.setLocalUserStatus_toServerConnection status)
  | advertisedPort port =>
    exact congrArg ServerConnection.identity (w.setAdvertisedPort_toServerConnection port)

end ConnectionWorld

/-- A connection knows of the calls made since it was added, and starts from the defaults. -/
structure Told (announced : List IdentityChange) (c : ManagedConnection) : Prop where
  born : c.born ≤ announced.length
  identity : c.world.identity = (announced.drop c.born).foldl LocalIdentity.change {}

namespace ConnectionManagerWorld

def AllTold (m : ConnectionManagerWorld) : Prop := ∀ c ∈ m.connections, Told m.announced c

theorem AllTold.onAll {m : ConnectionManagerWorld} (h : AllTold m)
    {call : ManagedConnection → ConnectionWorld}
    (hcall : ∀ c, (call c).identity = c.world.identity) : AllTold (m.onAll call) := by
  intro c hm
  obtain ⟨old, hold, rfl⟩ := List.mem_map.mp hm
  exact ⟨(h old hold).born, (hcall old).trans (h old hold).identity⟩

theorem AllTold.announce {m : ConnectionManagerWorld} (h : AllTold m) (change : IdentityChange) :
    AllTold (m.announce change) := by
  intro c hm
  obtain ⟨old, hold, rfl⟩ := List.mem_map.mp hm
  obtain ⟨hborn, hidentity⟩ := h old hold
  constructor
  · change old.born ≤ (m.announced ++ [change]).length
    rw [List.length_append]
    exact Nat.le_add_right_of_le hborn
  · change (old.world.applyIdentity change).identity =
      ((m.announced ++ [change]).drop old.born).foldl LocalIdentity.change {}
    rw [ConnectionWorld.applyIdentity_identity, hidentity, List.drop_append_of_le_length hborn,
      List.foldl_append]
    rfl

theorem AllTold.addConnection {m : ConnectionManagerWorld} (h : AllTold m)
    (network : NetworkAnswer) (serverAddress : String) (port : UInt16) :
    AllTold (m.addConnection network serverAddress port).1 := by
  rcases m.addConnection_cases network serverAddress port with he | ⟨-, he⟩
  · rwa [he]
  · rw [he]
    intro c hm
    rcases List.mem_append.mp hm with hm | hm
    · exact h c hm
    · obtain rfl := List.mem_singleton.mp hm
      refine ⟨Nat.le_refl _, ?_⟩
      change (ConnectionWorld.connectToServer {} network serverAddress port).1.identity =
        (m.announced.drop m.announced.length).foldl LocalIdentity.change {}
      rw [ConnectionWorld.connectToServer_identity, List.drop_length]
      rfl

theorem AllTold.deliver {m : ConnectionManagerWorld} (h : AllTold m) (serial : Nat)
    {callback : ConnectionWorld → ConnectionWorld}
    (hcall : ∀ w, (callback w).identity = w.identity) : AllTold (m.deliver serial callback) := by
  apply h.onAll
  intro c
  split
  · exact hcall _
  · rfl

theorem AllTold.connectAll {m : ConnectionManagerWorld} (h : AllTold m)
    (networks : Nat → NetworkAnswer) : AllTold (m.connectAll networks) := by
  apply h.onAll
  intro c
  split
  · exact ConnectionWorld.connectToServer_identity ..
  · rfl

theorem AllTold.handle {m : ConnectionManagerWorld} (h : AllTold m) (e : ConnectionManagerEvent) :
    AllTold (m.handle e) := by
  by_cases hp : e.call.isPublication = true
  · obtain ⟨call, he, hframe⟩ := m.handle_publication e hp
    rw [he]
    apply h.onAll
    intro c
    rw [hframe c]
    rfl
  obtain ⟨call, networks, now⟩ := e
  cases call with
  | addConnection serverAddress port => exact h.addConnection _ _ _
  | removeConnection serial => exact fun c hm => h c (List.mem_of_mem_filter hm)
  | removeAll => exact fun c hm => by cases hm
  | setInstallId | setLocalUserName | setLocalUserStatus | setAdvertisedPort => exact h.announce _
  | connectAll => exact h.connectAll networks
  | disconnectAll =>
    exact h.onAll fun c => (congrArg ServerConnection.identity
      c.world.disconnectFromServer_toServerConnection).trans rfl
  | sessionConnected serial connectedTo =>
    exact h.deliver serial fun w => (congrArg ServerConnection.identity
      (w.sessionConnected_toServerConnection now connectedTo)).trans rfl
  | sessionDisconnected serial =>
    exact h.deliver serial fun w => (congrArg ServerConnection.identity
      w.sessionDisconnected_toServerConnection).trans rfl
  | sessionDetached serial => exact h.deliver serial ConnectionWorld.sessionDetached_identity
  | _ => exact absurd rfl hp

theorem allTold_new : AllTold new := fun c hm => by cases hm

theorem findConnection_onAll (m : ConnectionManagerWorld)
    (call : ManagedConnection → ConnectionWorld) (serial : Nat) :
    (m.onAll call).findConnection serial =
      (m.findConnection serial).map fun c => { c with world := call c } := by
  simp only [findConnection, onAll, List.find?_map]
  rfl

end ConnectionManagerWorld

/-- The name node and the status node say what was passed last. -/
structure CarryLatest (announced : List IdentityChange) (name status : NodeMessage) : Prop where
  userName : ∀ v, latest IdentityChange.newUserName announced = some v →
    name.findString fieldName = some v
  advertisedPort : ∀ v, latest IdentityChange.newAdvertisedPort announced = some v →
    name.findInt32 fieldPort = some v
  installId : ∀ v, latest IdentityChange.newInstallId announced = some v →
    name.findInt64 fieldInstallId = some v.toInt64.toInt
  userStatus : ∀ v, latest IdentityChange.newUserStatus announced = some v →
    status.findString fieldUserStatus = some v

/-- What was passed last was passed since entry `born`, or is what a new connection starts from. -/
structure Informed (announced : List IdentityChange) (born : Nat) : Prop where
  userName : ∀ v, latest IdentityChange.newUserName announced = some v →
    latest IdentityChange.newUserName (announced.drop born) = some v ∨ v = "binky"
  advertisedPort : ∀ v, latest IdentityChange.newAdvertisedPort announced = some v →
    latest IdentityChange.newAdvertisedPort (announced.drop born) = some v ∨ v = 0
  installId : ∀ v, latest IdentityChange.newInstallId announced = some v →
    latest IdentityChange.newInstallId (announced.drop born) = some v ∨ v = 0
  userStatus : ∀ v, latest IdentityChange.newUserStatus announced = some v →
    latest IdentityChange.newUserStatus (announced.drop born) = some v ∨ v = "here"

namespace ConnectionManagerWorld

/-- A connection that logs in publishes one name node and one status node, with what was passed
to the manager last. -/
def LoginsPublishLatest (m : ConnectionManagerWorld) (e : ConnectionManagerEvent) : Prop :=
  match e.call with
  | .sessionConnected serial _ =>
    ∀ c, m.findConnection serial = some c → c.world.internalThreadRunning = true →
      ∃ c' name status, (m.handle e).findConnection serial = some c' ∧
        nodesSetSince c.world c'.world = [(nodeName, name), (nodeUserStatus, status)] ∧
        CarryLatest m.announced name status
  | _ => True

def LoginsAreInformed (m : ConnectionManagerWorld) (e : ConnectionManagerEvent) : Prop :=
  match e.call with
  | .sessionConnected serial _ =>
    ∀ c, m.findConnection serial = some c → c.world.internalThreadRunning = true →
      Informed m.announced c.born
  | _ => True

end ConnectionManagerWorld

theorem toInt64_toInt_injective : Function.Injective fun v : UInt64 => v.toInt64.toInt :=
  fun _ _ h => congrArg Int64.toUInt64 (Int64.toInt_inj.mp h)

namespace ConnectionWorld

theorem sessionConnected_history (w : ConnectionWorld) (now : UInt64) (connectedTo : String) :
    (w.sessionConnected now connectedTo).history = w.history ++
      ((if .connected = w.connectionState then [] else [.connectionStateChanged .connected]) ++
        [.chatMessageReceived .informationMessage ("Connected to " ++ connectedTo ++ "."),
          .sent { what := .setData, fields := [], nodes := [(nodeName, w.nameNode)] },
          .sent { what := .setData, fields := [], nodes := [(nodeUserStatus, w.userStatusNode)] },
          .sent { toMessage := (Message.ofWhat .setParameters).addBool subscribeAll true },
          .sent { toMessage := .ofWhat .getParameters }]) := by
  have hstate := setConnectionState_history { w with loginTime := now } .connected
  have hname : (setConnectionState { w with loginTime := now } .connected).nameNode =
      w.nameNode := by
    rw [setConnectionState]
    split <;> rfl
  have hstatus : (setConnectionState { w with loginTime := now } .connected).userStatusNode =
      w.userStatusNode := by
    rw [setConnectionState]
    split <;> rfl
  rw [← hname, ← hstatus, ← List.append_assoc, ← hstate]
  change ((((_ ++ [_]) ++ [_]) ++ [_]) ++ [_]) ++ [_] = _
  simp only [List.append_assoc, List.cons_append, List.nil_append]
  rfl

theorem nodesSetSince_sessionConnected (w : ConnectionWorld) (now : UInt64) (connectedTo : String) :
    nodesSetSince w (w.sessionConnected now connectedTo) =
      [(nodeName, w.nameNode), (nodeUserStatus, w.userStatusNode)] := by
  rw [nodesSetSince_append (sessionConnected_history w now connectedTo)]
  split <;> rfl

end ConnectionWorld

theorem Told.field_eq (h : Told announced c) (field : LocalIdentity → α)
    {pick : IdentityChange → Option α}
    (hp : ∀ s e, field (s.change e) = (pick e).getD (field s)) :
    field c.world.identity = (latest pick (announced.drop c.born)).getD (field {}) := by
  rw [h.identity, foldl_eq_latest hp]

theorem Told.carryLatest_iff (h : Told announced c) :
    CarryLatest announced c.world.nameNode c.world.userStatusNode ↔ Informed announced c.born := by
  have hname := passesOn_iff Function.injective_id announced c.born
    (congrArg some (h.field_eq LocalIdentity.userName fun _ _ => rfl))
  have hport := passesOn_iff Function.injective_id announced c.born
    (congrArg some (h.field_eq LocalIdentity.advertisedPort fun _ _ => rfl))
  have hinstall := passesOn_iff toInt64_toInt_injective announced c.born
    (congrArg (fun v : UInt64 => some v.toInt64.toInt)
      (h.field_eq LocalIdentity.installId fun _ _ => rfl))
  have hstatus := passesOn_iff Function.injective_id announced c.born
    (congrArg some (h.field_eq LocalIdentity.userStatus fun _ _ => rfl))
  constructor
  · intro hc
    exact ⟨hname.mp hc.userName, hport.mp hc.advertisedPort, hinstall.mp hc.installId,
      hstatus.mp hc.userStatus⟩
  · intro hi
    exact ⟨hname.mpr hi.userName, hport.mpr hi.advertisedPort, hinstall.mpr hi.installId,
      hstatus.mpr hi.userStatus⟩

namespace ConnectionManagerWorld

theorem AllTold.loginsPublishLatest_iff {m : ConnectionManagerWorld} (h : AllTold m)
    (e : ConnectionManagerEvent) : LoginsPublishLatest m e ↔ LoginsAreInformed m e := by
  obtain ⟨call, networks, now⟩ := e
  cases call with
  | sessionConnected serial connectedTo =>
    refine forall₂_congr fun c hc => forall_congr' fun hrunning => ?_
    have htold := h c (List.mem_of_find?_eq_some hc)
    have hserial : c.serial = serial := by simpa using List.find?_some hc
    have hafter : (m.handle ⟨.sessionConnected serial connectedTo, networks, now⟩).findConnection
        serial = some { c with world := c.world.sessionConnected now connectedTo } := by
      refine (findConnection_onAll ..).trans ?_
      rw [hc, Option.map_some, if_pos ⟨hserial, hrunning⟩]
    rw [← htold.carryLatest_iff]
    constructor
    · rintro ⟨c', name, status, hc', hnodes, hcarry⟩
      obtain rfl := Option.some.inj (hafter.symm.trans hc')
      rw [ConnectionWorld.nodesSetSince_sessionConnected] at hnodes
      cases hnodes
      exact hcarry
    · intro hcarry
      exact ⟨_, _, _, hafter, ConnectionWorld.nodesSetSince_sessionConnected .., hcarry⟩
  | _ => exact Iff.rfl

end ConnectionManagerWorld

/-- The name is set before there is a connection, as the constructor of the window does it. -/
theorem late_connection_has_default_name :
    ¬ ∀ es : List ConnectionManagerEvent, ConnectionManagerWorld.machine.EveryStep
      ConnectionManagerWorld.LoginsPublishLatest .new es := by
  intro h
  have hlogin := (h [⟨.setLocalUserName "ann", fun _ => {}, 0⟩,
    ⟨.addConnection "server" 2960, fun _ => {}, 0⟩,
    ⟨.sessionConnected 0 "server:2960", fun _ => {}, 0⟩]).2.2.1
  have htold := (ConnectionManagerWorld.allTold_new.handle
    ⟨.setLocalUserName "ann", fun _ => {}, 0⟩).handle
      ⟨.addConnection "server" 2960, fun _ => {}, 0⟩
  have hinformed := (htold.loginsPublishLatest_iff _).mp hlogin _ rfl rfl
  rcases hinformed.userName "ann" rfl with hagain | hdefault
  · cases hagain
  · exact absurd hdefault (by decide)

/-- Every login publishes what was passed to the manager last exactly if each connection that logs
in was there for the last call of each kind, or the call passed what it had from the start. -/
theorem identity_on_every_server (es : List ConnectionManagerEvent) :
    ConnectionManagerWorld.machine.EveryStep ConnectionManagerWorld.LoginsPublishLatest .new es ↔
      ConnectionManagerWorld.machine.EveryStep ConnectionManagerWorld.LoginsAreInformed .new es :=
  EventMachine.everyStep_congr_of_invariant (J := ConnectionManagerWorld.AllTold)
    (fun _ e h => h.handle e) (fun _ e h => h.loginsPublishLatest_iff e)
    ConnectionManagerWorld.allTold_new es

end HiTuxShare
