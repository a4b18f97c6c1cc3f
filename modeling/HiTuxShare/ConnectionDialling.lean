import HiTuxShare.ConnectionManager
import HiTuxShare.EventMachine

namespace HiTuxShare
set_option autoImplicit true

def ServerConnection.isUp (c : ServerConnection) : Prop :=
  c.connectionState = .connecting ∨ c.connectionState = .connected

theorem ServerConnection.isUp_iff (c : ServerConnection) :
    c.isUp ↔ c.connectionState ≠ .disconnected := by
  rw [isUp]
  cases c.connectionState <;> decide

/-- What does not concern the line: where it goes and whether it is up. -/
structure SameLine (c c' : ServerConnection) : Prop where
  serverAddress : c'.serverAddress = c.serverAddress
  connectionState : c'.connectionState = c.connectionState

theorem SameLine.isUp (h : SameLine c c') : c'.isUp ↔ c.isUp := by
  rw [ServerConnection.isUp, h.connectionState, ServerConnection.isUp]

theorem SameLine.of_eq (h : c' = d) (hd : SameLine c d) : SameLine c c' := h ▸ hd

theorem sameLine_applyIdentity (w : ConnectionWorld) (change : IdentityChange) :
    SameLine w.toServerConnection (w.applyIdentity change).toServerConnection := by
  cases change with
  | installId installId => exact ⟨rfl, rfl⟩
  | userName name =>
    by_cases hn : name = ""
    · simp only [ConnectionWorld.applyIdentity, ConnectionWorld.setLocalUserName, if_pos hn]
      exact ⟨rfl, rfl⟩
    · exact .of_eq (w.setLocalUserName_toServerConnection hn) ⟨rfl, rfl⟩
  | userStatus status => exact .of_eq (w.setLocalUserStatus_toServerConnection status) ⟨rfl, rfl⟩
  | advertisedPort port => exact .of_eq (w.setAdvertisedPort_toServerConnection port) ⟨rfl, rfl⟩

theorem connectToServer_serverAddress (w : ConnectionWorld) (network : NetworkAnswer)
    (hn : hostName ≠ "") (port : UInt16) :
    (w.connectToServer network hostName port).1.serverAddress = hostName := by
  by_cases ha : network.accepts
  · rw [w.connectToServer_accepted ha hn]
  · rw [w.connectToServer_refused ha hn]

theorem connectToServer_isUp_iff (w : ConnectionWorld) (network : NetworkAnswer)
    (hn : hostName ≠ "") (port : UInt16) :
    (w.connectToServer network hostName port).1.isUp ↔ network.accepts := by
  by_cases ha : network.accepts
  · rw [w.connectToServer_accepted ha hn]
    exact iff_of_true (.inl rfl) ha
  · rw [w.connectToServer_refused ha hn]
    refine iff_of_false ?_ ha
    rw [ServerConnection.isUp_iff]
    exact fun h => h rfl

namespace ConnectionManagerWorld

/-- The connection that this call of `AddConnection` returns, if it does, is up. -/
def Dials (m : ConnectionManagerWorld) (network : NetworkAnswer) (serverAddress : String)
    (port : UInt16) : Prop :=
  ∀ c, (m.addConnection network serverAddress port).2 = some c → c.world.isUp

/-- Wherever we want to connect to, connecting dials. -/
def ConnectDials (m : ConnectionManagerWorld) : Prop :=
  ∀ network serverAddress port, network.accepts → serverAddress ≠ "" →
    m.Dials network serverAddress port

theorem dials_iff (m : ConnectionManagerWorld) (h : network.accepts) (hn : serverAddress ≠ "")
    (port : UInt16) : m.Dials network serverAddress port ↔
      ∀ c, m.findByAddress serverAddress = some c → c.world.isUp := by
  rw [Dials, addConnection]
  cases hf : m.findByAddress serverAddress with
  | some existing => exact Iff.rfl
  | none =>
    refine iff_of_true ?_ (fun c hc => by cases hc)
    intro c hc
    dsimp only at hc
    split at hc
    · cases hc
    · cases hc
      exact (connectToServer_isUp_iff _ network hn port).mpr h

/-- No two connections go to one server. -/
def Distinct (m : ConnectionManagerWorld) : Prop :=
  m.connections.Pairwise fun c c' =>
    ¬equalsIgnoreCase c.world.serverAddress c'.world.serverAddress

/-- Every connection that has an address is up. -/
def AllUp (m : ConnectionManagerWorld) : Prop :=
  ∀ c ∈ m.connections, c.world.serverAddress ≠ "" → c.world.isUp

theorem Distinct.findByAddress {m : ConnectionManagerWorld} (h : Distinct m)
    (hm : c ∈ m.connections) : m.findByAddress c.world.serverAddress = some c := by
  rw [Distinct] at h
  rw [ConnectionManagerWorld.findByAddress]
  generalize m.connections = cs at h hm
  induction cs with
  | nil => cases hm
  | cons d ds ih =>
    rw [List.pairwise_cons] at h
    rcases List.mem_cons.mp hm with rfl | hm
    · exact List.find?_cons_of_pos (by simp [equalsIgnoreCase])
    · rw [List.find?_cons_of_neg (by simpa using h.1 c hm)]
      exact ih h.2 hm

theorem Distinct.connectDials_iff {m : ConnectionManagerWorld} (h : Distinct m) :
    ConnectDials m ↔ AllUp m := by
  constructor
  · intro hd c hm hn
    have haccepts : NetworkAnswer.accepts {} := ⟨rfl, rfl⟩
    exact (m.dials_iff haccepts hn 0).mp (hd {} _ 0 haccepts hn) c (h.findByAddress hm)
  · intro hup network serverAddress port ha hn
    apply (m.dials_iff ha hn port).mpr
    intro c hc
    refine hup c (List.mem_of_find?_eq_some hc) fun he => hn ?_
    have hsame : equalsIgnoreCase c.world.serverAddress serverAddress := by
      simpa using List.find?_some hc
    rw [equalsIgnoreCase, he, show "".toList = [] from rfl, List.map_nil] at hsame
    exact String.toList_eq_nil_iff.mp (List.map_eq_nil_iff.mp hsame.symm)

/-- A connection added under a server's address is accepted by the network layer, and none that
has an address goes down while it is kept. -/
def StaysUp (m : ConnectionManagerWorld) (e : ConnectionManagerEvent) : Prop :=
  match e.call with
  | .addConnection serverAddress _ =>
    m.findByAddress serverAddress = none → m.connections.length < maximumConnections →
      serverAddress ≠ "" → (e.networks m.created).accepts
  | .disconnectAll => ∀ c ∈ m.connections, c.world.serverAddress = ""
  | .sessionDisconnected serial | .sessionDetached serial =>
    ∀ c ∈ m.connections, c.serial = serial → c.world.internalThreadRunning = true →
      c.world.serverAddress = ""
  | _ => True

theorem Distinct.onAll {m : ConnectionManagerWorld} (h : Distinct m)
    {call : ManagedConnection → ConnectionWorld}
    (hcall : ∀ c, (call c).serverAddress = c.world.serverAddress) : Distinct (m.onAll call) := by
  refine List.pairwise_map.mpr (h.imp fun {c c'} hne => ?_)
  dsimp only
  rwa [hcall c, hcall c']

theorem allUp_onAll_iff {m : ConnectionManagerWorld} {call : ManagedConnection → ConnectionWorld}
    (hcall : ∀ c, (call c).serverAddress = c.world.serverAddress) :
    AllUp (m.onAll call) ↔
      ∀ c ∈ m.connections, c.world.serverAddress ≠ "" → (call c).isUp := by
  simp only [AllUp, ConnectionManagerWorld.onAll, List.forall_mem_map, hcall]

theorem AllUp.onAll {m : ConnectionManagerWorld} (h : AllUp m)
    {call : ManagedConnection → ConnectionWorld}
    (hcall : ∀ c, SameLine c.world.toServerConnection (call c).toServerConnection) :
    AllUp (m.onAll call) := by
  refine (allUp_onAll_iff fun c => (hcall c).serverAddress).mpr fun c hm hn => ?_
  exact (hcall c).isUp.mpr (h c hm hn)

theorem newConnection_serverAddress (m : ConnectionManagerWorld) (network : NetworkAnswer)
    (serverAddress : String) (port : UInt16) :
    (m.newConnection network serverAddress port).world.serverAddress = serverAddress := by
  by_cases hn : serverAddress = ""
  · subst hn
    rw [newConnection, ConnectionWorld.connectToServer_empty]
    rfl
  · exact connectToServer_serverAddress _ network hn port

theorem Distinct.addConnection {m : ConnectionManagerWorld} (h : Distinct m)
    (network : NetworkAnswer) (serverAddress : String) (port : UInt16) :
    Distinct (m.addConnection network serverAddress port).1 := by
  rcases m.addConnection_cases network serverAddress port with he | ⟨hnone, he⟩
  · rwa [he]
  · rw [he]
    refine List.pairwise_append.mpr ⟨h, List.pairwise_singleton .., fun c hm c' hm' => ?_⟩
    obtain rfl := List.mem_singleton.mp hm'
    rw [newConnection_serverAddress]
    simpa using List.find?_eq_none.mp hnone c hm

/-- Only a new connection can go wrong. -/
theorem AllUp.addConnection_iff {m : ConnectionManagerWorld} (h : AllUp m) (network : NetworkAnswer)
    (serverAddress : String) (port : UInt16) :
    AllUp (m.addConnection network serverAddress port).1 ↔
      (m.findByAddress serverAddress = none → m.connections.length < maximumConnections →
        serverAddress ≠ "" → network.accepts) := by
  rw [ConnectionManagerWorld.addConnection]
  cases hf : m.findByAddress serverAddress with
  | some existing => exact iff_of_true h fun hnone => by cases hnone
  | none =>
    dsimp only
    split
    · next hfull => exact iff_of_true h fun _ hroom => absurd hroom (not_lt.mpr hfull)
    · next hroom =>
      have haddress := newConnection_serverAddress m network serverAddress port
      constructor
      · intro hup _ _ hn
        refine (connectToServer_isUp_iff _ network hn port).mp
          (hup (m.newConnection network serverAddress port) ?_ ?_)
        · exact List.mem_append_right _ (List.mem_singleton_self _)
        · rwa [haddress]
      · intro haccepts c hm hn
        rcases List.mem_append.mp hm with hm | hm
        · exact h c hm hn
        · obtain rfl := List.mem_singleton.mp hm
          rw [haddress] at hn
          exact (connectToServer_isUp_iff _ network hn port).mpr
            (haccepts rfl (not_le.mp hroom) hn)

theorem connectAll_serverAddress (networks : Nat → NetworkAnswer) (c : ManagedConnection) :
    (if c.world.connectionState = .disconnected ∧ c.world.serverAddress ≠ "" then
      (c.world.connectToServer (networks c.serial) c.world.serverAddress c.world.serverPort).1
    else c.world).serverAddress = c.world.serverAddress := by
  split
  · next hc => exact connectToServer_serverAddress _ _ hc.2 _
  · rfl

theorem AllUp.connectAll {m : ConnectionManagerWorld} (h : AllUp m)
    (networks : Nat → NetworkAnswer) : AllUp (m.connectAll networks) := by
  apply (allUp_onAll_iff (connectAll_serverAddress networks)).mpr
  intro c hm hn
  have hup := h c hm hn
  rw [if_neg fun hc => c.world.isUp_iff.mp hup hc.1]
  exact hup

theorem allUp_disconnectAll_iff (m : ConnectionManagerWorld) :
    AllUp m.disconnectAll ↔ ∀ c ∈ m.connections, c.world.serverAddress = "" := by
  have hdown (c : ManagedConnection) : ¬c.world.disconnectFromServer.isUp := by
    rw [ConnectionWorld.disconnectFromServer_toServerConnection, ServerConnection.isUp_iff]
    exact fun h => h rfl
  refine (allUp_onAll_iff fun c => ?_).trans (forall₂_congr fun c hm => ?_)
  · rw [ConnectionWorld.disconnectFromServer_toServerConnection]
    rfl
  · rw [imp_iff_not (hdown c), not_not]

theorem AllUp.deliver_iff {m : ConnectionManagerWorld} (h : AllUp m) (serial : Nat)
    {callback : ConnectionWorld → ConnectionWorld}
    (haddress : ∀ w, (callback w).serverAddress = w.serverAddress)
    (hdown : ∀ w, (callback w).connectionState = .disconnected) :
    AllUp (m.deliver serial callback) ↔ ∀ c ∈ m.connections, c.serial = serial →
      c.world.internalThreadRunning = true → c.world.serverAddress = "" := by
  refine (allUp_onAll_iff fun c => ?_).trans (forall₂_congr fun c hm => ?_)
  · split
    · exact haddress _
    · rfl
  · split
    · next hc =>
      rw [ServerConnection.isUp_iff, hdown]
      simp [hc]
    · next hc =>
      exact iff_of_true (h c hm) fun hs hr => absurd ⟨hs, hr⟩ hc

theorem Distinct.deliver {m : ConnectionManagerWorld} (h : Distinct m) (serial : Nat)
    {callback : ConnectionWorld → ConnectionWorld}
    (hcall : ∀ w, (callback w).serverAddress = w.serverAddress) :
    Distinct (m.deliver serial callback) := by
  apply h.onAll
  intro c
  split
  · exact hcall _
  · rfl

theorem AllUp.deliver {m : ConnectionManagerWorld} (h : AllUp m) (serial : Nat)
    {callback : ConnectionWorld → ConnectionWorld}
    (haddress : ∀ w, (callback w).serverAddress = w.serverAddress) (hup : ∀ w, (callback w).isUp) :
    AllUp (m.deliver serial callback) := by
  refine (allUp_onAll_iff fun c => ?_).mpr fun c hm hn => ?_
  · split
    · exact haddress _
    · rfl
  · split
    · exact hup _
    · exact h c hm hn

theorem sessionConnected_isUp (w : ConnectionWorld) (now : UInt64) (connectedTo : String) :
    (w.sessionConnected now connectedTo).isUp := by
  rw [w.sessionConnected_toServerConnection]
  exact .inr rfl

theorem sessionDetached_line (w : ConnectionWorld) :
    w.sessionDetached.serverAddress = w.serverAddress ∧
      w.sessionDetached.connectionState = .disconnected := by
  by_cases h : w.connectionState = .disconnected
  · rw [w.sessionDetached_of_down h]
    exact ⟨rfl, h⟩
  · rw [w.sessionDetached_of_up h]
    exact ⟨rfl, rfl⟩

theorem Distinct.handle {m : ConnectionManagerWorld} (h : Distinct m) (e : ConnectionManagerEvent) :
    Distinct (m.handle e) := by
  by_cases hp : e.call.isPublication = true
  · obtain ⟨call, he, hframe⟩ := m.handle_publication e hp
    rw [he]
    apply h.onAll
    intro c
    rw [hframe c]
  obtain ⟨call, networks, now⟩ := e
  cases call with
  | addConnection serverAddress port => exact h.addConnection ..
  | removeConnection serial => exact List.Pairwise.filter _ h
  | removeAll => exact List.Pairwise.nil
  | setInstallId | setLocalUserName | setLocalUserStatus | setAdvertisedPort =>
    exact h.onAll fun c => (sameLine_applyIdentity ..).serverAddress
  | connectAll => exact h.onAll (connectAll_serverAddress networks)
  | disconnectAll =>
    apply h.onAll
    intro c
    rw [c.world.disconnectFromServer_toServerConnection]
    rfl
  | sessionConnected serial connectedTo =>
    apply h.deliver serial
    intro w
    rw [w.sessionConnected_toServerConnection]
  | sessionDisconnected serial =>
    apply h.deliver serial
    intro w
    rw [w.sessionDisconnected_toServerConnection]
    rfl
  | sessionDetached serial => exact h.deliver serial fun w => (sessionDetached_line w).1
  | _ => exact absurd rfl hp

theorem AllUp.handle_iff {m : ConnectionManagerWorld} (h : AllUp m) (e : ConnectionManagerEvent) :
    AllUp (m.handle e) ↔ StaysUp m e := by
  by_cases hp : e.call.isPublication = true
  · obtain ⟨call, he, hframe⟩ := m.handle_publication e hp
    have hstays : StaysUp m e := by
      obtain ⟨call, networks, now⟩ := e
      cases call with
      | addConnection | disconnectAll | sessionDisconnected | sessionDetached => cases hp
      | _ => trivial
    rw [he]
    exact iff_of_true (h.onAll fun c => .of_eq (hframe c) ⟨rfl, rfl⟩) hstays
  obtain ⟨call, networks, now⟩ := e
  cases call with
  | addConnection serverAddress port => exact h.addConnection_iff ..
  | removeConnection serial =>
    exact iff_of_true (fun c hm => h c (List.mem_of_mem_filter hm)) trivial
  | removeAll => exact iff_of_true (fun c hm => by cases hm) trivial
  | setInstallId | setLocalUserName | setLocalUserStatus | setAdvertisedPort =>
    exact iff_of_true (h.onAll fun c => sameLine_applyIdentity ..) trivial
  | connectAll => exact iff_of_true (h.connectAll networks) trivial
  | disconnectAll => exact allUp_disconnectAll_iff m
  | sessionConnected serial connectedTo =>
    refine iff_of_true (h.deliver serial (fun w => ?_) fun w => sessionConnected_isUp ..) trivial
    rw [w.sessionConnected_toServerConnection]
  | sessionDisconnected serial =>
    refine h.deliver_iff serial (fun w => ?_) fun w => ?_
    · rw [w.sessionDisconnected_toServerConnection]
      rfl
    · rw [w.sessionDisconnected_toServerConnection]
  | sessionDetached serial =>
    exact h.deliver_iff serial (fun w => (sessionDetached_line w).1) fun w =>
      (sessionDetached_line w).2
  | _ => exact absurd rfl hp

end ConnectionManagerWorld

/-- A connection is lost, and connecting to the same server again only finds it. -/
theorem lost_connection_is_not_dialled :
    ¬ ∀ es : List ConnectionManagerEvent, ConnectionManagerWorld.machine.EveryState
      ConnectionManagerWorld.ConnectDials .new es := by
  intro h
  have hdials := (h [⟨.addConnection "server" 2960, fun _ => {}, 0⟩,
    ⟨.sessionConnected 0 "server:2960", fun _ => {}, 0⟩,
    ⟨.sessionDisconnected 0, fun _ => {}, 0⟩]).last
  have hup := hdials {} "server" 2960 ⟨rfl, rfl⟩ (by decide) _ rfl
  exact (ServerConnection.isUp_iff _).mp hup rfl

/-- In whatever state, connecting dials exactly if it does not find a connection that is down; and
it always dials in the course of a run exactly if no connection of the run ever goes down. -/
theorem connect_dials (es : List ConnectionManagerEvent) :
    (∀ (m : ConnectionManagerWorld) (network : NetworkAnswer) (serverAddress : String)
        (port : UInt16), network.accepts → serverAddress ≠ "" →
        (m.Dials network serverAddress port ↔
          ∀ c, m.findByAddress serverAddress = some c → c.world.isUp)) ∧
      (ConnectionManagerWorld.machine.EveryState ConnectionManagerWorld.ConnectDials .new es ↔
        ConnectionManagerWorld.machine.EveryStep ConnectionManagerWorld.StaysUp .new es) := by
  refine ⟨fun m network serverAddress port ha hn => m.dials_iff ha hn port, ?_⟩
  have hnew : ConnectionManagerWorld.Distinct .new := List.Pairwise.nil
  refine EventMachine.everyState_iff_everyStep (fun _ e h => h.handle e)
    (fun m e hm hd => ?_) hnew (hnew.connectDials_iff.mpr fun c hc => by cases hc)
  exact (hm.handle e).connectDials_iff.trans ((hm.connectDials_iff.mp hd).handle_iff e)

end HiTuxShare
