import HiTuxShare.ConnectionIdentity
import HiTuxShare.SharingFolder

namespace HiTuxShare
set_option autoImplicit true

def ConnectionManagerCall.advertisedPort : ConnectionManagerCall → Option Int32
  | .setAdvertisedPort port => some port
  | _ => none

namespace ConnectionManagerWorld

/-- No connection advertises another port than the given one. -/
def AdvertisesOnly (m : ConnectionManagerWorld) (port : Int32) : Prop :=
  ∀ c ∈ m.connections, c.world.advertisedPort = 0 ∨ c.world.advertisedPort = port

theorem AdvertisesOnly.onAll {m : ConnectionManagerWorld} (h : AdvertisesOnly m port)
    {call : ManagedConnection → ConnectionWorld}
    (hcall : ∀ c, (call c).advertisedPort = c.world.advertisedPort) :
    AdvertisesOnly (m.onAll call) port := by
  intro c hm
  obtain ⟨old, hold, rfl⟩ := List.mem_map.mp hm
  rw [hcall old]
  exact h old hold

theorem AdvertisesOnly.deliver {m : ConnectionManagerWorld} (h : AdvertisesOnly m port)
    (serial : Nat) {callback : ConnectionWorld → ConnectionWorld}
    (hcall : ∀ w, (callback w).advertisedPort = w.advertisedPort) :
    AdvertisesOnly (m.deliver serial callback) port := by
  apply h.onAll
  intro c
  split
  · exact hcall _
  · rfl

theorem AdvertisesOnly.addConnection {m : ConnectionManagerWorld} (h : AdvertisesOnly m port)
    (network : NetworkAnswer) (serverAddress : String) (serverPort : UInt16) :
    AdvertisesOnly (m.addConnection network serverAddress serverPort).1 port := by
  rcases m.addConnection_cases network serverAddress serverPort with he | ⟨-, he⟩
  · rwa [he]
  · rw [he]
    intro c hm
    rcases List.mem_append.mp hm with hm | hm
    · exact h c hm
    · obtain rfl := List.mem_singleton.mp hm
      left
      exact congrArg LocalIdentity.advertisedPort
        (ConnectionWorld.connectToServer_identity {} network serverAddress serverPort)

theorem advertisedPort_announce (m : ConnectionManagerWorld) (change : IdentityChange) :
    ∀ c ∈ (m.announce change).connections, ∃ old ∈ m.connections,
      c.world.advertisedPort = change.newAdvertisedPort.getD old.world.advertisedPort := by
  intro c hm
  obtain ⟨old, hold, rfl⟩ := List.mem_map.mp hm
  exact ⟨old, hold, congrArg LocalIdentity.advertisedPort
    (old.world.applyIdentity_identity change)⟩

theorem AdvertisesOnly.announce {m : ConnectionManagerWorld} (h : AdvertisesOnly m port)
    {change : IdentityChange} (hc : change.newAdvertisedPort = none) :
    AdvertisesOnly (m.announce change) port := by
  intro c hm
  obtain ⟨old, hold, he⟩ := m.advertisedPort_announce change c hm
  rw [he, hc]
  exact h old hold

theorem setAdvertisedPort_advertises (m : ConnectionManagerWorld) (port : Int32) :
    ∀ c ∈ (m.setAdvertisedPort port).connections, c.world.advertisedPort = port := by
  intro c hm
  obtain ⟨old, -, he⟩ := m.advertisedPort_announce (.advertisedPort port) c hm
  exact he

theorem setAdvertisedPort_advertisesOnly_iff (m : ConnectionManagerWorld) (port port' : Int32) :
    AdvertisesOnly (m.setAdvertisedPort port) port' ↔
      (m.connections ≠ [] → port = 0 ∨ port = port') := by
  have hall := m.setAdvertisedPort_advertises port
  constructor
  · intro h hne
    obtain ⟨old, hold⟩ := List.exists_mem_of_ne_nil _ hne
    have hm := List.mem_map_of_mem hold
      (f := fun c => { c with world := c.world.applyIdentity (.advertisedPort port) })
    rw [← hall _ hm]
    exact h _ hm
  · intro h c hm
    rw [hall c hm]
    obtain ⟨old, hold, -⟩ := List.mem_map.mp hm
    exact h (List.ne_nil_of_mem hold)

/-- Only the call that is meant for it changes what is advertised, and a new connection advertises
nothing. -/
theorem AdvertisesOnly.handle {m : ConnectionManagerWorld} (h : AdvertisesOnly m port)
    {e : ConnectionManagerEvent} (he : e.call.advertisedPort = none) :
    AdvertisesOnly (m.handle e) port := by
  by_cases hp : e.call.isPublication = true
  · obtain ⟨call, hcall, hframe⟩ := m.handle_publication e hp
    rw [hcall]
    apply h.onAll
    intro c
    rw [hframe c]
  obtain ⟨call, networks, now⟩ := e
  cases call with
  | addConnection serverAddress serverPort => exact h.addConnection _ _ _
  | removeConnection serial => exact fun c hm => h c (List.mem_of_mem_filter hm)
  | removeAll => exact fun c hm => by cases hm
  | setInstallId | setLocalUserName | setLocalUserStatus => exact h.announce rfl
  | setAdvertisedPort => cases he
  | connectAll =>
    apply h.onAll
    intro c
    split
    · exact congrArg LocalIdentity.advertisedPort (ConnectionWorld.connectToServer_identity ..)
    · rfl
  | disconnectAll =>
    apply h.onAll
    intro c
    rw [c.world.disconnectFromServer_toServerConnection]
    rfl
  | sessionConnected serial connectedTo =>
    apply h.deliver serial
    intro w
    rw [w.sessionConnected_toServerConnection]
  | sessionDisconnected serial =>
    apply h.deliver serial
    intro w
    rw [w.sessionDisconnected_toServerConnection]
    rfl
  | sessionDetached serial =>
    exact h.deliver serial fun w =>
      congrArg LocalIdentity.advertisedPort w.sessionDetached_identity
  | _ => exact absurd rfl hp

end ConnectionManagerWorld

namespace SharingWorld

/-- A connection that advertises a port advertises the one the upload server listens on. -/
def AdvertisesHonestly (w : SharingWorld) : Prop :=
  ∀ c ∈ w.connections.connections, c.world.advertisedPort ≠ 0 →
    w.IsListening ∧ c.world.advertisedPort = w.uploadServer.listenPort.toUInt32.toInt32

/-- A start that gets no port finds no connection that advertises one. The second case is a call
the window never makes by itself. -/
def LosesNoPort (w : SharingWorld) : SharingEvent → Prop
  | .startSharing answer _ _ =>
    w.fileSharingEnabled = true → w.shareDirectory ≠ "" → ¬answer.Binds →
      ∀ c ∈ w.connections.connections, c.world.advertisedPort = 0
  | .connection e =>
    ∀ port, e.call = .setAdvertisedPort port → w.connections.connections ≠ [] →
      port = 0 ∨ port = w.uploadServer.listenPort.toUInt32.toInt32
  | _ => True

theorem toInt32_ne_zero {port : UInt16} (h : port.toUInt32.toInt32 ≠ 0) : port ≠ 0 := by
  rintro rfl
  exact h rfl

theorem advertisesHonestly_iff (w : SharingWorld) : AdvertisesHonestly w ↔
    w.connections.AdvertisesOnly w.uploadServer.listenPort.toUInt32.toInt32 := by
  constructor
  · intro h c hm
    by_cases hz : c.world.advertisedPort = 0
    · exact .inl hz
    · exact .inr (h c hm hz).2
  · intro h c hm hz
    have he := (h c hm).resolve_left hz
    exact ⟨toInt32_ne_zero (he ▸ hz), he⟩

theorem AdvertisesHonestly.of_eq {w w' : SharingWorld} (h : AdvertisesHonestly w)
    (hserver : w'.uploadServer.listenPort = w.uploadServer.listenPort)
    (hconnections : w'.connections = w.connections) : AdvertisesHonestly w' := by
  rw [AdvertisesHonestly, IsListening, hserver, hconnections]
  exact h

theorem listen_port (w : SharingWorld) (answer : ListenAnswer) :
    (w.listen answer).uploadServer.listenPort =
      (w.uploadServer.startListening answer defaultTransferPort transferPortRange).2 := by
  rw [← ListeningServer.startListening_listenPort]
  simp only [listen]
  split <;> rfl

theorem listen_connections (w : SharingWorld) (answer : ListenAnswer) :
    (w.listen answer).connections =
      if (w.listen answer).uploadServer.listenPort = 0 then w.connections
      else w.connections.setAdvertisedPort
        (w.listen answer).uploadServer.listenPort.toUInt32.toInt32 := by
  rw [listen_port]
  simp only [listen]
  split <;> rfl

theorem listen_advertises_iff (w : SharingWorld) (answer : ListenAnswer) :
    AdvertisesHonestly (w.listen answer) ↔
      (¬answer.Binds → ∀ c ∈ w.connections.connections, c.world.advertisedPort = 0) := by
  rw [advertisesHonestly_iff, listen_connections, ← listen_listenPort w answer, IsListening,
    not_not]
  split
  · next hzero =>
    -- the connections keep the port of before
    rw [hzero]
    exact ⟨fun h _ c hm => (h c hm).elim id id, fun h c hm => .inl (h rfl c hm)⟩
  · next hbound =>
    refine iff_of_true (fun c hm => ?_) fun hzero => absurd hzero hbound
    exact .inr (w.connections.setAdvertisedPort_advertises _ c hm)

theorem AdvertisesHonestly.startSharing_iff {w : SharingWorld} (h : AdvertisesHonestly w)
    (answer : ListenAnswer) (fs : FileSystem) (created : Bool) :
    AdvertisesHonestly (w.startSharing answer fs created) ↔
      LosesNoPort w (.startSharing answer fs created) := by
  simp only [startSharing, LosesNoPort]
  by_cases he : w.fileSharingEnabled = false
  · rw [if_pos he]
    apply iff_of_true (h.of_eq rfl rfl)
    intro htrue
    rw [he] at htrue
    cases htrue
  · rw [if_neg he]
    by_cases hd : w.shareDirectory = ""
    · rw [if_pos hd]
      exact iff_of_true (h.of_eq rfl rfl) fun _ hne => absurd hd hne
    · rw [if_neg hd]
      refine (listen_advertises_iff { w with givenDirectory := some w.shareDirectory }
        answer).trans ?_
      exact ⟨fun hl _ _ => hl, fun hl => hl (Bool.eq_true_of_not_eq_false he) hd⟩

theorem stopSharing_advertises (w : SharingWorld) (fs : FileSystem) :
    AdvertisesHonestly (w.stopSharing fs) := by
  rw [advertisesHonestly_iff]
  have hzero : (w.connections.setAdvertisedPort 0).AdvertisesOnly 0 := fun c hm =>
    .inl (w.connections.setAdvertisedPort_advertises 0 c hm)
  have hunpublished := hzero.handle (e := { call := .unpublishAllSharedFiles }) rfl
  exact hunpublished.handle (e := { call := .publishSharedFileCountOnAll 0 }) rfl

theorem drainFiles_advertises {w : SharingWorld}
    (h : w.connections.AdvertisesOnly port) : w.drainFiles.connections.AdvertisesOnly port := by
  simp only [drainFiles]
  split
  · exact h
  · exact h.handle (e := { call := .publishSharedFilesOnAll _ }) rfl

theorem drainScanEnd_advertises {w : SharingWorld}
    (h : w.connections.AdvertisesOnly port) : w.drainScanEnd.connections.AdvertisesOnly port := by
  simp only [drainScanEnd]
  split
  · exact h.handle (e := { call := .publishSharedFileCountOnAll _ }) rfl
  · exact h

theorem AdvertisesHonestly.idleTick {w : SharingWorld} (h : AdvertisesHonestly w)
    (between : List FileSystem) : AdvertisesHonestly (w.drainShareScanner between) := by
  have hport : (w.drainShareScanner between).uploadServer.listenPort =
      w.uploadServer.listenPort := by
    rw [(drainShareScanner_frame w between).1, drainFiles_uploadServer]
    split <;> rfl
  rw [advertisesHonestly_iff] at h ⊢
  rw [hport, drainShareScanner, foldl_threadStep]
  exact drainScanEnd_advertises (drainFiles_advertises h)

theorem AdvertisesHonestly.connection_iff {w : SharingWorld} (h : AdvertisesHonestly w)
    (e : ConnectionManagerEvent) :
    AdvertisesHonestly (w.handle (.connection e)) ↔ LosesNoPort w (.connection e) := by
  rw [advertisesHonestly_iff] at h ⊢
  obtain ⟨call, networks, now⟩ := e
  cases call with
  | setAdvertisedPort port =>
    refine (w.connections.setAdvertisedPort_advertisesOnly_iff port _).trans ?_
    constructor
    · intro hk port' he
      cases he
      exact hk
    · exact fun hk => hk port rfl
  | _ => exact iff_of_true (h.handle rfl) fun port he => by cases he

theorem AdvertisesHonestly.handle_iff {w : SharingWorld} (h : AdvertisesHonestly w)
    (e : SharingEvent) : AdvertisesHonestly (w.handle e) ↔ LosesNoPort w e := by
  cases e with
  | startSharing answer fs created => exact h.startSharing_iff answer fs created
  | stopSharing fs => exact iff_of_true (w.stopSharing_advertises fs) trivial
  | idleTick between => exact iff_of_true (h.idleTick between) trivial
  | connection e => exact h.connection_iff e
  | _ => exact iff_of_true (h.of_eq rfl rfl) trivial

end SharingWorld

/-- Sharing is started, and started again when a second server has assigned us an ID: this time no
port can be bound. -/
def portTakenRun : List SharingEvent :=
  [.setFileSharingEnabled true, .setShareDirectory "/share",
    .connection { call := .addConnection "a.example" 2960 },
    .startSharing {} oneFileFolder true,
    .startSharing { putAcceptFactory := fun _ => none } oneFileFolder true]

theorem lost_port_stays_advertised :
    ¬ ∀ (disk : Disk) (es : List SharingEvent),
      SharingWorld.machine.EveryState SharingWorld.AdvertisesHonestly (.opened disk) es := by
  intro h
  have hrun := (h (.ofFiles []) portTakenRun).last
  have hport : ∀ c ∈
      (SharingWorld.machine.run (.opened (.ofFiles [])) portTakenRun).connections.connections,
      c.world.advertisedPort ≠ 0 := by decide
  exact (hrun _ List.mem_cons_self (hport _ List.mem_cons_self)).1 rfl

/-- In a run, every advertised port is listened on exactly if no start that gets no port finds a
connection that advertises one. -/
theorem advertised_port_is_listened_on (disk : Disk) (es : List SharingEvent) :
    SharingWorld.machine.EveryState SharingWorld.AdvertisesHonestly (.opened disk) es ↔
      SharingWorld.machine.EveryStep SharingWorld.LosesNoPort (.opened disk) es := by
  refine EventMachine.everyState_iff_everyStep (J := fun _ => True) (fun _ _ => id)
    (fun _ e _ h => h.handle_iff e) trivial ?_
  exact fun c hm => by cases hm

end HiTuxShare
