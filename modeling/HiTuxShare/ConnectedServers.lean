import HiTuxShare.ChatWindowEvents
import HiTuxShare.ChatWindowFrames
import HiTuxShare.ConnectionDialling
import HiTuxShare.KeyedList

namespace HiTuxShare
set_option autoImplicit true

open KeyedList

/-- The servers of a manager: named, no two the same, and not too many. -/
structure ServerList (addresses : List String) : Prop extends
    Fits foldCase maximumConnections addresses where
  named : "" ∉ addresses

theorem ServerList.nil : ServerList [] := ⟨Fits.nil, List.not_mem_nil⟩

theorem ServerList.insertNew (h : ServerList addresses) (hname : address ≠ "") :
    ServerList (insertNew foldCase maximumConnections addresses address) := by
  refine ⟨h.toFits.insertNew address, ?_⟩
  rw [KeyedList.insertNew]
  split
  · exact h.named
  · split
    · exact h.named
    · rw [List.mem_append, List.mem_singleton]
      rintro (hm | he)
      · exact h.named hm
      · exact hname he.symm

theorem ServerList.foldl (h : ServerList addresses) {extras : List String} (hnamed : "" ∉ extras) :
    ServerList (extras.foldl (KeyedList.insertNew foldCase maximumConnections) addresses) := by
  apply List.foldlRecOn (motive := ServerList)
  · exact h
  · exact fun addresses h address hm => h.insertNew (ne_of_mem_of_not_mem hm hnamed)

theorem empty_not_mem_getExtraServers (settings : ApplicationSettings) :
    "" ∉ settings.getExtraServers := fun hm => of_decide_eq_true (List.mem_filter.mp hm).2 rfl

namespace ConnectionManagerWorld

def addresses (m : ConnectionManagerWorld) : List String :=
  m.connections.map (·.world.serverAddress)

theorem mem_foldCase_addresses {m : ConnectionManagerWorld} :
    foldCase serverAddress ∈ m.addresses.map foldCase ↔
      ∃ c ∈ m.connections, equalsIgnoreCase c.world.serverAddress serverAddress := by
  rw [addresses, List.map_map]
  exact List.mem_map

theorem addresses_addConnection (m : ConnectionManagerWorld) (network : NetworkAnswer)
    (serverAddress : String) (port : UInt16) :
    (m.addConnection network serverAddress port).1.addresses =
      insertNew foldCase maximumConnections m.addresses serverAddress := by
  rw [addConnection, KeyedList.insertNew]
  cases hf : m.findByAddress serverAddress with
  | some existing =>
    have hm : foldCase serverAddress ∈ m.addresses.map foldCase := by
      apply mem_foldCase_addresses.mpr
      have hsame := List.find?_some hf
      exact ⟨existing, List.mem_of_find?_eq_some hf, of_decide_eq_true hsame⟩
    rw [if_pos hm]
  | none =>
    have hnew : foldCase serverAddress ∉ m.addresses.map foldCase := by
      rw [mem_foldCase_addresses]
      rintro ⟨c, hm, hsame⟩
      exact List.find?_eq_none.mp hf c hm (decide_eq_true hsame)
    have hlength : m.addresses.length = m.connections.length := List.length_map ..
    rw [if_neg hnew, hlength]
    dsimp only
    split
    · rfl
    · rw [addresses, List.map_append, List.map_singleton, newConnection_serverAddress]
      rfl

theorem addresses_onAll (m : ConnectionManagerWorld) {call : ManagedConnection → ConnectionWorld}
    (h : ∀ c, (call c).serverAddress = c.world.serverAddress) :
    (m.onAll call).addresses = m.addresses := by
  rw [addresses, onAll, List.map_map]
  exact List.map_congr_left fun c _ => h c

theorem addresses_announce (m : ConnectionManagerWorld) (change : IdentityChange) :
    (m.announce change).addresses = m.addresses :=
  m.addresses_onAll fun c => (sameLine_applyIdentity c.world change).serverAddress

theorem addresses_handle_publication (m : ConnectionManagerWorld) (e : ConnectionManagerEvent)
    (h : e.call.isPublication = true) : (m.handle e).addresses = m.addresses := by
  obtain ⟨call, he, hframe⟩ := m.handle_publication e h
  rw [he]
  apply m.addresses_onAll
  intro c
  rw [hframe c]

theorem addresses_setFirewalled (m : ConnectionManagerWorld) (firewalled : Bool) :
    (m.setFirewalled firewalled).addresses = m.addresses :=
  m.addresses_handle_publication { call := .setFirewalled firewalled } rfl

theorem addresses_disconnectAll (m : ConnectionManagerWorld) :
    m.disconnectAll.addresses = m.addresses := by
  apply m.addresses_onAll
  intro c
  rw [ConnectionWorld.disconnectFromServer_toServerConnection]
  rfl

theorem addresses_onConnection (m : ConnectionManagerWorld) (index : Nat)
    {call : ConnectionWorld → ConnectionWorld}
    (h : ∀ world, (call world).serverAddress = world.serverAddress) :
    (m.onConnection index call).addresses = m.addresses := by
  apply List.ext_getElem?
  intro place
  rw [addresses, onConnection, List.getElem?_map, List.getElem?_modify, addresses,
    List.getElem?_map]
  cases m.connections[place]? with
  | none => rfl
  | some c =>
    by_cases hp : index = place
    · simp only [hp, if_true]
      exact congrArg some (h c.world)
    · simp only [hp, if_false]
      rfl

end ConnectionManagerWorld

namespace ConnectionWorld

theorem stopQuery_serverAddress (w : ConnectionWorld) :
    w.stopQuery.serverAddress = w.serverAddress := by
  simp only [stopQuery]
  split
  · rfl
  · split <;> rfl

theorem startQuery_serverAddress (w : ConnectionWorld)
    (sessionExpression fileExpression : String) :
    (w.startQuery sessionExpression fileExpression).serverAddress = w.serverAddress := by
  simp only [startQuery]
  split
  · rfl
  · exact w.stopQuery_serverAddress

theorem sendChatText_serverAddress (w : ConnectionWorld) (targetSessionId text : String) :
    (w.sendChatText targetSessionId text).serverAddress = w.serverAddress := by
  simp only [sendChatText]
  split <;> rfl

theorem sendPing_serverAddress (w : ConnectionWorld) (now : UInt64) (targetSessionId : String) :
    (w.sendPing now targetSessionId).serverAddress = w.serverAddress := by
  simp only [sendPing]
  split <;> rfl

theorem performIdleTasks_serverAddress (w : ConnectionWorld) (idle : Bool) :
    (w.performIdleTasks idle).serverAddress = w.serverAddress := by
  simp only [performIdleTasks]
  split
  · rfl
  · split <;> rfl

variable [MuscleLibrary]

theorem messageReceived_serverAddress (w : ConnectionWorld) (now : UInt64)
    (message : ServerMessage) :
    (w.messageReceived now message).serverAddress = w.serverAddress := by
  rw [messageReceived]
  split
  · apply handleDataItems_of_effect (I := fun w' => w'.serverAddress = w.serverAddress) _ rfl
    intro nodePath _ w₁ w₂ heffect h
    rw [heffect.toServerConnection]
    exact h
  · rw [handleParameters]
    split <;> rfl
  · rw [handleResultPong]
    split
    · split <;> rfl
    · rfl
  · rw [handleChatText]
    split
    · split <;> rfl
    · rfl
  · rw [handlePing]
    split <;> rfl
  · rw [handlePong]
    split <;> rfl
  · rfl

theorem handle_report_serverAddress (w : ConnectionWorld) (report : NetworkReport)
    (now : UInt64) : (w.handle ⟨report.call, {}, now⟩).serverAddress = w.serverAddress := by
  have hdeliver {callback : ConnectionWorld → ConnectionWorld}
      (h : (callback w).serverAddress = w.serverAddress) :
      (w.deliver callback).serverAddress = w.serverAddress := by
    rw [deliver]
    split
    · exact h
    · rfl
  cases report with
  | sessionConnected connectedTo =>
    apply hdeliver
    rw [sessionConnected_toServerConnection]
  | sessionDisconnected =>
    apply hdeliver
    rw [sessionDisconnected_toServerConnection]
    rfl
  | sessionDetached => exact hdeliver (ConnectionManagerWorld.sessionDetached_line w).1
  | messageReceived message => exact hdeliver (w.messageReceived_serverAddress now message)

end ConnectionWorld

namespace ChatWindowWorld

section
variable [QtWidgets]

/-- The servers that the window has a connection to, be it up or down. -/
def servers (w : ChatWindowWorld) : List String := w.connections.addresses

theorem setSettings_servers (w : ChatWindowWorld) (settings : ApplicationSettings) :
    ({ w with settings } : ChatWindowWorld).servers = w.servers := rfl

theorem setConnections_servers (w : ChatWindowWorld) (connections : ConnectionManagerWorld) :
    ({ w with connections } : ChatWindowWorld).servers = connections.addresses := rfl

theorem save_servers (w : ChatWindowWorld) : w.save.servers = w.servers := rfl

theorem saveExtraServers_servers (w : ChatWindowWorld) :
    w.saveExtraServers.servers = w.servers := rfl

theorem serverListReceived_connections (w : ChatWindowWorld)
    (serversToAdd serversToRemove : List String) :
    (w.serverListReceived serversToAdd serversToRemove).connections = w.connections := by
  simp only [serverListReceived]
  split
  · rfl
  · rw [appendLocalLine_connections, populateServerList_connections]
    rfl

theorem statusEdited_servers (w : ChatWindowWorld) (text : String) :
    (w.statusEdited text).servers = w.servers := by
  simp only [statusEdited]
  split
  · rfl
  · exact w.connections.addresses_announce _

end

section
variable [QtWidgets] [MuscleText]

theorem sendChatToEveryone_servers (w : ChatWindowWorld) (a : WindowAnswers) (text : String)
    (isAction : Bool) : (w.sendChatToEveryone a text isAction).servers = w.servers := by
  simp only [sendChatToEveryone]
  split
  · rfl
  · rw [servers, echo_connections]
    apply w.connections.addresses_onAll
    intro c
    split
    · exact c.world.sendChatText_serverAddress "*" text
    · rfl

variable [QtLibrary] [MuscleLibrary]

theorem sendPrivateMessage_servers (w : ChatWindowWorld) (a : WindowAnswers)
    (target text : String) : (w.sendPrivateMessage a target text).servers = w.servers := by
  apply sendPrivateMessage_induct (P := fun w' => w'.servers = w.servers)
  · exact fun _ => rfl
  · rfl
  · intro w' user h
    rw [servers, sendPrivateMessageTo, echo_connections, ← h]
    exact w'.connections.addresses_onConnection _ fun world =>
      world.sendChatText_serverAddress user.sessionId text

omit [MuscleText] [QtLibrary] in
theorem pingUser_servers (w : ChatWindowWorld) (a : WindowAnswers) (target : String) :
    (w.pingUser a target).servers = w.servers := by
  apply pingUser_induct (P := fun w' => w'.servers = w.servers)
  · exact fun _ => rfl
  · rfl
  · intro w' user h
    rw [← h]
    exact w'.connections.addresses_onConnection _ fun world =>
      world.sendPing_serverAddress a.now user.sessionId

variable [CaseInsensitivePatterns]

theorem hear_servers (w : ChatWindowWorld) (a : WindowAnswers) (m : ConnectionManagerWorld) :
    (w.hear a m).servers = m.addresses := by
  rw [servers, hear_connections]

theorem connectToConfiguredServer_servers {w : ChatWindowWorld} (a : WindowAnswers)
    (hserver : w.getSelectedServerAddress ≠ "") (huser : w.getUserName ≠ "") :
    (w.connectToConfiguredServer a).servers =
      insertNew foldCase maximumConnections w.servers w.getSelectedServerAddress := by
  simp only [connectToConfiguredServer, if_neg hserver, if_neg huser]
  rw [hear_servers, ConnectionManagerWorld.addresses_addConnection]
  exact congrArg (insertNew foldCase maximumConnections · _) (w.connections.addresses_announce _)

theorem connectToConfiguredServer_serverList {w : ChatWindowWorld} (a : WindowAnswers)
    (h : ServerList w.servers) : ServerList (w.connectToConfiguredServer a).servers := by
  by_cases hserver : w.getSelectedServerAddress = ""
  · simp only [connectToConfiguredServer, if_pos hserver]
    exact h
  · by_cases huser : w.getUserName = ""
    · simp only [connectToConfiguredServer, if_neg hserver, if_pos huser]
      exact h
    · rw [connectToConfiguredServer_servers a hserver huser]
      exact h.insertNew hserver

theorem startQuery_servers (w : ChatWindowWorld) (a : WindowAnswers) :
    (w.startQuery a).servers = w.servers := by
  rw [startQuery]
  split
  · rfl
  · rw [hear_servers]
    apply w.connections.addresses_onAll
    intro c
    split
    · exact c.world.startQuery_serverAddress ..
    · rfl

theorem stopQuery_servers (w : ChatWindowWorld) (a : WindowAnswers) :
    (w.hear a w.connections.stopQueryOnAll).servers = w.servers := by
  rw [hear_servers]
  exact w.connections.addresses_onAll fun c => c.world.stopQuery_serverAddress

theorem disconnectAll_servers (w : ChatWindowWorld) (a : WindowAnswers) :
    (w.hear a w.connections.disconnectAll).servers = w.servers := by
  rw [hear_servers, ConnectionManagerWorld.addresses_disconnectAll]
  rfl

theorem handleCommand_serverList {w : ChatWindowWorld} (a : WindowAnswers) (command : ChatCommand)
    (h : ServerList w.servers) : ServerList (w.handleCommand a command).servers := by
  rw [handleCommand]
  split
  · rwa [sendChatToEveryone_servers]
  · rwa [sendChatToEveryone_servers]
  · by_cases hname : command.argument = ""
    · rwa [handleNickCommand, if_pos hname]
    · rw [servers, handleNickCommand_connections w hname,
        ConnectionManagerWorld.setLocalUserName, ConnectionManagerWorld.addresses_announce]
      exact h
  · rw [servers, setUserStatus_connections, ConnectionManagerWorld.setLocalUserStatus,
      ConnectionManagerWorld.addresses_announce]
    exact h
  · rw [servers, setUserStatus_connections, ConnectionManagerWorld.setLocalUserStatus,
      ConnectionManagerWorld.addresses_announce]
    exact h
  · split
    · exact h
    · rwa [sendPrivateMessage_servers]
  · split
    · exact h
    · rwa [pingUser_servers]
  · split
    · exact connectToConfiguredServer_serverList (w := w.setServerAddressBox command.argument) a h
    · exact connectToConfiguredServer_serverList a h
  · rwa [disconnectAll_servers]
  · split
    · rw [startQuery_servers]
      exact h
    · rwa [startQuery_servers]
  · rwa [stopQuery_servers]
  · rwa [servers, handleFilterCommand_connections]
  · rwa [servers, handleFilterCommand_connections]
  · rwa [servers, handleFilterCommand_connections]
  · rwa [servers, handleAliasCommand_connections]
  · rwa [servers, handleUnaliasCommand_connections]
  · exact h
  · exact h
  · exact h
  · exact h
  · exact h
  · exact h

variable [Environment]

omit [QtLibrary] [MuscleLibrary] [CaseInsensitivePatterns] in
theorem applySettings_servers (w : ChatWindowWorld) : w.applySettings.servers = w.servers := by
  change (((w.connections.setLocalUserName _).setLocalUserStatus _).setFirewalled _).addresses = _
  rw [ConnectionManagerWorld.addresses_setFirewalled, ConnectionManagerWorld.setLocalUserStatus,
    ConnectionManagerWorld.addresses_announce, ConnectionManagerWorld.setLocalUserName,
    ConnectionManagerWorld.addresses_announce]
  rfl

theorem connectAdditionalServer_serverList {w : ChatWindowWorld} (a : WindowAnswers)
    (text : String) (h : ServerList w.servers) :
    ServerList (w.connectAdditionalServer a text).servers := by
  simp only [connectAdditionalServer]
  split
  · exact h
  · next hname =>
    split
    · exact h
    · split
      · exact h
      · rw [saveExtraServers_servers, applySettings_servers, hear_servers,
          ConnectionManagerWorld.addresses_addConnection]
        exact h.insertNew hname

omit [Environment] in
theorem restoreExtraServers_servers (w : ChatWindowWorld) (a : WindowAnswers) :
    (w.restoreExtraServers a).servers =
      w.settings.getExtraServers.foldl (insertNew foldCase maximumConnections) w.servers := by
  rw [restoreExtraServers]
  generalize w.settings.getExtraServers = extras
  induction extras generalizing w with
  | nil => rfl
  | cons serverAddress extras ih =>
    rw [List.foldl_cons, List.foldl_cons, ih, restoreExtraServer, hear_servers,
      ConnectionManagerWorld.addresses_addConnection]
    rfl

omit [QtLibrary] [MuscleLibrary] [CaseInsensitivePatterns] in
theorem greeted_servers (w : ChatWindowWorld) (pseudoRandomNumber : UInt64) :
    ((w.unloaded.loadSettings.introduce pseudoRandomNumber).applySettings.greet).servers = [] := by
  have hintroduced (w : ChatWindowWorld) : (w.introduce pseudoRandomNumber).servers =
      w.servers := by
    change (((w.connections.setInstallId _).setLocalUserName _).setLocalUserStatus _).addresses = _
    rw [ConnectionManagerWorld.setLocalUserStatus, ConnectionManagerWorld.addresses_announce,
      ConnectionManagerWorld.setLocalUserName, ConnectionManagerWorld.addresses_announce,
      ConnectionManagerWorld.setInstallId, ConnectionManagerWorld.addresses_announce]
    rfl
  change (w.unloaded.loadSettings.introduce pseudoRandomNumber).applySettings.servers = []
  rw [applySettings_servers, hintroduced]
  change w.unloaded.populateServerList.connections.addresses = []
  rw [populateServerList_connections]
  rfl

theorem start_serverList (w : ChatWindowWorld) (a : WindowAnswers) :
    ServerList (w.start a).servers := by
  have hrestored : ServerList ((w.unloaded.loadSettings.introduce
      a.pseudoRandomNumber).applySettings.greet.restoreExtraServers a).servers := by
    rw [restoreExtraServers_servers, greeted_servers]
    exact ServerList.nil.foldl (empty_not_mem_getExtraServers _)
  rw [start]
  split
  · exact connectToConfiguredServer_serverList a hrestored
  · exact hrestored

theorem handle_serverList {w : ChatWindowWorld} (e : WindowEvent) (h : ServerList w.servers) :
    ServerList (w.handle e).servers := by
  obtain ⟨call, a⟩ := e
  cases call with
  | handleUserInput input =>
    simp only [handle, handleUserInput]
    exact handleCommand_serverList a _ h
  | connectButtonClicked =>
    simp only [handle, connectButtonClicked]
    split
    · exact connectToConfiguredServer_serverList a h
    · rwa [disconnectAll_servers]
  | connectAdditionalServer serverAddress =>
    rw [handle]
    exact connectAdditionalServer_serverList a serverAddress h
  | disconnectAll => rwa [handle, disconnectAll_servers]
  | queryButtonClicked =>
    simp only [handle, queryButtonClicked]
    split
    · rwa [stopQuery_servers]
    · rwa [startQuery_servers]
  | queryFieldReturnPressed => rwa [handle, startQuery_servers]
  | userStatusEdited text => rwa [handle, statusEdited_servers]
  | showSettings dialog =>
    simp only [handle, showSettings]
    rwa [save_servers, applySettings_servers, setSettings_servers]
  | serverListReceived serversToAdd serversToRemove =>
    rwa [handle, servers, serverListReceived_connections]
  | networkReported index report =>
    simp only [handle, networkReported]
    rw [hear_servers, ConnectionManagerWorld.addresses_onConnection]
    · exact h
    · exact fun world => world.handle_report_serverAddress report a.now
  | sharingCalled call =>
    simp only [handle, sharingCalled]
    split
    · next hcall =>
      rwa [setConnections_servers, ConnectionManagerWorld.addresses_handle_publication _ _ hcall]
    · exact h
  | setAdvertisedPort port =>
    simp only [handle, ConnectionManagerWorld.setAdvertisedPort]
    rwa [setConnections_servers, ConnectionManagerWorld.addresses_announce]
  | idleTimerFired idle =>
    simp only [handle, ConnectionManagerWorld.performIdleTasks]
    rw [setConnections_servers, ConnectionManagerWorld.addresses_onAll]
    · exact h
    · exact fun c => c.world.performIdleTasks_serverAddress _
  | restart =>
    rw [handle, restart]
    exact start_serverList _ a
  | serverAddressEdited | serverPortEdited | userNameEdited | queryEdited | headerChanged =>
    exact h

/-- In every window that can be reached the servers have names and are all different. -/
theorem run_serverList (settingsFile : ApplicationSettings) (a : WindowAnswers)
    (es : List WindowEvent) : ServerList (machine.run (new settingsFile a) es).servers :=
  EventMachine.run_of_invariant (m := machine) (I := fun w => ServerList w.servers)
    (fun _ e h => handle_serverList e h) (start_serverList _ a)

end

end ChatWindowWorld

end HiTuxShare
