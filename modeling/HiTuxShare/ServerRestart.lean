import HiTuxShare.ConnectedServers

namespace HiTuxShare
set_option autoImplicit true

open KeyedList ApplicationSettings

/-- The settings field that a layout is written to. -/
def layoutField (view : TableView) : String := fieldColumnLayoutPrefix ++ savedLayoutName view

/-- Nobody writes where the layout of the transfers is read. -/
def restoredTransfersField : String := fieldColumnLayoutPrefix ++ restoredLayoutName .transfers

theorem layoutField_ne (view : TableView) : layoutField view ≠ fieldServerAddress ∧
    layoutField view ≠ ApplicationSettings.fieldUserName ∧
    layoutField view ≠ restoredTransfersField ∧ fieldExtraServers ≠ layoutField view := by
  cases view <;> decide

theorem layoutField_inj (h : layoutField view = layoutField view') : view = view' := by
  cases view <;> cases view' <;> first | rfl | exact absurd h (by decide)

section
variable [QtWidgets]

theorem trimmedQString_idem (text : String) :
    trimmedQString (trimmedQString text) = trimmedQString text := by
  apply String.toList_inj.mp
  simp only [trimmedQString, String.toList_ofList, trim_trim]

theorem trimmedQString_ne {text : String} (hm : character ∈ text.toList)
    (halpha : character.isAlphanum = true) : trimmedQString text ≠ "" := by
  intro he
  have hempty := congrArg String.toList he
  rw [trimmedQString, String.toList_ofList] at hempty
  have hspace := trim_eq_nil_iff.mp hempty character hm
  rw [QtWidgets.isSpace_of_isAlphanum character halpha] at hspace
  cases hspace

theorem trimmedQString_defaultServerAddress : trimmedQString defaultServerAddress ≠ "" := by
  have hm : 'b' ∈ defaultServerAddress.toList := by decide
  exact trimmedQString_ne hm (by decide)

theorem trimmedQString_defaultUserName : trimmedQString defaultUserName ≠ "" := by
  have hm : 'b' ∈ defaultUserName.toList := by decide
  exact trimmedQString_ne hm (by decide)

theorem trimmedQString_stored_ne (text : String) {defaultValue : String}
    (h : trimmedQString defaultValue ≠ "") : trimmedQString
      (if trimmedQString text = "" then defaultValue else trimmedQString text) ≠ "" := by
  split
  · exact h
  · next hne => rwa [trimmedQString_idem]

namespace HeaderLayout

theorem restoreState_state (layout saved : HeaderLayout view) :
    layout.restoreState saved.state = saved := by
  rw [restoreState, dif_pos ⟨saved.ne_nil, saved.accepted⟩]

end HeaderLayout

namespace ChatWindowWorld

/-- What a window leaves in the settings file when it is closed. -/
def savedSettings (w : ChatWindowWorld) : ApplicationSettings := w.saveSettings.settings

/-- The server that the next window will show. -/
def restoredServer (w : ChatWindowWorld) : String :=
  trimmedQString (if w.getSelectedServerAddress = "" then defaultServerAddress
    else w.getSelectedServerAddress)

theorem restoredServer_ne (w : ChatWindowWorld) : w.restoredServer ≠ "" :=
  trimmedQString_stored_ne w.serverAddressBox trimmedQString_defaultServerAddress

/-- The first fields that are written. -/
def identitySettings (w : ChatWindowWorld) : ApplicationSettings :=
  w.settings
    |>.setServerAddress w.getSelectedServerAddress
    |>.setServerPort w.serverPortField
    |>.setUserName w.getUserName
    |>.setUserStatus w.settings.getUserStatus

/-- After them come the layouts. -/
def layoutSettings (w : ChatWindowWorld) : ApplicationSettings :=
  w.identitySettings
    |>.setColumnLayout (savedLayoutName .results) (w.layouts .results).state
    |>.setColumnLayout (savedLayoutName .users) (w.layouts .users).state
    |>.setColumnLayout (savedLayoutName .transfers) (w.layouts .transfers).state

theorem savedSettings_eq (w : ChatWindowWorld) :
    w.savedSettings = w.layoutSettings.setExtraServers w.connections.extraServers := rfl

theorem items_savedSettings (w : ChatWindowWorld) (pick : FieldValue → Option α)
    (hextra : fieldExtraServers ≠ name) (hlayouts : ∀ view, layoutField view ≠ name) :
    w.savedSettings.items pick name = w.identitySettings.items pick name := by
  rw [savedSettings_eq, setExtraServers, items_setStringList_of_ne _ _ hextra,
    layoutSettings, items_setColumnLayout_of_ne _ _ (hlayouts .transfers),
    items_setColumnLayout_of_ne _ _ (hlayouts .users),
    items_setColumnLayout_of_ne _ _ (hlayouts .results)]

theorem savedSettings_getServerAddress (w : ChatWindowWorld) :
    w.savedSettings.getServerAddress =
      if w.getSelectedServerAddress = "" then defaultServerAddress
      else w.getSelectedServerAddress := by
  have hextra : fieldExtraServers ≠ fieldServerAddress := by decide
  have hstatus : ApplicationSettings.fieldUserStatus ≠ fieldServerAddress := by decide
  have hname : ApplicationSettings.fieldUserName ≠ fieldServerAddress := by decide
  have hport : fieldServerPort ≠ fieldServerAddress := by decide
  have hitems := w.items_savedSettings Message.asString hextra
    fun view => (layoutField_ne view).1
  rw [identitySettings, ApplicationSettings.setUserStatus, items_setString_of_ne _ _ hstatus,
    setUserName, items_setString_of_ne _ _ hname, setServerPort,
    Message.items_replace_of_ne _ _ _ hport] at hitems
  rw [getServerAddress, getString_congr hitems, setServerAddress, getString_setString]

theorem savedSettings_getUserName (w : ChatWindowWorld) : w.savedSettings.getUserName =
    if w.getUserName = "" then defaultUserName else w.getUserName := by
  have hextra : fieldExtraServers ≠ ApplicationSettings.fieldUserName := by decide
  have hstatus : ApplicationSettings.fieldUserStatus ≠ ApplicationSettings.fieldUserName := by
    decide
  have hitems := w.items_savedSettings Message.asString hextra
    fun view => (layoutField_ne view).2.1
  rw [identitySettings, ApplicationSettings.setUserStatus, items_setString_of_ne _ _ hstatus]
    at hitems
  rw [ApplicationSettings.getUserName, getString_congr hitems, setUserName, getString_setString]

theorem savedSettings_getExtraServers (w : ChatWindowWorld) :
    w.savedSettings.getExtraServers = w.connections.extraServers.filter (· ≠ "") := by
  rw [getExtraServers, getStringList, savedSettings_eq, setExtraServers, strings_setStringList]

theorem savedSettings_saved (w : ChatWindowWorld) (view : TableView) :
    w.savedSettings.getColumnLayout (savedLayoutName view) = some (w.layouts view).state := by
  have hother {view' : TableView} (h : view' ≠ view) : fieldColumnLayoutPrefix ++
      savedLayoutName view' ≠ fieldColumnLayoutPrefix ++ savedLayoutName view :=
    fun he => h (layoutField_inj he)
  have hextra : fieldExtraServers ≠ fieldColumnLayoutPrefix ++ savedLayoutName view :=
    (layoutField_ne view).2.2.2
  rw [getColumnLayout, Message.findData, savedSettings_eq, setExtraServers,
    items_setStringList_of_ne _ _ hextra, layoutSettings]
  cases view with
  | results =>
    rw [items_setColumnLayout_of_ne _ _ (hother (by decide)),
      items_setColumnLayout_of_ne _ _ (hother (by decide))]
    exact getColumnLayout_setColumnLayout _ _ (w.layouts .results).ne_nil
  | users =>
    rw [items_setColumnLayout_of_ne _ _ (hother (by decide))]
    exact getColumnLayout_setColumnLayout _ _ (w.layouts .users).ne_nil
  | transfers => exact getColumnLayout_setColumnLayout _ _ (w.layouts .transfers).ne_nil

theorem savedSettings_transfers (w : ChatWindowWorld) :
    w.savedSettings.getColumnLayout (restoredLayoutName .transfers) =
      w.settings.getColumnLayout (restoredLayoutName .transfers) := by
  have hextra : fieldExtraServers ≠ restoredTransfersField := by decide
  have haddress : fieldServerAddress ≠ restoredTransfersField := by decide
  have hport : fieldServerPort ≠ restoredTransfersField := by decide
  have hname : ApplicationSettings.fieldUserName ≠ restoredTransfersField := by decide
  have hstatus : ApplicationSettings.fieldUserStatus ≠ restoredTransfersField := by decide
  have hitems := w.items_savedSettings Message.asRaw hextra
    fun view => (layoutField_ne view).2.2.1
  rw [identitySettings, ApplicationSettings.setUserStatus, items_setString_of_ne _ _ hstatus,
    setUserName, items_setString_of_ne _ _ hname, setServerPort,
    Message.items_replace_of_ne _ _ _ hport, setServerAddress,
    items_setString_of_ne _ _ haddress] at hitems
  exact congrArg List.head? hitems

/-- What lies in the boxes and the headers stays, and so does what the layout of the transfers is
read from. -/
structure KeepsControls (w w' : ChatWindowWorld) : Prop where
  serverAddressBox : w.serverAddressBox ≠ "" → w'.serverAddressBox = w.serverAddressBox
  userNameBox : w'.userNameBox = w.userNameBox
  layouts : w'.layouts = w.layouts
  stored : w'.settings.getColumnLayout (restoredLayoutName .transfers) =
    w.settings.getColumnLayout (restoredLayoutName .transfers)

theorem KeepsControls.refl (w : ChatWindowWorld) : KeepsControls w w :=
  ⟨fun _ => rfl, rfl, rfl, rfl⟩

theorem KeepsControls.trans (h : KeepsControls w w') (h' : KeepsControls w' w'') :
    KeepsControls w w'' := by
  refine ⟨fun hne => ?_, h'.userNameBox.trans h.userNameBox, h'.layouts.trans h.layouts,
    h'.stored.trans h.stored⟩
  have hbox := h.serverAddressBox hne
  rw [h'.serverAddressBox (hbox ▸ hne), hbox]

theorem appendLocalLine_keeps (w : ChatWindowWorld) (type : LogMessageType) (text : String) :
    KeepsControls w (w.appendLocalLine type text) := ⟨fun _ => rfl, rfl, rfl, rfl⟩

theorem setConnections_keeps (w : ChatWindowWorld) (connections : ConnectionManagerWorld) :
    KeepsControls w { w with connections } := ⟨fun _ => rfl, rfl, rfl, rfl⟩

theorem populateServerList_keeps (w : ChatWindowWorld) :
    KeepsControls w w.populateServerList := by
  rw [populateServerList]
  split
  · exact .refl w
  · next hempty => exact ⟨fun hne => absurd hne hempty, rfl, rfl, rfl⟩

theorem rememberInList_keeps (w : ChatWindowWorld) {fieldName : String}
    (h : fieldName ≠ restoredTransfersField) (value : String) (maxItems : Nat) :
    KeepsControls w { w with settings := w.settings.rememberInList fieldName value maxItems } :=
  ⟨fun _ => rfl, rfl, rfl,
    congrArg List.head? (w.settings.items_rememberInList_of_ne Message.asRaw h value maxItems)⟩

section
variable [MuscleText]

variable [QtLibrary] [MuscleLibrary] [CaseInsensitivePatterns]

theorem callback_keeps (w : ChatWindowWorld) (a : WindowAnswers) (serverAddress : String)
    (o : ConnectionOccurrence) : KeepsControls w (w.callback a serverAddress o) := by
  cases o with
  | localSessionIdAssigned sessionId hostName =>
    have hlist : fieldServerList ≠ restoredTransfersField := by decide
    rw [callback, localSessionIdAssigned]
    apply (w.rememberInList_keeps hlist serverAddress maximumRememberedServers).trans
    exact (populateServerList_keeps _).trans (appendLocalLine_keeps ..)
  | userUpdated user isNewUser =>
    rw [callback]
    split
    · exact w.appendLocalLine_keeps ..
    · exact .refl w
  | userLeft user => exact w.appendLocalLine_keeps ..
  | chatMessageReceived type text details =>
    simp only [callback, chatMessageReceived]
    split
    · exact .refl w
    · exact ⟨fun _ => rfl, rfl, rfl, rfl⟩
  | _ => exact .refl w

theorem hear_keeps (w : ChatWindowWorld) (a : WindowAnswers) (m : ConnectionManagerWorld) :
    KeepsControls w (w.hear a m) := by
  apply List.foldlRecOn (motive := KeepsControls w)
  · exact w.setConnections_keeps m
  · exact fun w' h o _ => h.trans (w'.callback_keeps a _ o.2)

theorem connectToConfiguredServer_keeps (w : ChatWindowWorld) (a : WindowAnswers) :
    KeepsControls w (w.connectToConfiguredServer a) := by
  have hnames : fieldRecentUserNames ≠ restoredTransfersField := by decide
  simp only [connectToConfiguredServer]
  split
  · exact w.appendLocalLine_keeps ..
  · split
    · exact w.appendLocalLine_keeps ..
    · let w₁ : ChatWindowWorld :=
        { w with connections := w.connections.setLocalUserName w.getUserName }
      have hnamed : KeepsControls w w₁ := w.setConnections_keeps _
      have hremembered := rememberInList_keeps w₁ hnames w.getUserName maximumRememberedNames
      exact (hnamed.trans hremembered).trans (hear_keeps _ a _)

theorem restoreExtraServers_keeps (w : ChatWindowWorld) (a : WindowAnswers) :
    KeepsControls w (w.restoreExtraServers a) := by
  apply List.foldlRecOn (motive := KeepsControls w)
  · exact .refl w
  · exact fun w' h serverAddress _ => h.trans (w'.hear_keeps a _)

end

theorem loadSettings_populates {w : ChatWindowWorld} (hserver : w.serverAddressBox = "")
    (huser : w.userNameBox = "") :
    w.loadSettings.serverAddressBox = w.settings.getServerAddress ∧
      w.loadSettings.userNameBox = w.settings.getUserName ∧
      w.loadSettings.settings = w.settings := by
  have hlist : w.populateServerList =
      { w with serverAddressBox := w.settings.getServerAddress } := by
    rw [populateServerList, if_neg (not_not.mpr hserver)]
  rw [loadSettings, hlist]
  exact ⟨rfl, if_pos huser, rfl⟩

theorem introduce_keeps (w : ChatWindowWorld) (pseudoRandomNumber : UInt64) :
    KeepsControls w (w.introduce pseudoRandomNumber) := by
  have hinstall : fieldInstallId ≠ restoredTransfersField := by decide
  refine ⟨fun _ => rfl, rfl, rfl, congrArg List.head? ?_⟩
  change Message.items (getInstallId w.settings pseudoRandomNumber).1 _ _ = _
  rw [getInstallId]
  split
  · rfl
  · exact Message.items_replace_of_ne w.settings Message.asRaw _ hinstall

theorem introduce_getExtraServers (w : ChatWindowWorld) (pseudoRandomNumber : UInt64) :
    (w.introduce pseudoRandomNumber).settings.getExtraServers = w.settings.getExtraServers := by
  have hinstall : fieldInstallId ≠ fieldExtraServers := by decide
  change getStringList (getInstallId w.settings pseudoRandomNumber).1 fieldExtraServers = _
  rw [getInstallId]
  split
  · rfl
  · exact congrArg (List.filter _)
      (Message.items_replace_of_ne w.settings Message.asString _ hinstall)

section
variable [MuscleText] [Environment]

theorem applySettings_keeps {w : ChatWindowWorld} (huser : w.userNameBox ≠ "") :
    KeepsControls w w.applySettings := ⟨fun _ => rfl, if_neg huser, rfl, rfl⟩

/-- The window before the extra servers come back. -/
def greeted (w : ChatWindowWorld) (pseudoRandomNumber : UInt64) : ChatWindowWorld :=
  (w.unloaded.loadSettings.introduce pseudoRandomNumber).applySettings.greet

theorem greeted_keeps (w : ChatWindowWorld) (pseudoRandomNumber : UInt64) :
    KeepsControls w.unloaded.loadSettings (w.greeted pseudoRandomNumber) := by
  have hintroduced := w.unloaded.loadSettings.introduce_keeps pseudoRandomNumber
  have huser : w.unloaded.loadSettings.userNameBox ≠ "" := by
    rw [(loadSettings_populates rfl rfl).2.1]
    exact getString_ne _ _ (by decide)
  rw [← hintroduced.userNameBox] at huser
  exact (hintroduced.trans (applySettings_keeps huser)).trans (appendLocalLine_keeps ..)

theorem greeted_getExtraServers (w : ChatWindowWorld) (pseudoRandomNumber : UInt64) :
    (w.greeted pseudoRandomNumber).settings.getExtraServers = w.settingsFile.getExtraServers := by
  change (w.unloaded.loadSettings.introduce pseudoRandomNumber).settings.getExtraServers = _
  rw [introduce_getExtraServers, (loadSettings_populates rfl rfl).2.2]
  rfl

variable [QtLibrary] [MuscleLibrary] [CaseInsensitivePatterns]

theorem start_cases (w : ChatWindowWorld) (a : WindowAnswers) :
    w.start a = (w.greeted a.pseudoRandomNumber).restoreExtraServers a ∨
      w.start a = ((w.greeted a.pseudoRandomNumber).restoreExtraServers
        a).connectToConfiguredServer a := by
  rw [start]
  split
  · exact .inr rfl
  · exact .inl rfl

/-- A restart after which the window connects to the server it shows. -/
def reopen (w : ChatWindowWorld) (a : WindowAnswers) : ChatWindowWorld :=
  (w.restart a).connectToConfiguredServer a

/-- A window that has a server and a user name to connect with. -/
structure Connects (w : ChatWindowWorld) : Prop where
  server : w.getSelectedServerAddress ≠ ""
  user : w.getUserName ≠ ""

omit [MuscleText] [Environment] [QtLibrary] [MuscleLibrary] [CaseInsensitivePatterns] in
theorem KeepsControls.selected (h : KeepsControls w w') (hne : w.serverAddressBox ≠ "") :
    w'.getSelectedServerAddress = w.getSelectedServerAddress :=
  congrArg trimmedQString (h.serverAddressBox hne)

omit [MuscleText] [Environment] [QtLibrary] [MuscleLibrary] [CaseInsensitivePatterns] in
theorem KeepsControls.connects (h : KeepsControls w w') (hne : w.serverAddressBox ≠ "")
    (hw : w.Connects) : w'.Connects := by
  refine ⟨(h.selected hne).trans_ne hw.server, ?_⟩
  rw [getUserName, h.userNameBox]
  exact hw.user

omit [Environment] in
/-- To connect a second time adds nothing. -/
theorem reconnect_servers {w : ChatWindowWorld} (a : WindowAnswers) (hw : w.Connects)
    (hne : w.serverAddressBox ≠ "") :
    ((w.connectToConfiguredServer a).connectToConfiguredServer a).servers =
      (w.connectToConfiguredServer a).servers := by
  have hkeeps := w.connectToConfiguredServer_keeps a
  have hlater := hkeeps.connects hne hw
  rw [connectToConfiguredServer_servers a hlater.server hlater.user, hkeeps.selected hne,
    connectToConfiguredServer_servers a hw.server hw.user, insertNew_insertNew]

/-- What a window is after a restart, by what it was before. -/
structure Reopened (w w' : ChatWindowWorld) : Prop where
  servers : w'.servers = restored foldCase maximumConnections w.restoredServer w.servers
  selected : w'.getSelectedServerAddress = w.restoredServer
  transfers : w'.layouts .transfers = restoredLayout w.settings (.default .transfers)
  others : ∀ view, view ≠ .transfers → w'.layouts view = w.layouts view

theorem reopen_keeps (w : ChatWindowWorld) (a : WindowAnswers) :
    KeepsControls w.closeEvent.unloaded.loadSettings (w.reopen a) := by
  have hrestored := (w.closeEvent.greeted_keeps a.pseudoRandomNumber).trans
    (restoreExtraServers_keeps _ a)
  rw [reopen, restart]
  rcases w.closeEvent.start_cases a with h | h
  · rw [h]
    exact hrestored.trans (connectToConfiguredServer_keeps _ a)
  · rw [h]
    exact (hrestored.trans (connectToConfiguredServer_keeps _ a)).trans
      (connectToConfiguredServer_keeps _ a)

omit [MuscleText] [Environment] [QtLibrary] [MuscleLibrary] [CaseInsensitivePatterns] in
theorem closeEvent_loads (w : ChatWindowWorld) :
    w.closeEvent.unloaded.loadSettings.serverAddressBox = w.savedSettings.getServerAddress ∧
      w.closeEvent.unloaded.loadSettings.userNameBox = w.savedSettings.getUserName ∧
      w.closeEvent.unloaded.loadSettings.settings = w.savedSettings :=
  loadSettings_populates rfl rfl

omit [MuscleText] [Environment] [QtLibrary] [MuscleLibrary] [CaseInsensitivePatterns] in
theorem closeEvent_selected (w : ChatWindowWorld) :
    w.closeEvent.unloaded.loadSettings.serverAddressBox ≠ "" ∧
      w.closeEvent.unloaded.loadSettings.getSelectedServerAddress = w.restoredServer ∧
      w.closeEvent.unloaded.loadSettings.Connects := by
  obtain ⟨hserver, huser, -⟩ := w.closeEvent_loads
  have hselected : w.closeEvent.unloaded.loadSettings.getSelectedServerAddress =
      w.restoredServer := by
    rw [getSelectedServerAddress, hserver, savedSettings_getServerAddress, restoredServer]
  refine ⟨?_, hselected, hselected.trans_ne w.restoredServer_ne, ?_⟩
  · rw [hserver]
    exact getString_ne _ _ (by decide)
  · rw [getUserName, huser, savedSettings_getUserName]
    exact trimmedQString_stored_ne w.userNameBox trimmedQString_defaultUserName

theorem reopen_servers {w : ChatWindowWorld} (h : ServerList w.servers) (a : WindowAnswers) :
    (w.reopen a).servers = restored foldCase maximumConnections w.restoredServer w.servers := by
  let r := (w.closeEvent.greeted a.pseudoRandomNumber).restoreExtraServers a
  obtain ⟨hne, hselected, hconnects⟩ := w.closeEvent_selected
  have hkeeps : KeepsControls w.closeEvent.unloaded.loadSettings r :=
    (w.closeEvent.greeted_keeps a.pseudoRandomNumber).trans (restoreExtraServers_keeps _ a)
  have hr : r.Connects := hkeeps.connects hne hconnects
  have hbox : r.serverAddressBox ≠ "" := (hkeeps.serverAddressBox hne).trans_ne hne
  have hextra : w.connections.extraServers.filter (· ≠ "") = w.servers.tail := by
    have htail : w.connections.extraServers = w.servers.tail := List.map_tail ..
    rw [htail, List.filter_eq_self]
    intro address hm
    have hnamed : address ≠ "" := ne_of_mem_of_not_mem (List.mem_of_mem_tail hm) h.named
    exact decide_eq_true hnamed
  have hrestored : r.servers =
      w.servers.tail.foldl (insertNew foldCase maximumConnections) [] := by
    rw [restoreExtraServers_servers, greeted_getExtraServers, ← hextra,
      ← savedSettings_getExtraServers]
    exact congrArg (List.foldl _ · _) (greeted_servers _ _)
  have hconnected : (r.connectToConfiguredServer a).servers =
      restored foldCase maximumConnections w.restoredServer w.servers := by
    rw [connectToConfiguredServer_servers a hr.server hr.user, hrestored, hkeeps.selected hne,
      hselected, restored]
  rw [reopen, restart]
  rcases w.closeEvent.start_cases a with hstart | hstart
  · rw [hstart]
    exact hconnected
  · rw [hstart, reconnect_servers a hr hbox]
    exact hconnected

theorem reopen_reopened {w : ChatWindowWorld} (h : ServerList w.servers) (a : WindowAnswers) :
    Reopened w (w.reopen a) := by
  have hkeeps := w.reopen_keeps a
  obtain ⟨hne, hselected, -⟩ := w.closeEvent_selected
  have hlayout (view : TableView) : (w.reopen a).layouts view =
      restoredLayout w.savedSettings (.default view) :=
    congrFun hkeeps.layouts view
  have hsaved {view : TableView} (hname : restoredLayoutName view = savedLayoutName view) :
      restoredLayout w.savedSettings (.default view) = w.layouts view := by
    rw [restoredLayout, hname, savedSettings_saved]
    exact HeaderLayout.restoreState_state ..
  refine ⟨reopen_servers h a, (hkeeps.selected hne).trans hselected, ?_, fun view hview => ?_⟩
  · rw [hlayout, restoredLayout, savedSettings_transfers, restoredLayout]
  · rw [hlayout]
    cases view with
    | results => exact hsaved rfl
    | users => exact hsaved rfl
    | transfers => exact absurd rfl hview

/-- The same servers are connected to and every header gets back its layout; and however often
the window is closed and started, no server is lost. -/
structure ComesBack (w : ChatWindowWorld) : Prop where
  servers : ∀ a server, (∃ address ∈ (w.reopen a).servers, equalsIgnoreCase address server) ↔
    ∃ address ∈ w.servers, equalsIgnoreCase address server
  layouts : ∀ a view, (w.reopen a).layouts view = w.layouts view
  nothingLost : ∀ restarts : List WindowAnswers, ∀ address ∈ w.servers,
    ∃ address' ∈ (restarts.foldl reopen w).servers, equalsIgnoreCase address' address

omit [MuscleText] [Environment] [QtLibrary] [MuscleLibrary] [CaseInsensitivePatterns] in
theorem Reopened.restoredServer (h : Reopened w w') : w'.restoredServer = w.restoredServer := by
  have hne : w'.getSelectedServerAddress ≠ "" := h.selected.trans_ne w.restoredServer_ne
  rw [ChatWindowWorld.restoredServer, if_neg hne, h.selected, ChatWindowWorld.restoredServer,
    trimmedQString_idem]

/-- Any number of restarts is one function of the servers, iterated. -/
theorem foldl_reopen_servers {w : ChatWindowWorld} (h : ServerList w.servers)
    (restarts : List WindowAnswers) : (restarts.foldl reopen w).servers =
      (restored foldCase maximumConnections w.restoredServer)^[restarts.length] w.servers := by
  induction restarts generalizing w with
  | nil => rfl
  | cons a restarts ih =>
    have hreopened := reopen_reopened h a
    have hlater : ServerList (w.reopen a).servers :=
      connectToConfiguredServer_serverList a (start_serverList _ a)
    rw [List.foldl_cons, ih hlater, hreopened.servers, hreopened.restoredServer]
    rfl

theorem comesBack_servers_iff {w : ChatWindowWorld} (h : ServerList w.servers) :
    ((∀ a server, (∃ address ∈ (w.reopen a).servers, equalsIgnoreCase address server) ↔
        ∃ address ∈ w.servers, equalsIgnoreCase address server) ∧
      ∀ restarts : List WindowAnswers, ∀ address ∈ w.servers,
        ∃ address' ∈ (restarts.foldl reopen w).servers, equalsIgnoreCase address' address) ↔
      ∃ address, w.servers = [address] ∧ equalsIgnoreCase address w.restoredServer := by
  apply Iff.trans _ (restored_forever_iff h.toFits (by decide) w.restoredServer)
  apply and_congr
  · rw [keys_iff_forall]
    constructor
    · intro hsame server
      rw [← reopen_servers h {}]
      exact hsame {} server
    · intro hsame a server
      rw [reopen_servers h a]
      exact hsame server
  · constructor
    · intro hkeeps n k hm
      obtain ⟨address, haddress, rfl⟩ := List.mem_map.mp hm
      have hlater := hkeeps (List.replicate n {}) address haddress
      rw [foldl_reopen_servers h, List.length_replicate] at hlater
      exact List.mem_map.mpr hlater
    · intro hkeeps restarts address hm
      rw [foldl_reopen_servers h]
      exact List.mem_map.mp (hkeeps restarts.length _ (List.mem_map_of_mem hm))

theorem comesBack_layouts_iff {w : ChatWindowWorld} (h : ServerList w.servers) :
    (∀ a view, (w.reopen a).layouts view = w.layouts view) ↔
      restoredLayout w.settings (.default .transfers) = w.layouts .transfers := by
  constructor
  · intro hsame
    rw [← (reopen_reopened h {}).transfers]
    exact hsame {} .transfers
  · intro htransfers a view
    by_cases hview : view = .transfers
    · rw [hview, (reopen_reopened h a).transfers, htransfers]
    · exact (reopen_reopened h a).others view hview

theorem comesBack_iff {w : ChatWindowWorld} (h : ServerList w.servers) : ComesBack w ↔
    (∃ address, w.servers = [address] ∧ equalsIgnoreCase address w.restoredServer) ∧
      restoredLayout w.settings (.default .transfers) = w.layouts .transfers := by
  rw [← comesBack_servers_iff h, ← comesBack_layouts_iff h]
  constructor
  · intro hback
    exact ⟨⟨hback.servers, hback.nothingLost⟩, hback.layouts⟩
  · rintro ⟨⟨hservers, hlost⟩, hlayouts⟩
    exact ⟨hservers, hlayouts, hlost⟩

/-- Of a window that can be reached, all this is true exactly if it has one connection, to the
server it shows, and the layout of the transfers is one that was not saved in this version. -/
theorem run_comesBack_iff (settingsFile : ApplicationSettings) (a : WindowAnswers)
    (es : List WindowEvent) : ComesBack (machine.run (new settingsFile a) es) ↔
      (∃ address, (machine.run (new settingsFile a) es).servers = [address] ∧
        equalsIgnoreCase address (machine.run (new settingsFile a) es).restoredServer) ∧
      restoredLayout (machine.run (new settingsFile a) es).settings (.default .transfers) =
        (machine.run (new settingsFile a) es).layouts .transfers :=
  comesBack_iff (run_serverList settingsFile a es)

end

end ChatWindowWorld

end

namespace ChatWindowWorld

section
attribute [local instance] plainWidgets asciiText plainQt plainLibrary plainPatterns noEnvironment

/-- The server "a" is shown and connected to, and "b" is connected to besides. -/
def twoServers : List WindowEvent := [
  { call := .serverAddressEdited "a" },
  { call := .connectButtonClicked },
  { call := .connectAdditionalServer "b" }]

/-- The second time "b" does not come back. -/
theorem second_server_is_lost : ¬ComesBack (machine.run (new (.ofWhat ()) {}) twoServers) := by
  have hservers : (machine.run (new (.ofWhat ()) {}) twoServers).servers = ["a", "b"] := by
    decide
  intro hback
  obtain ⟨⟨address, hone, -⟩, -⟩ := (comesBack_iff (run_serverList (.ofWhat ()) {} _)).mp hback
  cases hservers.symm.trans hone

end

end ChatWindowWorld

end HiTuxShare
