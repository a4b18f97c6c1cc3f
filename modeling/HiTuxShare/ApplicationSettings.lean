import HiTuxShare.ConnectionManager

set_option autoImplicit true

namespace Message

/-- The first item of the name is overwritten, or a first one is added. -/
def replaceFirst (name : String) (value : FieldValue) :
    List (String × FieldValue) → List (String × FieldValue)
  | [] => [(name, value)]
  | f :: fields =>
    if f.1 = name then (name, value) :: fields else f :: replaceFirst name value fields

def replace (m : Message κ) (name : String) (value : FieldValue) : Message κ :=
  { m with fields := replaceFirst name value m.fields }

theorem head?_items_replace {pick : FieldValue → Option α} (h : pick value = some v)
    (m : Message κ) (name : String) : ((m.replace name value).items pick name).head? = some v := by
  simp only [items, replace]
  induction m.fields with
  | nil => simp [replaceFirst, h]
  | cons f fields ih =>
    rw [replaceFirst]
    split
    · simp [h]
    · next hf => simpa [hf] using ih

theorem items_replace_of_ne (m : Message κ) (pick : FieldValue → Option α) (value : FieldValue)
    (h : name' ≠ name) : (m.replace name' value).items pick name = m.items pick name := by
  simp only [items, replace]
  induction m.fields with
  | nil => simp [replaceFirst, h]
  | cons f fields ih =>
    rw [replaceFirst]
    split
    · next hf => simp [hf, h]
    · rw [List.filterMap_cons, List.filterMap_cons, ih]

end Message

namespace HiTuxShare

/-- The environment variables; a missing one is empty. -/
class Environment where
  getEnvironmentVariable : String → String

/-- Environment variables without a value. -/
abbrev noEnvironment : Environment := ⟨fun _ => ""⟩

/-- What the window keeps from one start of the program to the next. -/
abbrev ApplicationSettings := Message Unit

namespace ApplicationSettings

def fieldUserName : String := "username"
def fieldUserStatus : String := "userstatus"
def fieldAwayStatus : String := "awaystatus"
def fieldServerAddress : String := "server"
def fieldServerPort : String := "serverport"
def fieldConnectOnStartup : String := "connectonstartup"
def fieldExtraServers : String := "extraserver"
def fieldRecentUserNames : String := "usernamelist"
def fieldRecentStatuses : String := "userstatuslist"
def fieldColumnLayoutPrefix : String := "columns:"
def fieldChatLogging : String := "chatlogging"
def fieldLogDirectory : String := "logdir"
def fieldIgnorePattern : String := "ignorepattern"
def fieldWatchPattern : String := "watchpattern"
def fieldAutoPrivPattern : String := "autoprivpattern"
def fieldAliasName : String := "aliasname"
def fieldAliasValue : String := "aliasvalue"
def fieldFirewalled : String := "firewalled"
def fieldServerList : String := "serverlist"
def fieldInstallId : String := "installid"

def maximumRememberedNames : Nat := 12
def maximumRememberedServers : Nat := 16

def defaultUserName : String := "binky"
def defaultUserStatus : String := "here"
def defaultAwayStatus : String := "away"
def defaultServerAddress : String := "beshare.tycomsystems.com"
def defaultServerList : List String := ["beshare.tycomsystems.com", "beshare.agmsmith.ca"]

/-- An empty string counts as none. -/
def getString (settings : ApplicationSettings) (fieldName defaultValue : String) : String :=
  match settings.findString fieldName with
  | some value => if value = "" then defaultValue else value
  | none => defaultValue

def setString (settings : ApplicationSettings) (fieldName value : String) : ApplicationSettings :=
  settings.replace fieldName (.string value)

def getBool (settings : ApplicationSettings) (fieldName : String) : Bool :=
  (settings.findBool fieldName).getD false

def setBool (settings : ApplicationSettings) (fieldName : String) (value : Bool) :
    ApplicationSettings := settings.replace fieldName (.bool value)

def getStringList (settings : ApplicationSettings) (fieldName : String) : List String :=
  (settings.strings fieldName).filter (· ≠ "")

def setStringList (settings : ApplicationSettings) (fieldName : String) (values : List String) :
    ApplicationSettings :=
  values.foldl (fun settings value => settings.addString fieldName value)
    (settings.removeName fieldName)

/-- What is known already moves to the front. -/
def rememberInList (settings : ApplicationSettings) (fieldName value : String) (maxItems : Nat) :
    ApplicationSettings :=
  if value = "" then settings
  else
    let values := (settings.getStringList fieldName).filter fun known =>
      ¬equalsIgnoreCase known value
    settings.setStringList fieldName ((value :: values).take maxItems)

def getUserName (settings : ApplicationSettings) : String :=
  settings.getString fieldUserName defaultUserName

def setUserName (settings : ApplicationSettings) (userName : String) : ApplicationSettings :=
  settings.setString fieldUserName userName

def getUserStatus (settings : ApplicationSettings) : String :=
  settings.getString fieldUserStatus defaultUserStatus

def setUserStatus (settings : ApplicationSettings) (userStatus : String) : ApplicationSettings :=
  settings.setString fieldUserStatus userStatus

def getAwayStatus (settings : ApplicationSettings) : String :=
  settings.getString fieldAwayStatus defaultAwayStatus

def setAwayStatus (settings : ApplicationSettings) (awayStatus : String) : ApplicationSettings :=
  settings.setString fieldAwayStatus awayStatus

def getServerAddress (settings : ApplicationSettings) : String :=
  settings.getString fieldServerAddress defaultServerAddress

def setServerAddress (settings : ApplicationSettings) (serverAddress : String) :
    ApplicationSettings := settings.setString fieldServerAddress serverAddress

def getServerPort (settings : ApplicationSettings) : UInt16 :=
  match settings.findInt32 fieldServerPort with
  | some storedPort =>
    if storedPort ≤ 0 ∨ 65535 < storedPort then defaultServerPort
    else storedPort.toInt.toNat.toUInt16
  | none => defaultServerPort

def setServerPort (settings : ApplicationSettings) (serverPort : UInt16) : ApplicationSettings :=
  settings.replace fieldServerPort (.int32 (.ofNat serverPort.toNat))

def getConnectOnStartup (settings : ApplicationSettings) : Bool :=
  settings.getBool fieldConnectOnStartup

def setConnectOnStartup (settings : ApplicationSettings) (connectOnStartup : Bool) :
    ApplicationSettings := settings.setBool fieldConnectOnStartup connectOnStartup

def getFirewalled (settings : ApplicationSettings) : Bool := settings.getBool fieldFirewalled

def setFirewalled (settings : ApplicationSettings) (firewalled : Bool) : ApplicationSettings :=
  settings.setBool fieldFirewalled firewalled

/-- The first start of the program makes one up. -/
def getInstallId (settings : ApplicationSettings) (pseudoRandomNumber : UInt64) :
    ApplicationSettings × UInt64 :=
  match (settings.findInt64 fieldInstallId).filter (· ≠ 0) with
  | some storedInstallId => (settings, (Int64.ofInt storedInstallId).toUInt64)
  | none =>
    (settings.replace fieldInstallId (.int64 pseudoRandomNumber.toInt64.toInt), pseudoRandomNumber)

/-- Until there is one the known servers are suggested. -/
def getServerList (settings : ApplicationSettings) : List String :=
  let serverList := settings.getStringList fieldServerList
  if serverList = [] then defaultServerList else serverList

def setServerList (settings : ApplicationSettings) (serverList : List String) :
    ApplicationSettings := settings.setStringList fieldServerList serverList

def getExtraServers (settings : ApplicationSettings) : List String :=
  settings.getStringList fieldExtraServers

def setExtraServers (settings : ApplicationSettings) (servers : List String) :
    ApplicationSettings := settings.setStringList fieldExtraServers servers

def rememberServer (settings : ApplicationSettings) (serverAddress : String) :
    ApplicationSettings :=
  settings.rememberInList fieldServerList serverAddress maximumRememberedServers

def rememberUserName (settings : ApplicationSettings) (userName : String) : ApplicationSettings :=
  settings.rememberInList fieldRecentUserNames userName maximumRememberedNames

def rememberStatus (settings : ApplicationSettings) (status : String) : ApplicationSettings :=
  settings.rememberInList fieldRecentStatuses status maximumRememberedNames

def getColumnLayout (settings : ApplicationSettings) (viewName : String) : Option (List UInt8) :=
  settings.findData (fieldColumnLayoutPrefix ++ viewName)

def setColumnLayout (settings : ApplicationSettings) (viewName : String) (data : List UInt8) :
    ApplicationSettings :=
  let settings := settings.removeName (fieldColumnLayoutPrefix ++ viewName)
  if data ≠ [] then settings.addData (fieldColumnLayoutPrefix ++ viewName) data else settings

def getChatLoggingEnabled (settings : ApplicationSettings) : Bool :=
  settings.getBool fieldChatLogging

def setChatLoggingEnabled (settings : ApplicationSettings) (chatLoggingEnabled : Bool) :
    ApplicationSettings := settings.setBool fieldChatLogging chatLoggingEnabled

def getDefaultLogDirectoryPath [Environment] : String :=
  let stateHome := Environment.getEnvironmentVariable "XDG_STATE_HOME"
  let homeDirectory := Environment.getEnvironmentVariable "HOME"
  if stateHome ≠ "" then stateHome ++ "/hituxshare/logs"
  else if homeDirectory = "" then ""
  else homeDirectory ++ "/.local/state" ++ "/hituxshare/logs"

def getLogDirectory [Environment] (settings : ApplicationSettings) : String :=
  settings.getString fieldLogDirectory getDefaultLogDirectoryPath

def setLogDirectory (settings : ApplicationSettings) (logDirectory : String) :
    ApplicationSettings := settings.setString fieldLogDirectory logDirectory

def getIgnorePattern (settings : ApplicationSettings) : String :=
  settings.getString fieldIgnorePattern ""

def setIgnorePattern (settings : ApplicationSettings) (pattern : String) : ApplicationSettings :=
  settings.setString fieldIgnorePattern pattern

def getWatchPattern (settings : ApplicationSettings) : String :=
  settings.getString fieldWatchPattern ""

def setWatchPattern (settings : ApplicationSettings) (pattern : String) : ApplicationSettings :=
  settings.setString fieldWatchPattern pattern

def getAutoPrivPattern (settings : ApplicationSettings) : String :=
  settings.getString fieldAutoPrivPattern ""

def setAutoPrivPattern (settings : ApplicationSettings) (pattern : String) : ApplicationSettings :=
  settings.setString fieldAutoPrivPattern pattern

/-- Names and values are two fields; a name without its value is skipped. -/
def getAliases (settings : ApplicationSettings) : Hashtable String String :=
  ((settings.strings fieldAliasName).zip (settings.strings fieldAliasValue)).foldl
    (fun aliases pair => aliases.put pair.1 pair.2) .empty

def setAliases (settings : ApplicationSettings) (aliases : Hashtable String String) :
    ApplicationSettings :=
  aliases.entries.foldl
    (fun settings pair =>
      (settings.addString fieldAliasName pair.1).addString fieldAliasValue pair.2)
    ((settings.removeName fieldAliasName).removeName fieldAliasValue)

theorem getString_congr {settings settings' : ApplicationSettings} {fieldName : String}
    (h : settings.items Message.asString fieldName = settings'.items Message.asString fieldName)
    (defaultValue : String) :
    settings.getString fieldName defaultValue = settings'.getString fieldName defaultValue := by
  rw [getString, getString, Message.findString, Message.strings, h]
  rfl

theorem items_setString_of_ne (settings : ApplicationSettings) (pick : FieldValue → Option α)
    {fieldName : String} (h : fieldName ≠ name) (value : String) :
    (settings.setString fieldName value).items pick name = settings.items pick name :=
  Message.items_replace_of_ne settings pick _ h

theorem getString_setString (settings : ApplicationSettings)
    (fieldName value defaultValue : String) :
    (settings.setString fieldName value).getString fieldName defaultValue =
      if value = "" then defaultValue else value := by
  have hfound : (settings.setString fieldName value).findString fieldName = some value :=
    Message.head?_items_replace (rfl : Message.asString (.string value) = some value) settings
      fieldName
  simp only [getString, hfound]

theorem getString_ne (settings : ApplicationSettings) (fieldName : String)
    (h : defaultValue ≠ "") : settings.getString fieldName defaultValue ≠ "" := by
  rw [getString]
  split
  · split
    · exact h
    · next hvalue => exact hvalue
  · exact h

theorem foldl_addString_items (settings : ApplicationSettings) (pick : FieldValue → Option α)
    (fieldName name : String) (values : List String) :
    (values.foldl (fun settings value => settings.addString fieldName value) settings).items pick
      name = settings.items pick name ++
        if fieldName = name then values.filterMap fun value => pick (.string value) else [] := by
  induction values generalizing settings with
  | nil => rw [List.foldl_nil, List.filterMap_nil, ite_self, List.append_nil]
  | cons value values ih =>
    rw [List.foldl_cons, ih]
    by_cases hname : fieldName = name
    · subst hname
      rw [if_pos rfl, if_pos rfl, Message.addString, Message.items_add_self, List.append_assoc]
      cases h : pick (.string value) with
      | none => simp [h]
      | some picked => simp [h]
    · rw [if_neg hname, if_neg hname, Message.addString, Message.items_add_of_ne _ _ _ hname]

theorem items_setStringList_of_ne (settings : ApplicationSettings)
    (pick : FieldValue → Option α) {fieldName : String} (h : fieldName ≠ name)
    (values : List String) :
    (settings.setStringList fieldName values).items pick name = settings.items pick name := by
  rw [setStringList, foldl_addString_items, if_neg h, List.append_nil,
    Message.items_removeName_of_ne _ _ h]

theorem strings_setStringList (settings : ApplicationSettings) (fieldName : String)
    (values : List String) :
    (settings.setStringList fieldName values).strings fieldName = values := by
  rw [Message.strings, setStringList, foldl_addString_items, if_pos rfl,
    Message.items_removeName_self, List.nil_append]
  exact List.filterMap_some

theorem items_rememberInList_of_ne (settings : ApplicationSettings)
    (pick : FieldValue → Option α) {fieldName : String} (h : fieldName ≠ name) (value : String)
    (maxItems : Nat) :
    (settings.rememberInList fieldName value maxItems).items pick name =
      settings.items pick name := by
  simp only [rememberInList]
  split
  · rfl
  · exact settings.items_setStringList_of_ne pick h _

theorem items_setColumnLayout_of_ne (settings : ApplicationSettings)
    (pick : FieldValue → Option α) (h : fieldColumnLayoutPrefix ++ viewName ≠ name)
    (data : List UInt8) :
    (settings.setColumnLayout viewName data).items pick name = settings.items pick name := by
  simp only [setColumnLayout]
  split
  · rw [Message.addData, Message.items_add_of_ne _ _ _ h, Message.items_removeName_of_ne _ _ h]
  · exact Message.items_removeName_of_ne _ _ h

theorem getColumnLayout_setColumnLayout (settings : ApplicationSettings) (viewName : String)
    (h : data ≠ []) : (settings.setColumnLayout viewName data).getColumnLayout viewName =
      some data := by
  simp only [setColumnLayout, if_pos h]
  rw [getColumnLayout, Message.findData, Message.addData, Message.items_add_self,
    Message.items_removeName_self]
  rfl

end ApplicationSettings

end HiTuxShare
