import HiTuxShare.ChatWindowEvents
import Mathlib.Algebra.GroupWithZero.Nat

namespace HiTuxShare
set_option autoImplicit true

/-- How many units of UTF-16 a text takes. -/
def utf16Length (text : String) : Nat :=
  (text.toList.map fun character => if character.toNat < 0x10000 then 1 else 2).sum

/-- The fields of a dialog, as Qt has them, with what is documented about them: valid UTF-8 comes
through without loss, a line of text is cut off at its maximum length, and a number is brought into
its range. -/
class QtFields extends QtLibrary where
  toUtf8 : String → String
  lineEditText : String → String
  spinBoxValue (minimum maximum value : Int32) : Int32
  toUtf8_fromUtf8 : ∀ {text}, isUtf8 text = true → toUtf8 (fromUtf8 text) = text
  lineEditText_of_length : ∀ {text : String},
    utf16Length text ≤ 32767 → lineEditText text = text
  spinBoxValue_of_range : ∀ {minimum maximum value}, minimum ≤ value → value ≤ maximum →
    spinBoxValue minimum maximum value = value
  spinBoxValue_of_over : ∀ {minimum maximum value}, minimum ≤ maximum → maximum ≤ value →
    spinBoxValue minimum maximum value = maximum

/-- Fields that take any text. -/
abbrev plainFields : QtFields where
  toQtLibrary := plainQt
  toUtf8 text := text
  lineEditText text := text
  spinBoxValue minimum maximum value :=
    if value < minimum then minimum else if maximum < value then maximum else value
  toUtf8_fromUtf8 _ := rfl
  lineEditText_of_length _ := rfl
  spinBoxValue_of_range hlower hupper := by
    rw [if_neg (Int32.not_lt.mpr hlower), if_neg (Int32.not_lt.mpr hupper)]
  spinBoxValue_of_over hle hover := by
    rw [if_neg (Int32.not_lt.mpr (Int32.le_trans hle hover))]
    split
    · rfl
    · next hnot => exact Int32.le_antisymm (Int32.not_lt.mp hnot) hover

def toMuscleString [QtFields] (text : String) : String := QtFields.toUtf8 text

namespace ApplicationSettings

def fieldDownloadDirectory : String := "downloaddir"
def fieldShareDirectory : String := "sharedir"
def fieldFileSharingEnabled : String := "sharingenabled"
def fieldRetainFilePaths : String := "retainfilepaths"
def fieldMaxDownloads : String := "maxdownloads"
def fieldMaxUploads : String := "maxuploads"
def fieldMaxDownloadRate : String := "maxdownloadrate"
def fieldMaxUploadRate : String := "maxuploadrate"
def fieldAutoClear : String := "autoclear"
def fieldNotificationsEnabled : String := "notifications"
def fieldChatFontPointSize : String := "chatfontsize"
def fieldAutoUpdateServers : String := "autoupdateservers"

def defaultMaxDownloads : UInt32 := 3
def defaultMaxUploads : UInt32 := 4
def maximumSessionLimit : UInt32 := 32

/-- A limit of sessions; none, or one that is not positive, stands for the default. -/
def getLimit (settings : ApplicationSettings) (fieldName : String) (defaultLimit : UInt32) :
    UInt32 :=
  match settings.findInt32 fieldName with
  | some stored => if stored ≤ 0 then defaultLimit else min stored.toUInt32 maximumSessionLimit
  | none => defaultLimit

def setLimit (settings : ApplicationSettings) (fieldName : String) (limit : UInt32) :
    ApplicationSettings :=
  settings.replace fieldName (.int32 (max 1 (min limit maximumSessionLimit)).toInt32)

/-- A cap in bytes a second; zero is none. -/
def getRate (settings : ApplicationSettings) (fieldName : String) : UInt32 :=
  match settings.findInt32 fieldName with
  | some stored => if stored < 0 then 0 else stored.toUInt32
  | none => 0

def setRate (settings : ApplicationSettings) (fieldName : String) (rate : UInt32) :
    ApplicationSettings := settings.replace fieldName (.int32 rate.toInt32)

section
variable [Environment]

def getDefaultDownloadDirectoryPath : String :=
  let homeDirectory := Environment.getEnvironmentVariable "HOME"
  if homeDirectory = "" then "" else homeDirectory ++ "/Downloads/HiTuxShare"

def getDefaultShareDirectoryPath : String :=
  let homeDirectory := Environment.getEnvironmentVariable "HOME"
  if homeDirectory = "" then "" else homeDirectory ++ "/HiTuxShare/shared"

def getDownloadDirectory (settings : ApplicationSettings) : String :=
  settings.getString fieldDownloadDirectory getDefaultDownloadDirectoryPath

def getShareDirectory (settings : ApplicationSettings) : String :=
  settings.getString fieldShareDirectory getDefaultShareDirectoryPath

end

def setDownloadDirectory (settings : ApplicationSettings) (downloadDirectory : String) :
    ApplicationSettings := settings.setString fieldDownloadDirectory downloadDirectory

def setShareDirectory (settings : ApplicationSettings) (shareDirectory : String) :
    ApplicationSettings := settings.setString fieldShareDirectory shareDirectory

def getFileSharingEnabled (settings : ApplicationSettings) : Bool :=
  settings.getBool fieldFileSharingEnabled

def setFileSharingEnabled (settings : ApplicationSettings) (fileSharingEnabled : Bool) :
    ApplicationSettings := settings.setBool fieldFileSharingEnabled fileSharingEnabled

def getRetainFilePaths (settings : ApplicationSettings) : Bool :=
  settings.getBool fieldRetainFilePaths

def setRetainFilePaths (settings : ApplicationSettings) (retainFilePaths : Bool) :
    ApplicationSettings := settings.setBool fieldRetainFilePaths retainFilePaths

def getMaxSimultaneousDownloads (settings : ApplicationSettings) : UInt32 :=
  settings.getLimit fieldMaxDownloads defaultMaxDownloads

def setMaxSimultaneousDownloads (settings : ApplicationSettings)
    (maxSimultaneousDownloads : UInt32) : ApplicationSettings :=
  settings.setLimit fieldMaxDownloads maxSimultaneousDownloads

def getMaxSimultaneousUploads (settings : ApplicationSettings) : UInt32 :=
  settings.getLimit fieldMaxUploads defaultMaxUploads

def setMaxSimultaneousUploads (settings : ApplicationSettings)
    (maxSimultaneousUploads : UInt32) : ApplicationSettings :=
  settings.setLimit fieldMaxUploads maxSimultaneousUploads

def getMaxDownloadRate (settings : ApplicationSettings) : UInt32 :=
  settings.getRate fieldMaxDownloadRate

def setMaxDownloadRate (settings : ApplicationSettings) (maxDownloadRate : UInt32) :
    ApplicationSettings := settings.setRate fieldMaxDownloadRate maxDownloadRate

def getMaxUploadRate (settings : ApplicationSettings) : UInt32 :=
  settings.getRate fieldMaxUploadRate

def setMaxUploadRate (settings : ApplicationSettings) (maxUploadRate : UInt32) :
    ApplicationSettings := settings.setRate fieldMaxUploadRate maxUploadRate

def getAutoClearFinishedTransfers (settings : ApplicationSettings) : Bool :=
  settings.getBool fieldAutoClear

def setAutoClearFinishedTransfers (settings : ApplicationSettings)
    (autoClearFinishedTransfers : Bool) : ApplicationSettings :=
  settings.setBool fieldAutoClear autoClearFinishedTransfers

/-- The one flag that is on by default. -/
def getNotificationsEnabled (settings : ApplicationSettings) : Bool :=
  (settings.findBool fieldNotificationsEnabled).getD true

def setNotificationsEnabled (settings : ApplicationSettings) (notificationsEnabled : Bool) :
    ApplicationSettings := settings.setBool fieldNotificationsEnabled notificationsEnabled

/-- Zero stands for the default of the system. -/
def getChatFontPointSize (settings : ApplicationSettings) : UInt32 :=
  match settings.findInt32 fieldChatFontPointSize with
  | some stored => if stored ≤ 0 then 0 else max 6 (min stored.toUInt32 32)
  | none => 0

def setChatFontPointSize (settings : ApplicationSettings) (chatFontPointSize : UInt32) :
    ApplicationSettings :=
  settings.replace fieldChatFontPointSize (.int32 chatFontPointSize.toInt32)

def getAutoUpdateServerList (settings : ApplicationSettings) : Bool :=
  settings.getBool fieldAutoUpdateServers

def setAutoUpdateServerList (settings : ApplicationSettings) (autoUpdateServerList : Bool) :
    ApplicationSettings := settings.setBool fieldAutoUpdateServers autoUpdateServerList

end ApplicationSettings

def bytesPerKilobyte : UInt32 := 1024

/-- All the pages of the settings dialog. -/
structure SettingsPages extends SettingsDialog where
  downloadFolderField : String
  shareFolderField : String
  fileSharingBox : Bool
  retainFilePathsBox : Bool
  maxDownloadsBox : Int32
  maxUploadsBox : Int32
  downloadRateBox : Int32
  uploadRateBox : Int32
  autoClearBox : Bool
  notificationsBox : Bool
  chatFontSizeBox : Int32
  autoUpdateServersBox : Bool

namespace SettingsPages

section
variable [QtFields]

/-- What a line of text holds once a stored text has been put into it. -/
def shownText (text : String) : String := QtFields.lineEditText (toQString text)

def limitBox (limit : UInt32) : Int32 := QtFields.spinBoxValue 1 32 limit.toInt32

def rateBox (rate : UInt32) : Int32 :=
  QtFields.spinBoxValue 0 102400 (rate / bytesPerKilobyte).toInt32

def loadFromSettings [Environment] (settings : ApplicationSettings) : SettingsPages where
  userNameField := shownText settings.getUserName
  userStatusField := shownText settings.getUserStatus
  awayStatusField := shownText settings.getAwayStatus
  downloadFolderField := shownText settings.getDownloadDirectory
  shareFolderField := shownText settings.getShareDirectory
  fileSharingBox := settings.getFileSharingEnabled
  retainFilePathsBox := settings.getRetainFilePaths
  maxDownloadsBox := limitBox settings.getMaxSimultaneousDownloads
  maxUploadsBox := limitBox settings.getMaxSimultaneousUploads
  downloadRateBox := rateBox settings.getMaxDownloadRate
  uploadRateBox := rateBox settings.getMaxUploadRate
  firewalledBox := settings.getFirewalled
  autoClearBox := settings.getAutoClearFinishedTransfers
  connectOnStartupBox := settings.getConnectOnStartup
  notificationsBox := settings.getNotificationsEnabled
  chatFontSizeBox := QtFields.spinBoxValue 0 32 settings.getChatFontPointSize.toInt32
  autoUpdateServersBox := settings.getAutoUpdateServerList
  chatLoggingBox := settings.getChatLoggingEnabled
  logFolderField := shownText settings.getLogDirectory

variable [QtWidgets]

/-- What is stored of a line of text. -/
def storedText (text : String) : String := toMuscleString (trimmedQString text)

def applyToSettings (pages : SettingsPages) (settings : ApplicationSettings) :
    ApplicationSettings :=
  let userName := trimmedQString pages.userNameField
  (if userName ≠ "" then settings.setUserName (toMuscleString userName) else settings)
    |>.setUserStatus (storedText pages.userStatusField)
    |>.setAwayStatus (storedText pages.awayStatusField)
    |>.setDownloadDirectory (storedText pages.downloadFolderField)
    |>.setShareDirectory (storedText pages.shareFolderField)
    |>.setFileSharingEnabled pages.fileSharingBox
    |>.setRetainFilePaths pages.retainFilePathsBox
    |>.setMaxSimultaneousDownloads pages.maxDownloadsBox.toUInt32
    |>.setMaxSimultaneousUploads pages.maxUploadsBox.toUInt32
    |>.setMaxDownloadRate (pages.downloadRateBox.toUInt32 * bytesPerKilobyte)
    |>.setMaxUploadRate (pages.uploadRateBox.toUInt32 * bytesPerKilobyte)
    |>.setFirewalled pages.firewalledBox
    |>.setAutoClearFinishedTransfers pages.autoClearBox
    |>.setConnectOnStartup pages.connectOnStartupBox
    |>.setNotificationsEnabled pages.notificationsBox
    |>.setChatFontPointSize pages.chatFontSizeBox.toUInt32
    |>.setAutoUpdateServerList pages.autoUpdateServersBox
    |>.setChatLoggingEnabled pages.chatLoggingBox
    |>.setLogDirectory (storedText pages.logFolderField)

end

end SettingsPages

end HiTuxShare
