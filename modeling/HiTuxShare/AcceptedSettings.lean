import HiTuxShare.SettingsPages

set_option autoImplicit true

namespace Message

theorem items_foldl_replace_of_not_mem (pick : FieldValue → Option α)
    {entries : List (String × FieldValue)} (h : name ∉ entries.map Prod.fst) (m : Message κ) :
    (entries.foldl (fun m e => m.replace e.1 e.2) m).items pick name = m.items pick name := by
  induction entries generalizing m with
  | nil => rfl
  | cons e entries ih =>
    rw [List.map_cons, List.mem_cons, not_or] at h
    rw [List.foldl_cons, ih h.2, items_replace_of_ne _ _ _ (Ne.symm h.1)]

theorem head?_items_foldl_replace {entries : List (String × FieldValue)}
    (hnodup : (entries.map Prod.fst).Nodup) (hm : (name, value) ∈ entries)
    {pick : FieldValue → Option α} (hpick : pick value = some v) (m : Message κ) :
    ((entries.foldl (fun m e => m.replace e.1 e.2) m).items pick name).head? = some v := by
  induction entries generalizing m with
  | nil => cases hm
  | cons e entries ih =>
    rw [List.map_cons, List.nodup_cons] at hnodup
    rcases List.mem_cons.mp hm with rfl | hm
    · rw [List.foldl_cons, items_foldl_replace_of_not_mem pick hnodup.1]
      exact head?_items_replace hpick m name
    · exact ih hnodup.2 hm _

end Message

namespace HiTuxShare

theorem toInt_toInt32 {x : UInt32} (h : x.toNat < 2 ^ 31) : x.toInt32.toInt = x.toNat := by
  have hbits : 2 * x.toBitVec.toNat < 2 ^ 32 := by
    rw [UInt32.toNat_toBitVec]
    omega
  exact BitVec.toInt_eq_toNat_of_lt hbits

theorem toInt32_le_iff {x y : UInt32} (hx : x.toNat < 2 ^ 31) (hy : y.toNat < 2 ^ 31) :
    x.toInt32 ≤ y.toInt32 ↔ x ≤ y := by
  rw [Int32.le_iff_toInt_le, toInt_toInt32 hx, toInt_toInt32 hy, UInt32.le_iff_toNat_le]
  exact Int.ofNat_le

theorem toInt32_nonneg_iff {x : UInt32} : 0 ≤ x.toInt32 ↔ x.toNat < 2 ^ 31 := by
  have hint : x.toInt32.toInt = x.toBitVec.toInt := rfl
  rw [Int32.le_iff_toInt_le, Int32.toInt_zero, hint, BitVec.toInt_eq_toNat_cond,
    UInt32.toNat_toBitVec]
  have hlt := x.toNat_lt
  split <;> omega

theorem small_of_le {x : UInt32} (h : x ≤ 32) : x.toNat < 2 ^ 31 :=
  Nat.lt_of_le_of_lt (UInt32.le_iff_toNat_le.mp h) (by decide)

theorem not_toInt32_le_zero {x : UInt32} (hone : 1 ≤ x) (hsmall : x.toNat < 2 ^ 31) :
    ¬x.toInt32 ≤ 0 := by
  intro hle
  have hzero := (toInt32_le_iff (y := 0) hsmall (by decide)).mp hle
  exact absurd (UInt32.le_trans hone hzero) (by decide)

theorem clamp_of_range {lower upper x : UInt32} (hlower : lower ≤ x) (hupper : x ≤ upper) :
    max lower (min x upper) = x := by
  have hmin : min x upper = x := if_pos hupper
  rw [hmin]
  exact if_pos hlower

theorem clamp_range {lower upper : UInt32} (h : lower ≤ upper) (x : UInt32) :
    lower ≤ max lower (min x upper) ∧ max lower (min x upper) ≤ upper := by
  have hmin : min x upper ≤ upper := by
    change (if x ≤ upper then x else upper) ≤ upper
    split
    · next hx => exact hx
    · exact UInt32.le_refl upper
  generalize min x upper = y at hmin
  change lower ≤ (if lower ≤ y then y else lower) ∧ (if lower ≤ y then y else lower) ≤ upper
  split
  · next hy => exact ⟨hy, hmin⟩
  · exact ⟨UInt32.le_refl lower, h⟩

namespace ApplicationSettings

theorem getLimit_range (settings : ApplicationSettings) (fieldName : String)
    (hdefault : 1 ≤ defaultLimit) (hdefault' : defaultLimit ≤ 32) :
    1 ≤ settings.getLimit fieldName defaultLimit ∧
      settings.getLimit fieldName defaultLimit ≤ 32 := by
  rw [getLimit]
  split
  · next stored _ =>
    split
    · exact ⟨hdefault, hdefault'⟩
    · next hpositive =>
      have hone : 1 ≤ stored.toUInt32 := by
        by_contra hzero
        rw [UInt32.le_iff_toNat_le, UInt32.toNat_one, Nat.not_le, Nat.lt_one_iff] at hzero
        have hstored : stored.toUInt32 = 0 := UInt32.toNat_inj.mp hzero
        rw [← Int32.toInt32_toUInt32 stored, hstored] at hpositive
        exact hpositive (by decide)
      change 1 ≤ (if stored.toUInt32 ≤ 32 then stored.toUInt32 else 32) ∧
        (if stored.toUInt32 ≤ 32 then stored.toUInt32 else 32) ≤ 32
      split
      · next hle => exact ⟨hone, hle⟩
      · decide
  · exact ⟨hdefault, hdefault'⟩

theorem getChatFontPointSize_le (settings : ApplicationSettings) :
    settings.getChatFontPointSize = 0 ∨
      6 ≤ settings.getChatFontPointSize ∧ settings.getChatFontPointSize ≤ 32 := by
  rw [getChatFontPointSize]
  split
  · split
    · exact .inl rfl
    · exact .inr (clamp_range (by decide) _)
  · exact .inl rfl

theorem getRate_lt (settings : ApplicationSettings) (fieldName : String) :
    (settings.getRate fieldName).toNat < 2 ^ 31 := by
  rw [getRate]
  split
  · next stored _ =>
    split
    · decide
    · next hnegative =>
      rw [← toInt32_nonneg_iff, Int32.toInt32_toUInt32]
      exact Int32.not_lt.mp hnegative
  · decide

end ApplicationSettings

namespace SettingsPages
open ApplicationSettings

/-- The largest cap that the dialog has. -/
def maximumRate : UInt32 := 102400 * bytesPerKilobyte

theorem div_bytesPerKilobyte (rate : UInt32) :
    (rate / bytesPerKilobyte).toNat = rate.toNat / 1024 := UInt32.toNat_div rate 1024

theorem min_le_maximum (kilobytes : UInt32) : (min kilobytes 102400).toNat ≤ 102400 := by
  change (if kilobytes ≤ 102400 then kilobytes else 102400).toNat ≤ 102400
  split
  · next hle => exact UInt32.le_iff_toNat_le.mp hle
  · decide

theorem toNat_cap (kilobytes : UInt32) :
    (min kilobytes 102400 * bytesPerKilobyte).toNat = (min kilobytes 102400).toNat * 1024 := by
  have hle := min_le_maximum kilobytes
  rw [UInt32.toNat_mul]
  change (min kilobytes 102400).toNat * 1024 % 2 ^ 32 = _
  omega

section
variable [QtFields] [QtWidgets]

/-- What becomes of a text that is shown and stored again. -/
def tidied (text : String) : String := storedText (shownText text)

/-- A text that can be shown as it is, with nothing to trim. -/
structure IsTidy (text : String) : Prop where
  valid : isUtf8 text = true
  trimmed : trimmedQString (toQString text) = toQString text
  short : utf16Length (toQString text) ≤ 32767

theorem IsTidy.tidied_eq (h : IsTidy text) : tidied text = text := by
  rw [tidied, shownText, QtFields.lineEditText_of_length h.short, storedText, h.trimmed]
  exact QtFields.toUtf8_fromUtf8 h.valid

/-- What is stored after the name of the user. -/
def laterEntries (pages : SettingsPages) : List (String × FieldValue) := [
  (ApplicationSettings.fieldUserStatus, .string (storedText pages.userStatusField)),
  (fieldAwayStatus, .string (storedText pages.awayStatusField)),
  (fieldDownloadDirectory, .string (storedText pages.downloadFolderField)),
  (fieldShareDirectory, .string (storedText pages.shareFolderField)),
  (fieldFileSharingEnabled, .bool pages.fileSharingBox),
  (fieldRetainFilePaths, .bool pages.retainFilePathsBox),
  (fieldMaxDownloads,
    .int32 (max 1 (min pages.maxDownloadsBox.toUInt32 maximumSessionLimit)).toInt32),
  (fieldMaxUploads,
    .int32 (max 1 (min pages.maxUploadsBox.toUInt32 maximumSessionLimit)).toInt32),
  (fieldMaxDownloadRate, .int32 (pages.downloadRateBox.toUInt32 * bytesPerKilobyte).toInt32),
  (fieldMaxUploadRate, .int32 (pages.uploadRateBox.toUInt32 * bytesPerKilobyte).toInt32),
  (fieldFirewalled, .bool pages.firewalledBox),
  (fieldAutoClear, .bool pages.autoClearBox),
  (fieldConnectOnStartup, .bool pages.connectOnStartupBox),
  (fieldNotificationsEnabled, .bool pages.notificationsBox),
  (fieldChatFontPointSize, .int32 pages.chatFontSizeBox.toUInt32.toInt32),
  (fieldAutoUpdateServers, .bool pages.autoUpdateServersBox),
  (fieldChatLogging, .bool pages.chatLoggingBox),
  (fieldLogDirectory, .string (storedText pages.logFolderField))]

/-- A nameless user is not stored. -/
def entries (pages : SettingsPages) : List (String × FieldValue) :=
  if trimmedQString pages.userNameField ≠ "" then
    (fieldUserName, .string (storedText pages.userNameField)) :: pages.laterEntries
  else pages.laterEntries

theorem entries_of_blank {pages : SettingsPages} (h : trimmedQString pages.userNameField = "") :
    pages.entries = pages.laterEntries := if_neg (not_not.mpr h)

theorem entries_of_name {pages : SettingsPages} (h : trimmedQString pages.userNameField ≠ "") :
    pages.entries = (fieldUserName, .string (storedText pages.userNameField)) ::
      pages.laterEntries := if_pos h

theorem applyToSettings_eq (pages : SettingsPages) (settings : ApplicationSettings) :
    pages.applyToSettings settings =
      pages.entries.foldl (fun settings e => settings.replace e.1 e.2) settings := by
  simp only [applyToSettings, entries]
  split <;> rfl

theorem laterEntries_names (pages : SettingsPages) : pages.laterEntries.map Prod.fst = [
    ApplicationSettings.fieldUserStatus, fieldAwayStatus, fieldDownloadDirectory,
    fieldShareDirectory, fieldFileSharingEnabled, fieldRetainFilePaths, fieldMaxDownloads,
    fieldMaxUploads, fieldMaxDownloadRate, fieldMaxUploadRate, fieldFirewalled, fieldAutoClear,
    fieldConnectOnStartup, fieldNotificationsEnabled, fieldChatFontPointSize,
    fieldAutoUpdateServers, fieldChatLogging, fieldLogDirectory] := rfl

theorem entries_nodup (pages : SettingsPages) : (pages.entries.map Prod.fst).Nodup := by
  rw [entries]
  split
  · rw [List.map_cons, laterEntries_names]
    change (fieldUserName :: _).Nodup
    decide
  · rw [laterEntries_names]
    decide

theorem find_applied (pages : SettingsPages) (settings : ApplicationSettings)
    (hm : (name, value) ∈ pages.laterEntries) {pick : FieldValue → Option α}
    (hpick : pick value = some v) :
    ((pages.applyToSettings settings).items pick name).head? = some v := by
  have hm' : (name, value) ∈ pages.entries := by
    rw [entries]
    split
    · exact List.mem_cons_of_mem _ hm
    · exact hm
  rw [applyToSettings_eq]
  exact Message.head?_items_foldl_replace pages.entries_nodup hm' hpick settings

end

section
variable [QtFields]

theorem limitBox_toUInt32 {limit : UInt32} (h : 1 ≤ limit) (h' : limit ≤ 32) :
    (limitBox limit).toUInt32 = limit := by
  have hsmall := small_of_le h'
  have hlower : (1 : Int32) ≤ limit.toInt32 := (toInt32_le_iff (by decide) hsmall).mpr h
  have hupper : limit.toInt32 ≤ (32 : Int32) := (toInt32_le_iff hsmall (by decide)).mpr h'
  rw [limitBox, QtFields.spinBoxValue_of_range hlower hupper, UInt32.toUInt32_toInt32]

/-- A cap goes through the dialog in kilobytes. -/
theorem rateBox_mul {rate : UInt32} (hrate : rate.toNat < 2 ^ 31) :
    (rateBox rate).toUInt32 * bytesPerKilobyte =
      min (rate / bytesPerKilobyte) 102400 * bytesPerKilobyte := by
  have hquotient := div_bytesPerKilobyte rate
  have hsmall : (rate / bytesPerKilobyte).toNat < 2 ^ 31 := by omega
  by_cases hle : rate / bytesPerKilobyte ≤ 102400
  · have hlower : (0 : Int32) ≤ (rate / bytesPerKilobyte).toInt32 :=
      toInt32_nonneg_iff.mpr hsmall
    have hupper : (rate / bytesPerKilobyte).toInt32 ≤ (102400 : Int32) :=
      (toInt32_le_iff hsmall (by decide)).mpr hle
    have hmin : min (rate / bytesPerKilobyte) 102400 = rate / bytesPerKilobyte := if_pos hle
    rw [rateBox, QtFields.spinBoxValue_of_range hlower hupper, UInt32.toUInt32_toInt32, hmin]
  · have hover : (102400 : Int32) ≤ (rate / bytesPerKilobyte).toInt32 :=
      (toInt32_le_iff (by decide) hsmall).mpr (UInt32.le_of_lt (UInt32.not_le.mp hle))
    have hmin : min (rate / bytesPerKilobyte) 102400 = 102400 := if_neg hle
    rw [rateBox, QtFields.spinBoxValue_of_over (by decide) hover, hmin]
    rfl

end

end SettingsPages

namespace ApplicationSettings

section
variable {settings : ApplicationSettings} {fieldName : String}

theorem getString_of_find (h : (settings.items Message.asString fieldName).head? = some value)
    (defaultValue : String) :
    settings.getString fieldName defaultValue = if value = "" then defaultValue else value := by
  rw [getString, Message.findString, Message.strings, h]

theorem getBool_of_find (h : (settings.items Message.asBool fieldName).head? = some value) :
    settings.getBool fieldName = value := by
  rw [getBool, Message.findBool, h]
  rfl

theorem getLimit_of_find {limit : UInt32} (hlower : 1 ≤ limit) (hupper : limit ≤ 32)
    (h : (settings.items Message.asInt32 fieldName).head? = some limit.toInt32)
    (defaultLimit : UInt32) : settings.getLimit fieldName defaultLimit = limit := by
  have hpositive := not_toInt32_le_zero hlower (small_of_le hupper)
  have hmin : min limit maximumSessionLimit = limit := if_pos hupper
  rw [getLimit, Message.findInt32, h]
  simp only [if_neg hpositive, UInt32.toUInt32_toInt32, hmin]

theorem getRate_of_find {rate : UInt32} (hrate : rate.toNat < 2 ^ 31)
    (h : (settings.items Message.asInt32 fieldName).head? = some rate.toInt32) :
    settings.getRate fieldName = rate := by
  have hnot : ¬rate.toInt32 < 0 := Int32.not_lt.mpr (toInt32_nonneg_iff.mpr hrate)
  rw [getRate, Message.findInt32, h]
  simp only [if_neg hnot, UInt32.toUInt32_toInt32]

end

end ApplicationSettings

namespace ApplicationSettings

/-- What the dialog covers, apart from the name of the user. -/
def flagGetters : List (ApplicationSettings → Bool) := [
  getFileSharingEnabled, getRetainFilePaths, getFirewalled, getAutoClearFinishedTransfers,
  getConnectOnStartup, getNotificationsEnabled, getAutoUpdateServerList, getChatLoggingEnabled]

def numberGetters : List (ApplicationSettings → UInt32) := [
  getMaxSimultaneousDownloads, getMaxSimultaneousUploads, getChatFontPointSize]

def rateGetters : List (ApplicationSettings → UInt32) := [getMaxDownloadRate, getMaxUploadRate]

/-- Each text with its default. -/
def textGetters [Environment] : List ((ApplicationSettings → String) × String) := [
  (getUserStatus, defaultUserStatus), (getAwayStatus, defaultAwayStatus),
  (getDownloadDirectory, getDefaultDownloadDirectoryPath),
  (getShareDirectory, getDefaultShareDirectoryPath), (getLogDirectory, getDefaultLogDirectoryPath)]

end ApplicationSettings

namespace SettingsPages
open ApplicationSettings

/-- A cap of a kilobyte or more becomes whole kilobytes, within the range of the dialog. -/
structure KeepsRate (before after : UInt32) : Prop where
  kilobytes : bytesPerKilobyte ≤ before →
    after = min (before / bytesPerKilobyte) 102400 * bytesPerKilobyte
  limited : bytesPerKilobyte ≤ before → after ≠ 0
  whole : before % bytesPerKilobyte = 0 → before ≤ maximumRate → after = before

theorem keepsRate (before : UInt32) :
    KeepsRate before (min (before / bytesPerKilobyte) 102400 * bytesPerKilobyte) where
  kilobytes _ := rfl
  limited h := by
    intro hzero
    have hcap := toNat_cap (before / bytesPerKilobyte)
    rw [hzero] at hcap
    have hone : 1024 ≤ before.toNat := UInt32.le_iff_toNat_le.mp h
    have hquotient := div_bytesPerKilobyte before
    have hmin : (min (before / bytesPerKilobyte) 102400).toNat ≠ 0 := by
      change (if before / bytesPerKilobyte ≤ 102400 then before / bytesPerKilobyte
        else 102400).toNat ≠ 0
      split
      · omega
      · decide
    change 0 = _ at hcap
    omega
  whole hwhole hle := by
    have hmod : before.toNat % 1024 = 0 := by
      rw [← UInt32.toNat_inj] at hwhole
      exact (UInt32.toNat_mod before 1024).symm.trans hwhole
    have hmax : before.toNat ≤ 104857600 := UInt32.le_iff_toNat_le.mp hle
    have hquotient := div_bytesPerKilobyte before
    have hquotientLe : before / bytesPerKilobyte ≤ 102400 := by
      rw [UInt32.le_iff_toNat_le, hquotient]
      change _ ≤ 102400
      omega
    have hmin : min (before / bytesPerKilobyte) 102400 = before / bytesPerKilobyte :=
      if_pos hquotientLe
    rw [← UInt32.toNat_inj, toNat_cap, hmin, hquotient]
    omega

section
variable [QtFields] [QtWidgets] [Environment]

/-- The dialog is opened and accepted as it is. -/
def accepted (settings : ApplicationSettings) : ApplicationSettings :=
  (loadFromSettings settings).applyToSettings settings

/-- Nothing that the dialog covers is another one. -/
structure SameSettings (settings settings' : ApplicationSettings) : Prop where
  userName : settings'.getUserName = settings.getUserName
  texts : ∀ text ∈ textGetters, text.1 settings' = text.1 settings
  flags : ∀ getter ∈ flagGetters, getter settings' = getter settings
  numbers : ∀ getter ∈ numberGetters, getter settings' = getter settings
  rates : ∀ getter ∈ rateGetters, getter settings' = getter settings

omit [Environment] in
/-- A text is tidied, and a default stands for one of which nothing is left. -/
structure KeepsText (defaultText before after : String) : Prop where
  text : after = if tidied before = "" then defaultText else tidied before
  tidy : IsTidy before → after = before

/-- A blank name is not stored. -/
structure KeepsUserName (before after : String) : Prop where
  blank : trimmedQString (shownText before) = "" → after = before
  text : trimmedQString (shownText before) ≠ "" →
    after = if tidied before = "" then defaultUserName else tidied before
  tidy : IsTidy before → after = before

structure KeepsSettings (settings settings' : ApplicationSettings) : Prop where
  userName : KeepsUserName settings.getUserName settings'.getUserName
  texts : ∀ text ∈ textGetters, KeepsText text.2 (text.1 settings) (text.1 settings')
  flags : ∀ getter ∈ flagGetters, getter settings' = getter settings
  numbers : ∀ getter ∈ numberGetters, getter settings' = getter settings
  rates : ∀ getter ∈ rateGetters, KeepsRate (getter settings) (getter settings')

omit [Environment] in
/-- An empty text is shown only where the default is empty. -/
theorem keepsText_of_find {settings settings' : ApplicationSettings} {fieldName : String}
    (h : (settings'.items Message.asString fieldName).head? =
      some (tidied (settings.getString fieldName defaultText))) :
    KeepsText defaultText (settings.getString fieldName defaultText)
      (settings'.getString fieldName defaultText) := by
  have htext := getString_of_find h defaultText
  refine ⟨htext, fun htidy => ?_⟩
  rw [htext, htidy.tidied_eq]
  split
  · next hempty =>
    by_contra hne
    exact getString_ne settings fieldName (fun h => hne (h.trans hempty.symm)) hempty
  · rfl

theorem accepted_find (settings : ApplicationSettings)
    (hm : (name, value) ∈ (loadFromSettings settings).laterEntries)
    {pick : FieldValue → Option α} (hpick : pick value = some v) :
    ((accepted settings).items pick name).head? = some v :=
  find_applied (loadFromSettings settings) settings hm hpick

theorem accepted_string (settings : ApplicationSettings)
    (hm : (name, .string value) ∈ (loadFromSettings settings).laterEntries) :
    ((accepted settings).items Message.asString name).head? = some value :=
  accepted_find settings hm rfl

theorem accepted_texts (settings : ApplicationSettings) : ∀ text ∈ textGetters,
    KeepsText text.2 (text.1 settings) (text.1 (accepted settings)) := by
  simp only [textGetters, List.forall_mem_cons, List.not_mem_nil, false_implies, implies_true,
    and_true, getUserStatus, getAwayStatus, getDownloadDirectory, getShareDirectory,
    getLogDirectory]
  refine ⟨?_, ?_, ?_, ?_, ?_⟩
  all_goals
    refine keepsText_of_find (accepted_string settings ?_)
    simp only [laterEntries, loadFromSettings, List.mem_cons, tidied, getUserStatus, getAwayStatus,
      getDownloadDirectory, getShareDirectory, getLogDirectory, true_or, or_true]

/-- Nothing is stored of a blank name. -/
theorem getUserName_of_blank {settings : ApplicationSettings}
    (h : trimmedQString (loadFromSettings settings).userNameField = "") :
    (accepted settings).getUserName = settings.getUserName := by
  apply getString_congr
  rw [accepted, applyToSettings_eq, entries_of_blank h]
  apply Message.items_foldl_replace_of_not_mem
  rw [laterEntries_names]
  decide

theorem find_userName {settings : ApplicationSettings}
    (h : trimmedQString (loadFromSettings settings).userNameField ≠ "") :
    ((accepted settings).items Message.asString fieldUserName).head? =
      some (tidied settings.getUserName) := by
  have hm : (fieldUserName, .string (tidied settings.getUserName)) ∈
      (loadFromSettings settings).entries := by
    rw [entries_of_name h]
    exact List.mem_cons_self
  have hpick : Message.asString (.string (tidied settings.getUserName)) =
      some (tidied settings.getUserName) := rfl
  rw [accepted, applyToSettings_eq]
  exact Message.head?_items_foldl_replace (loadFromSettings settings).entries_nodup hm hpick _

theorem accepted_userName (settings : ApplicationSettings) :
    KeepsUserName settings.getUserName (accepted settings).getUserName := by
  by_cases hblank : trimmedQString (loadFromSettings settings).userNameField = ""
  · have hsame := getUserName_of_blank hblank
    exact ⟨fun _ => hsame, fun h => absurd hblank h, fun _ => hsame⟩
  · have hkeeps := keepsText_of_find (find_userName hblank)
    exact ⟨fun h => absurd h hblank, fun _ => hkeeps.text, hkeeps.tidy⟩

theorem accepted_bool (settings : ApplicationSettings)
    (hm : (name, .bool value) ∈ (loadFromSettings settings).laterEntries) :
    ((accepted settings).items Message.asBool name).head? = some value :=
  accepted_find settings hm rfl

theorem accepted_int32 (settings : ApplicationSettings)
    (hm : (name, .int32 value) ∈ (loadFromSettings settings).laterEntries) :
    ((accepted settings).items Message.asInt32 name).head? = some value :=
  accepted_find settings hm rfl

theorem accepted_notifications (settings : ApplicationSettings) :
    (accepted settings).getNotificationsEnabled = settings.getNotificationsEnabled := by
  have hm : (fieldNotificationsEnabled, .bool settings.getNotificationsEnabled) ∈
      (loadFromSettings settings).laterEntries := by
    simp only [laterEntries, loadFromSettings, List.mem_cons, true_or, or_true]
  rw [getNotificationsEnabled, Message.findBool, accepted_bool settings hm]
  rfl

theorem accepted_flags (settings : ApplicationSettings) :
    ∀ getter ∈ flagGetters, getter (accepted settings) = getter settings := by
  simp only [flagGetters, List.forall_mem_cons, List.not_mem_nil, false_implies, implies_true,
    and_true, accepted_notifications, true_and]
  refine ⟨?_, ?_, ?_, ?_, ?_, ?_, ?_⟩
  all_goals
    refine getBool_of_find (accepted_bool settings ?_)
    simp only [laterEntries, loadFromSettings, List.mem_cons, getFileSharingEnabled,
      getRetainFilePaths, getFirewalled, getAutoClearFinishedTransfers, getConnectOnStartup,
      getAutoUpdateServerList, getChatLoggingEnabled, true_or, or_true]

theorem accepted_limit (settings : ApplicationSettings) {fieldName : String}
    (hdefault : 1 ≤ defaultLimit) (hdefault' : defaultLimit ≤ 32)
    (hm : (fieldName, .int32 (max 1 (min (limitBox (settings.getLimit fieldName
      defaultLimit)).toUInt32 maximumSessionLimit)).toInt32) ∈
        (loadFromSettings settings).laterEntries) :
    (accepted settings).getLimit fieldName defaultLimit =
      settings.getLimit fieldName defaultLimit := by
  obtain ⟨hlower, hupper⟩ := settings.getLimit_range fieldName hdefault hdefault'
  have hclamp : max 1 (min (settings.getLimit fieldName defaultLimit) maximumSessionLimit) =
      settings.getLimit fieldName defaultLimit := clamp_of_range hlower hupper
  rw [limitBox_toUInt32 hlower hupper, hclamp] at hm
  exact getLimit_of_find hlower hupper (accepted_int32 settings hm) defaultLimit

theorem accepted_fontSize (settings : ApplicationSettings) :
    (accepted settings).getChatFontPointSize = settings.getChatFontPointSize := by
  have hle : settings.getChatFontPointSize ≤ 32 := by
    rcases settings.getChatFontPointSize_le with hzero | ⟨-, hle⟩
    · rw [hzero]
      decide
    · exact hle
  have hsmall := small_of_le hle
  have hlower : (0 : Int32) ≤ settings.getChatFontPointSize.toInt32 :=
    toInt32_nonneg_iff.mpr hsmall
  have hupper : settings.getChatFontPointSize.toInt32 ≤ (32 : Int32) :=
    (toInt32_le_iff hsmall (by decide)).mpr hle
  have hm : (fieldChatFontPointSize, .int32 settings.getChatFontPointSize.toInt32) ∈
      (loadFromSettings settings).laterEntries := by
    simp only [laterEntries, loadFromSettings, QtFields.spinBoxValue_of_range hlower hupper,
      UInt32.toUInt32_toInt32, List.mem_cons, true_or, or_true]
  have hfind := accepted_int32 settings hm
  generalize (accepted settings) = settings' at hfind
  rw [getChatFontPointSize.eq_1 settings', Message.findInt32, hfind]
  rcases settings.getChatFontPointSize_le with hzero | ⟨hsix, -⟩
  · rw [hzero]
    rfl
  · have hpositive := not_toInt32_le_zero (UInt32.le_trans (by decide) hsix) hsmall
    simp only [if_neg hpositive, UInt32.toUInt32_toInt32]
    exact clamp_of_range hsix hle

theorem accepted_numbers (settings : ApplicationSettings) :
    ∀ getter ∈ numberGetters, getter (accepted settings) = getter settings := by
  simp only [numberGetters, List.forall_mem_cons, List.not_mem_nil, false_implies, implies_true,
    and_true, accepted_fontSize, getMaxSimultaneousDownloads, getMaxSimultaneousUploads]
  refine ⟨accepted_limit settings (by decide) (by decide) ?_,
    accepted_limit settings (by decide) (by decide) ?_⟩
  all_goals
    simp only [laterEntries, loadFromSettings, List.mem_cons, getMaxSimultaneousDownloads,
      getMaxSimultaneousUploads, true_or, or_true]

theorem accepted_rate (settings : ApplicationSettings) {fieldName : String}
    (hm : (fieldName, .int32 ((rateBox (settings.getRate fieldName)).toUInt32 *
      bytesPerKilobyte).toInt32) ∈ (loadFromSettings settings).laterEntries) :
    KeepsRate (settings.getRate fieldName) ((accepted settings).getRate fieldName) := by
  have hcap := toNat_cap (settings.getRate fieldName / bytesPerKilobyte)
  have hle := min_le_maximum (settings.getRate fieldName / bytesPerKilobyte)
  rw [rateBox_mul (settings.getRate_lt fieldName)] at hm
  rw [getRate_of_find (by omega) (accepted_int32 settings hm)]
  exact keepsRate _

theorem accepted_rates (settings : ApplicationSettings) :
    ∀ getter ∈ rateGetters, KeepsRate (getter settings) (getter (accepted settings)) := by
  simp only [rateGetters, List.forall_mem_cons, List.not_mem_nil, false_implies, implies_true,
    and_true, getMaxDownloadRate, getMaxUploadRate]
  refine ⟨accepted_rate settings ?_, accepted_rate settings ?_⟩
  all_goals
    simp only [laterEntries, loadFromSettings, List.mem_cons, getMaxDownloadRate, getMaxUploadRate,
      true_or, or_true]

/-- What accepting the dialog as it was opened leaves as it was. -/
theorem accepted_keeps (settings : ApplicationSettings) :
    KeepsSettings settings (accepted settings) where
  userName := accepted_userName settings
  texts := accepted_texts settings
  flags := accepted_flags settings
  numbers := accepted_numbers settings
  rates := accepted_rates settings

end

section
attribute [local instance] plainFields plainWidgets noEnvironment

/-- A user whose status stands between spaces. -/
def spacedSettings : ApplicationSettings :=
  setUserStatus (.ofWhat ()) " here "

/-- The dialog takes the spaces away. -/
theorem spaces_are_lost : ¬∀ settings, SameSettings settings (accepted settings) := by
  intro h
  have hstatus := (h spacedSettings).texts (getUserStatus, defaultUserStatus) List.mem_cons_self
  exact absurd hstatus (by decide)

end

end SettingsPages

end HiTuxShare
