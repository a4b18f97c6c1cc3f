import HiTuxShare.ApplicationSettings
import HiTuxShare.DownloadPaths
import HiTuxShare.SizedBlocks

namespace HiTuxShare
set_option autoImplicit true

/-- How MUSCLE turns a message into bytes and back. Its sizes have 32 bits. -/
class MuscleFlattening where
  flatten : ApplicationSettings → List UInt8
  unflatten : List UInt8 → Option ApplicationSettings
  length_flatten : ∀ settings, (flatten settings).length < 256 ^ 4

open MuscleFlattening

def maximumSettingsFileSize : Nat := 4 * 1024 * 1024

/-- What the system answers while the settings are saved. -/
structure SaveAnswer where
  mkdirFails : String → Bool := fun _ => false
  fopenFails : Bool := false
  /-- A write that takes no more bytes than that and fails. -/
  writeFails : Option Nat := none

namespace ApplicationSettings

section
variable [Environment]

def getConfigDirectoryPath : String :=
  let configHome := Environment.getEnvironmentVariable "XDG_CONFIG_HOME"
  let homeDirectory := Environment.getEnvironmentVariable "HOME"
  if configHome ≠ "" then configHome ++ "/hituxshare"
  else if homeDirectory = "" then ""
  else homeDirectory ++ "/.config" ++ "/hituxshare"

def getSettingsFilePath : String :=
  if getConfigDirectoryPath = "" then "" else getConfigDirectoryPath ++ "/settings.msg"

variable [MuscleText]

/-- `Save` has come as far as the open file. -/
def opensFile (answer : SaveAnswer) : Bool :=
  createDirectoryTree answer.mkdirFails getConfigDirectoryPath &&
    getSettingsFilePath ≠ "" && !answer.fopenFails

theorem opensFile_iff {answer : SaveAnswer} : opensFile answer = true ↔
    createDirectoryTree answer.mkdirFails getConfigDirectoryPath = true ∧
      getSettingsFilePath ≠ "" ∧ answer.fopenFails = false := by
  simp only [opensFile, Bool.and_eq_true, decide_eq_true_eq, Bool.not_eq_true', and_assoc]

end

section
variable [Environment] [MuscleText] [MuscleFlattening]

/-- There may be no file yet. -/
def load (file : Option (List UInt8)) : Option ApplicationSettings :=
  if getSettingsFilePath = "" then none
  else file.bind fun bytes => (readSizedBlock maximumSettingsFileSize bytes).bind unflatten

/-- The file as it is afterwards, and whether all went well. A file that is opened is emptied. -/
def save (settings : ApplicationSettings) (answer : SaveAnswer) (file : Option (List UInt8)) :
    Option (List UInt8) × Bool :=
  if createDirectoryTree answer.mkdirFails getConfigDirectoryPath = false then (file, false)
  else if getSettingsFilePath = "" then (file, false)
  else if answer.fopenFails then (file, false)
  else
    let bytes := sizedBlock (flatten settings)
    match answer.writeFails with
    | some written =>
      if written < bytes.length then (some (bytes.take written), false) else (some bytes, true)
    | none => (some bytes, true)

theorem save_unopened (settings : ApplicationSettings) {answer : SaveAnswer}
    (h : ¬opensFile answer = true) (file : Option (List UInt8)) :
    settings.save answer file = (file, false) := by
  rw [opensFile_iff] at h
  rw [save]
  split
  · rfl
  · next hdirectory =>
    split
    · rfl
    · next hpath =>
      split
      · rfl
      · next hopen =>
        exact absurd ⟨Bool.eq_true_of_not_eq_false hdirectory, hpath,
          Bool.eq_false_of_not_eq_true hopen⟩ h

theorem save_opened (settings : ApplicationSettings) {answer : SaveAnswer}
    (h : opensFile answer = true) (file : Option (List UInt8)) :
    settings.save answer file =
      match answer.writeFails with
      | some written =>
        if written < (sizedBlock (flatten settings)).length then
          (some ((sizedBlock (flatten settings)).take written), false)
        else (some (sizedBlock (flatten settings)), true)
      | none => (some (sizedBlock (flatten settings)), true) := by
  obtain ⟨hdirectory, hpath, hopen⟩ := opensFile_iff.mp h
  rw [save, if_neg (by rw [hdirectory]; exact Bool.true_eq_false_eq_False), if_neg hpath,
    if_neg (by rw [hopen]; exact Bool.false_ne_true)]

/-- What has been saved is loaded again, if it is not too large. -/
theorem load_save {settings : ApplicationSettings} {answer : SaveAnswer}
    (hflatten : unflatten (flatten settings) = some settings)
    (hsize : (flatten settings).length ≤ maximumSettingsFileSize) {file : Option (List UInt8)}
    (h : (settings.save answer file).2 = true) :
    load (settings.save answer file).1 = some settings := by
  have hopens : opensFile answer = true := by
    by_contra hnot
    rw [settings.save_unopened hnot] at h
    cases h
  have hwritten : (settings.save answer file).1 = some (sizedBlock (flatten settings)) := by
    rw [settings.save_opened hopens] at h ⊢
    split at h
    · split at h
      · cases h
      · next hall => rw [if_neg hall]
    · rfl
  rw [hwritten, load, if_neg (opensFile_iff.mp hopens).2.1, Option.bind_some,
    readSizedBlock_sizedBlock (length_flatten settings) hsize, Option.bind_some, hflatten]

/-- A save that fails leaves what was there, or nothing that can be loaded. -/
theorem load_failed_save {settings stored : ApplicationSettings} {answer : SaveAnswer}
    {file : Option (List UInt8)} (hstored : load file = some stored)
    (hfail : (settings.save answer file).2 = false) :
    load (settings.save answer file).1 = if opensFile answer then none else some stored := by
  by_cases hopens : opensFile answer = true
  · have hcut : ∃ written < (sizedBlock (flatten settings)).length,
        (settings.save answer file).1 = some ((sizedBlock (flatten settings)).take written) := by
      rw [settings.save_opened hopens] at hfail ⊢
      split at hfail
      · next written _ =>
        split at hfail
        · next hshort =>
          rw [if_pos hshort]
          exact ⟨written, hshort, rfl⟩
        · cases hfail
      · cases hfail
    obtain ⟨written, hshort, hfile⟩ := hcut
    rw [hfile, if_pos hopens, load, if_neg (opensFile_iff.mp hopens).2.1, Option.bind_some,
      readSizedBlock_cut (length_flatten settings) hshort, Option.bind_none]
  · rw [settings.save_unopened hopens, if_neg hopens]
    exact hstored

end

section

/-- The header of a flattened message, which is all there is of one without fields: the protocol,
what it is about, and how many fields it has. -/
abbrev headerFlattening : MuscleFlattening where
  flatten settings := "00MP".toList.map (fun c => c.toNat.toUInt8) ++ toLittleEndian 4 0 ++
    toLittleEndian 4 settings.fields.length
  unflatten bytes :=
    if bytes = "00MP".toList.map (fun c => c.toNat.toUInt8) ++ toLittleEndian 4 0 ++
      toLittleEndian 4 0 then some (.ofWhat ()) else none
  length_flatten settings := by
    rw [List.length_append, List.length_append, List.length_map, length_toLittleEndian,
      length_toLittleEndian]
    decide

abbrev homeEnvironment : Environment :=
  ⟨fun variableName => if variableName = "HOME" then "/home/ann" else ""⟩

attribute [local instance] asciiText homeEnvironment headerFlattening

/-- Settings without a field, as they are in the file. -/
def savedSettings : List UInt8 := sizedBlock (flatten (.ofWhat ()))

/-- The disk is full once the file has been emptied. -/
theorem failed_save_loses_settings :
    ¬∀ (settings stored : ApplicationSettings) (answer : SaveAnswer) (file : Option (List UInt8)),
      load file = some stored → (settings.save answer file).2 = false →
        load (settings.save answer file).1 = some stored := by
  intro h
  have hlost := h (.ofWhat ()) (.ofWhat ()) { writeFails := some 0 } (some savedSettings)
    (by decide) (by decide)
  exact absurd hlost (by decide)

theorem load_failed_save_torn :
    load (save (.ofWhat ()) { writeFails := some 9 } (some savedSettings)).1 =
      if opensFile { writeFails := some 9 } then none else some (.ofWhat ()) :=
  load_failed_save (by decide) (by decide)

end

end ApplicationSettings

end HiTuxShare
