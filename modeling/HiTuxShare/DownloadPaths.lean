import HiTuxShare.LexicalPath

namespace HiTuxShare
set_option autoImplicit true

/-- The two text functions of the messaging library that path handling rests on. A string is
the list of its bytes, one character each. -/
class MuscleText where
  isSpaceChar : Char → Bool
  /-- The tokens a `StringTokenizer` with the separator `/` hands out. -/
  tokenize : String → List String

open MuscleText

/-- The two functions as they work on plain ASCII paths. -/
abbrev asciiText : MuscleText where
  isSpaceChar character := character = ' ' || character = '\t' || character = '\r' ||
    character = '\n'
  tokenize text := ((text.toList.splitOn '/').map String.ofList).filter (· ≠ "")

def trimmed [MuscleText] (text : List Char) : List Char :=
  ((text.dropWhile isSpaceChar).reverse.dropWhile isSpaceChar).reverse

/-- What replaces a byte that must not stand in a name. -/
def substitute (character : Char) : Char :=
  if character = '/' ∨ character = '\\' ∨ character.toNat < 0x20 then '_' else character

theorem length_trimmed_le [MuscleText] (text : List Char) :
    (trimmed text).length ≤ text.length := by
  have houter := (List.dropWhile_sublist isSpaceChar
    (l := (text.dropWhile isSpaceChar).reverse)).length_le
  have hinner := (List.dropWhile_sublist isSpaceChar (l := text)).length_le
  rw [trimmed, List.length_reverse]
  rw [List.length_reverse] at houter
  exact Nat.le_trans houter hinner

/-- The loop that takes leading dots and dashes off. -/
def stripLeading [MuscleText] : List Char → List Char
  | [] => []
  | character :: rest =>
    if character = '.' ∨ character = '-' then stripLeading (trimmed rest)
    else character :: rest
termination_by text => text.length
decreasing_by exact Nat.lt_succ_of_le (length_trimmed_le rest)

def sanitizePathComponent [MuscleText] (component : String) : String :=
  let safe := stripLeading (trimmed (component.toList.map substitute))
  if safe = ['.'] ∨ safe = ['.', '.'] then "" else String.ofList safe

def lastIndexOf (character : Char) (text : String) : Option Nat :=
  (text.toList.reverse.findIdx? (· = character)).map fun fromEnd => text.length - 1 - fromEnd

/-- The name up to its last dot, and the rest of it. A dot in front starts no extension. -/
def stemAndExtension (name : String) : String × String :=
  match lastIndexOf '.' name with
  | none => (name, "")
  | some dotIndex =>
    if 0 < dotIndex then
      (String.ofList (name.toList.take dotIndex), String.ofList (name.toList.drop dotIndex))
    else (name, "")

/-- The name tried instead of one that is taken. -/
def renamed (name : String) (attempt : Nat) : String :=
  (stemAndExtension name).1 ++ " (" ++ toString attempt ++ ")" ++ (stemAndExtension name).2

def maximumRenameAttempts : Nat := 64

/-- `candidate`, unless all the names `_OpenOutputFile` tries are taken. -/
def unusedPath (pathExists : String → Bool) (directory safeName : String) : Option String :=
  if pathExists (directory ++ "/" ++ safeName) then
    ((List.range' 2 (maximumRenameAttempts - 2)).map fun attempt =>
      directory ++ "/" ++ renamed safeName attempt).find? fun path => !pathExists path
  else some (directory ++ "/" ++ safeName)

theorem unusedPath_eq_some {pathExists : String → Bool}
    (h : unusedPath pathExists directory safeName = some path) :
    pathExists path = false ∧ (path = directory ++ "/" ++ safeName ∨
      ∃ attempt, path = directory ++ "/" ++ renamed safeName attempt) := by
  rw [unusedPath] at h
  split at h
  · have hfree := List.find?_some h
    obtain ⟨attempt, -, he⟩ := List.mem_map.mp (List.mem_of_find?_eq_some h)
    exact ⟨by simpa using hfree, .inr ⟨attempt, he.symm⟩⟩
  · next hfree =>
    cases h
    exact ⟨Bool.eq_false_iff.mpr hfree, .inl rfl⟩

theorem unusedPath_ne_empty {pathExists : String → Bool}
    (h : unusedPath pathExists directory safeName = some path) : path ≠ "" := by
  rintro rfl
  rcases (unusedPath_eq_some h).2 with he | ⟨attempt, he⟩
  · simpa using congrArg String.toList he
  · simpa using congrArg String.toList he

/-- Where the sharer's sub-path leads, each component made safe first. -/
def retainedDirectory [MuscleText] (downloadDirectory relativePath : String) : String :=
  (tokenize relativePath).foldl
    (fun directory component =>
      if sanitizePathComponent component = "" then directory
      else directory ++ "/" ++ sanitizePathComponent component)
    downloadDirectory

/-- `CreateDirectoryTree`, given what `mkdir` answers: success or an existing entry is fine. -/
def createDirectoryTree [MuscleText] (mkdirFails : String → Bool) (directoryPath : String) : Bool :=
  if directoryPath = "" then false
  else makeEach "" (tokenize directoryPath)
where
  makeEach (pathSoFar : String) : List String → Bool
    | [] => true
    | component :: rest =>
      if mkdirFails (pathSoFar ++ "/" ++ component) then false
      else makeEach (pathSoFar ++ "/" ++ component) rest

end HiTuxShare
