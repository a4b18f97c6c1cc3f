import HiTuxShare.DownloadPaths
import Mathlib.Data.List.Induction
import Mathlib.Logic.Relation

namespace HiTuxShare
set_option autoImplicit true

open MuscleText

inductive MkdirAnswer where
  | made
  | eexist
  | failed (errno : Nat)
  deriving DecidableEq

/-- What the three copies of `CreateDirectoryTree` return; one of them keeps only whether it is the
first. -/
inductive DirectoryStatus where
  | noError
  | badArgument
  | errno (number : Nat)
  deriving DecidableEq

/-- The names on the way along a path. -/
def pathNames (path : String) : List String := (LexicalPath.components path).filter (· ≠ "")

def isAbsolute (path : String) : Bool := path.toList.head? = some '/'

/-- Two spellings of one path, which differ in the number of slashes only. -/
def SamePath (path path' : String) : Prop :=
  isAbsolute path = isAbsolute path' ∧ pathNames path = pathNames path'

/-- The calls of the operating system, with what is documented about them. `isDirectory` is about a
path as `open` follows it: from the working directory unless it is absolute, and along links. -/
structure Posix (σ : Type u) where
  isDirectory : σ → String → Bool
  mkdir : Nat → σ → String → σ × MkdirAnswer
  mkdir_made : ∀ {mode s path}, (mkdir mode s path).2 = .made →
    isDirectory (mkdir mode s path).1 path = true
  mkdir_unmade : ∀ {mode s path}, (mkdir mode s path).2 ≠ .made → (mkdir mode s path).1 = s
  mkdir_keeps : ∀ {mode s path path'}, isDirectory s path' = true →
    isDirectory (mkdir mode s path).1 path' = true
  isDirectory_spelling : ∀ {s path path'}, SamePath path path' → path ≠ "" → path' ≠ "" →
    isDirectory s path = isDirectory s path'
  isDirectory_root : ∀ s, isDirectory s "/" = true

/-- Of the tokens of a path only those that are empty are not on the way along it. -/
class PathTokens extends MuscleText where
  names_tokenize : ∀ path, (tokenize path).filter (· ≠ "") = pathNames path

abbrev asciiTokens : PathTokens where
  toMuscleText := asciiText
  names_tokenize path := by
    change (pathNames path).filter (· ≠ "") = pathNames path
    rw [pathNames, List.filter_filter]
    simp only [Bool.and_self]

namespace Posix

variable {σ : Type u} (fs : Posix σ)

/-- The loop over the components. What exists already is fine, whatever it is. -/
def makeEach (mode : Nat) (s : σ) (pathSoFar : String) : List String → σ × DirectoryStatus
  | [] => (s, .noError)
  | component :: rest =>
    let path := pathSoFar ++ "/" ++ component
    match fs.mkdir mode s path with
    | (s, .failed number) => (s, .errno number)
    | (s, .made) => makeEach mode s path rest
    | (s, .eexist) => makeEach mode s path rest

def createDirectoryTree [MuscleText] (mode : Nat) (s : σ) (directoryPath : String) :
    σ × DirectoryStatus :=
  if directoryPath = "" then (s, .badArgument)
  else fs.makeEach mode s "" (tokenize directoryPath)

/-- What `mkdir` answers along a path, as a caller sees it who only asks which calls fail. -/
def AnswersAs (mkdirFails : String → Bool) (mode : Nat) (s : σ) (pathSoFar : String) :
    List String → Prop
  | [] => True
  | component :: rest =>
    let path := pathSoFar ++ "/" ++ component
    (mkdirFails path = true ↔ ∃ number, (fs.mkdir mode s path).2 = .failed number) ∧
      AnswersAs mkdirFails mode (fs.mkdir mode s path).1 path rest

theorem makeEach_noError_iff {fs : Posix σ} {mkdirFails : String → Bool}
    (h : fs.AnswersAs mkdirFails mode s pathSoFar components) :
    (fs.makeEach mode s pathSoFar components).2 = .noError ↔
      createDirectoryTree.makeEach mkdirFails pathSoFar components = true := by
  induction components generalizing s pathSoFar with
  | nil => simp [makeEach, createDirectoryTree.makeEach]
  | cons component rest ih =>
    obtain ⟨hfails, hlater⟩ := h
    rw [makeEach, createDirectoryTree.makeEach]
    cases hmkdir : fs.mkdir mode s (pathSoFar ++ "/" ++ component) with
    | mk s' answer =>
      rw [hmkdir] at hfails hlater
      cases answer with
      | made =>
        rw [if_neg fun hfail => by simpa using hfails.mp hfail]
        exact ih hlater
      | eexist =>
        rw [if_neg fun hfail => by simpa using hfails.mp hfail]
        exact ih hlater
      | failed number =>
        rw [if_pos (hfails.mpr ⟨number, rfl⟩)]
        exact iff_of_false (fun herror => by cases herror) Bool.false_ne_true

/-- The download, the settings and the log are told no more than this. -/
theorem createDirectoryTree_noError_iff [MuscleText] {fs : Posix σ} {mkdirFails : String → Bool}
    (h : fs.AnswersAs mkdirFails mode s "" (tokenize directoryPath)) :
    (fs.createDirectoryTree mode s directoryPath).2 = .noError ↔
      HiTuxShare.createDirectoryTree mkdirFails directoryPath = true := by
  rw [Posix.createDirectoryTree, HiTuxShare.createDirectoryTree]
  by_cases hempty : directoryPath = ""
  · rw [if_pos hempty, if_pos hempty]
    exact iff_of_false (fun herror => by cases herror) Bool.false_ne_true
  · rw [if_neg hempty, if_neg hempty]
    exact makeEach_noError_iff h

section Copies
variable [MuscleText] (s : σ) (directoryPath : String)

def FileDownload.createDirectoryTree : σ × DirectoryStatus :=
  fs.createDirectoryTree 0o755 s directoryPath

def ApplicationSettings.createDirectoryTree : σ × DirectoryStatus :=
  fs.createDirectoryTree 0o700 s directoryPath

def ChatLogger.createDirectoryTree : σ × Bool :=
  let result := fs.createDirectoryTree 0o700 s directoryPath
  (result.1, result.2 = .noError)

end Copies

variable [PathTokens]

/-- The states that calls of `mkdir` lead to. -/
def Reaches (mode : Nat) : σ → σ → Prop :=
  Relation.ReflTransGen fun s s' => ∃ path, s' = (fs.mkdir mode s path).1

/-- Whether the path names a directory is not touched by making directories of its names below the
root. -/
def Apart (mode : Nat) (s : σ) (path : String) : Prop :=
  ∀ s' names, fs.Reaches mode s s' → names <+: tokenize path →
    fs.isDirectory (fs.mkdir mode s' (LexicalPath.below names)).1 path = fs.isDirectory s' path

end Posix

section

/-- What is where, with a mark on directories, seen from the working directory `/home`. There are no
links. -/
abbrev FlatFiles := List (Location × Bool)

def locate (path : String) : Location :=
  LexicalPath.walk (if isAbsolute path then [] else ["home"]) path

def FlatFiles.isDirectory (files : FlatFiles) (place : Location) : Bool :=
  place = [] || (place, true) ∈ files

def FlatFiles.mkdir (files : FlatFiles) (place : Location) : FlatFiles × MkdirAnswer :=
  if place = [] ∨ place ∈ files.map Prod.fst then (files, .eexist)
  else if files.isDirectory place.dropLast then ((place, true) :: files, .made)
  else (files, .failed 2)

theorem locate_eq_of_samePath (h : SamePath path path') : locate path = locate path' := by
  have hskip (names : List String) (start : Location) :
      names.foldl LexicalPath.enter start =
        (names.filter (· ≠ "")).foldl LexicalPath.enter start := by
    induction names generalizing start with
    | nil => rfl
    | cons name names ih =>
      by_cases hname : name = ""
      · rw [List.filter_cons_of_neg (by simpa using hname), List.foldl_cons, ih,
          LexicalPath.enter, if_pos (.inl hname)]
      · rw [List.filter_cons_of_pos (by simpa using hname), List.foldl_cons, List.foldl_cons, ih]
  obtain ⟨habsolute, hnames⟩ := h
  rw [pathNames, pathNames] at hnames
  rw [locate, locate, LexicalPath.walk, LexicalPath.walk, hskip, hnames, ← hskip, habsolute]

def flatPosix : Posix FlatFiles where
  isDirectory files path := files.isDirectory (locate path)
  mkdir _ files path := files.mkdir (locate path)
  mkdir_made := by
    intro _ files path h
    rw [FlatFiles.mkdir] at h ⊢
    split at h
    · cases h
    · next hplace =>
      split at h
      · next hparent =>
        rw [if_neg hplace, if_pos hparent, FlatFiles.isDirectory, Bool.or_eq_true]
        exact .inr (decide_eq_true List.mem_cons_self)
      · cases h
  mkdir_unmade := by
    intro _ files path h
    rw [FlatFiles.mkdir] at h ⊢
    split
    · rfl
    · next hplace =>
      split
      · next hparent =>
        rw [if_neg hplace, if_pos hparent] at h
        exact absurd rfl h
      · rfl
  mkdir_keeps := by
    intro _ files path path' h
    rw [FlatFiles.mkdir]
    split
    · exact h
    · split
      · rw [FlatFiles.isDirectory, Bool.or_eq_true] at h ⊢
        exact h.imp_right fun hm =>
          decide_eq_true (List.mem_cons_of_mem _ (of_decide_eq_true hm))
      · exact h
  isDirectory_spelling h _ _ := by rw [locate_eq_of_samePath h]
  isDirectory_root _ := rfl

theorem flatPosix_apart [PathTokens]
    (h : ∀ names, names <+: tokenize path → locate (LexicalPath.below names) ≠ locate path) :
    flatPosix.Apart mode s path := by
  intro files names _ hnames
  have hother := h names hnames
  change (files.mkdir (locate (LexicalPath.below names))).1.isDirectory (locate path) =
    files.isDirectory (locate path)
  rw [FlatFiles.mkdir]
  split
  · rfl
  · split
    · rw [FlatFiles.isDirectory, FlatFiles.isDirectory]
      congr 1
      rw [decide_eq_decide, List.mem_cons, Prod.mk.injEq]
      exact or_iff_right fun hmade => hother hmade.1.symm
    · rfl

attribute [local instance] asciiTokens
open Posix

example : flatPosix.Apart 0o755 [(["home"], true)] "music" := by
  refine flatPosix_apart fun names hnames => ?_
  obtain rfl | ⟨rest, rfl, hrest⟩ := List.prefix_cons_iff.mp hnames
  · decide
  · rw [List.prefix_nil.mp hrest]
    decide

end

end HiTuxShare
