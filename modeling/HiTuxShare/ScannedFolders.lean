import HiTuxShare.BoundedWalk
import HiTuxShare.ScannerThread

namespace HiTuxShare
set_option autoImplicit true

/-- A directory by the two paths the scan knows it under. -/
structure Folder where
  directoryPath : String
  relativePath : String

def Hidden (entryName : String) : Prop := entryName.toList.head? = some '.'

instance : DecidablePred Hidden := fun entryName =>
  inferInstanceAs (Decidable (entryName.toList.head? = some '.'))

/-- `readdir` gives names, not paths. -/
def FileSystem.GivesNames (fs : FileSystem) : Prop :=
  ∀ directoryPath names, fs.opendir directoryPath = some names →
    ∀ name ∈ names, name ≠ "" ∧ '/' ∉ name.toList

/-- The share folder is opened before any other one. -/
def levelsScanned : Nat := maximumScanDepth + 1

/-- What an entry of a directory is to the scan. -/
def entryOf (fs : FileSystem) (folder : Folder) (entryName : String) :
    WalkEntry Folder SharedFile :=
  if Hidden entryName then .skipped
  else
    let fullPath := folder.directoryPath ++ "/" ++ entryName
    match fs.stat fullPath with
    | none => .skipped
    | some information =>
      match information.kind with
      | .directory =>
        .folder ⟨fullPath, if folder.relativePath = "" then entryName
          else folder.relativePath ++ "/" ++ entryName⟩
      | .regular =>
        .file
          { fileName := entryName
            relativePath := folder.relativePath
            absolutePath := fullPath
            kind := guessMimeType fs.typesByExtension entryName
            fileSize := information.size
            modificationTime := information.modificationTime }
      | .other => .skipped

def entriesOf (fs : FileSystem) (folder : Folder) : List (WalkEntry Folder SharedFile) :=
  ((fs.opendir folder.directoryPath).getD []).map (entryOf fs folder)

/-- Every regular file the scan comes past, as often as it does and in that order. -/
def visitedFiles (fs : FileSystem) (shareDirectory : String) : List SharedFile :=
  BoundedWalk.filesBelow (entriesOf fs) levelsScanned ⟨shareDirectory, ""⟩

/-- A file that is not hidden, at most `maximumScanDepth` directories below the share folder and
with no hidden one above it. -/
def Visited (fs : FileSystem) (shareDirectory : String) (file : SharedFile) : Prop :=
  ∃ depth ≤ maximumScanDepth, ∃ folder,
    BoundedWalk.Reaches (entriesOf fs) depth ⟨shareDirectory, ""⟩ folder ∧
      .file file ∈ entriesOf fs folder

theorem mem_visitedFiles :
    file ∈ visitedFiles fs shareDirectory ↔ Visited fs shareDirectory file := by
  rw [visitedFiles, BoundedWalk.mem_filesBelow]
  simp only [levelsScanned, Nat.lt_succ_iff]
  rfl

/-! What the scan does with an entry is what the entry is to it. -/

def OpenDirectory.folder (directory : OpenDirectory) : Folder :=
  ⟨directory.directoryPath, directory.relativePath⟩

def unreadEntries (fs : FileSystem) (opened : List OpenDirectory) :
    BoundedWalk.Stack Folder SharedFile :=
  opened.map fun directory => directory.unread.map (entryOf fs directory.folder)

theorem visitEntry_eq (fs : FileSystem) (directory : OpenDirectory) (entryName : String)
    (opened : List OpenDirectory) : visitEntry fs directory entryName opened =
      match entryOf fs directory.folder entryName with
      | .skipped => .scanning opened
      | .folder folder =>
        .scanning (enterDirectory fs folder.directoryPath folder.relativePath opened)
      | .file file => .claiming file opened := by
  by_cases hh : Hidden entryName
  · rw [entryOf, if_pos hh]
    exact if_pos hh
  · rw [entryOf, if_neg hh]
    apply (if_neg hh).trans
    dsimp only [OpenDirectory.folder]
    cases fs.stat (directory.directoryPath ++ "/" ++ entryName) with
    | none => rfl
    | some information =>
      dsimp only
      cases information.kind <;> rfl

theorem unreadEntries_enterDirectory (fs : FileSystem) (folder : Folder)
    (opened : List OpenDirectory) :
    let entered := enterDirectory fs folder.directoryPath folder.relativePath opened
    unreadEntries fs entered =
        BoundedWalk.enter (entriesOf fs) levelsScanned folder (unreadEntries fs opened) ∨
      unreadEntries fs entered = unreadEntries fs opened ∧
        BoundedWalk.enter (entriesOf fs) levelsScanned folder (unreadEntries fs opened) =
          [] :: unreadEntries fs opened := by
  have hlength : (unreadEntries fs opened).length = opened.length := List.length_map _
  by_cases hd : maximumScanDepth < opened.length
  · left
    rw [enterDirectory, if_pos hd, BoundedWalk.enter, if_neg]
    rw [hlength, levelsScanned]
    omega
  · have hlt : (unreadEntries fs opened).length < levelsScanned := by
      rw [hlength, levelsScanned]
      omega
    rw [enterDirectory, if_neg hd, BoundedWalk.enter, if_pos hlt, entriesOf]
    cases fs.opendir folder.directoryPath with
    | none => exact .inr ⟨rfl, rfl⟩
    | some names => exact .inl rfl

/-! Where the files lie. -/

/-- The share directory and the path below it, joined. -/
def joinPath (shareDirectory relativePath : String) : String :=
  if relativePath = "" then shareDirectory else shareDirectory ++ "/" ++ relativePath

/-- The parts of a path that was put together from names: none is hidden. -/
def MadeOfShownNames (relativePath : String) : Prop :=
  ∃ components : List String, relativePath = "/".intercalate components ∧
    ∀ name ∈ components, name ≠ "" ∧ '/' ∉ name.toList ∧ ¬ Hidden name

structure Folder.Placed (shareDirectory : String) (folder : Folder) : Prop where
  joined : folder.directoryPath = joinPath shareDirectory folder.relativePath
  shown : MadeOfShownNames folder.relativePath

structure FilePlaced (shareDirectory : String) (file : SharedFile) : Prop where
  joined : file.absolutePath = joinPath shareDirectory file.relativePath ++ "/" ++ file.fileName
  shown : MadeOfShownNames file.relativePath
  notHidden : ¬ Hidden file.fileName

theorem entryOf_of_mem {entry : WalkEntry Folder SharedFile} (hfs : fs.GivesNames)
    (hm : entry ∈ entriesOf fs folder) :
    ∃ name, (name ≠ "" ∧ '/' ∉ name.toList) ∧ entry = entryOf fs folder name := by
  rw [entriesOf] at hm
  cases ho : fs.opendir folder.directoryPath with
  | none =>
    rw [ho] at hm
    cases hm
  | some names =>
    rw [ho] at hm
    obtain ⟨name, hn, rfl⟩ := List.mem_map.mp hm
    exact ⟨name, hfs _ names ho name hn, rfl⟩

theorem entryOf_folder (h : entryOf fs folder name = .folder below) : ¬ Hidden name ∧
    below = ⟨folder.directoryPath ++ "/" ++ name,
      if folder.relativePath = "" then name else folder.relativePath ++ "/" ++ name⟩ := by
  rw [entryOf] at h
  split at h
  · cases h
  · next hn =>
    apply And.intro hn
    dsimp only at h
    split at h
    · cases h
    · split at h <;> cases h
      rfl

theorem entryOf_file (h : entryOf fs folder name = .file file) : ¬ Hidden name ∧
    file.fileName = name ∧ file.relativePath = folder.relativePath ∧
      file.absolutePath = folder.directoryPath ++ "/" ++ name := by
  rw [entryOf] at h
  split at h
  · cases h
  · next hn =>
    apply And.intro hn
    dsimp only at h
    split at h
    · cases h
    · split at h <;> cases h
      exact ⟨rfl, rfl, rfl⟩

theorem MadeOfShownNames.snoc (h : MadeOfShownNames relativePath) (hn : name ≠ "")
    (hs : '/' ∉ name.toList) (hd : ¬ Hidden name) :
    MadeOfShownNames (if relativePath = "" then name else relativePath ++ "/" ++ name) := by
  split
  · apply Exists.intro [name]
    apply And.intro String.intercalate_singleton.symm
    intro name' hm
    cases List.mem_singleton.mp hm
    exact ⟨hn, hs, hd⟩
  · next hr =>
    obtain ⟨components, rfl, hc⟩ := h
    have hne : components ≠ [] := by
      rintro rfl
      exact hr String.intercalate_nil
    apply Exists.intro (components ++ [name])
    constructor
    · rw [String.intercalate_append_of_ne_nil hne (List.cons_ne_nil _ _),
        String.intercalate_singleton]
    · intro name' hm
      rcases List.mem_append.mp hm with hm | hm
      · exact hc name' hm
      · cases List.mem_singleton.mp hm
        exact ⟨hn, hs, hd⟩

theorem Folder.Placed.below (hfs : fs.GivesNames) (h : folder.Placed shareDirectory)
    (hm : .folder folder' ∈ entriesOf fs folder) : folder'.Placed shareDirectory := by
  obtain ⟨name, ⟨hn, hs⟩, he⟩ := entryOf_of_mem hfs hm
  obtain ⟨hd, rfl⟩ := entryOf_folder he.symm
  constructor
  · dsimp only
    rw [h.joined, joinPath, joinPath]
    by_cases hr : folder.relativePath = ""
    · rw [if_pos hr, if_pos hr, if_neg hn]
    · have hne : folder.relativePath ++ "/" ++ name ≠ "" := by
        intro he
        exact hn (String.append_eq_empty_iff.mp he).2
      rw [if_neg hr, if_neg hr, if_neg hne]
      simp only [String.append_assoc]
  · exact h.shown.snoc hn hs hd

theorem Visited.placed (hfs : fs.GivesNames) (h : Visited fs shareDirectory file) :
    FilePlaced shareDirectory file := by
  obtain ⟨depth, -, folder, hr, hm⟩ := h
  have hroot : Folder.Placed shareDirectory ⟨shareDirectory, ""⟩ :=
    ⟨rfl, [], String.intercalate_nil.symm, fun _ hm => absurd hm List.not_mem_nil⟩
  have hplaced : folder.Placed shareDirectory :=
    hr.keeps (fun a a' ha hm => Folder.Placed.below hfs ha hm) hroot
  obtain ⟨name, -, he⟩ := entryOf_of_mem hfs hm
  obtain ⟨hd, hname, hrelative, habsolute⟩ := entryOf_file he.symm
  constructor
  · rw [habsolute, hrelative, hname, hplaced.joined]
  · rw [hrelative]
    exact hplaced.shown
  · rw [hname]
    exact hd

end HiTuxShare
