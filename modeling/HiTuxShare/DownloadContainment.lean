import HiTuxShare.DownloadBookkeeping

namespace HiTuxShare
set_option autoImplicit true

open LexicalPath MuscleText

/-- A byte that cannot change what path it stands in, nor hide in a name. -/
def IsPlainChar (character : Char) : Prop :=
  character ≠ '/' ∧ character ≠ '\\' ∧ 0x20 ≤ character.toNat

instance (character : Char) : Decidable (IsPlainChar character) :=
  inferInstanceAs (Decidable (_ ∧ _ ∧ _))

/-- A name that is safe to put on the filesystem as one path component. -/
structure SafeComponent (name : String) : Prop where
  ne_empty : name ≠ ""
  ne_dot : name ≠ "."
  ne_dotdot : name ≠ ".."
  plain : ∀ character ∈ name.toList, IsPlainChar character
  first : ∀ character ∈ name.toList.head?, character ≠ '.' ∧ character ≠ '-'

theorem SafeComponent.isPlain (h : SafeComponent name) : IsPlain name :=
  ⟨h.ne_empty, h.ne_dot, h.ne_dotdot, fun hm => (h.plain _ hm).1 rfl⟩

/-- The first byte settles the names that navigate. -/
theorem safeComponent_of_first (hne : name ≠ "")
    (hplain : ∀ character ∈ name.toList, IsPlainChar character)
    (hfirst : ∀ character ∈ name.toList.head?, character ≠ '.' ∧ character ≠ '-') :
    SafeComponent name := by
  refine ⟨hne, ?_, ?_, hplain, hfirst⟩
  · rintro rfl
    exact (hfirst '.' rfl).1 rfl
  · rintro rfl
    exact (hfirst '.' rfl).1 rfl

theorem substitute_plain (character : Char) : IsPlainChar (substitute character) := by
  rw [substitute]
  split
  · exact ⟨by decide, by decide, by decide⟩
  · next h =>
    obtain ⟨hslash, hback, hlow⟩ := not_or.mp h |>.imp_right not_or.mp
    exact ⟨hslash, hback, Nat.le_of_not_lt hlow⟩

section
variable [MuscleText]

theorem trimmed_subset (text : List Char) : trimmed text ⊆ text := by
  intro character hm
  have hinner := (List.dropWhile_subset _) (List.mem_reverse.mp hm)
  exact (List.dropWhile_subset _) (List.mem_reverse.mp hinner)

theorem stripLeading_subset (text : List Char) : stripLeading text ⊆ text := by
  fun_induction stripLeading text with
  | case1 => exact List.Subset.refl _
  | case2 character rest h ih =>
    exact fun _ hm => List.mem_cons_of_mem _ (trimmed_subset rest (ih hm))
  | case3 => exact List.Subset.refl _

/-- The loop only stops at a byte that is neither a dot nor a dash. -/
theorem stripLeading_first (text : List Char) :
    ∀ character ∈ (stripLeading text).head?, character ≠ '.' ∧ character ≠ '-' := by
  fun_induction stripLeading text with
  | case1 => simp
  | case2 character rest h ih => exact ih
  | case3 character rest h =>
    intro other hm
    cases hm
    exact not_or.mp h

theorem sanitizePathComponent_safe (h : sanitizePathComponent component ≠ "") :
    SafeComponent (sanitizePathComponent component) := by
  have hsafe : sanitizePathComponent component =
      String.ofList (stripLeading (trimmed (component.toList.map substitute))) :=
    if_neg fun hdots => h (if_pos hdots)
  apply safeComponent_of_first h
  · intro character hm
    rw [hsafe, String.toList_ofList] at hm
    obtain ⟨original, -, rfl⟩ :=
      List.mem_map.mp (trimmed_subset _ (stripLeading_subset _ hm))
    exact substitute_plain original
  · rw [hsafe, String.toList_ofList]
    exact stripLeading_first _

end

theorem attempt_plain (attempt : Nat) :
    ∀ character ∈ (toString attempt).toList, IsPlainChar character := by
  intro character hm
  rw [Nat.toString_eq_ofList_toDigits, String.toList_ofList] at hm
  have hdigit := Nat.isDigit_of_mem_toDigits (by decide) (by decide) hm
  obtain ⟨hlo, hhi⟩ := Char.isDigit_iff_toNat.mp hdigit
  change 48 ≤ character.toNat at hlo
  change character.toNat ≤ 57 at hhi
  refine ⟨?_, ?_, by omega⟩
  · rintro rfl
    exact absurd hlo (by decide)
  · rintro rfl
    exact absurd hhi (by decide)

theorem stemAndExtension_spec (name : String) :
    (∀ character ∈ (stemAndExtension name).1.toList, character ∈ name.toList) ∧
      (∀ character ∈ (stemAndExtension name).2.toList, character ∈ name.toList) ∧
      (stemAndExtension name).1.toList.head? = name.toList.head? := by
  rw [stemAndExtension]
  split
  · exact ⟨fun _ => id, by simp, rfl⟩
  · next dotIndex hd =>
    split
    · next hpos =>
      simp only [String.toList_ofList]
      refine ⟨fun _ => List.mem_of_mem_take, fun _ => List.mem_of_mem_drop, ?_⟩
      rw [List.head?_take, if_neg (Nat.pos_iff_ne_zero.mp hpos)]
    · exact ⟨fun _ => id, by simp, rfl⟩

theorem renamed_safe (h : SafeComponent name) (attempt : Nat) :
    SafeComponent (renamed name attempt) := by
  obtain ⟨hstem, hextension, hhead⟩ := stemAndExtension_spec name
  obtain ⟨character, hc⟩ : ∃ character, name.toList.head? = some character := by
    apply Option.ne_none_iff_exists'.mp
    rw [ne_eq, List.head?_eq_none_iff]
    exact fun he => h.ne_empty (String.toList_inj.mp he)
  have hfirst : (renamed name attempt).toList.head? = name.toList.head? := by
    simp only [renamed, String.toList_append, List.append_assoc]
    rw [List.head?_append, hhead, hc, Option.some_or]
  apply safeComponent_of_first
  · intro he
    rw [he, hc] at hfirst
    cases hfirst
  · intro other hm
    simp only [renamed, String.toList_append, List.mem_append] at hm
    rcases hm with (((hm | hm) | hm) | hm) | hm
    · exact h.plain _ (hstem _ hm)
    · simp only [String.reduceToList, List.mem_cons, List.not_mem_nil, or_false] at hm
      rcases hm with rfl | rfl
      · exact ⟨by decide, by decide, by decide⟩
      · exact ⟨by decide, by decide, by decide⟩
    · exact attempt_plain attempt _ hm
    · simp only [String.reduceToList, List.mem_cons, List.not_mem_nil, or_false] at hm
      subst hm
      exact ⟨by decide, by decide, by decide⟩
    · exact h.plain _ (hextension _ hm)
  · rw [hfirst]
    exact h.first

section
variable [MuscleText]

theorem retainedDirectory_eq (downloadDirectory relativePath : String) :
    retainedDirectory downloadDirectory relativePath = downloadDirectory ++
      below (((tokenize relativePath).map sanitizePathComponent).filter (· ≠ "")) := by
  rw [retainedDirectory]
  induction tokenize relativePath generalizing downloadDirectory with
  | nil => simp [below]
  | cons component rest ih =>
    rw [List.foldl_cons, ih, List.map_cons]
    split
    · next he => rw [List.filter_cons_of_neg (by simpa using he)]
    · next hne =>
      rw [List.filter_cons_of_pos (by simpa using hne), below_cons, ← String.append_assoc,
        ← String.append_assoc]

/-- The path leads strictly below the directory, over safe names only. -/
def Contained (directory path : String) : Prop :=
  ∃ names : List String, names ≠ [] ∧ path = directory ++ below names ∧
    (∀ name ∈ names, SafeComponent name) ∧
    ∀ start, walk start path = walk start directory ++ names

omit [MuscleText] in
theorem contained_below (hne : names ≠ []) (h : ∀ name ∈ names, SafeComponent name) :
    Contained directory (directory ++ below names) :=
  ⟨names, hne, rfl, h, fun start => walk_below start directory fun name hm => (h name hm).isPlain⟩

theorem outputDirectory_eq (download : FileDownload) (relativePath : String) :
    ∃ names, download.outputDirectory relativePath = download.downloadDirectory ++ below names ∧
      ∀ name ∈ names, SafeComponent name := by
  rw [FileDownload.outputDirectory]
  split
  · refine ⟨_, retainedDirectory_eq .., ?_⟩
    intro name hm
    obtain ⟨hm, hne⟩ := List.mem_filter.mp hm
    obtain ⟨component, -, rfl⟩ := List.mem_map.mp hm
    exact sanitizePathComponent_safe (by simpa using hne)
  · exact ⟨[], by simp [below], by simp⟩

theorem outputPathFor_contained {w : DownloadWorld}
    (h : w.outputPathFor os fileName relativePath = some path) :
    Contained w.downloadDirectory path := by
  obtain ⟨hne, hunused⟩ := DownloadWorld.outputPathFor_eq_some h
  obtain ⟨names, hdirectory, hnames⟩ := outputDirectory_eq w.toFileDownload relativePath
  have hsafe := sanitizePathComponent_safe hne
  obtain ⟨name, hname, rfl⟩ : ∃ name, SafeComponent name ∧
      path = w.outputDirectory relativePath ++ "/" ++ name := by
    rcases (unusedPath_eq_some hunused).2 with he | ⟨attempt, he⟩
    · exact ⟨_, hsafe, he⟩
    · exact ⟨_, renamed_safe hsafe attempt, he⟩
  have hpath : w.outputDirectory relativePath ++ "/" ++ name =
      w.downloadDirectory ++ below (names ++ [name]) := by
    rw [hdirectory, below_append, below_singleton]
    simp only [String.append_assoc]
  rw [hpath]
  apply contained_below (by simp)
  intro other hm
  rcases List.mem_append.mp hm with hm | hm
  · exact hnames other hm
  · rw [List.mem_singleton.mp hm]
    exact hname

/-- Whatever a peer names and whatever the filesystem holds, the file that is opened lies
strictly below the download directory. -/
theorem output_path_contained (os : OperatingSystem) (w : DownloadWorld)
    (fileName relativePath : String)
    (h : (w.openOutputFile os fileName relativePath).2 = true) :
    ∃ path, (w.openOutputFile os fileName relativePath).1.history = w.history ++ [.opened path] ∧
      Contained w.downloadDirectory path := by
  cases hp : w.newOutputFile os fileName relativePath with
  | none =>
    rw [DownloadWorld.openOutputFile_of_none hp] at h
    cases h
  | some path =>
    rw [DownloadWorld.openOutputFile_of_some hp]
    exact ⟨path, rfl, outputPathFor_contained (Option.filter_eq_some_iff.mp hp).1⟩

end

/-- A request for one small file. -/
def notesRequest : DownloadRequest where
  downloadDirectory := "/downloads"
  requestedFiles := [⟨"notes.txt", "", 4⟩]
  hostName := "peer"
  port := 7000

theorem output_path_contained_escape :
    letI := asciiText
    ∃ path, ((notesRequest.started {}).openOutputFile {} "../../notes.txt" "..").1.history =
        (notesRequest.started {}).history ++ [.opened path] ∧
      Contained (notesRequest.started {}).downloadDirectory path :=
  letI := asciiText
  output_path_contained {} (notesRequest.started {}) "../../notes.txt" ".." (by decide +kernel)

end HiTuxShare
