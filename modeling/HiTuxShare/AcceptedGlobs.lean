import HiTuxShare.MimeTypeGuesser
import HiTuxShare.TypedLines

namespace HiTuxShare
set_option autoImplicit true

open MuscleText

/-- The lines of the file of the system. -/
def globLines (content : List Char) : List (List Char) := content.splitOn '\n'

section
variable [MuscleText]

theorem trimmed_append_newline (hspace : isSpaceChar '\n' = true) (line : List Char) :
    trimmed (line ++ ['\n']) = trimmed line := by
  change trim isSpaceChar (line ++ ['\n']) = trim isSpaceChar line
  exact trim_append_of_all_right (List.forall_mem_singleton.mpr hspace)

omit [MuscleText] in
theorem untilNull_append_newline (line : List Char) :
    untilNull (line ++ ['\n']) = untilNull line ∨
      untilNull (line ++ ['\n']) = untilNull line ++ ['\n'] := by
  rw [untilNull, untilNull, List.takeWhile_append]
  split
  · next h =>
    rw [(List.takeWhile_prefix _).eq_of_length h, List.takeWhile_cons_of_pos (by decide),
      List.takeWhile_nil]
    exact .inr rfl
  · exact .inl rfl

theorem systemEntry_append_newline (hspace : isSpaceChar '\n' = true) (line : List Char) :
    systemEntry (line ++ ['\n']) = systemEntry line := by
  have hentry : trimmed (untilNull (line ++ ['\n'])) = trimmed (untilNull line) := by
    rcases untilNull_append_newline line with h | h
    · rw [h]
    · rw [h, trimmed_append_newline hspace]
  have hhead : (line ++ ['\n']).head? = some '#' ↔ line.head? = some '#' := by
    cases line with
    | nil => exact iff_of_false (by decide) (by decide)
    | cons character rest => rfl
  simp only [systemEntry, hentry, hhead]

theorem systemEntry_nil : systemEntry [] = none := by
  have hentry : trimmed (untilNull []) = [] := rfl
  rw [systemEntry, hentry]
  rfl

omit [MuscleText] in
/-- A line is at least as long as what stands before it on the way to its end. -/
theorem exists_line (front content : List Char) (h : '\n' ∉ front) :
    ∃ line ∈ globLines (front ++ content), front.length ≤ line.length := by
  induction content generalizing front with
  | nil =>
    rw [List.append_nil, globLines, List.splitOn_eq_singleton h]
    exact ⟨front, List.mem_singleton_self front, Nat.le_refl _⟩
  | cons character rest ih =>
    by_cases hc : character = '\n'
    · subst hc
      rw [globLines, List.splitOn_append_cons_self_of_not_mem h]
      exact ⟨front, List.mem_cons_self, Nat.le_refl _⟩
    · obtain ⟨line, hm, hlength⟩ := ih (front ++ [character]) (by simpa [h] using Ne.symm hc)
      rw [List.append_assoc] at hm
      rw [List.length_append] at hlength
      exact ⟨line, hm, Nat.le_trans (Nat.le_add_right ..) hlength⟩

/-- As long as no line fills the buffer, what is read is what the lines say. -/
theorem filterMap_fgetsLines (hspace : isSpaceChar '\n' = true) (line content : List Char)
    (hline : '\n' ∉ line) (hfits : line.length + 1 < lineSize)
    (hshort : ∀ l ∈ globLines (line ++ content), l.length < lineSize) :
    (fgetsLines lineSize line content).filterMap systemEntry =
      (globLines (line ++ content)).filterMap systemEntry := by
  induction content generalizing line with
  | nil =>
    rw [fgetsLines, List.append_nil, globLines, List.splitOn_eq_singleton hline]
    split
    · next h => rw [h, List.filterMap_cons_none systemEntry_nil]
    · rfl
  | cons character rest ih =>
    rw [fgetsLines]
    by_cases hc : character = '\n'
    · subst hc
      rw [globLines, List.splitOn_append_cons_self_of_not_mem hline] at hshort ⊢
      have hrest := ih [] List.not_mem_nil (by decide) (List.forall_mem_cons.mp hshort).2
      rw [if_pos (.inl rfl), List.filterMap_cons, List.filterMap_cons, hrest,
        systemEntry_append_newline hspace]
      rfl
    · have happend : line ++ character :: rest = (line ++ [character]) ++ rest :=
        (List.append_assoc line [character] rest).symm
      have hnext : '\n' ∉ line ++ [character] := by
        simpa [hline] using Ne.symm hc
      by_cases hfull : line.length + 2 = lineSize
      · -- The buffer is full, so the line ends here.
        rw [if_pos (.inr hfull), happend]
        rw [happend] at hshort
        cases rest with
        | nil =>
          rw [List.append_nil, globLines, List.splitOn_eq_singleton hnext]
          rfl
        | cons following rest =>
          by_cases hd : following = '\n'
          · subst hd
            rw [globLines, List.splitOn_append_cons_self_of_not_mem hnext] at hshort ⊢
            have hempty : globLines ([] ++ '\n' :: rest) = [] :: globLines rest :=
              List.splitOn_append_cons_self_of_not_mem List.not_mem_nil rest
            have hrest := ih [] List.not_mem_nil (by decide) (by
              rw [hempty]
              exact List.forall_mem_cons.mpr ⟨by decide, (List.forall_mem_cons.mp hshort).2⟩)
            rw [List.filterMap_cons, List.filterMap_cons, hrest, hempty,
              List.filterMap_cons_none systemEntry_nil]
            rfl
          · have hmore : '\n' ∉ (line ++ [character]) ++ [following] := by
              simpa [hline, Ne.symm hc] using Ne.symm hd
            obtain ⟨l, hm, hlength⟩ := exists_line _ rest hmore
            have hfew := hshort l (by simpa using hm)
            simp only [List.length_append, List.length_singleton] at hlength
            omega
      · rw [if_neg (not_or.mpr ⟨hc, hfull⟩), happend]
        rw [happend] at hshort
        exact ih _ hnext (by rw [List.length_append, List.length_singleton]; omega) hshort

/-- The type that the last line for an extension gives it, or else the one that is built in. -/
def typeOf (lines : List (List Char)) (extension : String) : Option String :=
  (builtInTypes ++ lines.filterMap systemEntry).reverse.lookup extension

/-- The line adds this entry to the table, and none behind it adds another for the extension. -/
def LastEntry (lines : List (List Char)) (extension mimeType : String) : Prop :=
  ∃ before line behind, lines = before ++ line :: behind ∧
    systemEntry line = some (extension, mimeType) ∧
    ∀ later ∈ behind, ∀ other, systemEntry later ≠ some (extension, other)

theorem typeOf_of_lastEntry (h : LastEntry lines extension mimeType) :
    typeOf lines extension = some mimeType := by
  obtain ⟨before, line, behind, rfl, hline, hbehind⟩ := h
  have hnone : (behind.filterMap systemEntry).reverse.lookup extension = none := by
    rw [List.lookup_eq_none_iff]
    intro entry hm
    obtain ⟨later, hlater, he⟩ := List.mem_filterMap.mp (List.mem_reverse.mp hm)
    rw [bne_iff_ne]
    rintro rfl
    exact hbehind later hlater entry.2 he
  rw [typeOf, List.filterMap_append, List.filterMap_cons_some hline, List.reverse_append,
    List.reverse_append, List.reverse_cons, List.append_assoc, List.append_assoc,
    List.lookup_append, hnone, Option.none_or]
  exact List.lookup_cons_self

namespace MimeTypeGuesser

omit [MuscleText] in
theorem get?_foldl_putType (entries : List (String × String)) (g : MimeTypeGuesser)
    (extension : String) : (entries.foldl putType g).typesByExtension.get? extension =
      (entries.reverse.lookup extension).or (g.typesByExtension.get? extension) := by
  induction entries generalizing g with
  | nil => rfl
  | cons entry entries ih =>
    rw [List.foldl_cons, ih, List.reverse_cons, List.lookup_append, Option.or_assoc]
    congr 1
    rw [putType, Hashtable.get?_put, List.lookup_cons]
    by_cases he : extension = entry.1
    · simp [he]
    · simp [he, beq_false_of_ne he]

theorem foldl_loadLine (lines : List (List Char)) (g : MimeTypeGuesser) :
    lines.foldl loadLine g = (lines.filterMap systemEntry).foldl putType g := by
  rw [List.foldl_filterMap]
  congr 1
  funext g line
  rw [loadLine]
  cases systemEntry line <;> rfl

omit [MuscleText] in
theorem foldl_putType_isLoaded (entries : List (String × String)) (g : MimeTypeGuesser) :
    (entries.foldl putType g).isLoaded = g.isLoaded :=
  List.foldlRecOn (motive := fun g' : MimeTypeGuesser => g'.isLoaded = g.isLoaded) entries putType
    rfl fun _ h _ _ => h

theorem get?_ensureLoaded (hspace : isSpaceChar '\n' = true) (content : List Char)
    (hshort : ∀ line ∈ globLines content, line.length < lineSize) (extension : String) :
    (ensureLoaded (some content) {}).typesByExtension.get? extension =
      typeOf (globLines content) extension := by
  have hentries := filterMap_fgetsLines hspace [] content List.not_mem_nil (by decide) hshort
  change (((fgetsLines lineSize [] content).foldl loadLine
    (loadBuiltInTypes { isLoaded := true })).typesByExtension).get? extension = _
  rw [foldl_loadLine, hentries, loadBuiltInTypes, ← List.foldl_append, get?_foldl_putType, typeOf]
  exact Option.or_none

theorem ensureLoaded_isLoaded (globs : Option (List Char)) (g : MimeTypeGuesser) :
    (g.ensureLoaded globs).isLoaded = true := by
  rw [ensureLoaded]
  split
  · assumption
  · cases globs with
    | none => exact foldl_putType_isLoaded ..
    | some content =>
      rw [loadSystemDatabase, foldl_loadLine, foldl_putType_isLoaded]
      exact foldl_putType_isLoaded ..

theorem ensureLoaded_ensureLoaded (globs : Option (List Char)) (g : MimeTypeGuesser) :
    (g.ensureLoaded globs).ensureLoaded globs = g.ensureLoaded globs := by
  conv_lhs => rw [ensureLoaded, if_pos (ensureLoaded_isLoaded globs g)]

/-- Whatever has been asked before, the table is either still to be read or has been. -/
theorem ensureLoaded_asked (globs : Option (List Char)) (fileNames : List String) :
    (asked globs fileNames).ensureLoaded globs = ensureLoaded globs {} := by
  refine List.foldlRecOn (motive := fun g : MimeTypeGuesser =>
    g.ensureLoaded globs = ensureLoaded globs {}) fileNames _ rfl ?_
  intro g h fileName _
  rw [guessMimeType]
  split
  · exact h
  · exact (ensureLoaded_ensureLoaded globs g).trans h

theorem guessMimeType_asked (globs : Option (List Char)) (fileNames : List String)
    (fileName : String) : ((asked globs fileNames).guessMimeType globs fileName).2 =
      HiTuxShare.guessMimeType (ensureLoaded globs {}).typesByExtension.get? fileName := by
  rw [guessMimeType]
  split
  · next h => exact (if_pos h).symm
  · rw [← ensureLoaded_asked globs fileNames]

end MimeTypeGuesser

open MimeTypeGuesser

theorem systemEntry_eq_some (h : systemEntry line = some (extension, mimeType)) :
    mimeType ≠ "" ∧ extension ≠ "" ∧ extension.toList.map Char.toLower = extension.toList := by
  simp only [systemEntry] at h
  split at h
  · cases h
  · split at h
    · cases h
    · next htype =>
      split at h
      · cases h
      · next hglob =>
        split at h
        · cases h
        · cases h
          rw [not_or, Nat.not_lt] at hglob
          refine ⟨?_, ?_, ?_⟩
          · intro he
            exact htype (.inr (by simpa using congrArg String.toList he))
          · intro he
            have hlength := congrArg (fun text : String => text.toList.length) he
            simp only [String.toList_ofList, List.length_map, List.length_drop] at hlength
            change _ = 0 at hlength
            omega
          · rw [String.toList_ofList, List.map_map]
            exact List.map_congr_left fun c _ => toLower_toLower c

omit [MuscleText] in
theorem guessMimeType_spelled (typesByExtension : String → Option String) (stem : List Char)
    {spelling : List Char} {extension : String}
    (h : spelling.map Char.toLower = extension.toList) :
    guessMimeType typesByExtension (.ofList (stem ++ '.' :: spelling)) =
      if extensionOf extension = [] then ""
      else (typesByExtension (.ofList (extensionOf extension))).getD "" := by
  have hbehind : ((stem ++ '.' :: spelling).reverse.takeWhile (· ≠ '.')).reverse =
      (spelling.reverse.takeWhile (· ≠ '.')).reverse := by
    rw [List.reverse_append, List.reverse_cons, List.append_assoc, List.singleton_append,
      takeWhile_append_stop (by decide)]
  have hlower : (spelling.reverse.takeWhile (· ≠ '.')).reverse.map Char.toLower =
      extensionOf extension := by
    rw [extensionOf, ← h, ← List.map_reverse, List.takeWhile_map, List.map_reverse]
    congr 4
    funext c
    exact decide_eq_decide.mpr (not_congr (toLower_eq_iff (by decide) c)).symm
  have hdot : '.' ∈ stem ++ '.' :: spelling := by simp
  rw [← hlower, guessMimeType]
  simp only [String.toList_ofList, hbehind, hdot, not_true_eq_false, false_or, List.map_eq_nil_iff]

omit [MuscleText] in
theorem extensionOf_of_not_mem {extension : String} (h : '.' ∉ extension.toList) :
    extensionOf extension = extension.toList := by
  rw [extensionOf, List.takeWhile_eq_self_iff.mpr, List.reverse_reverse]
  intro c hm
  exact decide_eq_true fun he => h (he ▸ List.mem_reverse.mp hm)

/-- Whatever has been asked before, a name gets the type that its extension has in the table. -/
def GlobsUsable (content : List Char) : Prop :=
  ∀ extension mimeType, LastEntry (globLines content) extension mimeType →
    ∀ (fileNames : List String) (stem spelling : List Char), stem ≠ [] →
      spelling.map Char.toLower = extension.toList →
        ((asked (some content) fileNames).guessMimeType (some content)
          (.ofList (stem ++ '.' :: spelling))).2 = mimeType

/-- What stands behind the last dot of an extension has the type of the whole extension. -/
def DottedAgree (content : List Char) : Prop :=
  ∀ extension mimeType, LastEntry (globLines content) extension mimeType →
    '.' ∈ extension.toList → extensionOf extension ≠ [] ∧
      typeOf (globLines content) (.ofList (extensionOf extension)) = some mimeType

/-- The table knows extensions with a dot in them, but it is only asked about what stands behind
the last dot of a name. -/
theorem globsUsable_iff (hspace : isSpaceChar '\n' = true) (content : List Char)
    (hshort : ∀ line ∈ globLines content, line.length < lineSize) :
    GlobsUsable content ↔ DottedAgree content := by
  have hguess (fileNames : List String) (stem : List Char) {spelling : List Char}
      {extension : String} (h : spelling.map Char.toLower = extension.toList) :
      ((asked (some content) fileNames).guessMimeType (some content)
          (.ofList (stem ++ '.' :: spelling))).2 =
        if extensionOf extension = [] then ""
        else (typeOf (globLines content) (.ofList (extensionOf extension))).getD "" := by
    rw [guessMimeType_asked, guessMimeType_spelled _ stem h, get?_ensureLoaded hspace _ hshort]
  constructor
  · intro h extension mimeType hlast _
    obtain ⟨_, line, _, _, hline, _⟩ := id hlast
    obtain ⟨htype, _, hlower⟩ := systemEntry_eq_some hline
    have hanswer := h extension mimeType hlast [] ['a'] extension.toList (List.cons_ne_nil _ _)
      hlower
    rw [hguess [] ['a'] hlower] at hanswer
    split at hanswer
    · exact absurd hanswer.symm htype
    · next hne =>
      refine ⟨hne, ?_⟩
      cases hof : typeOf (globLines content) (.ofList (extensionOf extension)) with
      | none => rw [hof] at hanswer; exact absurd hanswer.symm htype
      | some other => rw [hof] at hanswer; exact congrArg some hanswer
  · intro h extension mimeType hlast fileNames stem spelling _ hspelling
    rw [hguess fileNames stem hspelling]
    obtain ⟨_, line, _, _, hline, _⟩ := id hlast
    by_cases hdot : '.' ∈ extension.toList
    · obtain ⟨hne, hof⟩ := h extension mimeType hlast hdot
      rw [if_neg hne, hof, Option.getD_some]
    · have hne : extension.toList ≠ [] := fun he =>
        (systemEntry_eq_some hline).2.1 (String.toList_eq_nil_iff.mp he)
      rw [extensionOf_of_not_mem hdot, if_neg hne, String.ofList_toList,
        typeOf_of_lastEntry hlast, Option.getD_some]

end

section
attribute [local instance] asciiText

/-- A line as the database has it, for an extension that the built-in table ends differently. -/
def archiveGlobs : List Char := "application/x-compressed-tar:*.tar.gz\n".toList

theorem archive_gets_another_type :
    (∀ line ∈ globLines archiveGlobs, line.length < lineSize) ∧ ¬GlobsUsable archiveGlobs := by
  refine ⟨by decide, fun h => ?_⟩
  have hlast : LastEntry (globLines archiveGlobs) "tar.gz" "application/x-compressed-tar" :=
    ⟨[], "application/x-compressed-tar:*.tar.gz".toList, [[]], by decide, by decide, by
      rintro later hm other
      rw [List.mem_singleton.mp hm, systemEntry_nil]
      exact (Option.some_ne_none _).symm⟩
  have hanswer := h _ _ hlast [] ['a'] "tar.gz".toList (List.cons_ne_nil _ _) (by decide)
  exact absurd hanswer (by decide +kernel)

def plainGlobs : List Char := "text/x-log:*.log".toList

theorem plain_globs_usable : GlobsUsable plainGlobs := by
  refine (globsUsable_iff (by decide) plainGlobs (by decide)).mpr ?_
  rintro extension mimeType ⟨before, line, behind, hlines, hline, _⟩ hdot
  have hm : line ∈ globLines plainGlobs := hlines ▸ List.mem_append_right _ List.mem_cons_self
  have hsingle : globLines plainGlobs = [plainGlobs] := by decide
  rw [hsingle, List.mem_singleton] at hm
  have hentry : systemEntry plainGlobs = some ("log", "text/x-log") := by decide
  rw [hm, hentry] at hline
  cases hline
  exact absurd hdot (by decide)

end

end HiTuxShare
