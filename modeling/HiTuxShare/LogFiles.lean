import HiTuxShare.ChatLogger

namespace HiTuxShare
set_option autoImplicit true

theorem eq_of_last {a : α} (h : front ++ a :: later = front' ++ a :: later') (hlater : a ∉ later)
    (hlater' : a ∉ later') : front = front' ∧ later = later' := by
  rcases List.append_eq_append_iff.mp h with ⟨middle, rfl, hm⟩ | ⟨middle, rfl, hm⟩
  · cases middle with
    | nil => exact ⟨(List.append_nil _).symm, List.tail_eq_of_cons_eq hm⟩
    | cons x middle =>
      rw [List.tail_eq_of_cons_eq hm] at hlater
      exact absurd (List.mem_append_right _ List.mem_cons_self) hlater
  · cases middle with
    | nil => exact ⟨List.append_nil _, (List.tail_eq_of_cons_eq hm).symm⟩
    | cons x middle =>
      rw [List.tail_eq_of_cons_eq hm] at hlater'
      exact absurd (List.mem_append_right _ List.mem_cons_self) hlater'

/-- The three numbers of a date, or the word that stands for one. -/
inductive IsDateText : List Char → Prop where
  | unknown : IsDateText "unknown".toList
  | date (hyear : ∀ c ∈ year, c.isDigit = true) (hmonth : ∀ c ∈ month, c.isDigit = true)
      (hday : ∀ c ∈ day, c.isDigit = true) : IsDateText (year ++ '-' :: (month ++ '-' :: day))

theorem not_mem_of_isDigit {text : List Char} (h : ∀ c ∈ text, c.isDigit = true)
    (hc : character.isDigit = false) : character ∉ text :=
  fun hm => absurd ((h character hm).symm.trans hc) Bool.true_eq_false_eq_False

theorem IsDateText.no_slash (h : IsDateText text) : '/' ∉ text := by
  cases h with
  | unknown => decide
  | date hyear hmonth hday =>
    have hslash : '/'.isDigit = false := by decide
    simp only [List.mem_append, List.mem_cons]
    rintro (hm | he | hm | he | hm)
    · exact not_mem_of_isDigit hyear hslash hm
    · exact absurd he (by decide)
    · exact not_mem_of_isDigit hmonth hslash hm
    · exact absurd he (by decide)
    · exact not_mem_of_isDigit hday hslash hm

/-- A name and a date can be told apart, whatever the name is. -/
theorem IsDateText.name_inj (h : IsDateText text) (h' : IsDateText text')
    (heq : name ++ '-' :: text = name' ++ '-' :: text') : name = name' := by
  have hdash : '-'.isDigit = false := by decide
  have hunknown : '-' ∉ "unknown".toList := by decide
  have hletter : 'u'.isDigit = false := by decide
  cases h with
  | unknown =>
    cases h' with
    | unknown => exact (eq_of_last heq hunknown hunknown).1
    | @date year month day hyear hmonth hday =>
      have hsplit : name' ++ '-' :: (year ++ '-' :: (month ++ '-' :: day)) =
          (name' ++ '-' :: (year ++ '-' :: month)) ++ '-' :: day := by simp
      rw [hsplit] at heq
      have hlast := (eq_of_last heq hunknown (not_mem_of_isDigit hday hdash)).2
      exact absurd (hlast ▸ List.mem_cons_self) (not_mem_of_isDigit hday hletter)
  | @date year month day hyear hmonth hday =>
    have hsplit : name ++ '-' :: (year ++ '-' :: (month ++ '-' :: day)) =
        (name ++ '-' :: (year ++ '-' :: month)) ++ '-' :: day := by simp
    rw [hsplit] at heq
    cases h' with
    | unknown =>
      have hlast := (eq_of_last heq (not_mem_of_isDigit hday hdash) hunknown).2
      exact absurd (hlast ▸ List.mem_cons_self) (not_mem_of_isDigit hday hletter)
    | @date year' month' day' hyear' hmonth' hday' =>
      have hsplit' : name' ++ '-' :: (year' ++ '-' :: (month' ++ '-' :: day')) =
          (name' ++ '-' :: (year' ++ '-' :: month')) ++ '-' :: day' := by simp
      rw [hsplit'] at heq
      have hfront := (eq_of_last heq (not_mem_of_isDigit hday hdash)
        (not_mem_of_isDigit hday' hdash)).1
      have hassoc (front year month : List Char) : front ++ '-' :: (year ++ '-' :: month) =
          (front ++ '-' :: year) ++ '-' :: month := by simp
      rw [hassoc, hassoc] at hfront
      have hyears := (eq_of_last hfront (not_mem_of_isDigit hmonth hdash)
        (not_mem_of_isDigit hmonth' hdash)).1
      exact (eq_of_last hyears (not_mem_of_isDigit hyear hdash)
        (not_mem_of_isDigit hyear' hdash)).1

theorem toString_isDigit (n : Nat) : ∀ c ∈ (toString n).toList, c.isDigit = true := by
  intro c hm
  rw [Nat.toString_eq_ofList_toDigits, String.toList_ofList] at hm
  exact Nat.isDigit_of_mem_toDigits (by decide) (by decide) hm

theorem twoDigits_isDigit (n : Nat) : ∀ c ∈ (twoDigits n).toList, c.isDigit = true := by
  intro c hm
  rw [twoDigits] at hm
  split at hm
  · rw [String.toList_append, List.mem_append] at hm
    rcases hm with hm | hm
    · rw [List.mem_singleton.mp hm]
      decide
    · exact toString_isDigit n c hm
  · exact toString_isDigit n c hm

theorem LogAnswer.todaysDate_isDateText (answer : LogAnswer) :
    IsDateText answer.todaysDate.toList := by
  rw [todaysDate]
  cases answer.today with
  | none => exact .unknown
  | some date =>
    have htext : date.text.toList = (toString date.year).toList ++
        '-' :: ((twoDigits date.month).toList ++ '-' :: (twoDigits date.day).toList) := by
      simp [CalendarDate.text]
    rw [Option.map_some, Option.getD_some, htext]
    exact .date (toString_isDigit _) (twoDigits_isDigit _) (twoDigits_isDigit _)

theorem logName_no_slash (serverName : String) : '/' ∉ (logName serverName).toList := by
  rw [logName]
  split
  · rw [sanitizeForFileName]
    split
    · rw [String.toList_ofList]
      intro hm
      obtain ⟨character, -, he⟩ := List.mem_map.mp ((List.dropWhile_sublist _).subset hm)
      split at he
      · next hsafe =>
        rw [he] at hsafe
        exact absurd hsafe (by decide)
      · exact absurd he (by decide)
    · decide
  · decide

/-- The name of a file says which server it is for, as far as a file name can. -/
theorem logName_of_logPath_eq {date date' : String} (hdate : IsDateText date.toList)
    (hdate' : IsDateText date'.toList)
    (h : logPath directory serverName date = logPath directory' serverName' date') :
    logName serverName = logName serverName' := by
  have hlist (directory serverName date : String) : (logPath directory serverName date).toList =
      directory.toList ++ '/' :: ((logName serverName).toList ++ '-' :: date.toList) ++
        ".log".toList := by
    simp [logPath]
  have hpath := congrArg String.toList h
  rw [hlist, hlist] at hpath
  have hslash {serverName date : String} (hdate : IsDateText date.toList) :
      '/' ∉ (logName serverName).toList ++ '-' :: date.toList := by
    rw [List.mem_append, List.mem_cons]
    rintro (hm | he | hm)
    · exact logName_no_slash serverName hm
    · exact absurd he (by decide)
    · exact hdate.no_slash hm
  have hfile := (eq_of_last (List.append_cancel_right hpath) (hslash hdate) (hslash hdate')).2
  exact String.toList_inj.mp (hdate.name_inj hdate' hfile)

end HiTuxShare
