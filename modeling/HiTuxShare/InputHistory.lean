import HiTuxShare.ChatInputLine
import Mathlib.Data.List.Chain
import Mathlib.Logic.Function.Iterate

namespace HiTuxShare
set_option autoImplicit true

/-- What happens to the entry field. Its text is also edited without a key, by pasting with the
mouse or by the window. -/
inductive InputEvent (κ : Type u) where
  | key (key : KeyPress κ)
  | acceptCurrentLine
  | edited (field : QLineEdit)

namespace ChatInputLine

/-- What the history is at any time. -/
structure HistoryHolds (input : ChatInputLine κ) : Prop where
  bounded : input.history.length ≤ maximumHistoryEntries
  distinct : input.history.IsChain (· ≠ ·)
  position_nonneg : 0 ≤ input.historyPosition
  position_le : input.historyPosition ≤ input.history.length

theorem HistoryHolds.congr {input input' : ChatInputLine κ} (h : input.HistoryHolds)
    (hhistory : input'.history = input.history)
    (hposition : input'.historyPosition = input.historyPosition) : input'.HistoryHolds := by
  obtain ⟨hbounded, hdistinct, hnonneg, hle⟩ := h
  refine ⟨?_, ?_, ?_, ?_⟩
  · rwa [hhistory]
  · rwa [hhistory]
  · rwa [hposition]
  · rwa [hhistory, hposition]

theorem length_remembered {history : List Utf16} (h : history.length ≤ maximumHistoryEntries)
    (line : Utf16) : (remembered history line).length ≤ maximumHistoryEntries := by
  rw [remembered]
  split
  · exact h
  · rw [List.length_drop]
    omega

theorem isChain_remembered {history : List Utf16} (h : history.IsChain (· ≠ ·)) (line : Utf16) :
    (remembered history line).IsChain (· ≠ ·) := by
  rw [remembered]
  split
  · exact h
  · next hnew =>
    apply List.IsChain.drop
    rw [List.isChain_append]
    refine ⟨h, List.isChain_singleton line, ?_⟩
    intro last hlast first hfirst heq
    rw [List.head?_singleton, Option.mem_def, Option.some_inj] at hfirst
    rw [heq, ← hfirst, Option.mem_def] at hlast
    exact hnew (.inr hlast)

theorem HistoryHolds.acceptCurrentLine {input : ChatInputLine κ} (h : input.HistoryHolds) :
    input.acceptCurrentLine.HistoryHolds where
  bounded := length_remembered h.bounded input.text
  distinct := isChain_remembered h.distinct input.text
  position_nonneg := Int.natCast_nonneg _
  position_le := Int.le_refl _

theorem historyHolds_new (provider : Option (κ → Utf16 → List Utf16)) :
    (new provider).HistoryHolds :=
  ⟨Nat.zero_le _, .nil, Int.le_refl _, Int.le_refl _⟩

section
variable (input : ChatInputLine κ)

@[simp] theorem stashPendingLine_history :
    input.stashPendingLine.history = input.history := by
  rw [stashPendingLine]
  split <;> rfl

@[simp] theorem stashPendingLine_historyPosition :
    input.stashPendingLine.historyPosition = input.historyPosition := by
  rw [stashPendingLine]
  split <;> rfl

@[simp] theorem stashPendingLine_text : input.stashPendingLine.text = input.text := by
  rw [stashPendingLine]
  split <;> rfl

theorem HistoryHolds.navigateHistory {input : ChatInputLine κ} (h : input.HistoryHolds)
    (direction : Int) : (input.navigateHistory direction).HistoryHolds := by
  rw [ChatInputLine.navigateHistory]
  split
  · exact h
  · dsimp only
    have hstashed : input.stashPendingLine.HistoryHolds :=
      h.congr (stashPendingLine_history input) (stashPendingLine_historyPosition input)
    split
    · exact hstashed
    · next hrange =>
      rw [not_or, Int.not_lt, Int.not_lt] at hrange
      exact ⟨hstashed.bounded, hstashed.distinct, hrange.1, hrange.2⟩

end

section
variable [QtCharacters] {input : ChatInputLine κ}

theorem HistoryHolds.performCompletion (h : input.HistoryHolds) (read : κ) :
    (input.performCompletion read).HistoryHolds := by
  rw [ChatInputLine.performCompletion]
  split
  · exact h
  · split
    · exact h.congr rfl rfl
    · dsimp only
      split
      · exact h
      · split
        · exact h.congr rfl rfl
        · exact h.congr rfl rfl

theorem HistoryHolds.keyPressEvent (h : input.HistoryHolds) (key : KeyPress κ) :
    (input.keyPressEvent key).HistoryHolds := by
  cases key with
  | up => exact h.navigateHistory (-1)
  | down => exact h.navigateHistory 1
  | tab read => exact h.performCompletion read
  | returnKey =>
    have hreset : input.resetCompletionState.HistoryHolds := h.congr rfl rfl
    exact hreset.acceptCurrentLine
  | other edited => exact h.congr rfl rfl

def handle (input : ChatInputLine κ) : InputEvent κ → ChatInputLine κ
  | .key key => input.keyPressEvent key
  | .acceptCurrentLine => input.acceptCurrentLine
  | .edited field => { input with toQLineEdit := field }

def run (input : ChatInputLine κ) (events : List (InputEvent κ)) : ChatInputLine κ :=
  events.foldl handle input

theorem HistoryHolds.handle (h : input.HistoryHolds) (event : InputEvent κ) :
    (input.handle event).HistoryHolds := by
  cases event with
  | key key => exact h.keyPressEvent key
  | acceptCurrentLine => exact h.acceptCurrentLine
  | edited field => exact h.congr rfl rfl

theorem HistoryHolds.run (h : input.HistoryHolds) (events : List (InputEvent κ)) :
    (input.run events).HistoryHolds := by
  induction events generalizing input with
  | nil => exact h
  | cons event events ih => exact ih (h.handle event)

end

/-- A walk of some steps back from a line that was not submitted, with the line to come back to. -/
structure WalkedBack (entries : List Utf16) (line : Utf16) (steps : Nat)
    (input : ChatInputLine κ) : Prop where
  history : input.history = entries
  le : steps ≤ entries.length
  position : input.historyPosition = entries.length - steps
  pending : steps ≠ 0 → input.pendingLine = line
  text : steps = 0 → input.text = line

section
variable {input : ChatInputLine κ}

theorem walkedBack_start (h : input.historyPosition = input.history.length) :
    WalkedBack input.history input.text 0 input where
  history := rfl
  le := Nat.zero_le _
  position := by
    rw [h]
    exact (Int.sub_zero _).symm
  pending h := absurd rfl h
  text _ := rfl

/-- The line is kept when it is walked away from, and stays kept. -/
theorem WalkedBack.stashed (h : WalkedBack entries line steps input) :
    input.stashPendingLine.pendingLine = line := by
  rw [stashPendingLine, h.position, h.history]
  split
  · next hposition => exact h.text (by omega)
  · next hposition => exact h.pending (by omega)

theorem WalkedBack.stay (h : WalkedBack entries line steps input) :
    WalkedBack entries line steps input.stashPendingLine where
  history := (stashPendingLine_history input).trans h.history
  le := h.le
  position := (stashPendingLine_historyPosition input).trans h.position
  pending _ := h.stashed
  text hsteps := (stashPendingLine_text input).trans (h.text hsteps)

theorem showEntry_text_pending (hle : input.pendingLine.length ≤ maxLength) :
    (input.showEntry input.history.length).text = input.pendingLine := by
  simp only [showEntry, if_true, QLineEdit.setCursorPosition, QLineEdit.setText,
    List.take_of_length_le hle, Nat.le_refl, dite_true]

theorem WalkedBack.show (h : WalkedBack entries line steps input) (hline : line.length ≤ maxLength)
    (hle : steps' ≤ entries.length) :
    WalkedBack entries line steps' (input.stashPendingLine.showEntry (entries.length - steps'))
    where
  history := (stashPendingLine_history input).trans h.history
  le := hle
  position := rfl
  pending _ := h.stashed
  text hsteps := by
    have hhistory := (stashPendingLine_history input).trans h.history
    have hfits : input.stashPendingLine.pendingLine.length ≤ maxLength := h.stashed ▸ hline
    have hshown := showEntry_text_pending hfits
    rw [hhistory, h.stashed] at hshown
    rw [hsteps]
    exact hshown

theorem WalkedBack.navigateHistory_eq (h : WalkedBack entries line steps input)
    (hentries : entries ≠ []) (direction : Int) : input.navigateHistory direction =
      if entries.length - steps + direction < 0 ∨ entries.length < entries.length - steps + direction
      then input.stashPendingLine
      else input.stashPendingLine.showEntry (entries.length - steps + direction) := by
  rw [navigateHistory, if_neg (h.history ▸ hentries)]
  simp only [stashPendingLine_history, stashPendingLine_historyPosition, h.history, h.position]

theorem WalkedBack.navigateHistory_nil (h : WalkedBack [] line steps input) (direction : Int) :
    input.navigateHistory direction = input := if_pos h.history

variable [QtCharacters]

theorem WalkedBack.up (h : WalkedBack entries line steps input) (hline : line.length ≤ maxLength) :
    WalkedBack entries line (min (steps + 1) entries.length) (input.keyPressEvent .up) := by
  rw [keyPressEvent]
  cases entries with
  | nil =>
    rw [h.navigateHistory_nil, List.length_nil, Nat.min_zero, ← Nat.le_zero.mp h.le]
    exact h
  | cons entry entries =>
    rw [h.navigateHistory_eq (List.cons_ne_nil _ _)]
    rcases Nat.eq_or_lt_of_le h.le with hfirst | hlater
    · rw [if_pos (.inl (by omega)), Nat.min_eq_right (by omega), ← hfirst]
      exact h.stay
    · have hposition : ((entry :: entries).length : Int) - steps + -1 =
          (entry :: entries).length - (steps + 1 : Nat) := by omega
      rw [if_neg (by omega), Nat.min_eq_left hlater, hposition]
      exact h.show hline hlater

theorem WalkedBack.down (h : WalkedBack entries line steps input)
    (hline : line.length ≤ maxLength) :
    WalkedBack entries line (steps - 1) (input.keyPressEvent .down) := by
  rw [keyPressEvent]
  cases entries with
  | nil =>
    have hsteps : steps = 0 := Nat.le_zero.mp h.le
    rw [h.navigateHistory_nil]
    subst hsteps
    exact h
  | cons entry entries =>
    rw [h.navigateHistory_eq (List.cons_ne_nil _ _)]
    cases steps with
    | zero =>
      rw [if_pos (.inr (by omega))]
      exact h.stay
    | succ steps =>
      have hle := h.le
      have hposition : ((entry :: entries).length : Int) - (steps + 1 : Nat) + 1 =
          (entry :: entries).length - steps := by omega
      rw [if_neg (by omega), hposition]
      exact h.show hline (Nat.le_of_succ_le hle)

theorem WalkedBack.iterate_up (h : WalkedBack entries line steps input)
    (hline : line.length ≤ maxLength) (k : Nat) :
    WalkedBack entries line (min (steps + k) entries.length) ((keyPressEvent · .up)^[k] input) := by
  induction k with
  | zero =>
    rw [Nat.add_zero, Nat.min_eq_left h.le]
    exact h
  | succ k ih =>
    have hmin : min (min (steps + k) entries.length + 1) entries.length =
        min (steps + (k + 1)) entries.length := by omega
    rw [Function.iterate_succ_apply', ← hmin]
    exact ih.up hline

theorem WalkedBack.iterate_down (h : WalkedBack entries line steps input)
    (hline : line.length ≤ maxLength) (k : Nat) :
    WalkedBack entries line (steps - k) ((keyPressEvent · .down)^[k] input) := by
  induction k with
  | zero => exact h
  | succ k ih =>
    rw [Function.iterate_succ_apply', ← Nat.sub_sub]
    exact ih.down hline

/-- As many steps forward as back lead to the line that was not submitted. -/
theorem walk_restores (hunsubmitted : input.historyPosition = input.history.length) (k : Nat) :
    ((keyPressEvent · .down)^[k] ((keyPressEvent · .up)^[k] input)).text = input.text := by
  have hback := (walkedBack_start hunsubmitted).iterate_up input.text_length k
  have hforth := hback.iterate_down input.text_length k
  exact hforth.text (by omega)

/-- What a run leaves: a history that holds, and a line that the arrows come back to. -/
theorem run_history (provider : Option (κ → Utf16 → List Utf16)) (events : List (InputEvent κ)) :
    let input := (new provider).run events
    input.HistoryHolds ∧ (input.historyPosition = input.history.length → ∀ k,
      ((keyPressEvent · .down)^[k] ((keyPressEvent · .up)^[k] input)).text = input.text) :=
  ⟨(historyHolds_new provider).run events, walk_restores⟩

end

section
attribute [local instance] plainCharacters

/-- A line was sent, and another one is being typed. -/
def typedLines : List (InputEvent Unit) :=
  [.key (.other (.typed "hi")), .key .returnKey, .key (.other (.typed "ke"))]

theorem run_history_typed :
    let input := (new none).run typedLines
    ((keyPressEvent · .down)^[3] ((keyPressEvent · .up)^[3] input)).text = input.text :=
  (run_history none typedLines).2 (by decide) 3

end

end ChatInputLine

end HiTuxShare
