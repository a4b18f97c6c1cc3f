import Mathlib.Tactic.Common

set_option autoImplicit true

/-- A deterministic machine fed one event after another. Whatever the surroundings choose is
part of the event. -/
structure EventMachine (σ : Type u) (ε : Type v) where
  step : σ → ε → σ

namespace EventMachine

variable {σ : Type u} {ε : Type v} {m : EventMachine σ ε}

def run (m : EventMachine σ ε) (s : σ) (es : List ε) : σ := es.foldl m.step s

@[simp] theorem run_nil (m : EventMachine σ ε) (s : σ) : m.run s [] = s := rfl

@[simp] theorem run_cons (m : EventMachine σ ε) (s : σ) (e : ε) (es : List ε) :
    m.run s (e :: es) = m.run (m.step s e) es := rfl

theorem run_append (m : EventMachine σ ε) (s : σ) (es fs : List ε) :
    m.run s (es ++ fs) = m.run (m.run s es) fs := by
  simp only [run, List.foldl_append]

/-- `P` relates every event of the run to the state it is handled in. -/
def EveryStep (m : EventMachine σ ε) (P : σ → ε → Prop) : σ → List ε → Prop
  | _, [] => True
  | s, e :: es => P s e ∧ m.EveryStep P (m.step s e) es

/-- `I` holds in every state the run passes through, its two ends included. -/
def EveryState (m : EventMachine σ ε) (I : σ → Prop) : σ → List ε → Prop
  | s, [] => I s
  | s, e :: es => I s ∧ m.EveryState I (m.step s e) es

instance decidableEveryState {I : σ → Prop} [DecidablePred I] :
    (s : σ) → (es : List ε) → Decidable (m.EveryState I s es)
  | s, [] => inferInstanceAs (Decidable (I s))
  | s, e :: es =>
    have : Decidable (m.EveryState I (m.step s e) es) := decidableEveryState (m.step s e) es
    inferInstanceAs (Decidable (I s ∧ m.EveryState I (m.step s e) es))

instance decidableEveryStep {P : σ → ε → Prop} [∀ s e, Decidable (P s e)] :
    (s : σ) → (es : List ε) → Decidable (m.EveryStep P s es)
  | _, [] => isTrue trivial
  | s, e :: es =>
    have : Decidable (m.EveryStep P (m.step s e) es) := decidableEveryStep (m.step s e) es
    inferInstanceAs (Decidable (P s e ∧ m.EveryStep P (m.step s e) es))

/-- Two conditions on steps agree along a run if they agree wherever an invariant holds. -/
theorem everyStep_congr_of_invariant {J : σ → Prop} {P Q : σ → ε → Prop}
    (hJ : ∀ s e, J s → J (m.step s e)) (h : ∀ s e, J s → (P s e ↔ Q s e)) (hs : J s)
    (es : List ε) : m.EveryStep P s es ↔ m.EveryStep Q s es := by
  induction es generalizing s with
  | nil => exact Iff.rfl
  | cons e es ih => exact and_congr (h s e hs) (ih (hJ s e hs))

theorem everyStep_congr {P Q : σ → ε → Prop} (h : ∀ s e, P s e ↔ Q s e) (s : σ) (es : List ε) :
    m.EveryStep P s es ↔ m.EveryStep Q s es :=
  everyStep_congr_of_invariant (J := fun _ => True) (fun _ _ => id) (fun s e _ => h s e) trivial es

/-- The same where the invariant need only survive the steps that meet the conditions, for runs of
events of one kind. -/
theorem everyStep_iff_of_kind {J : σ → Prop} {K : ε → Prop} {P Q : σ → ε → Prop}
    (hJ : ∀ s e, K e → J s → P s e → J (m.step s e))
    (h : ∀ s e, K e → J s → (P s e ↔ Q s e)) (hs : J s) (hes : ∀ e ∈ es, K e) :
    m.EveryStep P s es ↔ m.EveryStep Q s es := by
  induction es generalizing s with
  | nil => exact Iff.rfl
  | cons e es ih =>
    have hk := hes e List.mem_cons_self
    have hrest := fun e' hm => hes e' (List.mem_cons_of_mem e hm)
    constructor
    · rintro ⟨hp, hps⟩
      exact ⟨(h s e hk hs).mp hp, (ih (hJ s e hk hs hp) hrest).mp hps⟩
    · rintro ⟨hq, hqs⟩
      have hp := (h s e hk hs).mpr hq
      exact ⟨hp, (ih (hJ s e hk hs hp) hrest).mpr hqs⟩

theorem everyStep_append {P : σ → ε → Prop} (s : σ) (es fs : List ε) :
    m.EveryStep P s (es ++ fs) ↔ m.EveryStep P s es ∧ m.EveryStep P (m.run s es) fs := by
  induction es generalizing s with
  | nil => simp [EveryStep]
  | cons e es ih =>
    rw [List.cons_append, EveryStep, ih, EveryStep, and_assoc, run_cons]

theorem EveryStep.and {P Q : σ → ε → Prop} (h : m.EveryStep P s es) (h' : m.EveryStep Q s es) :
    m.EveryStep (fun s e => P s e ∧ Q s e) s es := by
  induction es generalizing s with
  | nil => trivial
  | cons e es ih => exact ⟨⟨h.1, h'.1⟩, ih h.2 h'.2⟩

theorem EveryStep.imp_of_invariant {J : σ → Prop} {P Q : σ → ε → Prop}
    (hJ : ∀ s e, J s → J (m.step s e)) (h : ∀ s e, J s → P s e → Q s e) (hs : J s)
    (hP : m.EveryStep P s es) : m.EveryStep Q s es := by
  induction es generalizing s with
  | nil => trivial
  | cons e es ih => exact ⟨h s e hs hP.1, ih (hJ s e hs) hP.2⟩

theorem EveryState.head {I : σ → Prop} (h : m.EveryState I s es) : I s := by
  cases es with
  | nil => exact h
  | cons e es => exact h.1

theorem EveryState.last {I : σ → Prop} (h : m.EveryState I s es) : I (m.run s es) := by
  induction es generalizing s with
  | nil => exact h
  | cons e es ih => exact ih h.2

theorem everyState_of_invariant {I : σ → Prop} {P : σ → ε → Prop}
    (hstep : ∀ s e, I s → P s e → I (m.step s e)) (hs : I s) (hP : m.EveryStep P s es) :
    m.EveryState I s es := by
  induction es generalizing s with
  | nil => exact hs
  | cons e es ih => exact ⟨hs, ih (hstep s e hs hP.1) hP.2⟩

theorem everyState_of_preserved {I : σ → Prop} (hstep : ∀ s e, I s → I (m.step s e))
    (hs : I s) : m.EveryState I s es := by
  induction es generalizing s with
  | nil => exact hs
  | cons e es ih => exact ⟨hs, ih (hstep s e hs)⟩

theorem everyStep_of_invariant {J : σ → Prop} {P : σ → ε → Prop}
    (hJ : ∀ s e, J s → J (m.step s e)) (h : ∀ s e, J s → P s e) (hs : J s) (es : List ε) :
    m.EveryStep P s es := by
  induction es generalizing s with
  | nil => trivial
  | cons e es ih => exact ⟨h s e hs, ih (hJ s e hs)⟩

theorem run_of_invariant {I : σ → Prop} (hstep : ∀ s e, I s → I (m.step s e)) (hs : I s) :
    I (m.run s es) := (everyState_of_preserved hstep hs).last

theorem EveryState.imp {I J : σ → Prop} (h : m.EveryState I s es) (hIJ : ∀ s, I s → J s) :
    m.EveryState J s es := by
  induction es generalizing s with
  | nil => exact hIJ s h
  | cons e es ih => exact ⟨hIJ s h.1, ih h.2⟩

/-- If a bad step always leads to a state outside `I`, runs inside `I` have no bad step. -/
theorem EveryState.everyStep {I : σ → Prop} {P : σ → ε → Prop}
    (hbad : ∀ s e, I (m.step s e) → P s e) (h : m.EveryState I s es) : m.EveryStep P s es := by
  induction es generalizing s with
  | nil => trivial
  | cons e es ih => exact ⟨hbad s e h.2.head, ih h.2⟩

/-- Where a step leaves `I` exactly if it is inadmissible, a run stays inside `I` exactly if
all its steps are admissible. `J` is what holds in any case. -/
theorem everyState_iff_everyStep {I J : σ → Prop} {P : σ → ε → Prop}
    (hJ : ∀ s e, J s → J (m.step s e)) (hstep : ∀ s e, J s → I s → (I (m.step s e) ↔ P s e))
    (hs : J s) (hI : I s) : m.EveryState I s es ↔ m.EveryStep P s es := by
  induction es generalizing s with
  | nil => exact iff_of_true hI trivial
  | cons e es ih =>
    constructor
    · intro h
      have hI' : I (m.step s e) := h.2.head
      exact ⟨(hstep s e hs hI).mp hI', (ih (hJ s e hs) hI').mp h.2⟩
    · intro h
      have hI' := (hstep s e hs hI).mpr h.1
      exact ⟨hI, (ih (hJ s e hs) hI').mpr h.2⟩

theorem everyState_iff_everyStep_of_kind {I : σ → Prop} {K : ε → Prop} {P : σ → ε → Prop}
    (hstep : ∀ s e, K e → I s → (I (m.step s e) ↔ P s e)) (hI : I s) (hes : ∀ e ∈ es, K e) :
    m.EveryState I s es ↔ m.EveryStep P s es := by
  induction es generalizing s with
  | nil => exact iff_of_true hI trivial
  | cons e es ih =>
    have he := hstep s e (hes e List.mem_cons_self) hI
    have hrest := fun e' hm => hes e' (List.mem_cons_of_mem e hm)
    constructor
    · intro h
      have hI' : I (m.step s e) := h.2.head
      exact ⟨he.mp hI', (ih hI' hrest).mp h.2⟩
    · intro h
      have hI' := he.mpr h.1
      exact ⟨hI, (ih hI' hrest).mpr h.2⟩

/-- Unwinding: where the kept events preserve a relation between two states and the dropped ones
do not disturb it, a run is related to what is left of it. -/
theorem run_filter_related {R : σ → σ → Prop} {I : σ → Prop} {keep : ε → Bool}
    (hkeep : ∀ s t e, I s → R s t → keep e = true → R (m.step s e) (m.step t e))
    (hdrop : ∀ s t e, I s → R s t → keep e = false → R (m.step s e) t)
    (h : R s t) (hI : m.EveryState I s es) : R (m.run s es) (m.run t (es.filter keep)) := by
  induction es generalizing s t with
  | nil => exact h
  | cons e es ih =>
    cases hk : keep e with
    | true =>
      rw [List.filter_cons_of_pos hk]
      exact ih (hkeep s t e hI.1 h hk) hI.2
    | false =>
      rw [List.filter_cons_of_neg (by simpa using hk)]
      exact ih (hdrop s t e hI.1 h hk) hI.2

/-- Once `F` holds, whatever follows in the run stays related to that moment by `R`. -/
def Absorbs (m : EventMachine σ ε) (F : σ → Prop) (R : σ → σ → Prop) (s : σ) (es : List ε) :
    Prop :=
  ∀ before later rest, es = before ++ later ++ rest → F (m.run s before) →
    R (m.run s before) (m.run s (before ++ later))

/-- A final state absorbs a run exactly if it absorbs each of its steps. -/
theorem absorbs_iff_everyStep {F : σ → Prop} {R : σ → σ → Prop} (hrefl : ∀ s, R s s)
    (htrans : ∀ s t u, R s t → R t u → R s u) (hF : ∀ s t, F s → R s t → F t) (s : σ)
    (es : List ε) :
    m.Absorbs F R s es ↔ m.EveryStep (fun s e => F s → R s (m.step s e)) s es := by
  constructor
  · intro h
    induction es generalizing s with
    | nil => trivial
    | cons e es ih =>
      refine ⟨h [] [e] es rfl, ih _ ?_⟩
      intro before later rest he
      exact h (e :: before) later rest (congrArg (e :: ·) he)
  · rintro h before later rest rfl hf
    rw [List.append_assoc, everyStep_append, everyStep_append] at h
    rw [run_append]
    have hlater := h.2.1
    clear h
    generalize m.run s before = t at hf hlater
    induction later generalizing t with
    | nil => exact hrefl t
    | cons e later ih =>
      have hstep := hlater.1 hf
      exact htrans _ _ _ hstep (ih _ (hF _ _ hf hstep) hlater.2)

end EventMachine
