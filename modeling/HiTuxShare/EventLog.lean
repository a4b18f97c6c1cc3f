import Mathlib.Data.List.Chain
import Mathlib.Tactic.Common

set_option autoImplicit true

/-- The last entry of a log that has something to say to a reader. -/
def latest (pick : ε → Option α) (log : List ε) : Option α := (log.filterMap pick).getLast?

theorem latest_append (pick : ε → Option α) (log later : List ε) :
    latest pick (log ++ later) = (latest pick later).or (latest pick log) := by
  rw [latest, List.filterMap_append, List.getLast?_append]
  rfl

theorem latest_map (pick : α → Option β) (f : ε → α) (log : List ε) :
    latest pick (log.map f) = latest (fun e => pick (f e)) log := by
  rw [latest, List.filterMap_map]
  rfl

theorem foldl_eq_latest {step : σ → ε → σ} {field : σ → α} {pick : ε → Option α}
    (h : ∀ s e, field (step s e) = (pick e).getD (field s)) (s : σ) (log : List ε) :
    field (log.foldl step s) = (latest pick log).getD (field s) := by
  induction log generalizing s with
  | nil => rfl
  | cons e log ih =>
    rw [List.foldl_cons, ih, h, show e :: log = [e] ++ log from rfl, latest_append]
    cases latest pick log with
    | some v => rfl
    | none =>
      change _ = (latest pick [e]).getD _
      cases hp : pick e <;> simp [latest, hp]

/-- Who reads a log from some entry on knows what it says last exactly if it was said again, or if
it is what they assumed. -/
theorem getD_latest_drop_iff {pick : ε → Option α} {log : List ε} (h : latest pick log = some v)
    (n : Nat) (assumed : α) :
    (latest pick (log.drop n)).getD assumed = v ↔
      latest pick (log.drop n) = some v ∨ v = assumed := by
  cases hd : latest pick (log.drop n) with
  | none => simp [eq_comm]
  | some u =>
    rw [← List.take_append_drop n log, latest_append, hd] at h
    cases h
    simp

/-- The same for a reader who passes on what they know in their own writing. -/
theorem passesOn_iff {pick : ε → Option α} {encode : α → β} (hencode : encode.Injective)
    {assumed : α} (log : List ε) (n : Nat)
    (h : passedOn = some (encode ((latest pick (log.drop n)).getD assumed))) :
    (∀ v, latest pick log = some v → passedOn = some (encode v)) ↔
      ∀ v, latest pick log = some v → latest pick (log.drop n) = some v ∨ v = assumed := by
  apply forall₂_congr
  intro v hv
  rw [h, Option.some.injEq, hencode.eq_iff]
  exact getD_latest_drop_iff hv n assumed

theorem getD_latest_concat_iff (pick : ε → Option α) (log : List ε) (e : ε) (assumed : α) :
    (latest pick (log ++ [e])).getD assumed = (pick e).getD assumed ↔
      (pick e = none → (latest pick log).getD assumed = assumed) := by
  have hlast : latest pick [e] = pick e := by
    cases hp : pick e <;> simp [latest, hp]
  rw [latest_append, hlast]
  cases pick e with
  | some v => simp
  | none => simp

theorem foldl_eq_self {step : σ → ε → σ} {log : List ε} (h : ∀ e ∈ log, step s e = s) :
    log.foldl step s = s := by
  apply List.foldlRecOn (motive := (· = s)) log step rfl
  rintro t rfl e hm
  exact h e hm

/-- Entries that change nothing can be left out. -/
theorem foldl_filter_eq {step : σ → ε → σ} {p : ε → Bool}
    (h : ∀ s e, p e = false → step s e = s) (log : List ε) (s : σ) :
    (log.filter p).foldl step s = log.foldl step s := by
  rw [List.foldl_filter]
  apply List.foldl_ext
  intro t e _
  cases hp : p e with
  | true => exact if_pos rfl
  | false => exact (if_neg Bool.false_ne_true).trans (h t e hp).symm

/-- Nothing of what came before an entry that starts anew is left. -/
theorem foldl_eq_of_reset {step : σ → ε → σ} {log : List ε}
    (hreset : ∀ s, step s reset = start) (h : ∀ e ∈ log, step start e = start)
    (hm : reset ∈ log) (s : σ) : log.foldl step s = start := by
  obtain ⟨before, later, rfl⟩ := List.append_of_mem hm
  rw [List.foldl_append, List.foldl_cons, hreset]
  apply foldl_eq_self
  intro e hm
  exact h e (List.mem_append_right before (List.mem_cons_of_mem reset hm))

/-- Comings and goings take turns, a coming first. -/
def Alternates (comings : List Bool) : Prop := List.IsChain (· ≠ ·) (false :: comings)

instance : DecidablePred Alternates := fun comings =>
  inferInstanceAs (Decidable (List.IsChain (· ≠ ·) (false :: comings)))

def isPresent (comings : List Bool) : Bool := comings.getLast?.getD false

@[simp] theorem isPresent_concat (comings : List Bool) (coming : Bool) :
    isPresent (comings ++ [coming]) = coming := by
  rw [isPresent, List.getLast?_concat]
  rfl

theorem Alternates.concat (h : Alternates comings) (hturn : isPresent comings ≠ coming) :
    Alternates (comings ++ [coming]) := by
  apply List.IsChain.append h (List.IsChain.singleton coming)
  intro x hx y hy
  cases hy
  rw [List.getLast?_cons] at hx
  cases hx
  exact hturn
