import HiTuxShare.FileStream

set_option autoImplicit true

/-- What happens on a connection over which one side serves the lists of files the other side
asks for: the files change, a list takes the place of the one before, a piece goes out. -/
inductive Turn (φ : Type u) (β : Type v) where
  | view (contents : φ → Option (List β))
  | request (files : List φ)
  | piece (piece : Piece φ β)

/-- Where the serving side stands. `fresh` says that nothing of the latest list has been
announced yet, `noticed` that a notice has gone out since the last header. -/
structure Progress (φ : Type u) (β : Type v) where
  view : φ → Option (List β)
  remaining : List φ := []
  unsent : Option (List β) := none
  fresh : Bool := true
  noticed : Bool := false

namespace Progress

/-- The list from the next file on that can be read. -/
def next (p : Progress φ β) : List φ := p.remaining.dropWhile fun file => (p.view file).isNone

/-- Nothing of the last announced file is left to send. -/
def AtEnd (p : Progress φ β) : Prop := p.unsent.getD [] = []

def advance (p : Progress φ β) : Turn φ β → Progress φ β
  | .view contents => { p with view := contents }
  | .request files => { p with remaining := files, fresh := true }
  | .piece .notice => { p with noticed := true }
  | .piece (.header file) =>
    { p with remaining := p.next.tail, unsent := p.view file, fresh := false, noticed := false }
  | .piece (.data bytes) => { p with unsent := p.unsent.map (·.drop bytes.length) }

def machine : EventMachine (Progress φ β) (Turn φ β) := ⟨advance⟩

/-- A header announces the next file of the list that can be read, once the file before it is
out or else as the start of a new list. Data continue the file announced last, and only follow
its header and each other. -/
def Legal (p : Progress φ β) : Turn φ β → Prop
  | .view _ => True
  | .request _ => True
  | .piece .notice => True
  | .piece (.header file) => p.next.head? = some file ∧ (p.fresh = true ∨ p.AtEnd)
  | .piece (.data bytes) =>
    p.noticed = false ∧ ∃ unsent, p.unsent = some unsent ∧ bytes <+: unsent

def LegalTurns (p : Progress φ β) (turns : List (Turn φ β)) : Prop :=
  machine.EveryStep Legal p turns

/-- The place after some pieces have gone out. -/
def carry (p : Progress φ β) (pieces : List (Piece φ β)) : Progress φ β :=
  machine.run p (pieces.map .piece)

def LegalPieces (p : Progress φ β) (pieces : List (Piece φ β)) : Prop :=
  p.LegalTurns (pieces.map .piece)

@[simp] theorem carry_nil (p : Progress φ β) : p.carry [] = p := rfl

theorem carry_append (p : Progress φ β) (pieces more : List (Piece φ β)) :
    p.carry (pieces ++ more) = (p.carry pieces).carry more := by
  rw [carry, List.map_append, EventMachine.run_append]
  rfl

theorem carry_view (p : Progress φ β) (pieces : List (Piece φ β)) :
    (p.carry pieces).view = p.view := by
  induction pieces generalizing p with
  | nil => rfl
  | cons piece pieces ih =>
    rw [show p.carry (piece :: pieces) = (p.advance (.piece piece)).carry pieces from rfl, ih]
    cases piece <;> rfl

theorem legalPieces_append {p : Progress φ β} {pieces more : List (Piece φ β)} :
    p.LegalPieces (pieces ++ more) ↔ p.LegalPieces pieces ∧ (p.carry pieces).LegalPieces more := by
  rw [LegalPieces, LegalTurns, List.map_append]
  exact EventMachine.everyStep_append ..

theorem legalPieces_singleton {p : Progress φ β} {piece : Piece φ β} :
    p.LegalPieces [piece] ↔ p.Legal (.piece piece) := and_iff_left trivial

theorem next_eq_of_split {p : Progress φ β} (h : p.remaining = skipped ++ file :: rest)
    (hskipped : ∀ f ∈ skipped, p.view f = none) (hfile : (p.view file).isSome = true) :
    p.next = file :: rest := by
  have hpass : ∀ f ∈ skipped, (p.view f).isNone = true := by
    intro f hm
    rw [hskipped f hm]
    rfl
  rw [next, h, List.dropWhile_append_of_pos hpass, List.dropWhile_cons_of_neg]
  simpa [Option.isSome_iff_ne_none] using hfile

end Progress
