import HiTuxShare.EventMachine

set_option autoImplicit true

/-- A source, a replica of it, and the messages from one to the other that are still on their way,
the oldest first. -/
structure FifoLink (σ : Type u) (μ : Type v) (τ : Type w) where
  source : σ
  inFlight : List μ
  replica : τ

namespace FifoLink

variable {σ : Type u} {μ : Type v} {τ : Type w} {ν : Type x}

def send (l : FifoLink σ μ τ) (source : σ) (news : List μ) : FifoLink σ μ τ :=
  { l with source, inFlight := l.inFlight ++ news }

/-- The oldest message arrives, if there is one. -/
def arrive (l : FifoLink σ μ τ) (read : τ → μ → τ) : FifoLink σ μ τ :=
  match l.inFlight with
  | [] => l
  | message :: later => { l with inFlight := later, replica := read l.replica message }

/-- With all that is on its way, what is seen of the replica is what is true of the source. -/
def CatchesUp (apply : ν → μ → ν) (view : τ → ν) (truth : σ → ν) (l : FifoLink σ μ τ) : Prop :=
  l.inFlight.foldl apply (view l.replica) = truth l.source

variable {apply : ν → μ → ν} {view : τ → ν} {truth : σ → ν} {l : FifoLink σ μ τ}

/-- Once nothing is on its way, the two agree. -/
theorem CatchesUp.agrees (h : l.CatchesUp apply view truth) (hnone : l.inFlight = []) :
    view l.replica = truth l.source := by
  rwa [CatchesUp, hnone] at h

theorem CatchesUp.send (h : l.CatchesUp apply view truth) {source : σ} {news : List μ}
    (hnews : news.foldl apply (truth l.source) = truth source) :
    (l.send source news).CatchesUp apply view truth := by
  change (l.inFlight ++ news).foldl apply (view l.replica) = truth source
  rw [List.foldl_append, h, hnews]

theorem CatchesUp.arrive (h : l.CatchesUp apply view truth) {read : τ → μ → τ}
    (hread : ∀ message ∈ l.inFlight, view (read l.replica message) =
      apply (view l.replica) message) :
    (l.arrive read).CatchesUp apply view truth := by
  rw [FifoLink.arrive]
  split
  · exact h
  · next message later hfirst =>
    rw [CatchesUp, hfirst] at h
    rw [CatchesUp, hread message (hfirst ▸ List.mem_cons_self)]
    exact h

end FifoLink
