import LmsPlayer.Library.TransitionSystem
import Mathlib.Data.List.Basic

/-!
# Fifo — a first-in first-out pipe

The specification of anything that moves a stream of symbols from a sender to a receiver: symbols
are sent at one end, are in flight for a while, and are received at the other end in the order in
which they were sent.  `conservation` says that none is lost, duplicated or overtaken.
-/

namespace Fifo

open TransitionSystem (System)

universe u

/-- What has been sent and received so far, and what is in between. -/
structure Pipe (α : Type u) where
  sent : List α
  inFlight : List α
  received : List α

variable {α : Type u}

namespace Pipe

def empty : Pipe α :=
  { sent := []
    inFlight := []
    received := [] }

def send (p : Pipe α) (xs : List α) : Pipe α :=
  { p with
    sent := p.sent ++ xs
    inFlight := p.inFlight ++ xs }

end Pipe

inductive Step : Pipe α → Pipe α → Prop where
  | send (p : Pipe α) (xs : List α) : Step p (p.send xs)
  | receive (p : Pipe α) {xs rest : List α} (h : p.inFlight = xs ++ rest) :
      Step p
        { p with
          inFlight := rest
          received := p.received ++ xs }

def system (α : Type u) : System (Pipe α) :=
  { init := fun p => p = Pipe.empty
    step := Step }

/-- Whatever has been received, followed by what is in flight, is what has been sent. -/
theorem conservation {p : Pipe α} (h : (system α).Reachable p) :
    p.received ++ p.inFlight = p.sent := by
  refine System.Reachable.invariant (fun p => p.received ++ p.inFlight = p.sent) ?_ ?_ h
  · intro p hp
    have hempty : p = Pipe.empty := hp
    rw [hempty]
    rfl
  · intro p q _ ih hstep
    cases hstep with
    | send xs =>
        calc
          p.received ++ (p.inFlight ++ xs)
              = (p.received ++ p.inFlight) ++ xs := (List.append_assoc _ _ _).symm
          _ = p.sent ++ xs := by rw [ih]
    | receive hflight =>
        rename_i xs rest
        calc
          (p.received ++ xs) ++ rest = p.received ++ (xs ++ rest) := List.append_assoc _ _ _
          _ = p.sent := by rw [← hflight, ih]

end Fifo
