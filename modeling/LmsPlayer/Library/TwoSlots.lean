import Mathlib.Data.List.Basic

/-!
# TwoSlots — a queue with two places

One item is current and at most one is next.  Pushing an item makes it current when there is none,
and next otherwise; what was next before is lost then.  Shifting makes the next item current.

The two places are a first-in first-out queue exactly as long as nothing is pushed while both are
taken (`inOrder_run_iff`).
-/

namespace TwoSlots

universe u

structure Slots (α : Type u) where
  current : Option α
  next : Option α
  deriving DecidableEq

variable {α : Type u}

namespace Slots

def empty : Slots α :=
  { current := none
    next := none }

def push (s : Slots α) (x : α) : Slots α :=
  if s.current.isSome then { s with next := some x } else { s with current := some x }

def shift (s : Slots α) : Slots α :=
  { current := s.next
    next := none }

/-- Nothing is next unless something is current. -/
def WellFormed (s : Slots α) : Prop := s.current = none → s.next = none

theorem wellFormed_push (s : Slots α) (x : α) : (s.push x).WellFormed := by
  intro hnone
  cases hcurrent : s.current with
  | none => simp [push, hcurrent] at hnone
  | some y => simp [push, hcurrent] at hnone

theorem wellFormed_shift (s : Slots α) : s.shift.WellFormed := fun _ => rfl

end Slots

inductive Op (α : Type u) where
  | push (x : α)
  | shift

/-- The two places, what has been pushed so far, and what has come to be current. -/
structure History (α : Type u) where
  slots : Slots α
  pushed : List α
  used : List α

namespace History

def apply (h : History α) : Op α → History α
  | .push x =>
      { slots := h.slots.push x
        pushed := h.pushed ++ [x]
        used := if h.slots.current.isSome then h.used else h.used ++ [x] }
  | .shift =>
      { h with
        slots := h.slots.shift
        used := h.used ++ h.slots.next.toList }

def run (h : History α) (ops : List (Op α)) : History α := ops.foldl apply h

/-- Everything pushed has come to be current, in order and once, but for what is next. -/
def InOrder (h : History α) : Prop := h.used ++ h.slots.next.toList = h.pushed

/-- Something pushed will never come to be current. -/
def Lost (h : History α) : Prop := h.used.length + h.slots.next.toList.length < h.pushed.length

theorem Lost.not_inOrder {h : History α} (hlost : h.Lost) : ¬h.InOrder := by
  intro horder
  have hlength : h.used.length + h.slots.next.toList.length = h.pushed.length := by
    rw [← List.length_append, horder]
  exact Nat.ne_of_lt hlost hlength

theorem Lost.apply {h : History α} (hlost : h.Lost) (op : Op α) : (h.apply op).Lost := by
  unfold Lost at hlost
  cases op with
  | push x =>
      cases hcurrent : h.slots.current with
      | none =>
          simp [Lost, History.apply, Slots.push, hcurrent]
          omega
      | some y =>
          simp [Lost, History.apply, Slots.push, hcurrent]
          omega
  | shift => simpa [Lost, History.apply, Slots.shift] using hlost

theorem Lost.run {h : History α} (hlost : h.Lost) (ops : List (Op α)) : (h.run ops).Lost := by
  induction ops generalizing h with
  | nil => exact hlost
  | cons op ops ih => exact ih (hlost.apply op)

theorem InOrder.shift {h : History α} (horder : h.InOrder) : (h.apply .shift).InOrder := by
  simpa [InOrder, History.apply, Slots.shift] using horder

/-- An item pushed while nothing is next follows all others. -/
theorem InOrder.push {h : History α} (horder : h.InOrder) (hroom : h.slots.next = none) (x : α) :
    (h.apply (.push x)).InOrder := by
  have hused : h.used = h.pushed := by simpa [InOrder, hroom] using horder
  cases hcurrent : h.slots.current with
  | none => simp [InOrder, History.apply, Slots.push, hcurrent, hroom, hused]
  | some y => simp [InOrder, History.apply, Slots.push, hcurrent, hused]

/-- An item pushed while both places are taken puts another one out. -/
theorem InOrder.lost_push {h : History α} (horder : h.InOrder) (hwf : h.slots.WellFormed) {y : α}
    (hnext : h.slots.next = some y) (x : α) : (h.apply (.push x)).Lost := by
  cases hcurrent : h.slots.current with
  | none =>
      rw [hwf hcurrent] at hnext
      cases hnext
  | some z =>
      have hlength : h.pushed.length = h.used.length + 1 := by
        rw [← horder, List.length_append, hnext]
        rfl
      simp [Lost, History.apply, Slots.push, hcurrent, hlength]

end History

/-- Nothing is pushed while something is next. -/
def Roomy : Slots α → List (Op α) → Prop
  | _, [] => True
  | s, .push x :: ops => s.next = none ∧ Roomy (s.push x) ops
  | s, .shift :: ops => Roomy s.shift ops

/-- **The two places are a queue exactly when nothing is pushed while both are taken.** -/
theorem inOrder_run_iff {h : History α} (hwf : h.slots.WellFormed) (horder : h.InOrder)
    (ops : List (Op α)) : (h.run ops).InOrder ↔ Roomy h.slots ops := by
  induction ops generalizing h with
  | nil => exact iff_of_true horder trivial
  | cons op ops ih =>
      cases op with
      | push x =>
          cases hnext : h.slots.next with
          | none =>
              have hpushed :=
                ih (h := h.apply (.push x)) (h.slots.wellFormed_push x) (horder.push hnext x)
              exact hpushed.trans (and_iff_right hnext).symm
          | some y =>
              -- What is lost now stays lost.
              have hlost := (horder.lost_push hwf hnext x).run ops
              refine iff_of_false hlost.not_inOrder ?_
              rintro ⟨hroom, _⟩
              rw [hnext] at hroom
              cases hroom
      | shift => exact ih (h := h.apply .shift) h.slots.wellFormed_shift horder.shift

end TwoSlots
