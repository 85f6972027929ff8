import Mathlib.Data.List.Basic

/-!
# Channel — bounded channels between threads

A channel is the list of the messages it holds, oldest first.  Receiving takes the head.  `Sends`
describes the calls of `send` that return: the message is queued when there is room for it, and it
is dropped when nobody is left to receive it.  A `send` to a full queue that still has a receiver
does not return (`Blocked`).
-/

namespace Channel

universe u

variable {α : Type u} {connected : Prop} {cap : Nat} {queue queue' : List α} {msg : α}

inductive Sends (connected : Prop) (cap : Nat) (queue : List α) (msg : α) : List α → Prop where
  | queued (hconn : connected) (hroom : queue.length < cap) :
      Sends connected cap queue msg (queue ++ [msg])
  | dropped (hconn : ¬connected) : Sends connected cap queue msg queue

def Blocked (connected : Prop) (cap : Nat) (queue : List α) : Prop :=
  connected ∧ cap ≤ queue.length

/-- A `send` can return exactly when it is not blocked. -/
theorem exists_sends_iff : (∃ queue', Sends connected cap queue msg queue') ↔
    ¬Blocked connected cap queue := by
  constructor
  · rintro ⟨queue', h⟩ ⟨hconn, hfull⟩
    cases h with
    | queued _ hroom => exact absurd hroom (Nat.not_lt.2 hfull)
    | dropped hdead => exact hdead hconn
  · intro h
    by_cases hconn : connected
    · have hroom : queue.length < cap := Nat.lt_of_not_le fun hfull => h ⟨hconn, hfull⟩
      exact ⟨_, .queued hconn hroom⟩
    · exact ⟨_, .dropped hconn⟩

namespace Sends

/-- What holds of the messages in a channel still holds after a message of which it holds is
sent. -/
theorem forall_mem {P : α → Prop} (h : Sends connected cap queue msg queue')
    (hqueue : ∀ m ∈ queue, P m) (hmsg : P msg) : ∀ m ∈ queue', P m := by
  cases h with
  | queued hconn hroom =>
      intro m hm
      rcases List.mem_append.1 hm with hold | hnew
      · exact hqueue m hold
      · rw [List.mem_singleton.1 hnew]
        exact hmsg
  | dropped hconn => exact hqueue

/-- A message sent to a channel that is full and connected has nowhere to go. -/
theorem not_full (h : Sends connected cap queue msg queue') (hconn : connected) :
    queue.length < cap := by
  cases h with
  | queued _ hroom => exact hroom
  | dropped hdead => exact absurd hconn hdead

theorem length_le (h : Sends connected cap queue msg queue') (hqueue : queue.length ≤ cap) :
    queue'.length ≤ cap := by
  cases h with
  | queued hconn hroom =>
      rw [List.length_append]
      exact hroom
  | dropped hconn => exact hqueue

/-- A message sent is there once more at most. -/
theorem count_le [DecidableEq α] (h : Sends connected cap queue msg queue') (m : α) :
    queue'.count m ≤ queue.count m + if msg = m then 1 else 0 := by
  cases h with
  | queued hconn hroom =>
      rw [List.count_append, List.count_singleton]
      by_cases hm : msg = m
      · simp [hm]
      · simp [hm]
  | dropped hconn => exact Nat.le_add_right _ _

end Sends

end Channel
