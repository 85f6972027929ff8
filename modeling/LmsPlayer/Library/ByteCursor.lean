import LmsPlayer.Library.ByteLayout

/-!
# ByteCursor — parsers over a buffer whose reads can panic

A parser that walks a byte buffer with operations such as "split off the first `n` bytes" dies when
the buffer is shorter than `n`.  `Cursor α` keeps the three ways such a parser can end apart: it
*panics*, it *rejects* its input by returning early, or it yields a value with the unread bytes.

The operations read from the front of the buffer, and a buffer that is too short makes every one of
them panic.  `runAt` runs a parser from an offset of a fixed buffer; each operation has one lemma
that says which field it reads there and at which offset the rest of the parser goes on.  `Yields`
is what holds of the value of a parser whatever it reads.
-/

namespace ByteCursor

open ByteLayout

universe u v

/-- How a parser ends. -/
inductive Outcome (α : Type u) where
  | panic
  | reject
  | ok (value : α) (rest : List UInt8)
  deriving DecidableEq, Repr

/-- A parser over a byte buffer. -/
def Cursor (α : Type u) : Type u := List UInt8 → Outcome α

namespace Cursor

variable {α : Type u} {β : Type v}

def run (p : Cursor α) (buf : List UInt8) : Outcome α := p buf

protected def pure (a : α) : Cursor α := fun buf => .ok a buf

protected def bind (p : Cursor α) (f : α → Cursor β) : Cursor β := fun buf =>
  match p buf with
  | .panic => .panic
  | .reject => .reject
  | .ok a rest => f a rest

instance : Monad Cursor where
  pure := Cursor.pure
  bind := Cursor.bind

theorem run_bind {β : Type u} (p : Cursor α) (f : α → Cursor β) (buf : List UInt8) :
    (p >>= f).run buf =
      match p.run buf with
      | .panic => .panic
      | .reject => .reject
      | .ok a rest => (f a).run rest := rfl

theorem run_bind_of_ok {β : Type u} {p : Cursor α} {f : α → Cursor β} {buf rest : List UInt8}
    {a : α} (h : p.run buf = .ok a rest) : (p >>= f).run buf = (f a).run rest := by
  rw [run_bind, h]

theorem run_bind_of_reject {β : Type u} {p : Cursor α} {f : α → Cursor β} {buf : List UInt8}
    (h : p.run buf = .reject) : (p >>= f).run buf = .reject := by
  rw [run_bind, h]

theorem run_bind_of_panic {β : Type u} {p : Cursor α} {f : α → Cursor β} {buf : List UInt8}
    (h : p.run buf = .panic) : (p >>= f).run buf = .panic := by
  rw [run_bind, h]

/-! ## Operations -/

/-- Return early. -/
def reject : Cursor α := fun _ => .reject

/-- The number of unread bytes. -/
def remaining : Cursor Nat := fun buf => .ok buf.length buf

/-- Split off the first `n` bytes; a shorter buffer panics. -/
def splitTo (n : Nat) : Cursor (List UInt8) := fun buf =>
  if buf.length < n then .panic else .ok (buf.take n) (buf.drop n)

/-- Skip `n` bytes; a shorter buffer panics. -/
def advance (n : Nat) : Cursor Unit := fun buf =>
  if buf.length < n then .panic else .ok () (buf.drop n)

/-- Read an unsigned big-endian number of `w` bytes; a shorter buffer panics. -/
def getUInt (w : Nat) : Cursor Nat := fun buf =>
  if buf.length < w then .panic else .ok (BigEndian.ofBytes (buf.take w)) (buf.drop w)

/-- Read one byte; an empty buffer panics. -/
def getByte : Cursor UInt8 := fun buf =>
  match buf with
  | [] => .panic
  | b :: rest => .ok b rest

/-- Everything that is left. -/
def takeRest : Cursor (List UInt8) := fun buf => .ok buf []

/-- A value that may be missing; a missing one rejects. -/
def expect (a : Option α) : Cursor α := fun buf =>
  match a with
  | none => .reject
  | some a => .ok a buf

/-! ## Running from an offset -/

/-- Run a parser on what is left of `buf` behind the first `k` bytes. -/
def runAt (p : Cursor α) (buf : List UInt8) (k : Nat) : Outcome α := p.run (buf.drop k)

theorem run_eq_runAt_zero (p : Cursor α) (buf : List UInt8) : p.run buf = p.runAt buf 0 := rfl

theorem runAt_drop (p : Cursor α) (buf : List UInt8) (n k : Nat) :
    p.runAt (buf.drop n) k = p.runAt buf (n + k) := by
  unfold runAt
  rw [List.drop_drop]

variable {buf : List UInt8} {k n : Nat}

theorem runAt_pure (a : α) : (pure a : Cursor α).runAt buf k = .ok a (buf.drop k) := rfl

theorem runAt_bind_remaining {β : Type} (f : Nat → Cursor β) :
    (remaining >>= f).runAt buf k = (f (buf.length - k)).runAt buf k := by
  rw [← List.length_drop]
  rfl

theorem runAt_bind_takeRest {β : Type} (f : List UInt8 → Cursor β) :
    (takeRest >>= f).runAt buf k = (f (restAt buf k)).runAt buf buf.length := by
  unfold runAt
  rw [List.drop_length]
  rfl

theorem runAt_bind_getByte {β : Type} (f : UInt8 → Cursor β) (h : k < buf.length) :
    (getByte >>= f).runAt buf k = (f (byteAt buf k)).runAt buf (k + 1) := by
  unfold runAt
  apply run_bind_of_ok
  have hbyte : byteAt buf k = buf[k] := by
    simp [byteAt, h]
  rw [List.drop_eq_getElem_cons h, hbyte]
  rfl

theorem runAt_bind_splitTo {β : Type} (f : List UInt8 → Cursor β) (h : k + n ≤ buf.length) :
    (splitTo n >>= f).runAt buf k = (f (fieldAt buf k n)).runAt buf (k + n) := by
  unfold runAt
  apply run_bind_of_ok
  have hlen : ¬ (buf.drop k).length < n := by
    rw [List.length_drop]
    omega
  unfold run splitTo
  rw [if_neg hlen, List.drop_drop]
  rfl

theorem runAt_splitTo_of_lt (h : buf.length < k + n) (hn : 0 < n) :
    (splitTo n).runAt buf k = .panic := by
  have hlen : (buf.drop k).length < n := by
    rw [List.length_drop]
    omega
  exact if_pos hlen

theorem runAt_bind_advance {β : Type} (f : Unit → Cursor β) (h : k + n ≤ buf.length) :
    (advance n >>= f).runAt buf k = (f ()).runAt buf (k + n) := by
  unfold runAt
  apply run_bind_of_ok
  have hlen : ¬ (buf.drop k).length < n := by
    rw [List.length_drop]
    omega
  unfold run advance
  rw [if_neg hlen, List.drop_drop]

theorem runAt_bind_getUInt {β : Type} (f : Nat → Cursor β) (h : k + n ≤ buf.length) :
    (getUInt n >>= f).runAt buf k = (f (uintAt buf k n)).runAt buf (k + n) := by
  unfold runAt
  apply run_bind_of_ok
  have hlen : ¬ (buf.drop k).length < n := by
    rw [List.length_drop]
    omega
  unfold run getUInt
  rw [if_neg hlen, List.drop_drop]
  rfl

/-! ## Postconditions -/

/-- `Q` holds of every value the parser yields. -/
def Yields (Q : α → Prop) (p : Cursor α) : Prop :=
  ∀ buf a rest, p.run buf = .ok a rest → Q a

theorem yields_pure {Q : α → Prop} {a : α} (h : Q a) : Yields Q (pure a) := by
  intro buf b rest hrun
  cases hrun
  exact h

theorem yields_bind {β : Type u} {Q : β → Prop} {p : Cursor α} {f : α → Cursor β}
    (h : ∀ a, Yields Q (f a)) : Yields Q (p >>= f) := by
  intro buf b rest hrun
  rw [run_bind] at hrun
  cases hp : p.run buf with
  | panic =>
      rw [hp] at hrun
      cases hrun
  | reject =>
      rw [hp] at hrun
      cases hrun
  | ok a rest' =>
      rw [hp] at hrun
      exact h a rest' b rest hrun

end Cursor

end ByteCursor
