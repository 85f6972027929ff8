import LmsPlayer.Library.BigEndian

/-!
# ByteLayout — fields at fixed offsets

Reading a record by the offsets of its fields: `fieldAt`, `byteAt`, `uintAt` and `restAt`.  A record
that is written as a concatenation has each of its parts at the sum of the lengths in front of it;
the `_append` lemmas peel those parts off one by one.
-/

namespace ByteLayout

/-- `width` bytes at `offset`. -/
def fieldAt (body : List UInt8) (offset width : Nat) : List UInt8 := (body.drop offset).take width

/-- The rest of the body from `offset` on. -/
def restAt (body : List UInt8) (offset : Nat) : List UInt8 := body.drop offset

/-- The byte at `offset`, zero behind the end. -/
def byteAt (body : List UInt8) (offset : Nat) : UInt8 := body.getD offset 0

/-- An unsigned big-endian field of `width` bytes at `offset`. -/
def uintAt (body : List UInt8) (offset width : Nat) : Nat :=
  BigEndian.ofBytes (fieldAt body offset width)

variable {xs ys : List UInt8} {n offset width : Nat}

/-- A field behind the first part of a body is a field of the second part. -/
theorem fieldAt_append_right (hn : xs.length = n) (h : n ≤ offset) :
    fieldAt (xs ++ ys) offset width = fieldAt ys (offset - n) width := by
  subst hn
  simp [fieldAt, List.drop_append, List.drop_eq_nil_of_le h]

theorem fieldAt_append_left (h : xs.length = width) : fieldAt (xs ++ ys) 0 width = xs := by
  simp [fieldAt, List.take_left' h]

theorem fieldAt_self (h : xs.length = width) : fieldAt xs 0 width = xs := by
  simp [fieldAt, ← h]

theorem restAt_append (hn : xs.length = n) (h : n ≤ offset) :
    restAt (xs ++ ys) offset = restAt ys (offset - n) := by
  subst hn
  simp [restAt, List.drop_append, List.drop_eq_nil_of_le h]

@[simp] theorem restAt_zero (xs : List UInt8) : restAt xs 0 = xs := rfl

theorem byteAt_cons_zero (b : UInt8) (bs : List UInt8) : byteAt (b :: bs) 0 = b := rfl

theorem uintAt_append_right (hn : xs.length = n) (h : n ≤ offset) :
    uintAt (xs ++ ys) offset width = uintAt ys (offset - n) width := by
  unfold uintAt
  rw [fieldAt_append_right hn h]

/-- A number written at the front of what is left is read back. -/
theorem uintAt_toBytes_append {v : Nat} (h : v < 256 ^ width) :
    uintAt (BigEndian.toBytes width v ++ ys) 0 width = v := by
  unfold uintAt
  rw [fieldAt_append_left (BigEndian.length_toBytes width v), BigEndian.ofBytes_toBytes_of_lt h]

end ByteLayout
