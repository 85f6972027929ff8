import Mathlib.Data.List.Induction
import Mathlib.Tactic.Ring

/-!
# BigEndian — fixed-width big-endian numbers

`toBytes w n` writes `n` in exactly `w` bytes, most significant first, dropping what does not fit;
`ofBytes` reads a byte string back.  The two are inverse to each other on numbers of `w` bytes.
-/

namespace BigEndian

/-- The `w` big-endian bytes of `n`; bits above `8 * w` are dropped. -/
def toBytes : Nat → Nat → List UInt8
  | 0, _ => []
  | w + 1, n => toBytes w (n / 256) ++ [UInt8.ofNat n]

/-- The number with the given big-endian bytes. -/
def ofBytes (bs : List UInt8) : Nat :=
  bs.foldl (fun n b => 256 * n + b.toNat) 0

@[simp] theorem length_toBytes (w n : Nat) : (toBytes w n).length = w := by
  induction w generalizing n with
  | zero => rfl
  | succ w ih => simp [toBytes, ih]

theorem ofBytes_append_singleton (bs : List UInt8) (b : UInt8) :
    ofBytes (bs ++ [b]) = 256 * ofBytes bs + b.toNat := by
  simp [ofBytes]

theorem ofBytes_toBytes (w n : Nat) : ofBytes (toBytes w n) = n % 256 ^ w := by
  induction w generalizing n with
  | zero => simp [toBytes, ofBytes, Nat.mod_one]
  | succ w ih =>
      have hlow : (UInt8.ofNat n).toNat = n % 256 := by simp
      rw [toBytes, ofBytes_append_singleton, ih, hlow, pow_succ', Nat.mod_mul]
      ring

theorem ofBytes_toBytes_of_lt {w n : Nat} (h : n < 256 ^ w) : ofBytes (toBytes w n) = n := by
  rw [ofBytes_toBytes, Nat.mod_eq_of_lt h]

end BigEndian
