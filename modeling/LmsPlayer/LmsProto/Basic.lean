import LmsPlayer.Library.Utf8
import LmsPlayer.Library.BigEndian

/-!
# Basic — the standard types the protocol code is written with

Durations and instants are counted in nanoseconds.  Subtracting a later instant from an earlier one
gives zero, as `Instant` arithmetic and `saturating_sub` do, so natural numbers with truncated
subtraction are the right carrier.
-/

namespace LmsPlayer

/-- A byte buffer (`Bytes`, `BytesMut`, `Vec<u8>`, `&[u8]`). -/
abbrev Bytes := List UInt8

/-- The byte of an ASCII character, `b'c'`. -/
def byte (c : Char) : UInt8 := UInt8.ofNat c.toNat

/-! ## Time -/

/-- A span of time, in nanoseconds. -/
abbrev Duration := Nat

/-- A reading of the monotonic clock, in nanoseconds. -/
abbrev Instant := Nat

namespace Duration

def fromMillis (ms : Nat) : Duration := ms * 1000000

def fromSecs (s : Nat) : Duration := s * 1000000000

def asMillis (d : Duration) : Nat := d / 1000000

def asSecs (d : Duration) : Nat := d / 1000000000

@[simp] theorem asMillis_fromMillis (ms : Nat) : asMillis (fromMillis ms) = ms := by
  simp [asMillis, fromMillis]

@[simp] theorem asSecs_fromSecs (s : Nat) : asSecs (fromSecs s) = s := by
  simp [asSecs, fromSecs]

end Duration

/-! ## Addresses -/

/-- An IPv4 address as its 32 bits. -/
structure Ipv4Addr where
  bits : UInt32
  deriving DecidableEq, Repr

namespace Ipv4Addr

def new (a b c d : UInt8) : Ipv4Addr :=
  { bits := UInt32.ofNat (BigEndian.ofBytes [a, b, c, d]) }

def unspecified : Ipv4Addr := { bits := 0 }

def isUnspecified (ip : Ipv4Addr) : Bool := ip.bits == 0

def isBroadcast (ip : Ipv4Addr) : Bool := ip.bits == 0xFFFFFFFF

def isMulticast (ip : Ipv4Addr) : Bool := 0xE0000000 ≤ ip.bits && ip.bits ≤ 0xEFFFFFFF

end Ipv4Addr

structure SocketAddrV4 where
  ip : Ipv4Addr
  port : UInt16
  deriving DecidableEq, Repr

/-- Default port used by the server for Slim Protocol traffic. -/
def SLIM_PORT : UInt16 := 3483

/-! ## I/O errors -/

inductive ErrorKind where
  | connectionReset
  | wouldBlock
  | interrupted
  | timedOut
  | invalidData
  | other
  deriving DecidableEq, Repr

structure IoError where
  kind : ErrorKind
  message : String
  deriving DecidableEq, Repr

end LmsPlayer
