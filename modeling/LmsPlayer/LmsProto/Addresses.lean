import LmsPlayer.LmsProto.Discovery.Tlv
import Mathlib.Data.List.TakeWhile

/-!
# Addresses — addresses as text

What `Display` writes of an address, and what `FromStr` reads: `parseIpv4Addr` is with the discovery
responses, `parseSocketAddrV4` is an address and a port with a colon between them.

* A number that has been written is read back (`readNumber_repr`), also as a part of an address.
* An address that has been written is read back (`parseIpv4Addr_toString`,
  `parseSocketAddrV4_toString`).
-/

namespace LmsPlayer

open Utf8 (utf8Bytes)

/-! ## Writing and reading -/

/-- `Display for Ipv4Addr` -/
def Ipv4Addr.toString (ip : Ipv4Addr) : String :=
  let octet (place : Nat) : String := (ip.bits.toNat / 256 ^ place % 256).repr
  octet 3 ++ "." ++ octet 2 ++ "." ++ octet 1 ++ "." ++ octet 0

/-- `Display for SocketAddrV4` -/
def SocketAddrV4.toString (addr : SocketAddrV4) : String :=
  addr.ip.toString ++ ":" ++ addr.port.toNat.repr

namespace LmsProto

/-- What is before the last colon and what is behind it: `value.rsplitn(2, ':')` when there is
one. -/
def rsplitColon (value : String) : Option (String × String) :=
  let chars := value.toList.reverse
  match chars.dropWhile (· ≠ ':') with
  | [] => none
  | _ :: first => some (.ofList first.reverse, .ofList (chars.takeWhile (· ≠ ':')).reverse)

/-- The port of a socket address: digits, and no plus sign. -/
def parsePort (digits : String) : Option UInt16 :=
  (readNumber (utf8Bytes digits)).bind fun n => if n < 2 ^ 16 then some (UInt16.ofNat n) else none

/-- `value.parse::<SocketAddrV4>()` -/
def parseSocketAddrV4 (value : String) : Option SocketAddrV4 := do
  let (ip, port) ← rsplitColon value
  return { ip := ← parseIpv4Addr ip, port := ← parsePort port }

/-! ## Text of ASCII characters -/

theorem utf8Bytes_append (s t : String) : utf8Bytes (s ++ t) = utf8Bytes s ++ utf8Bytes t := by
  simp [Utf8.utf8Bytes_eq_flatMap]

/-- A digit is one byte. -/
theorem utf8EncodeChar_of_isDigit {c : Char} (h : c.isDigit) :
    String.utf8EncodeChar c = [byte c] := by
  have hrange := Char.isDigit_iff_toNat.1 h
  have hsize : c.utf8Size = 1 := by
    rw [Char.utf8Size_eq_one_iff, UInt32.le_iff_toNat_le]
    exact hrange.2.trans (by decide)
  rw [String.utf8EncodeChar_eq_singleton hsize]
  rfl

theorem toNat_byte_of_isDigit {c : Char} (h : c.isDigit) : (byte c).toNat = c.toNat :=
  UInt8.toNat_ofNat_of_lt' (lt_of_le_of_lt (Char.isDigit_iff_toNat.1 h).2 (by decide))

theorem digitValue_byte {c : Char} (h : c.isDigit) :
    digitValue (byte c) = some (c.toNat - '0'.toNat) := by
  have hrange : byte '0' ≤ byte c ∧ byte c ≤ byte '9' := by
    rw [UInt8.le_iff_toNat_le, UInt8.le_iff_toNat_le, toNat_byte_of_isDigit h]
    exact Char.isDigit_iff_toNat.1 h
  unfold digitValue
  rw [if_pos hrange, toNat_byte_of_isDigit h]
  rfl

theorem utf8Bytes_of_isDigit {s : String} (h : ∀ c ∈ s.toList, c.isDigit) :
    utf8Bytes s = s.toList.map byte := by
  rw [Utf8.utf8Bytes_eq_flatMap]
  generalize s.toList = cs at h
  induction cs with
  | nil => rfl
  | cons c cs ih =>
      rw [List.flatMap_cons, utf8EncodeChar_of_isDigit (h c (List.mem_cons_self ..)),
        ih fun c' hc' => h c' (List.mem_cons_of_mem _ hc')]
      rfl

/-! ## Numbers -/

/-- Digits are read as what they stand for. -/
theorem readDigits_map_byte {cs : List Char} (h : ∀ c ∈ cs, c.isDigit) (acc : Nat) :
    readDigits acc (cs.map byte) = some (Nat.ofDigitChars 10 cs acc) := by
  induction cs generalizing acc with
  | nil => rw [Nat.ofDigitChars_nil]; rfl
  | cons c cs ih =>
      rw [List.map_cons, readDigits, digitValue_byte (h c (List.mem_cons_self ..)),
        Option.bind_some,
        ih fun c' hc' => h c' (List.mem_cons_of_mem _ hc'), Nat.ofDigitChars_cons, Nat.mul_comm]

theorem utf8Bytes_repr (n : Nat) : utf8Bytes n.repr = (Nat.toDigits 10 n).map byte := by
  have hdigits : ∀ c ∈ n.repr.toList, c.isDigit := by
    intro c hc
    rw [Nat.toList_repr] at hc
    exact Nat.isDigit_of_mem_toDigits (by decide) (by decide) hc
  rw [utf8Bytes_of_isDigit hdigits, Nat.toList_repr]

theorem readNumber_repr (n : Nat) : readNumber (utf8Bytes n.repr) = some n := by
  have hne : (Nat.toDigits 10 n).map byte ≠ [] := by
    simp
  rw [utf8Bytes_repr, readNumber, if_neg hne, readDigits_map_byte, Nat.ofDigitChars_ten_toDigits]
  exact fun c hc => Nat.isDigit_of_mem_toDigits (by decide) (by decide) hc

/-- The digits of a number do not begin with a zero, unless it is zero. -/
theorem head?_toDigits {n : Nat} (hn : n ≠ 0) : (Nat.toDigits 10 n).head? ≠ some '0' := by
  induction n using Nat.strong_induction_on with
  | _ n ih =>
      by_cases hlt : n < 10
      · have hdigit : ∀ m < 10, m ≠ 0 → some m.digitChar ≠ some '0' := by decide
        rw [Nat.toDigits_of_lt_base hlt]
        exact hdigit n hlt hn
      · have hle : 10 ≤ n := Nat.not_lt.1 hlt
        rw [Nat.toDigits_of_base_le (by decide) hle,
          List.head?_append_of_ne_nil _ Nat.toDigits_ne_nil]
        exact ih (n / 10) (by omega) (by omega)

theorem parseOctet_repr {n : Nat} (h : n < 2 ^ 8) :
    parseOctet (utf8Bytes n.repr) = some (UInt8.ofNat n) := by
  have hlength : (utf8Bytes n.repr).length ≤ 3 := by
    rw [utf8Bytes_repr, List.length_map, Nat.length_toDigits_le_iff (by decide) (by decide)]
    exact lt_of_lt_of_le h (by decide)
  have hcanonical : ¬(3 < (utf8Bytes n.repr).length ∨
      (utf8Bytes n.repr).head? = some (byte '0') ∧ 1 < (utf8Bytes n.repr).length) := by
    rintro (hlong | ⟨hhead, hmany⟩)
    · exact absurd hlong (Nat.not_lt.2 hlength)
    · -- Zero is written as one digit, and no other number begins with it.
      have hn : n ≠ 0 := by
        rintro rfl
        exact absurd hmany (by decide)
      rw [utf8Bytes_repr, List.head?_map] at hhead
      rcases Option.map_eq_some_iff.1 hhead with ⟨c, hc, hbyte⟩
      have hdigit : c.isDigit :=
        Nat.isDigit_of_mem_toDigits (by decide) (by decide) (List.mem_of_head? hc)
      have hzero : c.toNat = '0'.toNat := by
        rw [← toNat_byte_of_isDigit hdigit, hbyte]
        rfl
      exact head?_toDigits hn (hc.trans (congrArg some (Char.toNat_inj.1 hzero)))
  unfold parseOctet
  rw [if_neg hcanonical, readNumber_repr, Option.bind_some, if_pos h]

theorem parsePort_repr (port : UInt16) : parsePort port.toNat.repr = some port := by
  unfold parsePort
  rw [readNumber_repr, Option.bind_some, if_pos port.toNat_lt, UInt16.ofNat_toNat]

/-! ## Addresses -/

theorem dot_notMem_repr (n : Nat) : byte '.' ∉ utf8Bytes n.repr := by
  intro hmem
  rw [utf8Bytes_repr] at hmem
  rcases List.mem_map.1 hmem with ⟨c, hc, hbyte⟩
  have hdigit : c.isDigit := Nat.isDigit_of_mem_toDigits (by decide) (by decide) hc
  have hge : 48 ≤ c.toNat := (Char.isDigit_iff_toNat.1 hdigit).1
  rw [← toNat_byte_of_isDigit hdigit, hbyte] at hge
  exact absurd hge (by decide)

theorem new_octets (ip : Ipv4Addr) :
    Ipv4Addr.new (UInt8.ofNat (ip.bits.toNat / 256 ^ 3 % 256))
        (UInt8.ofNat (ip.bits.toNat / 256 ^ 2 % 256)) (UInt8.ofNat (ip.bits.toNat / 256 ^ 1 % 256))
        (UInt8.ofNat (ip.bits.toNat / 256 ^ 0 % 256)) = ip := by
  have hlt : ip.bits.toNat < 2 ^ 32 := ip.bits.toNat_lt
  have hbits : BigEndian.ofBytes
      [UInt8.ofNat (ip.bits.toNat / 256 ^ 3 % 256), UInt8.ofNat (ip.bits.toNat / 256 ^ 2 % 256),
        UInt8.ofNat (ip.bits.toNat / 256 ^ 1 % 256), UInt8.ofNat (ip.bits.toNat / 256 ^ 0 % 256)] =
      ip.bits.toNat := by
    simp [BigEndian.ofBytes]
    omega
  unfold Ipv4Addr.new
  rw [hbits, UInt32.ofNat_toNat]

theorem parseIpv4Addr_toString (ip : Ipv4Addr) : parseIpv4Addr ip.toString = some ip := by
  have hparts : (utf8Bytes ip.toString).splitOn (byte '.') =
      [utf8Bytes (ip.bits.toNat / 256 ^ 3 % 256).repr,
        utf8Bytes (ip.bits.toNat / 256 ^ 2 % 256).repr,
        utf8Bytes (ip.bits.toNat / 256 ^ 1 % 256).repr,
        utf8Bytes (ip.bits.toNat / 256 ^ 0 % 256).repr] := by
    rw [← List.splitOn_intercalate (byte '.') _ (List.cons_ne_nil _ _)]
    · have hdot : utf8Bytes "." = [byte '.'] := by decide
      simp [Ipv4Addr.toString, utf8Bytes_append, hdot, List.intercalate]
    · simp [dot_notMem_repr]
  have hoctet : ∀ place, parseOctet (utf8Bytes (ip.bits.toNat / 256 ^ place % 256).repr) =
      some (UInt8.ofNat (ip.bits.toNat / 256 ^ place % 256)) :=
    fun place => parseOctet_repr (Nat.mod_lt _ (by decide))
  unfold parseIpv4Addr
  rw [hparts]
  dsimp only
  rw [hoctet, hoctet, hoctet, hoctet]
  exact congrArg some (new_octets ip)

/-! ## Colons -/

theorem rsplitColon_append {host last : String} (h : ':' ∉ last.toList) :
    rsplitColon (host ++ ":" ++ last) = some (host, last) := by
  have hchars : (host ++ ":" ++ last).toList.reverse =
      last.toList.reverse ++ ':' :: host.toList.reverse := by
    simp
  have hlast : ∀ c ∈ last.toList.reverse, decide (c ≠ ':') = true := by
    intro c hc
    refine decide_eq_true ?_
    rintro rfl
    exact h (List.mem_reverse.1 hc)
  unfold rsplitColon
  dsimp only
  rw [hchars, List.dropWhile_append_of_pos hlast, List.takeWhile_append_of_pos hlast]
  simp

theorem eq_of_rsplitColon {value host last : String} (h : rsplitColon value = some (host, last)) :
    value = host ++ ":" ++ last ∧ ':' ∉ last.toList := by
  unfold rsplitColon at h
  dsimp only at h
  -- What `take_while` leaves begins with the colon.
  have hsplit := List.takeWhile_append_dropWhile (p := fun c => decide (c ≠ ':'))
    (l := value.toList.reverse)
  have hbehind : ∀ c ∈ value.toList.reverse.takeWhile (fun c => decide (c ≠ ':')), c ≠ ':' :=
    fun c hc => of_decide_eq_true (List.mem_takeWhile_imp (p := fun c => decide (c ≠ ':')) hc)
  have hhead := List.head?_dropWhile_not (fun c => decide (c ≠ ':')) value.toList.reverse
  generalize value.toList.reverse.takeWhile (fun c => decide (c ≠ ':')) = behind at h hsplit hbehind
  generalize value.toList.reverse.dropWhile (fun c => decide (c ≠ ':')) = rest at h hsplit hhead
  cases rest with
  | nil => cases h
  | cons c first =>
      have hc : c = ':' := by simpa using hhead
      cases h
      refine ⟨?_, ?_⟩
      · rw [← String.toList_inj, ← List.reverse_inj, ← hsplit, hc]
        simp
      · intro hmem
        rw [String.toList_ofList, List.mem_reverse] at hmem
        exact hbehind _ hmem rfl

theorem parseSocketAddrV4_toString (addr : SocketAddrV4) :
    parseSocketAddrV4 addr.toString = some addr := by
  have hcolon : ':' ∉ addr.port.toNat.repr.toList := by
    intro hmem
    rw [Nat.toList_repr] at hmem
    exact absurd (Nat.isDigit_of_mem_toDigits (by decide) (by decide) hmem) (by decide)
  unfold parseSocketAddrV4 SocketAddrV4.toString
  rw [rsplitColon_append hcolon]
  simp [parseIpv4Addr_toString, parsePort_repr]

end LmsProto
end LmsPlayer
