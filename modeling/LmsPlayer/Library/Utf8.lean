import Mathlib.Data.List.Basic

/-!
# Utf8 — text as bytes, and lossy decoding

`utf8Bytes` is the UTF-8 encoding of a string as a list of bytes and `fromUtf8` its partial inverse.

`fromUtf8Lossy` decodes any byte string: each maximal piece that cannot be the beginning of a
character is replaced by U+FFFD, following the "substitution of maximal subparts" of the Unicode
standard.  Valid text is decoded as it is, and a result without replacement characters determines
the bytes it came from.
-/

namespace Utf8

/-- The UTF-8 bytes of a string. -/
def utf8Bytes (s : String) : List UInt8 := s.toByteArray.data.toList

/-- Strict decoding. -/
def fromUtf8 (bs : List UInt8) : Option String := String.fromUTF8? bs.toByteArray

/-- The character a byte string starts with, if it starts with a valid one. -/
def decodeFirst (bs : List UInt8) : Option Char := bs.toByteArray.utf8DecodeChar? 0

/-! ## Maximal subparts -/

def isContinuation (b : UInt8) : Bool := 0x80 ≤ b && b ≤ 0xBF

/-- The second bytes allowed after the first byte of a three-byte character. -/
def secondOfThree (first second : UInt8) : Bool :=
  (first == 0xE0 && 0xA0 ≤ second && second ≤ 0xBF) ||
  (0xE1 ≤ first && first ≤ 0xEC && isContinuation second) ||
  (first == 0xED && 0x80 ≤ second && second ≤ 0x9F) ||
  (0xEE ≤ first && first ≤ 0xEF && isContinuation second)

/-- The second bytes allowed after the first byte of a four-byte character. -/
def secondOfFour (first second : UInt8) : Bool :=
  (first == 0xF0 && 0x90 ≤ second && second ≤ 0xBF) ||
  (0xF1 ≤ first && first ≤ 0xF3 && isContinuation second) ||
  (first == 0xF4 && 0x80 ≤ second && second ≤ 0x8F)

/-- How many bytes one replacement character stands for, in front of a buffer that does not start
with a valid character. -/
def invalidLength (bs : List UInt8) : Nat :=
  let first := bs.getD 0 0
  let second := bs.getD 1 0
  let third := bs.getD 2 0
  if secondOfThree first second then 2
  else if secondOfFour first second then if isContinuation third then 3 else 2
  else 1

/-! ## Lossy decoding -/

def replacement : Char := '\uFFFD'

/-- The characters of a buffer; every round uses up at least one byte, so its length is enough. -/
def lossyChars : Nat → List UInt8 → List Char
  | 0, _ => []
  | _ + 1, [] => []
  | n + 1, b :: bs =>
      match decodeFirst (b :: bs) with
      | some c => c :: lossyChars n ((b :: bs).drop c.utf8Size)
      | none => replacement :: lossyChars n ((b :: bs).drop (invalidLength (b :: bs)))

/-- Decode, replacing what is not valid UTF-8. -/
def fromUtf8Lossy (bs : List UInt8) : String := String.ofList (lossyChars bs.length bs)

theorem decodeFirst_encode (c : Char) (bs : List UInt8) :
    decodeFirst (String.utf8EncodeChar c ++ bs) = some c := by
  unfold decodeFirst
  rw [List.toByteArray_append]
  exact ByteArray.utf8DecodeChar?_utf8EncodeChar_append

theorem eq_encode_of_decodeFirst {bs : List UInt8} {c : Char} (h : decodeFirst bs = some c) :
    bs = String.utf8EncodeChar c ++ bs.drop c.utf8Size := by
  obtain ⟨more, hmore⟩ := ByteArray.exists_of_utf8DecodeChar?_eq_some h
  have hlist : bs = String.utf8EncodeChar c ++ more.data.toList := by
    have := congrArg (fun b => b.data.toList) hmore
    simpa using this
  have hdrop : bs.drop c.utf8Size = more.data.toList := by
    rw [hlist, List.drop_left' (String.length_utf8EncodeChar c)]
  rw [hdrop]
  exact hlist

theorem utf8Bytes_eq_flatMap (s : String) :
    utf8Bytes s = s.toList.flatMap String.utf8EncodeChar := by
  unfold utf8Bytes
  rw [← String.utf8Encode_toList, List.utf8Encode]
  simp

theorem utf8Bytes_injective {s t : String} (h : utf8Bytes s = utf8Bytes t) : s = t := by
  unfold utf8Bytes at h
  have hdata : s.toByteArray.data = t.toByteArray.data := Array.toList_inj.1 h
  exact String.toByteArray_inj.1 (ByteArray.ext hdata)

theorem toByteArray_utf8Bytes (s : String) : (utf8Bytes s).toByteArray = s.toByteArray := by
  apply ByteArray.ext
  simp [utf8Bytes]

/-- Valid text decodes strictly to itself. -/
theorem fromUtf8_utf8Bytes (s : String) : fromUtf8 (utf8Bytes s) = some s := by
  unfold fromUtf8 String.fromUTF8?
  rw [toByteArray_utf8Bytes, dif_pos s.isValidUTF8]
  rfl

/-- What is decoded strictly was valid text. -/
theorem utf8Bytes_of_fromUtf8 {bs : List UInt8} {s : String} (h : fromUtf8 bs = some s) :
    utf8Bytes s = bs := by
  unfold fromUtf8 String.fromUTF8? at h
  split_ifs at h
  have hbytes : s.toByteArray = bs.toByteArray :=
    congrArg String.toByteArray (Option.some.inj h).symm
  unfold utf8Bytes
  rw [hbytes, List.toList_data_toByteArray]

theorem isSome_fromUtf8 {bs : List UInt8} :
    (fromUtf8 bs).isSome = true ↔ ∃ cs : List Char, cs.flatMap String.utf8EncodeChar = bs := by
  constructor
  · intro h
    obtain ⟨s, hs⟩ := Option.isSome_iff_exists.1 h
    exact ⟨s.toList, by rw [← utf8Bytes_eq_flatMap, utf8Bytes_of_fromUtf8 hs]⟩
  · rintro ⟨cs, rfl⟩
    have hbytes : utf8Bytes (String.ofList cs) = cs.flatMap String.utf8EncodeChar := by
      rw [utf8Bytes_eq_flatMap, String.toList_ofList]
    rw [← hbytes, fromUtf8_utf8Bytes]
    rfl

/-- No character ends like another one with something in front of it: the first byte of a character
does not occur within one. -/
theorem eq_nil_of_encode_eq_append {c c' : Char} {bs : List UInt8}
    (h : String.utf8EncodeChar c' = bs ++ String.utf8EncodeChar c) : bs = [] := by
  have hne : String.utf8EncodeChar c ≠ [] := String.utf8EncodeChar_ne_nil
  have hlt : bs.length < (String.utf8EncodeChar c').length := by
    rw [h, List.length_append]
    exact Nat.lt_add_of_pos_right (List.length_pos_of_ne_nil hne)
  have hbyte : (String.utf8EncodeChar c')[bs.length].IsUTF8FirstByte := by
    simp only [h, List.getElem_append_right (Nat.le_refl _), Nat.sub_self]
    exact UInt8.isUTF8FirstByte_getElem_zero_utf8EncodeChar
  exact List.eq_nil_of_length_eq_zero (UInt8.isUTF8FirstByte_getElem_utf8EncodeChar.1 hbyte)

/-- A character behind it does not make a text valid. -/
theorem isSome_fromUtf8_append_encode (bs : List UInt8) (c : Char) :
    (fromUtf8 (bs ++ String.utf8EncodeChar c)).isSome = true ↔ (fromUtf8 bs).isSome = true := by
  rw [isSome_fromUtf8, isSome_fromUtf8]
  constructor
  · rintro ⟨cs, hcs⟩
    rcases List.eq_nil_or_concat cs with rfl | ⟨cs', c', rfl⟩
    · have hnil := (List.append_eq_nil_iff.1 hcs.symm).2
      exact absurd hnil String.utf8EncodeChar_ne_nil
    · refine ⟨cs', ?_⟩
      rw [List.concat_eq_append, List.flatMap_append, List.flatMap_singleton] at hcs
      -- One of the two last characters is the end of the other one.
      rcases List.append_eq_append_iff.1 hcs with ⟨mid, hbs, hmid⟩ | ⟨mid, hbs, hmid⟩
      · rw [hbs, eq_nil_of_encode_eq_append hmid, List.append_nil]
      · rw [hbs, eq_nil_of_encode_eq_append hmid, List.append_nil]
  · rintro ⟨cs, rfl⟩
    exact ⟨cs ++ [c], by rw [List.flatMap_append, List.flatMap_singleton]⟩

theorem lossyChars_encode (cs : List Char) :
    ∀ n, (cs.flatMap String.utf8EncodeChar).length ≤ n →
      lossyChars n (cs.flatMap String.utf8EncodeChar) = cs := by
  induction cs with
  | nil =>
      intro n _
      cases n <;> rfl
  | cons c cs ih =>
      intro n hn
      have hsize : (String.utf8EncodeChar c).length = c.utf8Size := String.length_utf8EncodeChar c
      have hpos := c.utf8Size_pos
      rw [List.flatMap_cons, List.length_append, hsize] at hn
      obtain ⟨n, rfl⟩ : ∃ m, n = m + 1 := ⟨n - 1, by omega⟩
      obtain ⟨b, bs, hcons⟩ : ∃ b bs, (c :: cs).flatMap String.utf8EncodeChar = b :: bs := by
        cases h : (c :: cs).flatMap String.utf8EncodeChar with
        | nil =>
            have := congrArg List.length h
            rw [List.flatMap_cons, List.length_append, hsize] at this
            exact absurd this (by simp; omega)
        | cons b bs => exact ⟨b, bs, rfl⟩
      have hfirst : decodeFirst (b :: bs) = some c := by
        rw [← hcons, List.flatMap_cons]
        exact decodeFirst_encode c _
      have hdrop : (b :: bs).drop c.utf8Size = cs.flatMap String.utf8EncodeChar := by
        rw [← hcons, List.flatMap_cons, List.drop_left' hsize]
      rw [hcons, lossyChars, hfirst]
      simp only
      rw [hdrop, ih n (by omega)]

/-- Valid text decodes lossily to itself. -/
theorem fromUtf8Lossy_utf8Bytes (s : String) : fromUtf8Lossy (utf8Bytes s) = s := by
  rw [fromUtf8Lossy, utf8Bytes_eq_flatMap, lossyChars_encode _ _ (Nat.le_refl _),
    String.ofList_toList]

theorem lossyChars_eq_of_not_mem {n : Nat} {bs : List UInt8} (hn : bs.length ≤ n)
    (h : replacement ∉ lossyChars n bs) :
    (lossyChars n bs).flatMap String.utf8EncodeChar = bs := by
  induction n generalizing bs with
  | zero =>
      have : bs = [] := List.eq_nil_of_length_eq_zero (by omega)
      simp [this, lossyChars]
  | succ n ih =>
      cases bs with
      | nil => simp [lossyChars]
      | cons b bs =>
          cases hd : decodeFirst (b :: bs) with
          | none => simp [lossyChars, hd] at h
          | some c =>
              have hpos := c.utf8Size_pos
              simp only [lossyChars, hd, List.mem_cons, not_or] at h
              have hlen : ((b :: bs).drop c.utf8Size).length ≤ n := by
                simp only [List.length_drop, List.length_cons] at hn ⊢
                omega
              simp only [lossyChars, hd, List.flatMap_cons]
              rw [ih hlen h.2, ← eq_encode_of_decodeFirst hd]

/-- A lossy result without replacement characters comes from its own encoding only. -/
theorem eq_utf8Bytes_of_fromUtf8Lossy_eq {bs : List UInt8} {s : String}
    (h : fromUtf8Lossy bs = s) (hs : replacement ∉ s.toList) : bs = utf8Bytes s := by
  have hchars : lossyChars bs.length bs = s.toList := by
    rw [← h, fromUtf8Lossy, String.toList_ofList]
  rw [utf8Bytes_eq_flatMap, ← hchars]
  exact (lossyChars_eq_of_not_mem (Nat.le_refl _) (hchars ▸ hs)).symm

example : fromUtf8Lossy [0x73, 0xE2, 0x82, 0x41, 0xFF] = "s\uFFFDA\uFFFD" := by decide

end Utf8
