import LmsPlayer.LmsProto.Basic
import LmsPlayer.Library.Iteration
import LmsPlayer.Library.StreamSplitting
import Mathlib.Logic.Function.Basic

/-!
# Discovery.Tlv — what a server says about itself

A discovery response carries token-length-value items.  `decodeTlv` is the loop of the source, every
access to the view checked: a slice or an index out of range is a panic.

`Tlv` is an item that is well formed, and `nextTlv` takes one off the front of a buffer, if there is
one (`nextTlv_eq_some_iff`).  The loop does nothing else (`decodeRound_eq`), so what it returns are
the items at the front of the buffer, the last one for each token.
-/

namespace LmsPlayer
namespace LmsProto

open Utf8 (utf8Bytes fromUtf8)
open StreamSplitting (ItemReader)

/-- TLV values that a server may include in a discovery response. -/
inductive ServerTlv where
  | name (value : String)
  | version (value : String)
  | address (addr : Ipv4Addr)
  | port (port : UInt16)
  deriving DecidableEq, Repr

/-- All TLVs from the server, by their token. -/
abbrev ServerTlvMap := String → Option ServerTlv

namespace ServerTlvMap

def new : ServerTlvMap := fun _ => none

def insert (map : ServerTlvMap) (token : String) (value : ServerTlv) : ServerTlvMap :=
  Function.update map token (some value)

end ServerTlvMap

/-! ## Numbers and addresses in text -/

/-- A decimal digit. -/
def digitValue (b : UInt8) : Option Nat :=
  if byte '0' ≤ b ∧ b ≤ byte '9' then some (b.toNat - (byte '0').toNat) else none

/-- A run of digits behind a number that has been read already. -/
def readDigits : Nat → Bytes → Option Nat
  | acc, [] => some acc
  | acc, b :: bs => (digitValue b).bind fun d => readDigits (acc * 10 + d) bs

/-- A number of one or more digits. -/
def readNumber (digits : Bytes) : Option Nat :=
  if digits = [] then none else readDigits 0 digits

/-- `value.parse::<u16>()`: digits, perhaps behind a plus sign. -/
def parseU16 (value : String) : Option UInt16 :=
  let src := utf8Bytes value
  let digits := if src.head? = some (byte '+') then src.tail else src
  (readNumber digits).bind fun n => if n < 2 ^ 16 then some (UInt16.ofNat n) else none

/-- One part of an address: up to three digits, without a leading zero. -/
def parseOctet (digits : Bytes) : Option UInt8 :=
  if 3 < digits.length ∨ digits.head? = some (byte '0') ∧ 1 < digits.length then none
  else (readNumber digits).bind fun n => if n < 2 ^ 8 then some (UInt8.ofNat n) else none

/-- `value.parse::<Ipv4Addr>()`: four parts with dots between them. -/
def parseIpv4Addr (value : String) : Option Ipv4Addr :=
  match (utf8Bytes value).splitOn (byte '.') with
  | [a, b, c, d] => do
      return Ipv4Addr.new (← parseOctet a) (← parseOctet b) (← parseOctet c) (← parseOctet d)
  | _ => none

/-! ## The loop -/

/-- `&view[..n]` -/
def sliceTo (view : Bytes) (n : Nat) : Option Bytes :=
  if n ≤ view.length then some (view.take n) else none

/-- `&view[n..]` -/
def sliceFrom (view : Bytes) (n : Nat) : Option Bytes :=
  if n ≤ view.length then some (view.drop n) else none

/-- The `match` over the token; there is no value where the loop is left. -/
def serverTlv (token value : String) : Option ServerTlv :=
  if token = "NAME" then some (.name value)
  else if token = "VERS" then some (.version value)
  else if token = "IPAD" then (parseIpv4Addr value).map .address
  else if token = "JSON" then (parseU16 value).map .port
  else none

/-- The body of the `while`: the next view with the map, or the map at a `break`; nothing in a
panic. -/
def decodeBody (ret : ServerTlvMap) (view : Bytes) :
    Option ((ServerTlvMap × Bytes) ⊕ ServerTlvMap) := do
  let token := (fromUtf8 (← sliceTo view 4)).getD ""
  let valen := (← view[4]?).toNat
  let view ← sliceFrom view 5
  if view.length < valen then
    return .inr ret
  let value := (fromUtf8 (← sliceTo view valen)).getD ""
  match serverTlv token value with
  | none => return .inr ret
  | some tlv => return .inl (ret.insert token tlv, ← sliceFrom view valen)

/-- One round of the `while`. -/
def decodeRound (s : ServerTlvMap × Bytes) : (ServerTlvMap × Bytes) ⊕ Option ServerTlvMap :=
  if 4 < s.2.length ∧ s.2.headD 0 < 128 then
    match decodeBody s.1 s.2 with
    | none => .inr none
    | some (.inl s) => .inl s
    | some (.inr ret) => .inr (some ret)
  else .inr (some s.1)

/-- `decode_tlv`; nothing if it panics, or does not come to an end within a round for each byte. -/
def decodeTlv (buf : Bytes) : Option ServerTlvMap :=
  (Iteration.run decodeRound (buf.length + 1) (.new, buf)).join

/-! ## Items -/

inductive Token where
  | name
  | vers
  | ipad
  | json
  deriving DecidableEq, Repr

namespace Token

def text : Token → String
  | name => "NAME"
  | vers => "VERS"
  | ipad => "IPAD"
  | json => "JSON"

def bytes (token : Token) : Bytes := utf8Bytes token.text

/-- What a value says behind the token; nothing when it cannot be parsed. -/
def read (token : Token) (value : String) : Option ServerTlv :=
  match token with
  | name => some (.name value)
  | vers => some (.version value)
  | ipad => (parseIpv4Addr value).map .address
  | json => (parseU16 value).map .port

/-- The token that some bytes are. -/
def ofBytes? (bs : Bytes) : Option Token :=
  [name, vers, ipad, json].find? fun token => token.bytes = bs

@[simp] theorem length_bytes (token : Token) : token.bytes.length = 4 := by
  cases token <;> decide

/-- A token begins with an ASCII character. -/
theorem exists_ascii (token : Token) : ∃ b bs, token.bytes = b :: bs ∧ b < 128 := by
  cases token with
  | name => exact ⟨78, [65, 77, 69], by decide, by decide⟩
  | vers => exact ⟨86, [69, 82, 83], by decide, by decide⟩
  | ipad => exact ⟨73, [80, 65, 68], by decide, by decide⟩
  | json => exact ⟨74, [83, 79, 78], by decide, by decide⟩

theorem ofBytes?_eq_some_iff {bs : Bytes} {token : Token} :
    ofBytes? bs = some token ↔ bs = token.bytes := by
  constructor
  · intro h
    have hfound := List.find?_some (p := fun t : Token => decide (t.bytes = bs)) h
    exact (of_decide_eq_true hfound).symm
  · rintro rfl
    cases token <;> decide

theorem serverTlv_text (token : Token) (value : String) :
    serverTlv token.text value = token.read value := by
  cases token <;> simp [serverTlv, text, read]

/-- The `match` of the source knows no other tokens. -/
theorem exists_of_serverTlv {token value : String} {tlv : ServerTlv}
    (h : serverTlv token value = some tlv) :
    ∃ t : Token, token = t.text ∧ t.read value = some tlv := by
  unfold serverTlv at h
  split_ifs at h with hname hvers hipad hjson
  · exact ⟨name, hname, h⟩
  · exact ⟨vers, hvers, h⟩
  · exact ⟨ipad, hipad, h⟩
  · exact ⟨json, hjson, h⟩

end Token

/-- The text of some bytes, empty when they are not UTF-8. -/
def textOf (bs : Bytes) : String := (fromUtf8 bs).getD ""

/-- A well-formed item, with what it says. -/
structure Tlv where
  token : Token
  value : Bytes
  content : ServerTlv
  length_lt : value.length < 256
  reads : token.read (textOf value) = some content

namespace Tlv

/-- The item on the wire. -/
def bytes (item : Tlv) : Bytes :=
  item.token.bytes ++ UInt8.ofNat item.value.length :: item.value

theorem toNat_length (item : Tlv) :
    (UInt8.ofNat item.value.length).toNat = item.value.length :=
  UInt8.toNat_ofNat_of_lt' item.length_lt

/-- What is read determines the item. -/
theorem ext_of_value {a b : Tlv} (htoken : a.token = b.token) (hvalue : a.value = b.value) :
    a = b := by
  rcases a with ⟨token, value, content, hlength, hreads⟩
  rcases b with ⟨token', value', content', hlength', hreads'⟩
  dsimp only at htoken hvalue
  subst htoken hvalue
  rw [hreads] at hreads'
  cases hreads'
  rfl

/-- The item of a token and a value, if the value fits and can be read. -/
def ofValue? (token : Token) (value : Bytes) : Option Tlv :=
  if hlength : value.length < 256 then
    match hreads : token.read (textOf value) with
    | none => none
    | some content =>
        some
          { token := token
            value := value
            content := content
            length_lt := hlength
            reads := hreads }
  else none

theorem ofValue?_eq_some_iff {token : Token} {value : Bytes} {item : Tlv} :
    ofValue? token value = some item ↔ item.token = token ∧ item.value = value := by
  constructor
  · intro h
    unfold ofValue? at h
    split_ifs at h with hlength
    split at h
    · cases h
    · cases h
      exact ⟨rfl, rfl⟩
  · rintro ⟨rfl, rfl⟩
    unfold ofValue?
    rw [dif_pos item.length_lt]
    split
    · rename_i hreads
      rw [item.reads] at hreads
      cases hreads
    · exact congrArg some (ext_of_value rfl rfl)

/-- A token, a length and the value behind them are an item. -/
theorem bytes_append_drop {token : Token} {valen : UInt8} {rest : Bytes} {item : Tlv}
    (hlength : valen.toNat ≤ rest.length)
    (h : ofValue? token (rest.take valen.toNat) = some item) :
    item.bytes ++ rest.drop valen.toNat = token.bytes ++ valen :: rest := by
  rcases ofValue?_eq_some_iff.1 h with ⟨htoken, hvalue⟩
  have hcount : UInt8.ofNat item.value.length = valen := by
    rw [hvalue, List.length_take_of_le hlength]
    exact UInt8.ofNat_toNat
  unfold bytes
  rw [htoken, hcount, hvalue, List.append_assoc, List.cons_append, List.take_append_drop]

theorem exists_of_reads {token : Token} {value : Bytes} {content : ServerTlv}
    (hlength : value.length < 256) (hreads : token.read (textOf value) = some content) :
    ∃ item, ofValue? token value = some item ∧ item.content = content :=
  ⟨{ token := token
     value := value
     content := content
     length_lt := hlength
     reads := hreads },
    ofValue?_eq_some_iff.2 ⟨rfl, rfl⟩, rfl⟩

end Tlv

/-- Take one item off the front of a buffer. -/
def nextTlv (buf : Bytes) : Option (Tlv × Bytes) :=
  match Token.ofBytes? (buf.take 4), buf.drop 4 with
  | some token, valen :: rest =>
      if valen.toNat ≤ rest.length then
        (Tlv.ofValue? token (rest.take valen.toNat)).map fun item => (item, rest.drop valen.toNat)
      else none
  | _, _ => none

/-- What is taken off is what was there. -/
theorem nextTlv_eq_some_iff {buf rest : Bytes} {item : Tlv} :
    nextTlv buf = some (item, rest) ↔ buf = item.bytes ++ rest := by
  constructor
  · intro h
    unfold nextTlv at h
    split at h
    · rename_i token valen tail htoken hdrop
      split_ifs at h with hlength
      rcases Option.map_eq_some_iff.1 h with ⟨item', hitem, hpair⟩
      cases hpair
      calc
        buf = buf.take 4 ++ buf.drop 4 := (List.take_append_drop 4 buf).symm
        _ = token.bytes ++ valen :: tail := by rw [Token.ofBytes?_eq_some_iff.1 htoken, hdrop]
        _ = item.bytes ++ tail.drop valen.toNat := (Tlv.bytes_append_drop hlength hitem).symm
    · cases h
  · rintro rfl
    have htake : (item.bytes ++ rest).take 4 = item.token.bytes := by
      unfold Tlv.bytes
      rw [List.append_assoc, List.take_left' item.token.length_bytes]
    have hdrop : (item.bytes ++ rest).drop 4 =
        UInt8.ofNat item.value.length :: (item.value ++ rest) := by
      unfold Tlv.bytes
      rw [List.append_assoc, List.drop_left' item.token.length_bytes, List.cons_append]
    have hvalue : Tlv.ofValue? item.token item.value = some item :=
      Tlv.ofValue?_eq_some_iff.2 ⟨rfl, rfl⟩
    unfold nextTlv
    rw [htake, hdrop, Token.ofBytes?_eq_some_iff.2 rfl]
    dsimp only
    rw [item.toNat_length, if_pos (by simp), List.take_left, List.drop_left, hvalue]
    rfl

/-- The reader of the items of a response. -/
def tlvReader : ItemReader UInt8 Tlv :=
  { next := nextTlv
    shrinks := by
      intro buf rest item h
      rw [nextTlv_eq_some_iff.1 h]
      simp [Tlv.bytes]
      omega
    stable := by
      intro buf rest item more h
      rw [nextTlv_eq_some_iff.1 h, List.append_assoc]
      exact nextTlv_eq_some_iff.2 rfl }

/-! ## The loop reads items -/

/-- The body on a view that has a token and a length: it does not panic. -/
theorem decodeBody_eq (ret : ServerTlvMap) {tok : Bytes} (htok : tok.length = 4) (valen : UInt8)
    (rest : Bytes) :
    decodeBody ret (tok ++ valen :: rest) =
      if rest.length < valen.toNat then some (.inr ret)
      else
        match serverTlv (textOf tok) (textOf (rest.take valen.toNat)) with
        | none => some (.inr ret)
        | some tlv => some (.inl (ret.insert (textOf tok) tlv, rest.drop valen.toNat)) := by
  have htoken : sliceTo (tok ++ valen :: rest) 4 = some tok := by
    unfold sliceTo
    rw [if_pos (by simp [htok]), List.take_left' htok]
  have hvalen : (tok ++ valen :: rest)[4]? = some valen := by
    rw [List.getElem?_append_right (le_of_eq htok), htok]
    rfl
  have hview : sliceFrom (tok ++ valen :: rest) 5 = some rest := by
    unfold sliceFrom
    rw [if_pos (by simp [htok]; omega), List.append_cons, List.drop_left' (by simp [htok])]
  unfold decodeBody
  rw [htoken, hvalen, hview]
  dsimp only [bind, Option.bind, pure]
  by_cases hshort : rest.length < valen.toNat
  · rw [if_pos hshort, if_pos hshort]
  · -- The value is there, and the rest of the view behind it.
    have hle : valen.toNat ≤ rest.length := Nat.not_lt.1 hshort
    have hvalue : sliceTo rest valen.toNat = some (rest.take valen.toNat) := if_pos hle
    have hrest : sliceFrom rest valen.toNat = some (rest.drop valen.toNat) := if_pos hle
    rw [if_neg hshort, if_neg hshort, hvalue, hrest]
    rfl

/-- A view of more than four bytes has a token and a length. -/
theorem exists_of_four_lt {view : Bytes} (h : 4 < view.length) :
    ∃ tok valen rest, tok.length = 4 ∧ view = tok ++ valen :: rest := by
  have hlength : (view.take 4).length = 4 := List.length_take_of_le (le_of_lt h)
  cases hdrop : view.drop 4 with
  | nil => exact absurd (List.drop_eq_nil_iff.1 hdrop) (Nat.not_le.2 h)
  | cons valen rest =>
      refine ⟨view.take 4, valen, rest, hlength, ?_⟩
      rw [← hdrop, List.take_append_drop]

theorem textOf_bytes (token : Token) : textOf token.bytes = token.text := by
  unfold textOf Token.bytes
  rw [Utf8.fromUtf8_utf8Bytes]
  rfl

theorem eq_bytes_of_textOf {bs : Bytes} {token : Token} (h : textOf bs = token.text) :
    bs = token.bytes := by
  unfold textOf at h
  cases hdecoded : fromUtf8 bs with
  | none =>
      rw [hdecoded] at h
      cases token <;> exact absurd h (by decide)
  | some s =>
      rw [hdecoded] at h
      have hs : s = token.text := h
      rw [← Utf8.utf8Bytes_of_fromUtf8 hdecoded, hs]
      rfl

/-- **One round takes one item**: the loop goes on with the item in the map when the view begins
with one, and is left when it does not. -/
theorem decodeRound_eq (ret : ServerTlvMap) (view : Bytes) :
    decodeRound (ret, view) =
      match nextTlv view with
      | none => .inr (some ret)
      | some (item, rest) => .inl (ret.insert item.token.text item.content, rest) := by
  cases hnext : nextTlv view with
  | some found =>
      rcases found with ⟨item, rest⟩
      have hview : view =
          item.token.bytes ++ UInt8.ofNat item.value.length :: (item.value ++ rest) := by
        rw [nextTlv_eq_some_iff.1 hnext]
        exact List.append_assoc _ _ _
      have hlength : 4 < view.length := by
        rw [hview]
        simp
      have hascii : view.headD 0 < 128 := by
        rcases item.token.exists_ascii with ⟨b, bs, hbytes, hb⟩
        rw [hview, hbytes]
        exact hb
      have hbody := decodeBody_eq ret item.token.length_bytes (UInt8.ofNat item.value.length)
        (item.value ++ rest)
      rw [item.toNat_length, if_neg (by simp), List.take_left, List.drop_left, textOf_bytes,
        Token.serverTlv_text, item.reads, ← hview] at hbody
      unfold decodeRound
      rw [if_pos ⟨hlength, hascii⟩, hbody]
  | none =>
      unfold decodeRound
      split_ifs with hcond
      · rcases exists_of_four_lt hcond.1 with ⟨tok, valen, rest, htok, rfl⟩
        dsimp only
        rw [decodeBody_eq ret htok]
        by_cases hshort : rest.length < valen.toNat
        · rw [if_pos hshort]
        · rw [if_neg hshort]
          cases htlv : serverTlv (textOf tok) (textOf (rest.take valen.toNat)) with
          | none => rfl
          | some tlv =>
              -- Otherwise there would be an item in front.
              rcases Token.exists_of_serverTlv htlv with ⟨token, htext, hreads⟩
              have hle : valen.toNat ≤ rest.length := Nat.not_lt.1 hshort
              rcases Tlv.exists_of_reads (by rw [List.length_take_of_le hle]; exact valen.toNat_lt)
                hreads with ⟨item, hitem, -⟩
              have hview : tok ++ valen :: rest = item.bytes ++ rest.drop valen.toNat := by
                rw [eq_bytes_of_textOf htext, Tlv.bytes_append_drop hle hitem]
              rw [nextTlv_eq_some_iff.2 hview] at hnext
              cases hnext
      · rfl

namespace ServerTlvMap

/-- The items in the order of the list, so that the last one for a token wins. -/
def insertAll (map : ServerTlvMap) (items : List Tlv) : ServerTlvMap :=
  items.foldl (fun map item => map.insert item.token.text item.content) map

def ofTlvs (items : List Tlv) : ServerTlvMap := insertAll .new items

end ServerTlvMap

/-- The loop takes all items at the front, with a round for each byte more than enough. -/
theorem run_decodeRound {fuel : Nat} {view : Bytes} (ret : ServerTlvMap)
    (hfuel : view.length < fuel) :
    Iteration.run decodeRound fuel (ret, view) =
      some (some (ret.insertAll (tlvReader.split view).1)) := by
  induction view using tlvReader.split_induction generalizing fuel ret with
  | done view hnext =>
      cases fuel with
      | zero => exact absurd hfuel (Nat.not_lt_zero _)
      | succ fuel =>
          have hround : decodeRound (ret, view) = .inr (some ret) := by
            rw [decodeRound_eq, show nextTlv view = none from hnext]
          rw [tlvReader.split_of_next_eq_none hnext, Iteration.run, hround]
          rfl
  | item view item rest hnext ih =>
      cases fuel with
      | zero => exact absurd hfuel (Nat.not_lt_zero _)
      | succ fuel =>
          have hround : decodeRound (ret, view) =
              .inl (ret.insert item.token.text item.content, rest) := by
            rw [decodeRound_eq, show nextTlv view = some (item, rest) from hnext]
          have hrest : rest.length < fuel :=
            lt_of_lt_of_le (tlvReader.shrinks hnext) (Nat.le_of_lt_succ hfuel)
          rw [tlvReader.split_of_next_eq_some hnext, Iteration.run, hround]
          exact ih (ret.insert item.token.text item.content) hrest

theorem decodeTlv_eq (buf : Bytes) :
    decodeTlv buf = some (.ofTlvs (tlvReader.split buf).1) := by
  unfold decodeTlv
  rw [run_decodeRound .new (Nat.lt_succ_self _)]
  rfl

/-! ## The longest prefix -/

theorem encodes_bytes (item : Tlv) : tlvReader.Encodes Tlv.bytes id item :=
  fun _ => nextTlv_eq_some_iff.2 rfl

/-- The items of a buffer, and what follows them, are the buffer. -/
theorem flatMap_split_append (buf : Bytes) :
    (tlvReader.split buf).1.flatMap Tlv.bytes ++ (tlvReader.split buf).2 = buf := by
  induction buf using tlvReader.split_induction with
  | done buf hnext => rw [tlvReader.split_of_next_eq_none hnext, List.flatMap_nil, List.nil_append]
  | item buf item rest hnext ih =>
      rw [tlvReader.split_of_next_eq_some hnext, List.flatMap_cons, List.append_assoc, ih]
      exact (nextTlv_eq_some_iff.1 hnext).symm

theorem split_flatMap_bytes_append (items : List Tlv) (tail : Bytes) :
    tlvReader.split (items.flatMap Tlv.bytes ++ tail) =
      (items ++ (tlvReader.split tail).1, (tlvReader.split tail).2) := by
  rw [ItemReader.split_flatMap_append (fun item _ => encodes_bytes item) tail, List.map_id]

/-- No longer list of items is at the front. -/
theorem prefix_split {buf : Bytes} {items : List Tlv} (h : items.flatMap Tlv.bytes <+: buf) :
    items <+: (tlvReader.split buf).1 := by
  rcases h with ⟨tail, rfl⟩
  rw [split_flatMap_bytes_append]
  exact List.prefix_append items _

/-- **The loop returns the map of the longest prefix of well-formed items**: on every buffer it
comes to an end without an access out of range, and its map holds the items at the front of the
buffer that every other list of items at the front is a prefix of.  So a list of items that has been
written out is read back. -/
theorem decodeTlv_longest_prefix (buf : Bytes) :
    (∃ items tail, buf = items.flatMap Tlv.bytes ++ tail ∧
      (∀ items', items'.flatMap Tlv.bytes <+: buf → items' <+: items) ∧
      decodeTlv buf = some (.ofTlvs items)) ∧
    ∀ items, decodeTlv (items.flatMap Tlv.bytes) = some (.ofTlvs items) := by
  refine ⟨⟨(tlvReader.split buf).1, (tlvReader.split buf).2, ?_, fun _ => prefix_split,
    decodeTlv_eq buf⟩, ?_⟩
  · exact (flatMap_split_append buf).symm
  · intro items
    have hnil : tlvReader.next [] = none := rfl
    have hsplit := split_flatMap_bytes_append items []
    rw [List.append_nil, tlvReader.split_of_next_eq_none hnil, List.append_nil] at hsplit
    rw [decodeTlv_eq, hsplit]

/-- A second name and a second port. -/
example :
    (decodeTlv (utf8Bytes "NAME\x01aJSON\x049000NAME\x01bJSON\x0290")).map (fun map =>
      (map "NAME", map "JSON", map "VERS")) = some (some (.name "b"), some (.port 90), none) := by
  decide

end LmsProto
end LmsPlayer
