import LmsPlayer.LmsProto.Discovery.Tlv

/-!
# Discovery.Discover — a response in a buffer that is larger

`discover` receives a datagram into an array of 1450 zeros and decodes the whole array behind its
first byte, not only what has been received.  The decoder sees the datagram followed by zeros.

What the zeros can do: no item begins with a zero, so they can only complete an item that the
datagram has begun (`Completes`), its token and perhaps a part of its value.  An address or a port
with a zero in it cannot be read, so it is a name or a version.
-/

namespace LmsPlayer
namespace LmsProto

open Utf8 (utf8Bytes)

/-- As defined in LMS code. -/
def UDPMAXSIZE : Nat := 1450

/-- Where a datagram comes from. -/
inductive SocketAddr where
  | v4 (addr : SocketAddrV4)
  | v6
  deriving DecidableEq, Repr

/-- What `recv_from` gives. -/
inductive Received where
  | ok (datagram : Bytes) (sender : SocketAddr)
  | err (e : IoError)
  deriving DecidableEq, Repr

/-- The array of zeros with a datagram received into it. -/
def recvBuffer (datagram : Bytes) : Bytes :=
  datagram.take UDPMAXSIZE ++ List.replicate (UDPMAXSIZE - datagram.length) 0

/-- `discover` from the response on; nothing if it panics. -/
def discover (response : Received) :
    Option (Except IoError (Option (SocketAddrV4 × Option ServerTlvMap))) :=
  match response with
  | .err e => if e.kind = .wouldBlock then some (.ok none) else some (.error e)
  | .ok datagram (.v4 addr) => do
      let len := min datagram.length UDPMAXSIZE
      let buf := recvBuffer datagram
      let server : SocketAddrV4 :=
        { ip := addr.ip
          port := SLIM_PORT }
      if 0 < len ∧ buf[0]? = some (byte 'E') then
        let map ← decodeTlv (← sliceFrom buf 1)
        return .ok (some (server, some map))
      else
        return .ok (some (server, none))
  | .ok _ .v6 => some (.ok none)

/-- What is decoded behind the first byte of a datagram. -/
def decoded (datagram : Bytes) : Bytes :=
  datagram.tail ++ List.replicate (UDPMAXSIZE - datagram.length) 0

theorem discover_eq {datagram : Bytes} (addr : SocketAddrV4)
    (hlength : datagram.length ≤ UDPMAXSIZE) (hfirst : datagram.head? = some (byte 'E')) :
    discover (.ok datagram (.v4 addr)) =
      some (.ok (some ({ ip := addr.ip, port := SLIM_PORT },
        some (.ofTlvs (tlvReader.split (decoded datagram)).1)))) := by
  cases datagram with
  | nil => cases hfirst
  | cons b rest =>
      cases hfirst
      have hbuffer : recvBuffer (byte 'E' :: rest) = byte 'E' :: decoded (byte 'E' :: rest) := by
        unfold recvBuffer decoded
        rw [List.take_of_length_le hlength]
        rfl
      have hslice : sliceFrom (byte 'E' :: decoded (byte 'E' :: rest)) 1 =
          some (decoded (byte 'E' :: rest)) := if_pos (by simp)
      have hcond : 0 < min (byte 'E' :: rest).length UDPMAXSIZE ∧
          (byte 'E' :: decoded (byte 'E' :: rest))[0]? = some (byte 'E') :=
        ⟨lt_min (Nat.succ_pos _) (by decide), rfl⟩
      unfold discover
      dsimp only
      rw [hbuffer, if_pos hcond, hslice]
      dsimp only [bind, Option.bind]
      rw [decodeTlv_eq]
      rfl

/-! ## Values with a zero in them -/

theorem zero_not_mem_of_readDigits {acc n : Nat} {bs : Bytes} (h : readDigits acc bs = some n) :
    0 ∉ bs := by
  induction bs generalizing acc with
  | nil => exact List.not_mem_nil
  | cons b bs ih =>
      rcases Option.bind_eq_some_iff.1 h with ⟨d, hd, hrest⟩
      intro hmem
      rcases List.mem_cons.1 hmem with hzero | hrest'
      · rw [← hzero] at hd
        cases hd
      · exact ih hrest hrest'

theorem zero_not_mem_of_readNumber {n : Nat} {bs : Bytes} (h : readNumber bs = some n) :
    0 ∉ bs := by
  unfold readNumber at h
  split_ifs at h
  exact zero_not_mem_of_readDigits h

theorem zero_not_mem_of_parseU16 {value : String} {n : UInt16} (h : parseU16 value = some n) :
    0 ∉ utf8Bytes value := by
  unfold parseU16 at h
  rcases Option.bind_eq_some_iff.1 h with ⟨m, hnumber, -⟩
  have hdigits := zero_not_mem_of_readNumber hnumber
  split_ifs at hdigits with hplus
  · -- A plus sign is not a zero either.
    cases hbytes : utf8Bytes value with
    | nil => exact List.not_mem_nil
    | cons b bs =>
        rw [hbytes] at hplus hdigits
        cases hplus
        intro hmem
        rcases List.mem_cons.1 hmem with hzero | hrest
        · exact absurd hzero (by decide)
        · exact hdigits hrest
  · exact hdigits

theorem zero_not_mem_of_parseOctet {bs : Bytes} {n : UInt8} (h : parseOctet bs = some n) :
    0 ∉ bs := by
  unfold parseOctet at h
  split_ifs at h
  rcases Option.bind_eq_some_iff.1 h with ⟨m, hnumber, -⟩
  exact zero_not_mem_of_readNumber hnumber

theorem zero_not_mem_of_parseIpv4Addr {value : String} {addr : Ipv4Addr}
    (h : parseIpv4Addr value = some addr) : 0 ∉ utf8Bytes value := by
  unfold parseIpv4Addr at h
  split at h
  · rename_i a b c d hparts
    rcases Option.bind_eq_some_iff.1 h with ⟨na, ha, h⟩
    rcases Option.bind_eq_some_iff.1 h with ⟨nb, hb, h⟩
    rcases Option.bind_eq_some_iff.1 h with ⟨nc, hc, h⟩
    rcases Option.bind_eq_some_iff.1 h with ⟨nd, hd, -⟩
    have hdot : (0 : UInt8) ≠ byte '.' := by decide
    rw [← @List.intercalate_splitOn UInt8 (utf8Bytes value) _ _ (byte '.'), hparts]
    simp [List.intercalate, zero_not_mem_of_parseOctet ha, zero_not_mem_of_parseOctet hb,
      zero_not_mem_of_parseOctet hc, zero_not_mem_of_parseOctet hd, hdot]
  · cases h

/-- A value that is empty or has a zero in it reads as no text, or as a text with a zero in it. -/
theorem zero_mem_of_textOf_ne {value : Bytes} (hvalue : value = [] ∨ 0 ∈ value)
    (htext : textOf value ≠ "") : 0 ∈ utf8Bytes (textOf value) := by
  rcases hvalue with rfl | hzero
  · exact absurd (by decide) htext
  · unfold textOf at htext ⊢
    cases hdecoded : Utf8.fromUtf8 value with
    | none =>
        rw [hdecoded] at htext
        exact absurd rfl htext
    | some s =>
        have hbytes : utf8Bytes s = value := Utf8.utf8Bytes_of_fromUtf8 hdecoded
        exact hbytes.symm ▸ hzero

/-- Only names and versions can have such a value. -/
theorem Token.text_of_read {token : Token} {value : Bytes} {content : ServerTlv}
    (h : token.read (textOf value) = some content) (hvalue : value = [] ∨ 0 ∈ value) :
    token = .name ∨ token = .vers := by
  cases token with
  | name => exact Or.inl rfl
  | vers => exact Or.inr rfl
  | ipad =>
      rcases Option.map_eq_some_iff.1 h with ⟨addr, haddr, -⟩
      have htext : textOf value ≠ "" := by
        intro hempty
        rw [hempty] at haddr
        exact absurd haddr (by rw [show parseIpv4Addr "" = none by decide]; nofun)
      exact absurd (zero_mem_of_textOf_ne hvalue htext) (zero_not_mem_of_parseIpv4Addr haddr)
  | json =>
      rcases Option.map_eq_some_iff.1 h with ⟨port, hport, -⟩
      have htext : textOf value ≠ "" := by
        intro hempty
        rw [hempty] at hport
        exact absurd hport (by rw [show parseU16 "" = none by decide]; nofun)
      exact absurd (zero_mem_of_textOf_ne hvalue htext) (zero_not_mem_of_parseU16 hport)

/-! ## What the zeros complete -/

/-- The token and the value of the item that zeros complete, of which `tail` has been received: a
name or a version that is cut short, with room for the rest of it.  A length that is missing is
zero. -/
def completed? (tail : Bytes) (room : Nat) : Option (Token × Bytes) :=
  match Token.ofBytes? (tail.take 4) with
  | some token =>
      let valen := ((tail.drop 4).headD 0).toNat
      let value := (tail.drop 4).tail
      if (token = .name ∨ token = .vers) ∧ tail.length < 5 + valen ∧
          5 + valen ≤ tail.length + room then
        some (token, value ++ List.replicate (valen - value.length) 0)
      else none
  | none => none

/-- What follows a token that has been received. -/
theorem completed?_bytes_append (token : Token) (left : Bytes) (room : Nat) :
    completed? (token.bytes ++ left) room =
      if (token = .name ∨ token = .vers) ∧ 4 + left.length < 5 + (left.headD 0).toNat ∧
          5 + (left.headD 0).toNat ≤ 4 + left.length + room then
        some (token, left.tail ++ List.replicate ((left.headD 0).toNat - left.tail.length) 0)
      else none := by
  unfold completed?
  rw [List.take_left' token.length_bytes, Token.ofBytes?_eq_some_iff.2 rfl,
    List.drop_left' token.length_bytes, List.length_append, token.length_bytes]

theorem Token.zero_not_mem_bytes (token : Token) : 0 ∉ token.bytes := by
  cases token <;> decide

/-- Nothing begins with a zero. -/
theorem nextTlv_replicate_zero (room : Nat) : nextTlv (List.replicate room 0) = none := by
  cases hnext : nextTlv (List.replicate room 0) with
  | none => rfl
  | some found =>
      rcases found with ⟨item, rest⟩
      have hbytes := nextTlv_eq_some_iff.1 hnext
      rcases item.token.exists_ascii with ⟨b, bs, htoken, -⟩
      have hb : b ∈ item.token.bytes := by
        rw [htoken]
        exact List.mem_cons_self
      have hmem : b ∈ List.replicate room 0 := by
        rw [hbytes]
        exact List.mem_append_left _ (List.mem_append_left _ hb)
      rw [List.eq_of_mem_replicate hmem] at hb
      exact absurd hb item.token.zero_not_mem_bytes

/-- Zeros are no part of a token, so the token has been received. -/
theorem token_received {token : Token} {tail more value : Bytes} {n : UInt8}
    (hzeros : ∀ b ∈ more, b = 0) (h : token.bytes ++ n :: value = tail ++ more) :
    ∃ left, tail = token.bytes ++ left ∧ n :: value = left ++ more := by
  rcases List.append_eq_append_iff.1 h with ⟨left, htail, hvalue⟩ | ⟨front, hbytes, hmore⟩
  · exact ⟨left, htail, hvalue⟩
  · -- The token would end in a zero.
    cases front with
    | nil => exact ⟨[], by rw [hbytes, List.append_nil, List.append_nil], hmore.symm⟩
    | cons b front =>
        have hzero : b = 0 := hzeros b (by rw [hmore]; exact List.mem_cons_self)
        have hmem : b ∈ token.bytes := by
          rw [hbytes]
          exact List.mem_append_right _ List.mem_cons_self
        rw [hzero] at hmem
        exact absurd hmem token.zero_not_mem_bytes

/-- An item that is found with the zeros but not without them is the completed one. -/
theorem completed?_of_next {tail rest : Bytes} {room : Nat} {item : Tlv}
    (hnone : nextTlv tail = none)
    (hnext : nextTlv (tail ++ List.replicate room 0) = some (item, rest)) :
    completed? tail room = some (item.token, item.value) := by
  have hbytes := nextTlv_eq_some_iff.1 hnext
  rcases List.append_eq_append_iff.1 hbytes with ⟨more, hitem, hroom⟩ | ⟨left, htail, -⟩
  · have hzeros : ∀ b ∈ more, b = 0 := by
      intro b hb
      refine List.eq_of_mem_replicate (n := room) ?_
      rw [hroom]
      exact List.mem_append_left rest hb
    have hne : more ≠ [] := by
      rintro rfl
      have htail : tail = item.bytes ++ [] := by
        rw [hitem, List.append_nil, List.append_nil]
      rw [nextTlv_eq_some_iff.2 htail] at hnone
      cases hnone
    have hlength : more.length + rest.length = room := by
      rw [← List.length_append, ← hroom, List.length_replicate]
    rcases token_received hzeros hitem with ⟨left, rfl, hleft⟩
    have hpos : 0 < more.length := List.length_pos_iff.2 hne
    have hcount := congrArg List.length hleft
    rw [List.length_cons, List.length_append] at hcount
    rw [completed?_bytes_append]
    cases left with
    | nil =>
        -- Only the token has been received: the length is a zero, and there is no value.
        have hzero : UInt8.ofNat item.value.length = 0 :=
          hzeros _ (by rw [← List.nil_append more, ← hleft]; exact List.mem_cons_self)
        have hlen : item.value.length = 0 := by
          rw [← item.toNat_length, hzero]
          rfl
        have hvalue : item.value = [] := List.length_eq_zero_iff.1 hlen
        have htext := Token.text_of_read item.reads (Or.inl hvalue)
        rw [if_pos ⟨htext, by simp, by simp; omega⟩, hvalue]
        rfl
    | cons v left =>
        have hv : UInt8.ofNat item.value.length = v := (List.cons.inj hleft).1
        have hvalue : item.value = left ++ more := (List.cons.inj hleft).2
        have hvalen : v.toNat = item.value.length := by
          rw [← hv, item.toNat_length]
        have hzero : 0 ∈ item.value := by
          rw [hvalue]
          rcases List.exists_mem_of_ne_nil more hne with ⟨b, hb⟩
          exact List.mem_append_right left (hzeros b hb ▸ hb)
        have htext := Token.text_of_read item.reads (Or.inr hzero)
        have hmore : List.replicate (item.value.length - left.length) 0 = more := by
          have hlen : item.value.length - left.length = more.length := by
            rw [hvalue, List.length_append]
            exact Nat.add_sub_cancel_left _ _
          rw [hlen]
          exact (List.eq_replicate_of_mem hzeros).symm
        rw [List.length_cons] at hcount
        rw [List.headD_cons, hvalen, if_pos ⟨htext, by rw [List.length_cons]; omega,
          by rw [List.length_cons]; omega⟩, List.tail_cons, hmore, ← hvalue]
  · -- The item would have been received in full.
    rw [nextTlv_eq_some_iff.2 htail] at hnone
    cases hnone

/-- The completed item is found with the zeros, and only zeros behind it. -/
theorem next_of_completed? {tail value : Bytes} {room : Nat} {token : Token}
    (h : completed? tail room = some (token, value)) :
    ∃ item rest, item.token = token ∧ item.value = value ∧
      nextTlv (tail ++ List.replicate room 0) = some (item, List.replicate rest 0) := by
  have hreceived : ∃ left, tail = token.bytes ++ left := by
    unfold completed? at h
    split at h
    · rename_i token' htoken
      dsimp only at h
      split_ifs at h
      cases h
      refine ⟨tail.drop 4, ?_⟩
      rw [← Token.ofBytes?_eq_some_iff.1 htoken, List.take_append_drop]
    · cases h
  rcases hreceived with ⟨left, rfl⟩
  rw [completed?_bytes_append] at h
  split_ifs at h with hcond
  rcases hcond with ⟨htext, hcut, hfits⟩
  injection h with hpair
  have hvalue : left.tail ++ List.replicate ((left.headD 0).toNat - left.tail.length) 0 = value :=
    congrArg Prod.snd hpair
  have hlength : value.length = (left.headD 0).toNat := by
    rw [← hvalue, List.length_append, List.length_replicate]
    refine Nat.add_sub_cancel' ?_
    cases left with
    | nil => exact Nat.zero_le _
    | cons v left =>
        rw [List.length_cons, List.headD_cons] at hcut
        rw [List.tail_cons, List.headD_cons]
        omega
  have hreads : ∃ content, token.read (textOf value) = some content := by
    rcases htext with rfl | rfl <;> exact ⟨_, rfl⟩
  rcases hreads with ⟨content, hreads⟩
  rcases Tlv.exists_of_reads (hlength ▸ UInt8.toNat_lt _) hreads with ⟨item, hitem, -⟩
  rcases Tlv.ofValue?_eq_some_iff.1 hitem with ⟨htok, hval⟩
  refine ⟨item, 4 + left.length + room - (5 + (left.headD 0).toNat), htok, hval, ?_⟩
  rw [nextTlv_eq_some_iff]
  unfold Tlv.bytes
  rw [htok, hval, hlength, UInt8.ofNat_toNat, List.append_assoc, List.append_assoc, ← hvalue]
  refine congrArg (token.bytes ++ ·) ?_
  cases left with
  | nil =>
      -- The length is the first of the zeros.
      cases room with
      | zero => exact absurd hfits (by decide)
      | succ room =>
          have hrest : 4 + 0 + (room + 1) - (5 + 0) = room := by
            omega
          exact congrArg (fun n => 0 :: List.replicate n 0) hrest.symm
  | cons v left =>
      rw [List.length_cons, List.headD_cons] at hcut hfits
      have hsum : v.toNat - left.length + (4 + (left.length + 1) + room - (5 + v.toNat)) =
          room := by
        omega
      rw [List.headD_cons, List.tail_cons, List.length_cons, List.cons_append, List.cons_append,
        List.append_assoc, List.replicate_append_replicate, hsum]

/-! ## The map -/

/-- The items of a response that zeros are put behind. -/
theorem split_append_zeros (buf : Bytes) (room : Nat) :
    (tlvReader.split (buf ++ List.replicate room 0)).1 =
        (tlvReader.split buf).1 ∧ completed? (tlvReader.split buf).2 room = none ∨
      ∃ item, completed? (tlvReader.split buf).2 room = some (item.token, item.value) ∧
        (tlvReader.split (buf ++ List.replicate room 0)).1 = (tlvReader.split buf).1 ++ [item] := by
  have hnone : nextTlv (tlvReader.split buf).2 = none := tlvReader.next_split_snd buf
  rw [tlvReader.split_append]
  cases hcompleted : completed? (tlvReader.split buf).2 room with
  | none =>
      refine Or.inl ⟨?_, rfl⟩
      have hnext : tlvReader.next ((tlvReader.split buf).2 ++ List.replicate room 0) = none := by
        cases hnext : nextTlv ((tlvReader.split buf).2 ++ List.replicate room 0) with
        | none => exact hnext
        | some found =>
            rw [completed?_of_next hnone hnext] at hcompleted
            cases hcompleted
      rw [tlvReader.split_of_next_eq_none hnext, List.append_nil]
  | some found =>
      refine Or.inr ?_
      rcases next_of_completed? hcompleted with ⟨item, rest, htoken, hvalue, hnext⟩
      have hrest : tlvReader.next (List.replicate rest 0) = none := nextTlv_replicate_zero rest
      refine ⟨item, by rw [htoken, hvalue], ?_⟩
      rw [tlvReader.split_of_next_eq_some hnext, tlvReader.split_of_next_eq_none hrest]

/-- The zeros make no difference to the map of `buf`: they complete no item, or one that the map has
already. -/
def HarmlessZeros (buf : Bytes) (room : Nat) : Prop :=
  ∀ token value, completed? (tlvReader.split buf).2 room = some (token, value) →
    ServerTlvMap.ofTlvs (tlvReader.split buf).1 token.text = token.read (textOf value)

theorem ofTlvs_append_zeros_iff (buf : Bytes) (room : Nat) :
    ServerTlvMap.ofTlvs (tlvReader.split (buf ++ List.replicate room 0)).1 =
        ServerTlvMap.ofTlvs (tlvReader.split buf).1 ↔ HarmlessZeros buf room := by
  unfold HarmlessZeros
  rcases split_append_zeros buf room with ⟨hsplit, hcompleted⟩ | ⟨item, hcompleted, hsplit⟩
  · refine iff_of_true (congrArg _ hsplit) ?_
    intro token value hsome
    rw [hcompleted] at hsome
    cases hsome
  · have hmap : ServerTlvMap.ofTlvs ((tlvReader.split buf).1 ++ [item]) =
        (ServerTlvMap.ofTlvs (tlvReader.split buf).1).insert item.token.text item.content := by
      unfold ServerTlvMap.ofTlvs ServerTlvMap.insertAll
      rw [List.foldl_append]
      rfl
    rw [hsplit, hmap]
    unfold ServerTlvMap.insert
    rw [Function.update_eq_self_iff, hcompleted]
    constructor
    · rintro heq token value ⟨⟩
      rw [item.reads, heq]
    · intro hread
      rw [hread item.token item.value rfl, item.reads]

theorem found_inj {server : SocketAddrV4} {map map' : ServerTlvMap}
    (h : (some (.ok (some (server, some map))) :
        Option (Except IoError (Option (SocketAddrV4 × Option ServerTlvMap)))) =
      some (.ok (some (server, some map')))) : map = map' := by
  cases h
  rfl

/-- **What is found in the array is what has been received exactly when the zeros behind it are
harmless**: what follows the last item of the datagram is not the beginning of a name or a version
that the zeros complete within the array, or it completes to what the map has for that token
already. -/
theorem discover_received_iff {datagram : Bytes} (addr : SocketAddrV4)
    (hlength : datagram.length ≤ UDPMAXSIZE) (hfirst : datagram.head? = some (byte 'E')) :
    (∃ map, decodeTlv datagram.tail = some map ∧
      discover (.ok datagram (.v4 addr)) =
        some (.ok (some ({ ip := addr.ip, port := SLIM_PORT }, some map)))) ↔
      HarmlessZeros datagram.tail (UDPMAXSIZE - datagram.length) := by
  rw [discover_eq addr hlength hfirst, decodeTlv_eq, ← ofTlvs_append_zeros_iff]
  constructor
  · rintro ⟨map, hreceived, hfound⟩
    injection hreceived with hreceived
    exact (found_inj hfound).trans hreceived.symm
  · intro hmap
    refine ⟨_, rfl, ?_⟩
    unfold decoded
    rw [hmap]

/-- A name and a version in full, and a token without a length that is neither. -/
theorem discover_received_complete :
    let datagram := utf8Bytes "ENAME\x03lmsVERS\x019JSON"
    let addr : SocketAddrV4 := { ip := .new 192 168 1 10, port := 3483 }
    ∃ map, decodeTlv datagram.tail = some map ∧
      discover (.ok datagram (.v4 addr)) =
        some (.ok (some ({ ip := addr.ip, port := SLIM_PORT }, some map))) := by
  intro datagram addr
  refine (discover_received_iff addr (by decide) (by decide)).2 ?_
  have hnone : completed? (tlvReader.split datagram.tail).2 (UDPMAXSIZE - datagram.length) =
      none := by
    decide
  intro token value h
  rw [hnone] at h
  cases h

/-- A name that is cut short after two of five bytes: it is found all the same, with three zeros in
it. -/
theorem discover_cut_short :
    let datagram := utf8Bytes "ENAME\x05ab"
    let addr : SocketAddrV4 := { ip := .new 192 168 1 10, port := 3483 }
    datagram.length ≤ UDPMAXSIZE ∧ datagram.head? = some (byte 'E') ∧
      (decodeTlv datagram.tail).map (fun map => map "NAME") = some none ∧
      (∃ map, discover (.ok datagram (.v4 addr)) =
        some (.ok (some ({ ip := addr.ip, port := SLIM_PORT }, some map))) ∧
        map "NAME" = some (.name "ab\x00\x00\x00")) ∧
      ¬∃ map, decodeTlv datagram.tail = some map ∧
        discover (.ok datagram (.v4 addr)) =
          some (.ok (some ({ ip := addr.ip, port := SLIM_PORT }, some map))) := by
  intro datagram addr
  let item : Tlv :=
    { token := .name
      value := utf8Bytes "ab\x00\x00\x00"
      content := .name "ab\x00\x00\x00"
      length_lt := by decide
      reads := by decide }
  -- The first three of the zeros complete the item.
  have hdecoded : decoded datagram = [item].flatMap Tlv.bytes ++ List.replicate 1439 0 := by
    have hroom : UDPMAXSIZE - datagram.length = 3 + 1439 := by
      decide
    have hitem : datagram.tail ++ List.replicate 3 0 = [item].flatMap Tlv.bytes := by
      decide
    unfold decoded
    rw [hroom, List.replicate_add, ← List.append_assoc, hitem]
  have hzeros : tlvReader.next (List.replicate 1439 0) = none := nextTlv_replicate_zero 1439
  have hsplit : (tlvReader.split (decoded datagram)).1 = [item] := by
    rw [hdecoded, split_flatMap_bytes_append, tlvReader.split_of_next_eq_none hzeros]
    rfl
  have hfound : ServerTlvMap.ofTlvs (tlvReader.split (decoded datagram)).1 "NAME" =
      some (.name "ab\x00\x00\x00") := by
    rw [hsplit]
    rfl
  have hmissing : (decodeTlv datagram.tail).map (fun map => map "NAME") = some none := by
    decide
  have hdiscover := @discover_eq datagram addr (by decide) (by decide)
  refine ⟨by decide, by decide, hmissing, ⟨_, hdiscover, hfound⟩, ?_⟩
  rintro ⟨map, hreceived, hsame⟩
  have hmap := found_inj (hdiscover.symm.trans hsame)
  rw [hreceived, Option.map_some, ← hmap, hfound] at hmissing
  cases hmissing

end LmsProto
end LmsPlayer
