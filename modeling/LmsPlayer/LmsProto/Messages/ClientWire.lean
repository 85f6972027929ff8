import LmsPlayer.LmsProto.Messages.Client
import LmsPlayer.Library.ByteLayout

/-!
# Messages.ClientWire — reading the client stream back

The server side of the conversation, written from the wire format alone:

* `clientReader` — takes a message off a stream: four opcode bytes, a big-endian `u32` length and
  that many body bytes;
* `WireMessage.decode` — reads every field of a body at its fixed offset;
* `ClientMessage.wire` — what a message says on the wire (durations in whole milliseconds).

The length field is written from `msg.len() as u32`, *before* the four opcode bytes are taken off,
so it is right exactly for the messages whose opcode and body together stay below `2 ^ 32` bytes.
-/

namespace LmsPlayer
namespace LmsProto

open ByteLayout
open StreamSplitting (ItemReader)
open Utf8 (utf8Bytes fromUtf8)

/-! ## Framing -/

/-- Take one message off a stream: its opcode and its body. -/
def readClientFrame (buf : Bytes) : Option ((Bytes × Bytes) × Bytes) :=
  let len := BigEndian.ofBytes ((buf.drop 4).take 4)
  if buf.length < 8 + len then none
  else some ((buf.take 4, (buf.drop 8).take len), buf.drop (8 + len))

theorem readClientFrame_append {buf rest : Bytes} {item : Bytes × Bytes} (more : Bytes)
    (h : readClientFrame buf = some (item, rest)) :
    readClientFrame (buf ++ more) = some (item, rest ++ more) := by
  unfold readClientFrame at h ⊢
  dsimp only at h ⊢
  split_ifs at h with hshort
  have hlen : 8 + BigEndian.ofBytes ((buf.drop 4).take 4) ≤ buf.length := Nat.not_lt.1 hshort
  have hheader : ((buf ++ more).drop 4).take 4 = (buf.drop 4).take 4 := by
    rw [List.drop_append_of_le_length (by omega), List.take_append_of_le_length (by simp; omega)]
  have hitem := (Prod.mk.inj (Option.some.inj h)).1
  have hrest := (Prod.mk.inj (Option.some.inj h)).2
  rw [hheader, if_neg (by simp; omega)]
  rw [List.take_append_of_le_length (by omega), List.drop_append_of_le_length (by omega),
    List.take_append_of_le_length (by simp; omega), List.drop_append_of_le_length (by omega),
    hitem, hrest]

theorem length_lt_of_readClientFrame {buf rest : Bytes} {item : Bytes × Bytes}
    (h : readClientFrame buf = some (item, rest)) : rest.length < buf.length := by
  unfold readClientFrame at h
  dsimp only at h
  split_ifs at h with hshort
  have hrest := (Prod.mk.inj (Option.some.inj h)).2
  rw [← hrest, List.length_drop]
  omega

/-- The reader of the client stream. -/
def clientReader : ItemReader UInt8 (Bytes × Bytes) :=
  { next := readClientFrame
    shrinks := length_lt_of_readClientFrame
    stable := readClientFrame_append }

/-! ## Fields at fixed offsets -/

/-- An ASCII character at `offset`. -/
def charAt (body : Bytes) (offset : Nat) : Char := Char.ofNat (uintAt body offset 1)

/-- What a message says on the wire. -/
inductive WireMessage where
  | helo (deviceId revision : Nat) (mac uuid : Bytes) (wlanChannelList bytesReceived : Nat)
      (language : Char × Char) (capabilities : String)
  | stat (eventCode : String) (crlf bufferSize fullness bytesReceived sigStrength jiffies
      outputBufferSize outputBufferFullness elapsedSeconds voltage elapsedMilliseconds timestamp
      errorCode : Nat)
  | bye (val : Nat)
  | name (newName : String)
  deriving DecidableEq, Repr

namespace WireMessage

/-- Read every field of a body at its offset; strings are UTF-8 and variable-length ones are the
rest of the body. -/
def decode (opcode body : Bytes) : Option WireMessage :=
  if opcode = utf8Bytes "HELO" then
    (fromUtf8 (restAt body 36)).map fun capabilities =>
      .helo (uintAt body 0 1) (uintAt body 1 1) (fieldAt body 2 6) (fieldAt body 8 16)
        (uintAt body 24 2) (uintAt body 26 8) (charAt body 34, charAt body 35) capabilities
  else if opcode = utf8Bytes "STAT" then
    (fromUtf8 (fieldAt body 0 4)).map fun eventCode =>
      .stat eventCode (uintAt body 4 1) (uintAt body 7 4) (uintAt body 11 4) (uintAt body 15 8)
        (uintAt body 23 2) (uintAt body 25 4) (uintAt body 29 4) (uintAt body 33 4)
        (uintAt body 37 4) (uintAt body 41 2) (uintAt body 43 4) (uintAt body 47 4)
        (uintAt body 51 2)
  else if opcode = utf8Bytes "BYE!" then
    some (.bye (uintAt body 0 1))
  else if opcode = utf8Bytes "SETD" then
    (fromUtf8 (restAt body 1)).map .name
  else
    none

end WireMessage

namespace ClientMessage

/-- The wire content of a message: durations count whole milliseconds. -/
def wire : ClientMessage → WireMessage
  | helo deviceId revision mac uuid wlanChannelList bytesReceived language capabilities =>
      .helo deviceId.toNat revision.toNat mac.toList uuid.toList wlanChannelList.toNat
        bytesReceived.toNat language capabilities
  | stat eventCode s =>
      .stat eventCode s.crlf.toNat s.bufferSize.toNat s.fullness.toNat s.bytesReceived.toNat
        s.sigStrength.toNat s.jiffies.asMillis s.outputBufferSize.toNat
        s.outputBufferFullness.toNat s.elapsedSeconds.toNat s.voltage.toNat
        s.elapsedMilliseconds.toNat s.timestamp.asMillis s.errorCode.toNat
  | bye val => .bye val.toNat
  | name newName => .name newName

/-- The messages the format is meant for: ASCII language characters, four-byte event codes, and
durations that fit 32 bits of milliseconds. -/
def Encodable : ClientMessage → Prop
  | helo _ _ _ _ _ _ language _ => language.1.toNat < 128 ∧ language.2.toNat < 128
  | stat eventCode s =>
      (utf8Bytes eventCode).length = 4 ∧ s.jiffies.asMillis < 2 ^ 32 ∧
        s.timestamp.asMillis < 2 ^ 32
  | bye _ => True
  | name _ => True

instance : DecidablePred Encodable
  | helo _ _ _ _ _ _ language _ =>
      inferInstanceAs (Decidable (language.1.toNat < 128 ∧ language.2.toNat < 128))
  | stat eventCode s =>
      inferInstanceAs (Decidable ((utf8Bytes eventCode).length = 4 ∧
        s.jiffies.asMillis < 2 ^ 32 ∧ s.timestamp.asMillis < 2 ^ 32))
  | bye _ => isTrue trivial
  | name _ => isTrue trivial

/-! ## The fields come back -/

theorem length_putU8 (v : UInt8) : (putU8 v).length = 1 := rfl

theorem length_putU16 (v : UInt16) : (putU16 v).length = 2 := by
  simp [putU16]

theorem length_putU32 (v : UInt32) : (putU32 v).length = 4 := by
  simp [putU32]

theorem length_putU64 (v : UInt64) : (putU64 v).length = 8 := by
  simp [putU64]

theorem ofBytes_putU8 (v : UInt8) : BigEndian.ofBytes (putU8 v) = v.toNat := by
  simp [putU8, BigEndian.ofBytes]

theorem ofBytes_putU16 (v : UInt16) : BigEndian.ofBytes (putU16 v) = v.toNat :=
  BigEndian.ofBytes_toBytes_of_lt v.toNat_lt

theorem ofBytes_putU32 (v : UInt32) : BigEndian.ofBytes (putU32 v) = v.toNat :=
  BigEndian.ofBytes_toBytes_of_lt v.toNat_lt

theorem ofBytes_putU64 (v : UInt64) : BigEndian.ofBytes (putU64 v) = v.toNat :=
  BigEndian.ofBytes_toBytes_of_lt v.toNat_lt

theorem toNat_tryIntoU32 {v : Nat} (h : v < 2 ^ 32) : (tryIntoU32 v).toNat = v := by
  unfold tryIntoU32
  rw [if_pos h]
  exact UInt32.toNat_ofNat_of_lt' h

theorem toNat_byte {c : Char} (h : c.toNat < 128) : (byte c).toNat = c.toNat := by
  simp [byte]
  omega

theorem charAt_byte {c : Char} (h : c.toNat < 128) (rest : Bytes) :
    charAt (putU8 (byte c) ++ rest) 0 = c := by
  have hfield : fieldAt (putU8 (byte c) ++ rest) 0 1 = putU8 (byte c) :=
    fieldAt_append_left (length_putU8 _)
  unfold charAt uintAt
  rw [hfield, ofBytes_putU8, toNat_byte h]
  exact Char.ofNat_toNat c

theorem charAt_append_right {xs ys : Bytes} {n offset : Nat} (hn : xs.length = n)
    (h : n ≤ offset) : charAt (xs ++ ys) offset = charAt ys (offset - n) := by
  unfold charAt uintAt
  rw [fieldAt_append_right hn h]

/-- The HELO fields sit at 0, 1, 2, 8, 24, 26, 34, 35 and 36. -/
theorem decode_helo (deviceId revision : UInt8) (mac : Vector UInt8 6) (uuid : Vector UInt8 16)
    (wlanChannelList : UInt16) (bytesReceived : UInt64) {language : Char × Char}
    (capabilities : String) (h1 : language.1.toNat < 128) (h2 : language.2.toNat < 128) :
    let m := helo deviceId revision mac uuid wlanChannelList bytesReceived language capabilities
    WireMessage.decode m.opcode m.body = some m.wire := by
  have hmac : mac.toList.length = 6 := mac.length_toList
  have huuid : uuid.toList.length = 16 := uuid.length_toList
  have hbody : (helo deviceId revision mac uuid wlanChannelList bytesReceived language
      capabilities).body =
        putU8 deviceId ++ (putU8 revision ++ (mac.toList ++ (uuid.toList ++
          (putU16 wlanChannelList ++ (putU64 bytesReceived ++ (putU8 (byte language.1) ++
            (putU8 (byte language.2) ++ utf8Bytes capabilities))))))) := by
    simp [body, putU8]
  intro m
  simp only [m, hbody, WireMessage.decode, opcode, wire, uintAt, if_true,
    restAt_append (length_putU8 _), restAt_append hmac, restAt_append huuid,
    restAt_append (length_putU16 _), restAt_append (length_putU64 _), restAt_zero,
    fieldAt_append_right (length_putU8 _), fieldAt_append_right hmac, fieldAt_append_right huuid,
    fieldAt_append_right (length_putU16 _), fieldAt_append_left (length_putU8 _),
    fieldAt_append_left hmac, fieldAt_append_left huuid, fieldAt_append_left (length_putU16 _),
    fieldAt_append_left (length_putU64 _),
    charAt_append_right (length_putU8 _), charAt_append_right hmac, charAt_append_right huuid,
    charAt_append_right (length_putU16 _), charAt_append_right (length_putU64 _), charAt_byte h1,
    charAt_byte h2, ofBytes_putU8, ofBytes_putU16, ofBytes_putU64, Utf8.fromUtf8_utf8Bytes,
    Option.map_some, Nat.reduceSub, Nat.reduceLeDiff]

/-- The STAT fields sit at 0, 4, (5 unused), 7, 11, 15, 23, 25, 29, 33, 37, 41, 43, 47 and 51. -/
theorem decode_stat {eventCode : String} (s : StatusData)
    (hcode : (utf8Bytes eventCode).length = 4) (hjiffies : s.jiffies.asMillis < 2 ^ 32)
    (htimestamp : s.timestamp.asMillis < 2 ^ 32) :
    WireMessage.decode (stat eventCode s).opcode (stat eventCode s).body =
      some (stat eventCode s).wire := by
  have hhelo : utf8Bytes "STAT" ≠ utf8Bytes "HELO" := by decide
  have hlast : fieldAt (putU16 s.errorCode) 0 2 = putU16 s.errorCode :=
    fieldAt_self (length_putU16 _)
  simp only [WireMessage.decode, opcode, body, wire, uintAt, if_neg hhelo, if_true,
    List.append_assoc,
    fieldAt_append_right hcode, fieldAt_append_right (length_putU8 _),
    fieldAt_append_right (length_putU16 _), fieldAt_append_right (length_putU32 _),
    fieldAt_append_right (length_putU64 _), fieldAt_append_left hcode,
    fieldAt_append_left (length_putU8 _), fieldAt_append_left (length_putU16 _),
    fieldAt_append_left (length_putU32 _), fieldAt_append_left (length_putU64 _), hlast,
    ofBytes_putU8, ofBytes_putU16, ofBytes_putU32, ofBytes_putU64,
    toNat_tryIntoU32 hjiffies, toNat_tryIntoU32 htimestamp, Utf8.fromUtf8_utf8Bytes,
    Option.map_some, Nat.reduceSub, Nat.reduceLeDiff]

theorem decode_bye (val : UInt8) :
    WireMessage.decode (bye val).opcode (bye val).body = some (bye val).wire := by
  have hhelo : utf8Bytes "BYE!" ≠ utf8Bytes "HELO" := by decide
  have hstat : utf8Bytes "BYE!" ≠ utf8Bytes "STAT" := by decide
  have hval : fieldAt (putU8 val) 0 1 = putU8 val := fieldAt_self (length_putU8 val)
  simp only [WireMessage.decode, opcode, body, wire, uintAt, if_neg hhelo, if_neg hstat, if_true,
    hval, ofBytes_putU8]

theorem decode_name (newName : String) :
    WireMessage.decode (name newName).opcode (name newName).body = some (name newName).wire := by
  have hhelo : utf8Bytes "SETD" ≠ utf8Bytes "HELO" := by decide
  have hstat : utf8Bytes "SETD" ≠ utf8Bytes "STAT" := by decide
  have hbye : utf8Bytes "SETD" ≠ utf8Bytes "BYE!" := by decide
  simp only [WireMessage.decode, opcode, body, wire, if_neg hhelo, if_neg hstat, if_neg hbye,
    if_true, restAt_append (length_putU8 _), restAt_zero, Utf8.fromUtf8_utf8Bytes,
    Option.map_some, Nat.reduceSub, Nat.reduceLeDiff, le_refl]

/-- Reading the fields of a message's body gives what the message says. -/
theorem decode_opcode_body {m : ClientMessage} (hm : m.Encodable) :
    WireMessage.decode m.opcode m.body = some m.wire := by
  cases m with
  | helo deviceId revision mac uuid wlanChannelList bytesReceived language capabilities =>
      exact decode_helo deviceId revision mac uuid wlanChannelList bytesReceived capabilities
        hm.1 hm.2
  | stat eventCode s => exact decode_stat s hm.1 hm.2.1 hm.2.2
  | bye val => exact decode_bye val
  | name newName => exact decode_name newName

/-! ## The frames come back -/

/-- What the client stream is expected to carry: the reader finds exactly the messages that were
written, with nothing left over, and every field of every one of them is read back. -/
def Recovered (msgs : List ClientMessage) : Prop :=
  clientReader.split (msgs.flatMap toBytes) = (msgs.map fun m => (m.opcode, m.body), []) ∧
    ∀ m ∈ msgs, WireMessage.decode m.opcode m.body = some m.wire

/-- What the reader takes off depends on the length field only. -/
theorem readClientFrame_toBytes {m : ClientMessage} {n : Nat}
    (hn : (m.body.length + 4) % 2 ^ 32 - 4 = n) (hle : n ≤ m.body.length) (rest : Bytes) :
    readClientFrame (m.toBytes ++ rest) =
      some ((m.opcode, m.body.take n), m.body.drop n ++ rest) := by
  have hop : m.opcode.length = 4 := m.length_opcode
  have hfield : (BigEndian.toBytes 4 n).length = 4 := BigEndian.length_toBytes 4 n
  have hlt : n < 256 ^ 4 := by
    have := Nat.mod_lt (m.body.length + 4) (show 0 < 2 ^ 32 by decide)
    omega
  have hlen : BigEndian.ofBytes (BigEndian.toBytes 4 n) = n := BigEndian.ofBytes_toBytes_of_lt hlt
  have hbuf : m.toBytes ++ rest = m.opcode ++ (BigEndian.toBytes 4 n ++ (m.body ++ rest)) := by
    rw [toBytes_eq, hn]
    simp
  have hbehind : (m.toBytes ++ rest).drop 8 = m.body ++ rest := by
    rw [hbuf, ← List.append_assoc]
    exact List.drop_left' (by simp)
  have hheader : ((m.toBytes ++ rest).drop 4).take 4 = BigEndian.toBytes 4 n := by
    rw [hbuf, List.drop_left' hop, List.take_left' hfield]
  have htotal : (m.toBytes ++ rest).length = 8 + (m.body ++ rest).length := by
    simp [hbuf]
    omega
  unfold readClientFrame
  dsimp only
  rw [hheader, hlen, if_neg (by rw [htotal, List.length_append]; omega), ← List.drop_drop, hbehind,
    List.take_append_of_le_length hle, List.drop_append_of_le_length hle, hbuf,
    List.take_left' hop]

/-- Below `2 ^ 32` bytes of opcode and body the length field is the length of the body. -/
theorem encodes_of_length_lt {m : ClientMessage} (h : m.body.length < 2 ^ 32 - 4) :
    clientReader.Encodes toBytes (fun m => (m.opcode, m.body)) m := by
  intro rest
  have hn : (m.body.length + 4) % 2 ^ 32 - 4 = m.body.length := by
    rw [Nat.mod_eq_of_lt (by omega)]
    rfl
  have hread := readClientFrame_toBytes hn le_rfl rest
  rw [List.take_length, List.drop_length, List.nil_append] at hread
  exact hread

/-- From there on the length field is zero and the reader finds an empty body. -/
theorem readClientFrame_toBytes_of_long {m : ClientMessage} (h : 2 ^ 32 - 4 ≤ m.body.length)
    (hlt : m.body.length < 2 ^ 32) (rest : Bytes) :
    readClientFrame (m.toBytes ++ rest) = some ((m.opcode, []), m.body ++ rest) := by
  have hn : (m.body.length + 4) % 2 ^ 32 - 4 = 0 := by omega
  have hread := readClientFrame_toBytes hn (Nat.zero_le _) rest
  rw [List.take_zero, List.drop_zero] at hread
  exact hread

theorem length_lt_of_split_eq {msgs : List ClientMessage}
    (hshort : ∀ m ∈ msgs, m.body.length < 2 ^ 32)
    (h : (clientReader.split (msgs.flatMap toBytes)).1 = msgs.map fun m => (m.opcode, m.body)) :
    ∀ m ∈ msgs, m.body.length < 2 ^ 32 - 4 := by
  induction msgs with
  | nil => simp
  | cons m msgs ih =>
      rw [List.flatMap_cons, List.map_cons] at h
      have hm : m.body.length < 2 ^ 32 - 4 := by
        by_contra hlong
        have hread := readClientFrame_toBytes_of_long (Nat.not_lt.1 hlong)
          (hshort m (by simp)) (msgs.flatMap toBytes)
        rw [clientReader.split_of_next_eq_some hread] at h
        -- The first frame found has an empty body.
        have hbody : m.body = [] := (congrArg Prod.snd (List.cons.inj h).1).symm
        rw [hbody] at hlong
        exact hlong (by decide)
      rw [clientReader.split_of_next_eq_some (encodes_of_length_lt hm _)] at h
      have hrest := ih (fun m' hm' => hshort m' (by simp [hm'])) (List.cons.inj h).2
      intro m' hm'
      rcases List.mem_cons.1 hm' with rfl | hm'
      · exact hm
      · exact hrest m' hm'

/-- **The client stream is read back exactly when no body reaches `2 ^ 32 - 4` bytes.** -/
theorem recovered_iff_length_lt {msgs : List ClientMessage}
    (hmsgs : ∀ m ∈ msgs, m.Encodable ∧ m.body.length < 2 ^ 32) :
    Recovered msgs ↔ ∀ m ∈ msgs, m.body.length < 2 ^ 32 - 4 := by
  constructor
  · intro h
    exact length_lt_of_split_eq (fun m hm => (hmsgs m hm).2) (congrArg Prod.fst h.1)
  · intro hlen
    refine ⟨?_, fun m hm => decode_opcode_body (hmsgs m hm).1⟩
    have hsplit := ItemReader.split_flatMap_append
      (fun m hm => encodes_of_length_lt (hlen m hm)) ([] : Bytes)
    have hnil : clientReader.split [] = ([], []) := clientReader.split_of_next_eq_none rfl
    simpa [hnil] using hsplit

theorem recovered_name_and_bye : Recovered [name "abc", bye 1] :=
  (@recovered_iff_length_lt [name "abc", bye 1] (by decide)).2 (by decide)

/-- A name of `2 ^ 32 - 5` letters `a`: with the byte in front of it the body takes
`2 ^ 32 - 4` bytes. -/
def longName : ClientMessage := name (String.ofList (List.replicate (2 ^ 32 - 5) 'a'))

theorem length_body_longName : longName.body.length = 2 ^ 32 - 4 := by
  have hchar : ∀ n, ((List.replicate n 'a').flatMap String.utf8EncodeChar).length = n := by
    intro n
    have hone : (String.utf8EncodeChar 'a').length = 1 := by decide
    rw [List.flatMap_replicate, List.length_flatten]
    simp [hone]
  unfold longName body
  rw [List.length_append, Utf8.utf8Bytes_eq_flatMap, String.toList_ofList, hchar]
  rfl

/-- The length field of `longName` is zero, so the reader takes its body for the next message. -/
theorem not_recovered_longName :
    (∀ m ∈ [longName], m.Encodable ∧ m.body.length < 2 ^ 32) ∧ ¬ Recovered [longName] := by
  have hlen := length_body_longName
  refine ⟨?_, ?_⟩
  · intro m hm
    rw [List.mem_singleton.1 hm, hlen]
    exact ⟨trivial, by decide⟩
  · intro h
    have hlt := @length_lt_of_split_eq [longName] (by simp [hlen])
      (congrArg Prod.fst h.1) longName (by simp)
    rw [hlen] at hlt
    exact absurd hlt (by decide)

end ClientMessage

end LmsProto
end LmsPlayer
