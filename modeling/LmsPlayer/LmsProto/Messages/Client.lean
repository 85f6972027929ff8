import LmsPlayer.LmsProto.Status
import LmsPlayer.Library.StreamSplitting

/-!
# Messages.Client — the messages sent to the server

`ClientMessage.toBytes` is the serialization of `From<ClientMessage> for Bytes`: the fields are put
one after the other behind a four-byte opcode, and the length of everything behind the opcode is
spliced in between the two.
-/

namespace LmsPlayer
namespace LmsProto

open Utf8 (utf8Bytes)

/-- Messages sent from the client to the server. -/
inductive ClientMessage where
  | helo (deviceId revision : UInt8) (mac : Vector UInt8 6) (uuid : Vector UInt8 16)
      (wlanChannelList : UInt16) (bytesReceived : UInt64) (language : Char × Char)
      (capabilities : String)
  | stat (eventCode : String) (statData : StatusData)
  | bye (val : UInt8)
  | name (newName : String)
  deriving DecidableEq

/-- `make_status_message` at the instant `now`: the message, and the block with its new jiffies. -/
def StatusData.makeStatusMessage (s : StatusData) (now : Instant) (msgtype : StatusCode) :
    ClientMessage × StatusData :=
  let s := s.setJiffies (now - s.start)
  (.stat msgtype.toString s, s)

/-! ## Serialization -/

def putU8 (v : UInt8) : Bytes := [v]

def putU16 (v : UInt16) : Bytes := BigEndian.toBytes 2 v.toNat

def putU32 (v : UInt32) : Bytes := BigEndian.toBytes 4 v.toNat

def putU64 (v : UInt64) : Bytes := BigEndian.toBytes 8 v.toNat

/-- `v.try_into().unwrap_or_default()` from a wide integer to `u32`. -/
def tryIntoU32 (v : Nat) : UInt32 :=
  if v < 2 ^ 32 then UInt32.ofNat v else 0

namespace ClientMessage

/-- The four-byte opcode. -/
def opcode : ClientMessage → Bytes
  | helo .. => utf8Bytes "HELO"
  | stat .. => utf8Bytes "STAT"
  | bye .. => utf8Bytes "BYE!"
  | name .. => utf8Bytes "SETD"

/-- Everything that is put behind the opcode. -/
def body : ClientMessage → Bytes
  | helo deviceId revision mac uuid wlanChannelList bytesReceived language capabilities =>
      -- The language characters should be ASCII; the cast keeps their low byte.
      let lang := [byte language.1, byte language.2]
      putU8 deviceId ++ putU8 revision ++ mac.toList ++ uuid.toList ++ putU16 wlanChannelList ++
        putU64 bytesReceived ++ lang ++ utf8Bytes capabilities
  | bye val => putU8 val
  | stat eventCode statData =>
      utf8Bytes eventCode ++
        putU8 statData.crlf ++
        putU16 0 ++
        putU32 statData.bufferSize ++
        putU32 statData.fullness ++
        putU64 statData.bytesReceived ++
        putU16 statData.sigStrength ++
        putU32 (tryIntoU32 statData.jiffies.asMillis) ++
        putU32 statData.outputBufferSize ++
        putU32 statData.outputBufferFullness ++
        putU32 statData.elapsedSeconds ++
        putU16 statData.voltage ++
        putU32 statData.elapsedMilliseconds ++
        putU32 (tryIntoU32 statData.timestamp.asMillis) ++
        putU16 statData.errorCode
  | name newName => putU8 0 ++ utf8Bytes newName

/-- `From<ClientMessage> for Bytes`. -/
def toBytes (src : ClientMessage) : Bytes :=
  let msg := src.opcode ++ src.body
  -- `(msg.len() as u32).saturating_sub(4)`: the cast wraps before four is taken off.
  let msgLen := msg.length % 2 ^ 32 - 4
  msg.take 4 ++ BigEndian.toBytes 4 msgLen ++ msg.drop 4

@[simp] theorem length_opcode (m : ClientMessage) : m.opcode.length = 4 := by
  cases m <;> rfl

theorem toBytes_eq (m : ClientMessage) :
    m.toBytes = m.opcode ++ BigEndian.toBytes 4 ((m.body.length + 4) % 2 ^ 32 - 4) ++ m.body := by
  have hlen : m.opcode.length = 4 := m.length_opcode
  have htotal : (m.opcode ++ m.body).length = m.body.length + 4 := by
    simp [Nat.add_comm]
  simp only [toBytes, htotal, List.take_left' hlen, List.drop_left' hlen]

example : (name "abc").toBytes = [83, 69, 84, 68, 0, 0, 0, 4, 0, 97, 98, 99] := by decide

end ClientMessage

end LmsProto
end LmsPlayer
