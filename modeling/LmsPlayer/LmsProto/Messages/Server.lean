import LmsPlayer.LmsProto.Basic
import LmsPlayer.Library.ByteCursor
import Mathlib.Data.Rat.Defs

/-!
# Messages.Server — parsing what the server sends

`ServerMessage.fromBytes` follows `From<BytesMut> for ServerMessage` read by read, over a cursor
that panics where `split_to`, `advance` and the `get_*` methods do.

* A byte that selects one of several values is looked up in a table; a byte outside the table makes
  the parser return `ServerMessage::Error`.
* Gains are 16.16 fixed-point numbers.  Dividing a `u32` by 65536 is exact in an `f64`, so they are
  rational numbers here.
-/

namespace LmsPlayer
namespace LmsProto

open ByteCursor (Cursor Outcome)

/-! ## Field values -/

inductive AutoStart where
  | none
  | auto
  | direct
  | autoDirect
  deriving DecidableEq, Repr

inductive Format where
  | pcm
  | mp3
  | flac
  | wma
  | ogg
  | aac
  | alac
  deriving DecidableEq, Repr

inductive PcmSampleSize where
  | eight
  | sixteen
  | twenty
  | thirtyTwo
  | selfDescribing
  deriving DecidableEq, Repr

inductive PcmSampleRate where
  | rate (hz : UInt32)
  | selfDescribing
  deriving DecidableEq, Repr

inductive PcmChannels where
  | mono
  | stereo
  | selfDescribing
  deriving DecidableEq, Repr

inductive PcmEndian where
  | big
  | little
  | selfDescribing
  deriving DecidableEq, Repr

inductive SpdifEnable where
  | auto
  | on
  | off
  deriving DecidableEq, Repr

inductive TransType where
  | none
  | crossfade
  | fadeIn
  | fadeOut
  | fadeInOut
  deriving DecidableEq, Repr

/-- The four stream flags; no other bit can be set. -/
structure StreamFlags where
  bits : UInt8
  known : bits &&& 0b00111100 = 0
  deriving DecidableEq, Repr

namespace StreamFlags

def empty : StreamFlags := ⟨0, by decide⟩

/-- `from_bits`: nothing when an unknown bit is set. -/
def fromBits (bits : UInt8) : Option StreamFlags :=
  if h : bits &&& 0b00111100 = 0 then some ⟨bits, h⟩ else .none

theorem fromBits_bits (flags : StreamFlags) : fromBits flags.bits = some flags := by
  unfold fromBits
  exact dif_pos flags.known

end StreamFlags

/-! ## Tables of bytes -/

def AutoStart.table : List (UInt8 × AutoStart) :=
  [(byte '0', .none), (byte '1', .auto), (byte '2', .direct), (byte '3', .autoDirect)]

def Format.table : List (UInt8 × Format) :=
  [(byte 'p', .pcm), (byte 'm', .mp3), (byte 'f', .flac), (byte 'w', .wma), (byte 'o', .ogg),
    (byte 'a', .aac), (byte 'l', .alac)]

def PcmSampleSize.table : List (UInt8 × PcmSampleSize) :=
  [(byte '0', .eight), (byte '1', .sixteen), (byte '2', .twenty), (byte '3', .thirtyTwo),
    (byte '?', .selfDescribing)]

def PcmSampleRate.table : List (UInt8 × PcmSampleRate) :=
  [(byte '0', .rate 11000), (byte '1', .rate 22000), (byte '2', .rate 32000),
    (byte '3', .rate 44100), (byte '4', .rate 48000), (byte '5', .rate 8000),
    (byte '6', .rate 12000), (byte '7', .rate 16000), (byte '8', .rate 24000),
    (byte '9', .rate 96000), (byte '?', .selfDescribing)]

def PcmChannels.table : List (UInt8 × PcmChannels) :=
  [(byte '1', .mono), (byte '2', .stereo), (byte '?', .selfDescribing)]

def PcmEndian.table : List (UInt8 × PcmEndian) :=
  [(byte '0', .big), (byte '1', .little), (byte '?', .selfDescribing)]

def SpdifEnable.table : List (UInt8 × SpdifEnable) :=
  [(0, .auto), (1, .on), (2, .off)]

def TransType.table : List (UInt8 × TransType) :=
  [(byte '0', .none), (byte '1', .crossfade), (byte '2', .fadeIn), (byte '3', .fadeOut),
    (byte '4', .fadeInOut)]

/-! ## Messages -/

/-- The fields of `ServerMessage::Stream`. -/
structure StreamFields where
  autostart : AutoStart
  format : Format
  pcmsamplesize : PcmSampleSize
  pcmsamplerate : PcmSampleRate
  pcmchannels : PcmChannels
  pcmendian : PcmEndian
  threshold : UInt32
  spdifEnable : SpdifEnable
  transPeriod : Duration
  transType : TransType
  flags : StreamFlags
  outputThreshold : Duration
  replayGain : ℚ
  serverPort : UInt16
  serverIp : Ipv4Addr
  httpHeaders : Option String
  deriving DecidableEq

/-- Messages sent from the server to the client. -/
inductive ServerMessage where
  | serv (ipAddress : Ipv4Addr) (syncGroupId : Option String)
  | status (timestamp : Duration)
  | stream (fields : StreamFields)
  | gain (left right : ℚ)
  | enable (spdif dac : Bool)
  | flush
  | stop
  | pause (timestamp : Duration)
  | unpause (timestamp : Duration)
  | queryname
  | setname (name : String)
  | disableDac
  | skip (timestamp : Duration)
  | unrecognised (what : String)
  | error
  deriving DecidableEq

namespace ServerMessage

/-! ## Parsing -/

/-- `if buf.len() < n { return ServerMessage::Error; }` -/
def requireLen (n : Nat) : Cursor Unit := do
  let len ← Cursor.remaining
  if len < n then Cursor.reject else pure ()

/-- `match buf.split_to(1)[0] { .., _ => return ServerMessage::Error }` -/
def getField {α : Type} (table : List (UInt8 × α)) : Cursor α := do
  let b ← Cursor.getByte
  Cursor.expect (table.lookup b)

/-- A 16.16 fixed-point number. -/
def gainFactor (v : Nat) : ℚ := v / 65536

/-- `.map(|c| c as char).collect::<String>()` -/
def latin1 (bs : Bytes) : String := String.ofList (bs.map fun b => Char.ofNat b.toNat)

def getIpv4 : Cursor Ipv4Addr := do
  let v ← Cursor.getUInt 4
  pure { bits := UInt32.ofNat v }

def parseServ : Cursor ServerMessage := do
  requireLen 4
  let ipAddr ← getIpv4
  let buf ← Cursor.takeRest
  let syncGroup := if buf.isEmpty then none else some (latin1 buf)
  pure (serv ipAddr syncGroup)

/-- The millisecond timestamp of the `t`, `p`, `u` and `a` commands. -/
def parseTimestamp : Cursor Duration := do
  Cursor.advance 13
  let timestamp ← Cursor.getUInt 4
  pure (Duration.fromMillis timestamp)

def parseStream : Cursor ServerMessage := do
  let autostart ← getField AutoStart.table
  let format ← getField Format.table
  let pcmsamplesize ← getField PcmSampleSize.table
  let pcmsamplerate ← getField PcmSampleRate.table
  let pcmchannels ← getField PcmChannels.table
  let pcmendian ← getField PcmEndian.table
  let threshold ← Cursor.getByte
  let spdifEnable ← getField SpdifEnable.table
  let transPeriod ← Cursor.getByte
  let transType ← getField TransType.table
  let flags ← Cursor.getByte
  let outputThreshold ← Cursor.getByte
  Cursor.advance 1
  let replayGain ← Cursor.getUInt 4
  let serverPort ← Cursor.getUInt 2
  let serverIp ← getIpv4
  let buf ← Cursor.takeRest
  pure (stream
    { autostart := autostart
      format := format
      pcmsamplesize := pcmsamplesize
      pcmsamplerate := pcmsamplerate
      pcmchannels := pcmchannels
      pcmendian := pcmendian
      threshold := threshold.toUInt32 * 1024
      spdifEnable := spdifEnable
      transPeriod := Duration.fromSecs transPeriod.toNat
      transType := transType
      flags := (StreamFlags.fromBits flags).getD StreamFlags.empty
      outputThreshold := Duration.fromMillis (outputThreshold.toNat * 100)
      replayGain := gainFactor replayGain
      serverPort := UInt16.ofNat serverPort
      serverIp := serverIp
      httpHeaders := if buf.isEmpty then none else some (Utf8.fromUtf8Lossy buf) })

def parseStrm (msg : String) : Cursor ServerMessage := do
  requireLen 24
  let cmd ← Cursor.getByte
  if cmd = byte 't' then
    let timestamp ← parseTimestamp
    pure (status timestamp)
  else if cmd = byte 's' then
    parseStream
  else if cmd = byte 'q' then
    pure stop
  else if cmd = byte 'f' then
    pure flush
  else if cmd = byte 'p' then
    let timestamp ← parseTimestamp
    pure (pause timestamp)
  else if cmd = byte 'u' then
    let timestamp ← parseTimestamp
    pure (unpause timestamp)
  else if cmd = byte 'a' then
    let timestamp ← parseTimestamp
    pure (skip timestamp)
  else
    pure (unrecognised ((msg.push '_').push (Char.ofNat cmd.toNat)))

def parseAude : Cursor ServerMessage := do
  requireLen 2
  let spdif ← Cursor.getByte
  let dac ← Cursor.getByte
  pure (enable (spdif ≠ 0) (dac ≠ 0))

def parseAudg : Cursor ServerMessage := do
  requireLen 18
  Cursor.advance 10
  let left ← Cursor.getUInt 4
  let right ← Cursor.getUInt 4
  pure (gain (gainFactor left) (gainFactor right))

def parseSetd : Cursor ServerMessage := do
  requireLen 1
  let id ← Cursor.getByte
  if id = 0 then
    let buf ← Cursor.takeRest
    if buf.isEmpty then
      pure queryname
    else
      -- `buf[..buf.len() - 1]` leaves the terminating NUL out.
      pure (setname ((Utf8.fromUtf8 buf.dropLast).getD ""))
  else if id = 4 then
    pure disableDac
  else
    pure (unrecognised ("This SETD is unused: " ++ toString id.toNat))

/-- The body of the conversion: four opcode bytes, then whatever the opcode asks for. -/
def parse : Cursor ServerMessage := do
  let opcode ← Cursor.splitTo 4
  let msg := Utf8.fromUtf8Lossy opcode
  if msg = "serv" then parseServ
  else if msg = "strm" then parseStrm msg
  else if msg = "aude" then parseAude
  else if msg = "audg" then parseAudg
  else if msg = "setd" then parseSetd
  else pure (unrecognised msg)

/-- `From<BytesMut> for ServerMessage`; `none` when the conversion panics. -/
def fromBytes (src : Bytes) : Option ServerMessage :=
  match parse.run src with
  | .panic => none
  | .reject => some error
  | .ok msg _ => some msg

/-- A message that is handed on by `decode`: some payload is parsed to it, and it is not the answer
to a malformed one. -/
def OnWire (msg : ServerMessage) : Prop := msg ≠ error ∧ ∃ payload, fromBytes payload = some msg

example : fromBytes [115, 101, 116, 100, 0, 110, 101, 119, 0] = some (setname "new") := by decide

end ServerMessage

end LmsProto
end LmsPlayer
