import LmsPlayer.LmsProto.Basic

/-!
# Status — the status block reported to the server

`StatusData` holds the fields of a STAT frame together with the instant it was created, from which
the jiffies of every report are measured.  The setters wrap around exactly where the machine
integers do.
-/

namespace LmsPlayer
namespace LmsProto

structure StatusData where
  crlf : UInt8
  bufferSize : UInt32
  fullness : UInt32
  bytesReceived : UInt64
  sigStrength : UInt16
  jiffies : Duration
  outputBufferSize : UInt32
  outputBufferFullness : UInt32
  elapsedSeconds : UInt32
  voltage : UInt16
  elapsedMilliseconds : UInt32
  timestamp : Duration
  errorCode : UInt16
  /-- Not sent to the server. -/
  start : Instant
  deriving DecidableEq, Repr

namespace StatusData

/-- `StatusData::default()` called at the instant `now`. -/
def default (now : Instant) : StatusData :=
  { crlf := 0
    bufferSize := 0
    fullness := 0
    bytesReceived := 0
    sigStrength := 0
    jiffies := 0
    outputBufferSize := 0
    outputBufferFullness := 0
    elapsedSeconds := 0
    voltage := 0
    elapsedMilliseconds := 0
    timestamp := 0
    errorCode := 0
    start := now }

def addCrlf (s : StatusData) (numCrlf : UInt8) : StatusData :=
  { s with crlf := s.crlf + numCrlf }

def setFullness (s : StatusData) (fullness : UInt32) : StatusData :=
  { s with fullness := fullness }

def addBytesReceived (s : StatusData) (bytesReceived : UInt64) : StatusData :=
  { s with bytesReceived := s.bytesReceived + bytesReceived }

def setJiffies (s : StatusData) (jiffies : Duration) : StatusData :=
  { s with jiffies := jiffies }

def setOutputBufferSize (s : StatusData) (size : UInt32) : StatusData :=
  { s with outputBufferSize := size }

def setOutputBufferFullness (s : StatusData) (fullness : UInt32) : StatusData :=
  { s with outputBufferFullness := fullness }

def setElapsedSeconds (s : StatusData) (seconds : UInt32) : StatusData :=
  { s with elapsedSeconds := seconds }

def setElapsedMilliSeconds (s : StatusData) (millis : UInt32) : StatusData :=
  { s with elapsedMilliseconds := millis }

def setBufferSize (s : StatusData) (size : UInt32) : StatusData :=
  { s with bufferSize := size }

def setTimestamp (s : StatusData) (timestamp : Duration) : StatusData :=
  { s with timestamp := timestamp }

end StatusData

/-! ## Event codes -/

/-- The event a status report is about. -/
inductive StatusCode where
  | connect
  | decoderReady
  | streamEstablished
  | flushed
  | headersReceived
  | bufferThreshold
  | notSupported
  | outputUnderrun
  | pause
  | resume
  | trackStarted
  | timer
  | underrun
  deriving DecidableEq, Repr

namespace StatusCode

def letter : StatusCode → String
  | .connect => "c"
  | .decoderReady => "d"
  | .streamEstablished => "e"
  | .flushed => "f"
  | .headersReceived => "h"
  | .bufferThreshold => "l"
  | .notSupported => "n"
  | .outputUnderrun => "o"
  | .pause => "p"
  | .resume => "r"
  | .trackStarted => "s"
  | .timer => "t"
  | .underrun => "u"

/-- `Display for StatusCode`. -/
def toString (code : StatusCode) : String := "STM" ++ code.letter

/-- Every event code takes four bytes on the wire. -/
theorem length_utf8Bytes_toString (code : StatusCode) :
    (Utf8.utf8Bytes code.toString).length = 4 := by
  cases code <;> decide

end StatusCode

end LmsProto
end LmsPlayer
