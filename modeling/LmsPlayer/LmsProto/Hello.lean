import LmsPlayer.LmsProto.Messages.Client

/-!
# Hello — announcing the player to a server

The capabilities of the player in the text form the server reads, and the HELO message that
`Hello::connect` sends as the first message of a connection.
-/

namespace LmsPlayer
namespace LmsProto

inductive Capability where
  | wma
  | wmap
  | wmal
  | ogg
  | flc
  | pcm
  | aif
  | mp3
  | alc
  | aac
  | maxsamplerate (rate : UInt32)
  | model (name : String)
  | modelname (name : String)
  | rhap
  | accurateplaypoints
  | syncgroupid (id : String)
  | hasdigitalout
  | haspreamp
  | hasdisabledac
  | firmware (version : String)
  | balance
  | canHTTPS
  deriving DecidableEq, Repr

namespace Capability

/-- `Display for Capability`. -/
def toString : Capability → String
  | wma => "wma"
  | wmap => "wmap"
  | wmal => "wmal"
  | ogg => "ogg"
  | flc => "flc"
  | pcm => "pcm"
  | aif => "aif"
  | mp3 => "mp3"
  | alc => "alc"
  | aac => "aac"
  | maxsamplerate rate => "MaxSampleRate=" ++ rate.toNat.repr
  | model name => "Model=" ++ name
  | modelname name => "Modelname=" ++ name
  | rhap => "Rhap"
  | accurateplaypoints => "AccuratePlayPoints=1"
  | syncgroupid id => "SyncgroupID=" ++ id
  | hasdigitalout => "HasDigitalOut=1"
  | haspreamp => "HasPreAmp=1"
  | hasdisabledac => "HasDisableDac=1"
  | firmware version => "Firmware=" ++ version
  | balance => "Balance=1"
  | canHTTPS => "canHTTPS=1"

/-- `Display for CapList`: the capabilities, separated by commas. -/
def listToString (caps : List Capability) : String := ",".intercalate (caps.map toString)

example : listToString [mp3, maxsamplerate 9600, ogg] = "mp3,MaxSampleRate=9600,ogg" := by decide

end Capability

/-- The two characters of the language should be ASCII. -/
structure Hello where
  deviceId : UInt8
  revision : UInt8
  mac : Vector UInt8 6
  uuid : Vector UInt8 16
  wlanChannelList : UInt16
  bytesReceived : UInt64
  language : Char × Char
  reconnect : Bool
  caps : List Capability
  deriving DecidableEq

namespace Hello

/-- `Hello::new`, from which the setters go on. -/
def new : Hello :=
  { deviceId := 0
    revision := 0
    mac := Vector.replicate 6 0
    uuid := Vector.replicate 16 0
    wlanChannelList := 0
    bytesReceived := 0
    language := (Char.ofNat 0, Char.ofNat 0)
    reconnect := false
    caps := [] }

/-- The message `Hello::connect` sends once the connection is open. -/
def helo (hello : Hello) : ClientMessage :=
  let wlanChannelList :=
    if hello.reconnect then hello.wlanChannelList ||| 0x0400 else hello.wlanChannelList
  .helo hello.deviceId hello.revision hello.mac hello.uuid wlanChannelList hello.bytesReceived
    hello.language (Capability.listToString hello.caps)

end Hello

end LmsProto
end LmsPlayer
