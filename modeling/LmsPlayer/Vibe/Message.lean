import LmsPlayer.LmsProto.Messages.Server
import LmsPlayer.LmsProto.Messages.Client

/-!
# Vibe.Message — handling the messages of the server and of the player itself

The handlers of `PlayerContext`.  Each is a function from one `Player` to the next, where a `Player`
is the context and the global state together with what the handlers have asked for so far: messages
to send, threads to start, decoders passed to the output.

* Every handler runs at one instant, which is an argument.
* `AudioOutput` is the interface of the audio backends.  What a backend does on its own, between two
  calls, is not part of it.
* `STATUS` is created by the first access to it, so it may not be there yet.
-/

namespace LmsPlayer
namespace Vibe

open LmsProto

/-! ## Player messages -/

structure StreamParams where
  autostart : AutoStart
  outputThreshold : Duration
  deriving DecidableEq, Repr

/-- A decoder, as far as the event loop can tell it from another one. -/
structure VibeDecoder where
  format : Format
  pcmsamplesize : PcmSampleSize
  pcmsamplerate : PcmSampleRate
  pcmchannels : PcmChannels
  /-- Not in the code: where its Stream command stands in the record of the run. -/
  origin : Nat
  deriving DecidableEq, Repr

/-- Messages sent between the decoder / stream thread and the main event loop. -/
inductive PlayerMsg where
  | endOfDecode
  | drained
  | pause
  | unpause
  | connected
  | bufferThreshold
  | notSupported
  | streamEstablished
  | trackStarted
  | decoder (decoder : VibeDecoder) (params : StreamParams)
  deriving DecidableEq, Repr

namespace PlayerMsg

/-- The decoder a message carries. -/
def decoder? : PlayerMsg → Option VibeDecoder
  | decoder d _ => some d
  | _ => none

/-- The messages that `enqueue_new_stream` posts. -/
def FromEnqueue : PlayerMsg → Prop
  | notSupported => True
  | streamEstablished => True
  | _ => False

/-- The messages that the callbacks of the audio backends post. -/
def FromCallback : PlayerMsg → Prop
  | endOfDecode => True
  | drained => True
  | notSupported => True
  | trackStarted => True
  | _ => False

/-- Only `on_stream` makes decoders. -/
theorem decoder?_of_fromEnqueue {msg : PlayerMsg} (h : msg.FromEnqueue) : msg.decoder? = none := by
  cases msg with
  | decoder d params => exact h.elim
  | _ => rfl

theorem decoder?_of_fromCallback {msg : PlayerMsg} (h : msg.FromCallback) :
    msg.decoder? = none := by
  cases msg with
  | decoder d params => exact h.elim
  | _ => rfl

end PlayerMsg

/-! ## Audio outputs -/

/-- The `AudioOutput` trait.  Enqueueing a stream may post messages to the event loop; `unpause` and
`pause` tell whether they have had an effect. -/
class AudioOutput (O : Type) where
  enqueueNewStream : O → VibeDecoder → StreamParams → O × List PlayerMsg
  unpause : O → O × Bool
  pause : O → O × Bool
  stop : O → O
  flush : O → O
  shift : O → O
  getDur : O → Duration
  fromEnqueue_of_mem_enqueueNewStream : ∀ (o : O) (d : VibeDecoder) (params : StreamParams),
    ∀ msg ∈ (enqueueNewStream o d params).2, msg.FromEnqueue

/-! ## Server messages -/

/-- The messages that the slim-proto thread keeps for itself. -/
def IsServ : ServerMessage → Prop
  | .serv .. => True
  | _ => False

instance : DecidablePred IsServ
  | .serv .. => isTrue trivial
  | .status .. | .stream .. | .gain .. | .enable .. | .flush | .stop | .pause .. | .unpause .. |
    .queryname | .setname .. | .disableDac | .skip .. | .unrecognised .. | .error => isFalse id

/-! ## State -/

/-- The global state. -/
structure Globals where
  status : Option StatusData
  /-- The squares of the two linear volumes. -/
  volume : ℚ × ℚ
  skip : Duration

namespace Globals

def new : Globals :=
  { status := none
    volume := (1, 1)
    skip := 0 }

/-- `STATUS.lock()` at the instant `now`. -/
def lockStatus (g : Globals) (now : Instant) : StatusData := g.status.getD (StatusData.default now)

end Globals

/-- The state the handlers work on. -/
structure PlayerContext (O : Type) where
  output : Option O
  /-- The IP of the LMS that first connected; used as a fallback for stream connections. -/
  serverDefaultIp : Ipv4Addr
  name : String
  /-- The instant the current connection was established; used to honour timed unpauses. -/
  startTime : Instant

/-- The arguments of `make_decoder`. -/
structure DecoderRequest where
  serverIp : Ipv4Addr
  defaultIp : Ipv4Addr
  serverPort : UInt16
  httpHeaders : String
  threshold : UInt32
  format : Format
  pcmsamplesize : PcmSampleSize
  pcmsamplerate : PcmSampleRate
  pcmchannels : PcmChannels
  autostart : AutoStart
  outputThreshold : Duration
  deriving DecidableEq

/-- A message the event loop sends. -/
inductive Send where
  | toServer (msg : ClientMessage)
  | toSelf (msg : PlayerMsg)
  deriving DecidableEq

/-- A thread the event loop starts. -/
inductive Spawn where
  | pauseTimer (interval : Duration)
  | resumeTimer (dur : Duration) (playTime : Duration)
  | streamConnect (request : DecoderRequest)
  deriving DecidableEq

structure Player (O : Type) where
  ctx : PlayerContext O
  globals : Globals
  sends : List Send
  spawns : List Spawn
  /-- The decoders passed to `enqueue_new_stream`. -/
  enqueued : List VibeDecoder

namespace Player

variable {O : Type}

/-- Nothing has been asked for yet. -/
def start (ctx : PlayerContext O) (globals : Globals) : Player O :=
  { ctx := ctx
    globals := globals
    sends := []
    spawns := []
    enqueued := [] }

/-! ## Helpers -/

def setOutput (p : Player O) (output : Option O) : Player O :=
  { p with ctx := { p.ctx with output := output } }

def send (p : Player O) (msg : Send) : Player O :=
  { p with sends := p.sends ++ [msg] }

def spawn (p : Player O) (thread : Spawn) : Player O :=
  { p with spawns := p.spawns ++ [thread] }

/-- `if let Ok(mut status) = STATUS.lock() { f(status) }` -/
def updateStatus (p : Player O) (now : Instant) (f : StatusData → StatusData) : Player O :=
  { p with globals := { p.globals with status := some (f (p.globals.lockStatus now)) } }

def sendStatus (p : Player O) (now : Instant) (code : StatusCode) : Player O :=
  let made := (p.globals.lockStatus now).makeStatusMessage now code
  (p.updateStatus now fun _ => made.2).send (.toServer made.1)

/-- The two assignments of the elapsed play time, as `u32`. -/
def setElapsed (playTime : Duration) (s : StatusData) : StatusData :=
  (s.setElapsedMilliSeconds (UInt32.ofNat playTime.asMillis)).setElapsedSeconds
    (UInt32.ofNat playTime.asSecs)

def updateElapsedAndSend (p : Player O) (now : Instant) (playTime : Duration) (code : StatusCode) :
    Player O :=
  (p.updateStatus now (setElapsed playTime)).sendStatus now code

variable [AudioOutput O]

def currentPlayTime (p : Player O) : Duration :=
  (p.ctx.output.map AudioOutput.getDur).getD 0

/-! ## Individual server-message handlers -/

def onServ (p : Player O) (ipAddress : Ipv4Addr) : Player O :=
  { p with ctx := { p.ctx with serverDefaultIp := ipAddress } }

def onQueryName (p : Player O) : Player O :=
  p.send (.toServer (.name p.ctx.name))

def onSetName (p : Player O) (newName : String) : Player O :=
  { p with ctx := { p.ctx with name := newName } }

def onGain (p : Player O) (left right : ℚ) : Player O :=
  { p with globals := { p.globals with volume := (min left 1, min right 1) } }

def onStatus (p : Player O) (now : Instant) (ts : Duration) : Player O :=
  let playTime := p.currentPlayTime
  (p.updateStatus now fun s => (setElapsed playTime s).setTimestamp ts).sendStatus now .timer

/-- The assignments with which stop and flush report an empty output. -/
def clearOutputBuffer (s : StatusData) : StatusData :=
  (((s.setElapsedMilliSeconds 0).setElapsedSeconds 0).setOutputBufferSize 0).setOutputBufferFullness
    0

def onStop (p : Player O) (now : Instant) : Player O :=
  ((p.setOutput (p.ctx.output.map AudioOutput.stop)).updateStatus now clearOutputBuffer).sendStatus
    now .flushed

def onFlush (p : Player O) (now : Instant) : Player O :=
  ((p.setOutput (p.ctx.output.map AudioOutput.flush)).updateStatus now clearOutputBuffer).sendStatus
    now .flushed

def onPause (p : Player O) (now : Instant) (interval : Duration) : Player O :=
  let playTime := p.currentPlayTime
  match p.ctx.output with
  | none => p
  | some output =>
      let paused := AudioOutput.pause output
      let p := p.setOutput (some paused.1)
      if interval = 0 then
        if paused.2 then p.updateElapsedAndSend now playTime .pause else p
      else
        if paused.2 then p.spawn (.pauseTimer interval) else p

def onUnpause (p : Player O) (now : Instant) (interval : Duration) : Player O :=
  let playTime := p.currentPlayTime
  if interval = 0 then
    match p.ctx.output with
    | none => p
    | some output =>
        let unpaused := AudioOutput.unpause output
        let p := p.setOutput (some unpaused.1)
        if unpaused.2 then p.updateElapsedAndSend now playTime .resume else p
  else
    let dur := interval - (now - p.ctx.startTime)
    p.spawn (.resumeTimer dur playTime)

def onSkip (p : Player O) (interval : Duration) : Player O :=
  { p with globals := { p.globals with skip := interval } }

/-- `matches("\r\n").count()` -/
def crlfCount : List Char → Nat
  | '\r' :: '\n' :: rest => crlfCount rest + 1
  | _ :: rest => crlfCount rest
  | [] => 0

def onStream (p : Player O) (now : Instant) (fields : StreamFields) : Player O :=
  match fields.httpHeaders with
  | none => p
  | some httpHeaders =>
      let numCrlf := crlfCount httpHeaders.toList
      if numCrlf = 0 then
        p
      else
        (p.updateStatus now fun s => s.addCrlf (UInt8.ofNat numCrlf)).spawn
          (.streamConnect
            { serverIp := fields.serverIp
              defaultIp := p.ctx.serverDefaultIp
              serverPort := fields.serverPort
              httpHeaders := httpHeaders
              threshold := fields.threshold
              format := fields.format
              pcmsamplesize := fields.pcmsamplesize
              pcmsamplerate := fields.pcmsamplerate
              pcmchannels := fields.pcmchannels
              autostart := fields.autostart
              outputThreshold := fields.outputThreshold })

/-- `opened` is what `make_audio_output` gives. -/
def onEnable (p : Player O) (opened : Option O) (spdif dac : Bool) : Player O :=
  if spdif && dac then p.setOutput opened else p.setOutput none

def onDisableDac (p : Player O) : Player O :=
  p.setOutput none

/-- Dispatch a message received from the LMS. -/
def handleServerMessage (p : Player O) (now : Instant) (opened : Option O) :
    ServerMessage → Player O
  | .serv ipAddress _ => p.onServ ipAddress
  | .queryname => p.onQueryName
  | .setname newName => p.onSetName newName
  | .gain left right => p.onGain left right
  | .status ts => p.onStatus now ts
  | .stop => p.onStop now
  | .flush => p.onFlush now
  | .pause interval => p.onPause now interval
  | .unpause interval => p.onUnpause now interval
  | .skip interval => p.onSkip interval
  | .stream fields => p.onStream now fields
  | .enable spdif dac => p.onEnable opened spdif dac
  | .disableDac => p.onDisableDac
  -- `Unimplemented command`
  | .unrecognised _ => p
  | .error => p

/-! ## Individual player-message handlers -/

def onDrained (p : Player O) (now : Instant) : Player O :=
  match p.ctx.output with
  | none => p
  | some output =>
      (p.setOutput (some (AudioOutput.unpause (AudioOutput.shift output)).1)).updateStatus now
        (setElapsed 0)

def onPlayerPause (p : Player O) : Player O :=
  p.setOutput (p.ctx.output.map fun output => (AudioOutput.pause output).1)

def onPlayerUnpause (p : Player O) (now : Instant) : Player O :=
  match p.ctx.output with
  | none => p
  | some output =>
      let unpaused := AudioOutput.unpause output
      let p := p.setOutput (some unpaused.1)
      if unpaused.2 then p.sendStatus now .trackStarted else p

def onTrackStarted (p : Player O) (now : Instant) : Player O :=
  (p.updateStatus now (setElapsed 0)).sendStatus now .trackStarted

def onDecoder (p : Player O) (decoder : VibeDecoder) (params : StreamParams) : Player O :=
  match p.ctx.output with
  | none => p
  | some output =>
      let queued := AudioOutput.enqueueNewStream output decoder params
      { p.setOutput (some queued.1) with
        sends := p.sends ++ queued.2.map .toSelf
        enqueued := p.enqueued ++ [decoder] }

/-- Dispatch an internal player message (decoder → event loop). -/
def handlePlayerMessage (p : Player O) (now : Instant) : PlayerMsg → Player O
  | .endOfDecode => p.sendStatus now .decoderReady
  | .drained => p.onDrained now
  | .pause => p.onPlayerPause
  | .unpause => p.onPlayerUnpause now
  | .connected => p.sendStatus now .connect
  | .bufferThreshold => p.sendStatus now .bufferThreshold
  | .notSupported => p.sendStatus now .notSupported
  | .streamEstablished => p.sendStatus now .streamEstablished
  | .trackStarted => p.onTrackStarted now
  | .decoder decoder params => p.onDecoder decoder params

/-- The periodic status update of the event loop. -/
def onTimeout (p : Player O) (now : Instant) : Player O :=
  p.updateElapsedAndSend now p.currentPlayTime .timer

end Player

end Vibe
end LmsPlayer
