import LmsPlayer.Vibe.Message
import LmsPlayer.LmsProto.Hello
import LmsPlayer.LmsProto.Buffer.SlimBuffer
import LmsPlayer.Library.Channel
import LmsPlayer.Library.ThreadPool

/-!
# Vibe.Pass — the threads of one pass of the reconnect loop

Each pass of the reconnect loop of `main` makes its channels anew and starts a slim-proto thread.
That thread and whatever is started later hold on to the channels of their pass, also when `main`
has gone on to the next one.

* `ProtoStep` — the slim-proto thread of `proto::run`;
* `WriterStep` — the slim-write threads, one for each connection;
* `ConnectStep` — the stream-connect threads, which run `make_decoder`;
* `TimerStep` — the pause-timer and resume-timer threads;
* `BackendStep` — what the audio backend and the fill threads do on their own.

A lock is only ever held for the step that needs it, or while a message is on its way into a
channel.
-/

namespace LmsPlayer
namespace Vibe

open LmsProto
open Channel (Sends)
open ThreadPool (Replace)

/-- What the program is started with. -/
structure Config where
  cliServer : Option SocketAddrV4
  name : String
  outputSystem : String
  mac : Vector UInt8 6
  version : String

/-- `*cli_server.unwrap_or(SocketAddrV4::new(0.into(), 0)).ip()` -/
def Config.serverDefaultIp (cfg : Config) : Ipv4Addr :=
  (cfg.cliServer.getD { ip := .unspecified, port := 0 }).ip

/-! ## Connections and what is observed of a run -/

/-- A control connection: the pass whose slim-proto thread has opened it, the number of redirects
that thread had followed by then, and the other end. -/
structure Connection where
  pass : Nat
  hops : Nat
  sock : SocketAddrV4
  deriving DecidableEq, Repr

/-- A message of the server and the connection it came on. -/
structure Receipt where
  msg : ServerMessage
  conn : Connection
  deriving DecidableEq

/-- A message to the server and the pass whose threads have sent it. -/
structure Outgoing where
  msg : ClientMessage
  sender : Nat
  deriving DecidableEq

/-- The record of a run; nothing in the code reads it. -/
inductive LogEntry where
  /-- A control connection has been opened. -/
  | opened (conn : Connection) (hello : Hello)
  | received (conn : Connection) (msgs : List ServerMessage)
  | handled (now : Instant) (receipt : Receipt) (sends : List Send) (spawns : List Spawn)
  | handledPlayer (now : Instant) (pass : Nat) (msg : PlayerMsg) (sends : List Send)
      (enqueued : List VibeDecoder)
  | timeout (now : Instant) (pass : Nat) (sends : List Send)
  /-- The event loop has been told that the connection is lost. -/
  | lost (pass : Nat)
  /-- `make_decoder` connects to a server for the Stream command at `origin`. -/
  | dialled (origin : Nat) (ip : Ipv4Addr)
  | wrote (conn : Connection) (sender : Nat) (msg : ClientMessage)
  deriving DecidableEq

/-! ## Threads -/

/-- Where the slim-proto thread is. -/
inductive ProtoPhase where
  /-- At the top of the reconnect loop. -/
  | top
  /-- About to work out which address to use. -/
  | choosing (hello : Hello)
  /-- In `hello.connect`. -/
  | connecting (hello : Hello) (sock : SocketAddrV4)
  /-- In `rx.recv`. -/
  | receiving (conn : Connection)
  /-- Going through the messages of a batch. -/
  | forwarding (conn : Connection) (msgs : List ServerMessage)
  /-- Sending `None` for an accepted Serv message. -/
  | redirecting (ip : Ipv4Addr) (syncGroupId : Option String)
  /-- Sending `None` for a lost connection. -/
  | losing
  | ended
  deriving DecidableEq

structure ProtoThread where
  newServerSock : Option SocketAddrV4
  syncGroupId : Option String
  reconnect : Bool
  /-- Not in the code: the number of redirects followed so far. -/
  hops : Nat
  phase : ProtoPhase
  deriving DecidableEq

inductive WriterPhase where
  /-- In `slim_tx_out_ref.recv`. -/
  | receiving
  /-- In `tx.send`. -/
  | sending (out : Outgoing)
  deriving DecidableEq

structure WriterThread where
  conn : Connection
  phase : WriterPhase
  deriving DecidableEq

/-- Where a stream-connect thread is. -/
inductive ConnectPhase where
  /-- In `make_tcp_connection`. -/
  | dialing
  /-- Posting `Connected`. -/
  | connected
  /-- In `SlimBuffer::with_capacity`. -/
  | buffering
  /-- Posting `BufferThreshold`. -/
  | buffered
  /-- Reading the headers and probing the stream. -/
  | preparing
  /-- Posting what has come of it. -/
  | posting (msg : PlayerMsg)
  deriving DecidableEq

structure ConnectThread where
  /-- Not in the code: where the Stream command stands in the record of the run. -/
  origin : Nat
  request : DecoderRequest
  phase : ConnectPhase
  deriving DecidableEq

inductive TimerThread where
  /-- A pause-timer. -/
  | pausing (wake : Instant)
  /-- A resume-timer that is asleep. -/
  | resuming (wake : Instant) (playTime : Duration)
  /-- A resume-timer that has posted its `Unpause`. -/
  | reporting (playTime : Duration)
  /-- A resume-timer that is sending its report. -/
  | sending (msg : ClientMessage)
  deriving DecidableEq

/-- Whether the thread holds a sender to the slim-write threads. -/
def TimerThread.IsResume : TimerThread → Prop
  | pausing _ => False
  | _ => True

/-! ## A pass -/

structure Pass (O : Type) where
  ctx : PlayerContext O
  /-- Whether the event loop of the pass still holds its ends of the channels. -/
  attached : Bool
  /-- From the slim-proto thread to the event loop. -/
  toMain : List (Option Receipt)
  /-- From the event loop to the slim-write threads. -/
  toServer : List Outgoing
  /-- From the decoders and the audio backend to the event loop. -/
  stream : List PlayerMsg
  proto : ProtoThread
  writers : List WriterThread
  connects : List ConnectThread
  timers : List TimerThread
  /-- The buffers made by the stream-connect threads. -/
  buffers : List BufferConfig
  /-- The streams given to the audio backend that have not reported the start of their track yet. -/
  starting : List VibeDecoder

namespace Pass

variable {O : Type}

/-- The pass at the call of `proto::run`. -/
def start (cfg : Config) (now : Instant) (name : String) (reconnect : Bool) : Pass O :=
  { ctx :=
      { output := none
        serverDefaultIp := cfg.serverDefaultIp
        name := name
        startTime := now }
    attached := true
    toMain := []
    toServer := []
    stream := []
    proto :=
      { newServerSock := none
        syncGroupId := none
        reconnect := reconnect
        hops := 0
        phase := .top }
    writers := []
    connects := []
    timers := []
    buffers := []
    starting := [] }

/-- The slim-proto thread is in its reconnect loop. -/
def ProtoAlive (p : Pass O) : Prop := p.proto.phase ≠ .ended

/-- Somebody can still receive what is sent to the server: the slim-proto thread keeps a receiver,
as does each slim-write thread. -/
def ServerConnected (p : Pass O) : Prop := p.ProtoAlive ∨ p.writers ≠ []

def sendToMain (p : Pass O) (queue : List (Option Receipt)) (phase : ProtoPhase) : Pass O :=
  { p with
    toMain := queue
    proto := { p.proto with phase := phase } }

def setPhase (p : Pass O) (phase : ProtoPhase) : Pass O :=
  { p with proto := { p.proto with phase := phase } }

end Pass

variable {O : Type}

/-- Capacity of the two channels between `main` and the slim-proto threads. -/
def SLIM_CAPACITY : Nat := 1

/-- Capacity of the channel of player messages. -/
def STREAM_CAPACITY : Nat := 10

/-! ## The slim-proto thread -/

def SQUEEZEPLAY_ID : UInt8 := 12

def capabilities (cfg : Config) (syncGroupId : Option String) : List Capability :=
  [.model "squeezelite", .modelname "vibe_player", .hasdigitalout, .haspreamp, .hasdisabledac,
      .firmware cfg.version, .maxsamplerate 192000, .pcm, .mp3, .aac, .alc, .ogg, .flc] ++
    (if cfg.outputSystem ≠ "rodio" then [.accurateplaypoints] else []) ++
    (syncGroupId.map .syncgroupid).toList

def ProtoThread.hello (t : ProtoThread) (cfg : Config) (bytesReceived : UInt64) : Hello :=
  { Hello.new with
    deviceId := SQUEEZEPLAY_ID
    mac := cfg.mac
    bytesReceived := bytesReceived
    reconnect := t.reconnect
    caps := capabilities cfg t.syncGroupId }

/-- An address to which a Serv message may redirect. -/
def Acceptable (ip : Ipv4Addr) : Prop :=
  (ip.isUnspecified || ip.isBroadcast || ip.isMulticast) = false

instance (ip : Ipv4Addr) : Decidable (Acceptable ip) :=
  inferInstanceAs (Decidable (_ = false))

/-- The slim-proto thread of pass `k`, at the instant `now`. -/
inductive ProtoStep (cfg : Config) (k : Nat) (now : Instant) (g : Globals) (p : Pass O) :
    Globals → Pass O → List LogEntry → Prop where
  | hello (hpc : p.proto.phase = .top) :
      ProtoStep cfg k now g p
        { g with status := some (g.lockStatus now) }
        { p with
          proto :=
            { p.proto with
              syncGroupId := none
              phase := .choosing (p.proto.hello cfg (g.lockStatus now).bytesReceived) } }
        []
  /-- `new_server_sock.take()` -/
  | takeNew {hello : Hello} {sock : SocketAddrV4} (hpc : p.proto.phase = .choosing hello)
      (hnew : p.proto.newServerSock = some sock) :
      ProtoStep cfg k now g p g
        { p with
          proto :=
            { p.proto with
              newServerSock := none
              phase := .connecting hello sock } }
        []
  | takeCli {hello : Hello} {sock : SocketAddrV4} (hpc : p.proto.phase = .choosing hello)
      (hnew : p.proto.newServerSock = none) (hcli : cfg.cliServer = some sock) :
      ProtoStep cfg k now g p g (p.setPhase (.connecting hello sock)) []
  /-- `discover` has an answer from a server. -/
  | discover {hello : Hello} (ip : Ipv4Addr) (hpc : p.proto.phase = .choosing hello)
      (hnew : p.proto.newServerSock = none) (hcli : cfg.cliServer = none) :
      ProtoStep cfg k now g p g
        (p.setPhase (.connecting hello { ip := ip, port := SLIM_PORT })) []
  | notDiscovered {hello : Hello} (hpc : p.proto.phase = .choosing hello)
      (hnew : p.proto.newServerSock = none) (hcli : cfg.cliServer = none) :
      ProtoStep cfg k now g p g (p.setPhase .top) []
  /-- The connection is open, and gets a slim-write thread of its own. -/
  | connect {hello : Hello} {sock : SocketAddrV4} (hpc : p.proto.phase = .connecting hello sock) :
      ProtoStep cfg k now g p g
        { p with
          proto :=
            { p.proto with phase := .receiving { pass := k, hops := p.proto.hops, sock := sock } }
          writers :=
            p.writers ++
              [{ conn := { pass := k, hops := p.proto.hops, sock := sock }, phase := .receiving }] }
        [.opened { pass := k, hops := p.proto.hops, sock := sock } hello]
  | connectFailed {hello : Hello} {sock : SocketAddrV4}
      (hpc : p.proto.phase = .connecting hello sock) :
      ProtoStep cfg k now g p g
        { p with
          proto :=
            { p.proto with
              newServerSock := some sock
              phase := .top } }
        []
  | received {conn : Connection} (msgs : List ServerMessage)
      (hpc : p.proto.phase = .receiving conn) (hwire : ∀ msg ∈ msgs, msg.OnWire) :
      ProtoStep cfg k now g p g (p.setPhase (.forwarding conn msgs)) [.received conn msgs]
  | lost {conn : Connection} (hpc : p.proto.phase = .receiving conn) :
      ProtoStep cfg k now g p g (p.setPhase .losing) []
  /-- `rx.recv` may also panic, which ends the thread without a word. -/
  | panic {conn : Connection} (hpc : p.proto.phase = .receiving conn) :
      ProtoStep cfg k now g p g (p.setPhase .ended) []
  | batchDone {conn : Connection} (hpc : p.proto.phase = .forwarding conn []) :
      ProtoStep cfg k now g p g (p.setPhase (.receiving conn)) []
  /-- Drop any obviously incorrect addresses. -/
  | skipServ {conn : Connection} {ip : Ipv4Addr} {sgid : Option String}
      {rest : List ServerMessage} (hpc : p.proto.phase = .forwarding conn (.serv ip sgid :: rest))
      (hip : ¬Acceptable ip) :
      ProtoStep cfg k now g p g (p.setPhase (.forwarding conn rest)) []
  | acceptServ {conn : Connection} {ip : Ipv4Addr} {sgid : Option String}
      {rest : List ServerMessage} (hpc : p.proto.phase = .forwarding conn (.serv ip sgid :: rest))
      (hip : Acceptable ip) :
      ProtoStep cfg k now g p g (p.setPhase (.redirecting ip sgid)) []
  /-- Business as usual for any other message. -/
  | forward {conn : Connection} {msg : ServerMessage} {rest : List ServerMessage}
      {queue : List (Option Receipt)} (hpc : p.proto.phase = .forwarding conn (msg :: rest))
      (hmsg : ¬IsServ msg)
      (hsend : Sends (p.attached = true) SLIM_CAPACITY p.toMain (some ⟨msg, conn⟩) queue) :
      ProtoStep cfg k now g p g (p.sendToMain queue (.forwarding conn rest)) []
  | redirect {ip : Ipv4Addr} {sgid : Option String} {queue : List (Option Receipt)}
      (hpc : p.proto.phase = .redirecting ip sgid)
      (hsend : Sends (p.attached = true) SLIM_CAPACITY p.toMain none queue) :
      ProtoStep cfg k now g p g
        { p with
          toMain := queue
          proto :=
            { newServerSock := some { ip := ip, port := SLIM_PORT }
              syncGroupId := sgid
              reconnect := true
              hops := p.proto.hops + 1
              phase := .top } }
        []
  | lose {queue : List (Option Receipt)} (hpc : p.proto.phase = .losing)
      (hsend : Sends (p.attached = true) SLIM_CAPACITY p.toMain none queue) :
      ProtoStep cfg k now g p g (p.sendToMain queue .ended) []

/-! ## The slim-write threads -/

/-- What is written for a message, and whether it is the last one.  `Bye(1)` tells the thread to
terminate; the server is sent a normal `Bye(0)` instead. -/
def writerMessage (msg : ClientMessage) : ClientMessage × Bool :=
  if msg = .bye 1 then (.bye 0, true) else (msg, false)

/-- Every sender of client messages is gone. -/
def Pass.SendersGone (p : Pass O) : Prop := p.attached = false ∧ ∀ t ∈ p.timers, ¬t.IsResume

inductive WriterStep (p : Pass O) : Pass O → List LogEntry → Prop where
  | take {conn : Connection} {out : Outgoing} {rest : List Outgoing} {writers : List WriterThread}
      (hqueue : p.toServer = out :: rest)
      (hthread : Replace ⟨conn, .receiving⟩ (some ⟨conn, .sending out⟩) p.writers writers) :
      WriterStep p
        { p with
          toServer := rest
          writers := writers }
        []
  | written {conn : Connection} {out : Outgoing} {writers : List WriterThread}
      (hthread :
        Replace ⟨conn, .sending out⟩
          (if (writerMessage out.msg).2 then none else some ⟨conn, .receiving⟩) p.writers writers) :
      WriterStep p
        { p with writers := writers }
        [.wrote conn out.sender (writerMessage out.msg).1]
  | failed {conn : Connection} {out : Outgoing} {writers : List WriterThread}
      (hthread : Replace ⟨conn, .sending out⟩ none p.writers writers) :
      WriterStep p { p with writers := writers } []
  | disconnected {conn : Connection} {writers : List WriterThread} (hqueue : p.toServer = [])
      (hsenders : p.SendersGone)
      (hthread : Replace ⟨conn, .receiving⟩ none p.writers writers) :
      WriterStep p { p with writers := writers } []

/-! ## The stream-connect threads -/

/-- Read-ahead buffer for the data stream (bytes). -/
def STREAM_BUFFER_SIZE : Nat := 2 * 1024 * 1024

namespace DecoderRequest

/-- The address `make_decoder` connects to. -/
def ip (request : DecoderRequest) : Ipv4Addr :=
  if request.serverIp.isUnspecified then request.defaultIp else request.serverIp

/-- The buffer `make_decoder` puts between the connection and the decoder. -/
def buffer (request : DecoderRequest) : BufferConfig :=
  .withCapacity (max STREAM_BUFFER_SIZE request.threshold.toNat) request.threshold false

end DecoderRequest

/-- The message with which a successful `make_decoder` ends. -/
def ConnectThread.decoderMsg (t : ConnectThread) : PlayerMsg :=
  .decoder
    { format := t.request.format
      pcmsamplesize := t.request.pcmsamplesize
      pcmsamplerate := t.request.pcmsamplerate
      pcmchannels := t.request.pcmchannels
      origin := t.origin }
    { autostart := t.request.autostart
      outputThreshold := t.request.outputThreshold }

/-- A stream-connect thread by itself: what it posts before it goes on. -/
inductive ConnectStep (now : Instant) (g : Globals) (p : Pass O) :
    Globals → Pass O → List LogEntry → Prop where
  | dial {t : ConnectThread} {connects : List ConnectThread} (hpc : t.phase = .dialing)
      (hthread : Replace t (some { t with phase := .connected }) p.connects connects) :
      ConnectStep now g p g { p with connects := connects } [.dialled t.origin t.request.ip]
  | dialFailed {t : ConnectThread} {connects : List ConnectThread} (hpc : t.phase = .dialing)
      (hthread : Replace t (some { t with phase := .posting .notSupported }) p.connects connects) :
      ConnectStep now g p g { p with connects := connects } [.dialled t.origin t.request.ip]
  | postConnected {t : ConnectThread} {connects : List ConnectThread} {queue : List PlayerMsg}
      (hpc : t.phase = .connected)
      (hsend : Sends (p.attached = true) STREAM_CAPACITY p.stream .connected queue)
      (hthread : Replace t (some { t with phase := .buffering }) p.connects connects) :
      ConnectStep now g p g
        { p with
          stream := queue
          connects := connects }
        []
  | createBuffer {t : ConnectThread} {connects : List ConnectThread} (hpc : t.phase = .buffering)
      (hthread : Replace t (some { t with phase := .buffered }) p.connects connects) :
      ConnectStep now g p
        { g with
          status :=
            some
              ((g.lockStatus now).setBufferSize (UInt32.ofNat t.request.buffer.capacity)) }
        { p with
          buffers := p.buffers ++ [t.request.buffer]
          connects := connects }
        []
  | postBufferThreshold {t : ConnectThread} {connects : List ConnectThread}
      {queue : List PlayerMsg} (hpc : t.phase = .buffered)
      (hsend : Sends (p.attached = true) STREAM_CAPACITY p.stream .bufferThreshold queue)
      (hthread : Replace t (some { t with phase := .preparing }) p.connects connects) :
      ConnectStep now g p g
        { p with
          stream := queue
          connects := connects }
        []
  | prepared {t : ConnectThread} {connects : List ConnectThread} (hpc : t.phase = .preparing)
      (hthread : Replace t (some { t with phase := .posting t.decoderMsg }) p.connects connects) :
      ConnectStep now g p g { p with connects := connects } []
  | notPrepared {t : ConnectThread} {connects : List ConnectThread} (hpc : t.phase = .preparing)
      (hthread : Replace t (some { t with phase := .posting .notSupported }) p.connects connects) :
      ConnectStep now g p g { p with connects := connects } []
  | post {t : ConnectThread} {msg : PlayerMsg} {connects : List ConnectThread}
      {queue : List PlayerMsg} (hpc : t.phase = .posting msg)
      (hsend : Sends (p.attached = true) STREAM_CAPACITY p.stream msg queue)
      (hthread : Replace t none p.connects connects) :
      ConnectStep now g p g
        { p with
          stream := queue
          connects := connects }
        []

/-! ## The timer threads -/

inductive TimerStep (k : Nat) (now : Instant) (g : Globals) (p : Pass O) :
    Globals → Pass O → Prop where
  | unpause {wake : Instant} {timers : List TimerThread} {queue : List PlayerMsg}
      (hwake : wake ≤ now)
      (hsend : Sends (p.attached = true) STREAM_CAPACITY p.stream .unpause queue)
      (hthread : Replace (.pausing wake) none p.timers timers) :
      TimerStep k now g p g
        { p with
          stream := queue
          timers := timers }
  | resume {wake : Instant} {playTime : Duration} {timers : List TimerThread}
      {queue : List PlayerMsg} (hwake : wake ≤ now)
      (hsend : Sends (p.attached = true) STREAM_CAPACITY p.stream .unpause queue)
      (hthread : Replace (.resuming wake playTime) (some (.reporting playTime)) p.timers timers) :
      TimerStep k now g p g
        { p with
          stream := queue
          timers := timers }
  | report {playTime : Duration} {timers : List TimerThread}
      (hthread :
        Replace (.reporting playTime)
          (some
            (.sending
              ((Player.setElapsed playTime (g.lockStatus now)).makeStatusMessage now .resume).1))
          p.timers timers) :
      TimerStep k now g p
        { g with
          status :=
            some ((Player.setElapsed playTime (g.lockStatus now)).makeStatusMessage now .resume).2 }
        { p with timers := timers }
  | send {msg : ClientMessage} {timers : List TimerThread} {queue : List Outgoing}
      (hsend : Sends p.ServerConnected SLIM_CAPACITY p.toServer ⟨msg, k⟩ queue)
      (hthread : Replace (.sending msg) none p.timers timers) :
      TimerStep k now g p g
        { p with
          toServer := queue
          timers := timers }

/-! ## The buffers and the audio backends -/

/-- What the callback of an audio backend reports about its output buffer, in bytes. -/
structure OutputReport where
  /-- The capacity of the audio buffer. -/
  capacity : Nat
  capacity_lt : capacity < 2 ^ 32
  /-- What is in the audio buffer. -/
  buffered : Nat
  buffered_le : buffered ≤ capacity
  /-- What the sound server holds: nothing, as far as rodio can tell. -/
  queued : Nat

/-- The two assignments, as `u32`. -/
def OutputReport.apply (report : OutputReport) (s : StatusData) : StatusData :=
  (s.setOutputBufferSize (UInt32.ofNat report.capacity)).setOutputBufferFullness
    (UInt32.ofNat (min (report.buffered + report.queued) (2 ^ 32 - 1)))

/-- The threads behind the buffers and the callbacks of the audio backend write `STATUS`, take the
requested skip, and post messages. -/
inductive BackendStep (now : Instant) (g : Globals) (p : Pass O) : Globals → Pass O → Prop where
  /-- The content of a buffer has changed. -/
  | fullness {buffer : BufferConfig} (len : Nat) (hbuffer : buffer ∈ p.buffers)
      (hlen : len ≤ buffer.capacity) :
      BackendStep now g p
        { g with status := some ((g.lockStatus now).setFullness (UInt32.ofNat len)) } p
  /-- A decoder has taken bytes from its buffer. -/
  | received (n : Nat) :
      BackendStep now g p
        { g with status := some ((g.lockStatus now).addBytesReceived (UInt64.ofNat n)) } p
  | report (report : OutputReport) :
      BackendStep now g p { g with status := some (report.apply (g.lockStatus now)) } p
  /-- `SKIP.take()` -/
  | takeSkip : BackendStep now g p { g with skip := 0 } p
  | play {output output' : O} (houtput : p.ctx.output = some output) :
      BackendStep now g p g { p with ctx := { p.ctx with output := some output' } }
  /-- A stream reports the start of its track, once. -/
  | trackStarted {d : VibeDecoder} {starting : List VibeDecoder} {queue : List PlayerMsg}
      (hsend : Sends (p.attached = true) STREAM_CAPACITY p.stream .trackStarted queue)
      (hstream : Replace d none p.starting starting) :
      BackendStep now g p g
        { p with
          stream := queue
          starting := starting }
  | post {msg : PlayerMsg} {queue : List PlayerMsg} (hmsg : msg.FromCallback)
      (hother : msg ≠ .trackStarted)
      (hsend : Sends (p.attached = true) STREAM_CAPACITY p.stream msg queue) :
      BackendStep now g p g { p with stream := queue }

/-! ## Any of them -/

inductive ThreadStep (cfg : Config) (k : Nat) (now : Instant) (g : Globals) (p : Pass O) :
    Globals → Pass O → List LogEntry → Prop where
  | proto {g' : Globals} {p' : Pass O} {entries : List LogEntry}
      (h : ProtoStep cfg k now g p g' p' entries) : ThreadStep cfg k now g p g' p' entries
  | writer {p' : Pass O} {entries : List LogEntry} (h : WriterStep p p' entries) :
      ThreadStep cfg k now g p g p' entries
  | connect {g' : Globals} {p' : Pass O} {entries : List LogEntry}
      (h : ConnectStep now g p g' p' entries) : ThreadStep cfg k now g p g' p' entries
  | timer {g' : Globals} {p' : Pass O} (h : TimerStep k now g p g' p') :
      ThreadStep cfg k now g p g' p' []
  | backend {g' : Globals} {p' : Pass O} (h : BackendStep now g p g' p') :
      ThreadStep cfg k now g p g' p' []

end Vibe
end LmsPlayer
