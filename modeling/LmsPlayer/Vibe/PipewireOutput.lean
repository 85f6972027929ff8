import LmsPlayer.Vibe.Message

/-!
# Vibe.PipewireOutput — the queue of the PipeWire output

`PipewireAudioOutput` as long as the sound server does what it is asked to: the stream that is
playing and the one that is up next, each named by the decoder it plays, and the three cells with
which the callbacks of the stream and the handlers keep the duration.
-/

namespace LmsPlayer
namespace Vibe

open LmsProto

structure PipewireOutput where
  /-- In milliseconds. -/
  duration : UInt64
  /-- The ticks and the rate at the first callback of a segment. -/
  startTicks : Option (UInt64 × UInt32 × UInt32)
  skipOffsetMs : UInt64
  nextUp : Option VibeDecoder
  playing : Option VibeDecoder
  /-- Whether the stream that is playing is active.  Streams start inactive. -/
  active : Bool
  deriving DecidableEq, Repr

namespace PipewireOutput

def new : PipewireOutput :=
  { duration := 0
    startTicks := none
    skipOffsetMs := 0
    nextUp := none
    playing := none
    active := false }

def play (o : PipewireOutput) : PipewireOutput × Bool :=
  match o.playing with
  | some _ => ({ o with active := true }, true)
  | none => (o, false)

def enqueue (o : PipewireOutput) (stream : VibeDecoder) (autostart : AutoStart) : PipewireOutput :=
  if o.playing.isSome then
    { o with nextUp := some stream }
  else
    let o : PipewireOutput := { o with playing := some stream, active := false }
    if autostart = .auto then o.play.1 else o

/-- The graph clock keeps advancing while the stream is inactive, so the time reported so far is
folded into the offset. -/
def pause (o : PipewireOutput) : PipewireOutput × Bool :=
  match o.playing with
  | some _ => ({ o with skipOffsetMs := o.duration, startTicks := none, active := false }, true)
  | none => (o, false)

def resetClock (o : PipewireOutput) : PipewireOutput :=
  { o with
    duration := 0
    skipOffsetMs := 0
    startTicks := none }

def shift (o : PipewireOutput) : PipewireOutput :=
  { o.resetClock with
    playing := o.nextUp
    nextUp := none
    active := false }

def stop (o : PipewireOutput) : PipewireOutput :=
  { o.resetClock with
    playing := none
    nextUp := none
    active := false }

instance : AudioOutput PipewireOutput where
  enqueueNewStream o decoder params :=
    (o.enqueue decoder params.autostart, [.streamEstablished])
  unpause := play
  pause := pause
  stop := stop
  flush := stop
  shift := shift
  getDur o := Duration.fromMillis o.duration.toNat
  fromEnqueue_of_mem_enqueueNewStream := by
    intro o d params msg hmsg
    rw [List.mem_singleton.1 hmsg]
    trivial

end PipewireOutput

end Vibe
end LmsPlayer
