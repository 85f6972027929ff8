import LmsPlayer.Vibe.Message

/-!
# Vibe.PulseOutput — the queue of the PulseAudio output

`PulseAudioOutput` as long as the sound server does what it is asked to: the stream that is playing
and the one that is up next, each named by the decoder it plays.
-/

namespace LmsPlayer
namespace Vibe

open LmsProto

structure PulseOutput where
  playing : Option VibeDecoder
  nextUp : Option VibeDecoder
  /-- Streams start corked. -/
  corked : Bool
  /-- What `get_time` says of the stream that is playing. -/
  time : Duration
  deriving DecidableEq, Repr

namespace PulseOutput

def new : PulseOutput :=
  { playing := none
    nextUp := none
    corked := true
    time := 0 }

/-- There is an effect only when a stream is playing. -/
def setCorkState (o : PulseOutput) (state : Bool) : PulseOutput × Bool :=
  match o.playing with
  | some _ => ({ o with corked := state }, true)
  | none => (o, false)

def enqueue (o : PulseOutput) (stream : VibeDecoder) (autostart : AutoStart) : PulseOutput :=
  if o.playing.isSome then
    { o with nextUp := some stream }
  else
    let o : PulseOutput := { o with playing := some stream, corked := true, time := 0 }
    if autostart = .auto then (o.setCorkState false).1 else o

def stop (o : PulseOutput) : PulseOutput :=
  { o with
    playing := none
    nextUp := none }

def shift (o : PulseOutput) : PulseOutput :=
  { o with
    playing := o.nextUp
    nextUp := none
    corked := true
    time := 0 }

instance : AudioOutput PulseOutput where
  enqueueNewStream o decoder params :=
    (o.enqueue decoder params.autostart, [.streamEstablished])
  unpause o := o.setCorkState false
  pause o := o.setCorkState true
  stop := stop
  flush := stop
  shift := shift
  getDur o := if o.playing.isSome then o.time else 0
  fromEnqueue_of_mem_enqueueNewStream := by
    intro o d params msg hmsg
    rw [List.mem_singleton.1 hmsg]
    trivial

end PulseOutput

end Vibe
end LmsPlayer
