import LmsPlayer.Vibe.PipewireOutput
import LmsPlayer.Vibe.PipewireStream

/-!
# Vibe.PlayTime — the duration that the PipeWire output reports

The callbacks of a stream read the clock of the graph, which goes on while the stream is paused.  So
a pause folds the duration into the offset, and the next callback starts to count from its own
ticks.

`PlayTime` is what the three cells are for: the segments between the pauses, each with the ticks of
its first callback and of its latest one, and the milliseconds that have been skipped.  `Tracks`
says how the cells tell it, and every step of a `PipewireRun` keeps that up as long as the time fits
in the cells.
-/

namespace LmsPlayer
namespace Vibe

open LmsProto TransitionSystem

/-! ## The time that has been played -/

/-- The rate of the graph: a tick takes `num / denom` seconds. -/
structure Rate where
  num : UInt32
  denom : UInt32
  num_pos : 0 < num.toNat
  denom_pos : 0 < denom.toNat

/-- The callbacks from a pause to the next one. -/
structure Segment where
  first : UInt64
  latest : UInt64
  deriving DecidableEq, Repr

namespace Segment

def ticks (seg : Segment) : Nat := seg.latest.toNat - seg.first.toNat

/-- In milliseconds. -/
def played (seg : Segment) (rate : Rate) : Nat :=
  1000 * rate.num.toNat * seg.ticks / rate.denom.toNat

theorem played_le_played {seg seg' : Segment} (h : seg.ticks ≤ seg'.ticks) (rate : Rate) :
    seg.played rate ≤ seg'.played rate := by
  have hproduct := Nat.mul_le_mul_left (1000 * rate.num.toNat) h
  exact Nat.div_le_div_right hproduct

end Segment

structure PlayTime where
  /-- The segments that a pause has ended. -/
  ended : List Segment
  /-- The one that goes on, from its first callback. -/
  current : Option Segment
  skippedMs : Nat
  /-- How often the time has been reset. -/
  resets : Nat
  deriving DecidableEq, Repr

namespace PlayTime

def new : PlayTime :=
  { ended := []
    current := none
    skippedMs := 0
    resets := 0 }

def segments (p : PlayTime) : List Segment := p.ended ++ p.current.toList

/-- In milliseconds, since the last reset. -/
def total (p : PlayTime) (rate : Rate) : Nat :=
  (p.segments.map (·.played rate)).sum + p.skippedMs

/-- The current segment as a callback with these ticks leaves it. -/
def extended (p : PlayTime) (ticks : UInt64) : Segment :=
  match p.current with
  | none => { first := ticks, latest := ticks }
  | some seg => { seg with latest := ticks }

def callback (p : PlayTime) (ticks : UInt64) (skippedMs : Nat) : PlayTime :=
  { p with
    current := some (p.extended ticks)
    skippedMs := p.skippedMs + skippedMs }

def pause (p : PlayTime) : PlayTime :=
  { p with
    ended := p.segments
    current := none }

def reset (p : PlayTime) : PlayTime := { new with resets := p.resets + 1 }

/-- The time but for the current segment. -/
def offset (p : PlayTime) (rate : Rate) : Nat :=
  (p.ended.map (·.played rate)).sum + p.skippedMs

theorem total_eq (p : PlayTime) (rate : Rate) :
    p.total rate = p.offset rate + (p.current.map (·.played rate)).getD 0 := by
  unfold total offset segments
  cases p.current with
  | none => simp
  | some seg =>
      simp
      omega

/-- The time that is paused does not count. -/
@[simp] theorem total_pause (p : PlayTime) (rate : Rate) : p.pause.total rate = p.total rate := by
  simp [total, segments, pause]

/-- A pause moves all of the time to the offset. -/
theorem offset_pause (p : PlayTime) (rate : Rate) : p.pause.offset rate = p.total rate := rfl

theorem total_callback (p : PlayTime) (rate : Rate) (ticks : UInt64) (skippedMs : Nat) :
    (p.callback ticks skippedMs).total rate =
      p.offset rate + skippedMs + (p.extended ticks).played rate := by
  rw [total_eq, offset, offset, Nat.add_assoc _ p.skippedMs skippedMs]
  rfl

/-- While the clock goes on, a callback does not take time away. -/
theorem total_le_total_callback {p : PlayTime} {ticks : UInt64}
    (hticks : ∀ seg, p.current = some seg → seg.latest ≤ ticks) (rate : Rate) (skippedMs : Nat) :
    p.total rate ≤ (p.callback ticks skippedMs).total rate := by
  rw [total_eq, total_callback]
  have hsegment : (p.current.map (·.played rate)).getD 0 ≤ (p.extended ticks).played rate := by
    unfold extended
    cases hcurrent : p.current with
    | none => exact Nat.zero_le _
    | some seg => exact Segment.played_le_played (Nat.sub_le_sub_right (hticks seg hcurrent) _) rate
  omega

end PlayTime

/-- What `stream.time()` gives at such a rate. -/
def StreamTime.at (ticks : UInt64) (rate : Rate) : StreamTime :=
  { ticks := ticks
    rateNum := rate.num
    rateDenom := rate.denom
    queued := 0
    delay := 0 }

/-! ## The clock of a callback -/

namespace StreamClock

/-- What a callback does with the clock, once it has skipped so much. -/
def process (c : StreamClock) (skippedMs : Nat) (time : Option StreamTime) : StreamClock :=
  let c := { c with skipOffsetMs := c.skipOffsetMs + UInt64.ofNat skippedMs }
  match time with
  | none => c
  | some time => c.update time

end StreamClock

namespace PipewireStream

variable {g : Growth}

/-- The milliseconds that a callback records as skipped. -/
def skippedMs (fuel : Nat) (s : PipewireStream g) (skip : Duration) : Nat :=
  if s.state = .draining then
    0
  else
    ((Iteration.run Refill.pipewireRound fuel (.start s.decoder s.audioBuf skip)).map
      fun (r, _) => r.skippedMs).getD 0

@[simp] theorem clock_handOver (s : PipewireStream g) (buffer : Dequeued) :
    (s.handOver buffer).clock = s.clock := by
  unfold handOver
  split
  · rfl
  · cases buffer with
    | nothing | unmapped | mapped size => rfl

@[simp] theorem clock_finish (s : PipewireStream g) (endOfDecode : Bool) :
    (s.finish endOfDecode).clock = s.clock := by
  unfold finish
  split <;> rfl

theorem clock_refill {s u : PipewireStream g} {fuel : Nat} {skip : Duration} {eod : Bool}
    (h : s.refill fuel skip = some (u, eod)) :
    u.clock = { s.clock with
      skipOffsetMs := s.clock.skipOffsetMs + UInt64.ofNat (s.skippedMs fuel skip) } := by
  unfold refill at h
  unfold skippedMs
  split at h
  · next hstate =>
    cases h
    simp [hstate]
  · next hstate =>
    obtain ⟨⟨r, eod'⟩, hrun, hu⟩ := Option.map_eq_some_iff.1 h
    cases hu
    rw [if_neg hstate, hrun]
    rfl

theorem clock_onProcess {s t : PipewireStream g} {fuel : Nat} {call : ProcessCall}
    (h : s.onProcess fuel call = some t) :
    t.clock = s.clock.process (s.skippedMs fuel call.skip) call.time := by
  obtain ⟨⟨u, eod⟩, hrefill, rfl⟩ := Option.map_eq_some_iff.1 h
  have hclock := clock_refill hrefill
  cases htime : call.time with
  | none => simp [keepTime, StreamClock.process, hclock]
  | some time => simp [keepTime, StreamClock.process, hclock]

end PipewireStream

/-! ## Runs -/

namespace PipewireOutput

/-- The cells that the streams share with the output. -/
def clock (o : PipewireOutput) : StreamClock :=
  { duration := o.duration
    startTicks := o.startTicks
    skipOffsetMs := o.skipOffsetMs }

def withClock (o : PipewireOutput) (c : StreamClock) : PipewireOutput :=
  { o with
    duration := c.duration
    startTicks := c.startTicks
    skipOffsetMs := c.skipOffsetMs }

end PipewireOutput

/-- The output in a run. -/
structure PipewireRun where
  output : PipewireOutput
  /-- Not in the code: what has been played. -/
  time : PlayTime
  /-- Not in the code: whether there has been a pause and no unpause since. -/
  paused : Bool

namespace PipewireRun

def reset (s : PipewireRun) (output : PipewireOutput) : PipewireRun :=
  { output := output
    time := s.time.reset
    paused := false }

def pause (s : PipewireRun) : PipewireRun :=
  if s.output.playing.isSome then
    { output := s.output.pause.1
      time := s.time.pause
      paused := true }
  else
    { s with output := s.output.pause.1 }

def unpause (s : PipewireRun) : PipewireRun :=
  { s with
    output := s.output.play.1
    paused := false }

/-- What a callback leaves. -/
def processed (s : PipewireRun) (clock : StreamClock) (ticks : UInt64) (skippedMs : Nat) :
    PipewireRun :=
  { s with
    output := s.output.withClock clock
    time := s.time.callback ticks skippedMs }

/-- The steps of a run in which the graph has one rate. -/
inductive Step (g : Growth) (rate : Rate) : PipewireRun → PipewireRun → Prop where
  /-- The callback of any stream, not behind a pause; the clock does not go back, and the product
  does not get too large. -/
  | process {s : PipewireRun} {stream stream' : PipewireStream g} {fuel : Nat} {call : ProcessCall}
      {time : StreamTime} (hclock : stream.clock = s.output.clock)
      (hcall : stream.onProcess fuel call = some stream') (htime : call.time = some time)
      (hnum : time.rateNum = rate.num) (hdenom : time.rateDenom = rate.denom)
      (hpaused : s.paused = false)
      (hticks : ∀ seg, s.time.current = some seg → seg.latest ≤ time.ticks)
      (hproduct : 1000 * rate.num.toNat * (s.time.extended time.ticks).ticks < 2 ^ 64) :
      Step g rate s (s.processed stream'.clock time.ticks (stream.skippedMs fuel call.skip))
  | enqueue {s : PipewireRun} (stream : VibeDecoder) (autostart : AutoStart) :
      Step g rate s { s with output := s.output.enqueue stream autostart }
  | pause {s : PipewireRun} : Step g rate s s.pause
  | unpause {s : PipewireRun} : Step g rate s s.unpause
  /-- The state of a stream changes from `Connecting`. -/
  | trackStarted {s : PipewireRun} : Step g rate s (s.reset s.output.resetClock)
  | shift {s : PipewireRun} : Step g rate s (s.reset s.output.shift)
  | stop {s : PipewireRun} : Step g rate s (s.reset s.output.stop)

/-- All runs of an output. -/
def system (g : Growth) (rate : Rate) : System PipewireRun :=
  { init := fun s => s = { output := .new, time := .new, paused := false }
    step := Step g rate }

/-! ## The invariant -/

/-- What the cells tell of the time that has been played. -/
structure Tracks (rate : Rate) (c : StreamClock) (p : PlayTime) : Prop where
  start : c.startTicks = p.current.map fun seg => (seg.first, rate.num, rate.denom)
  -- The time may not fit in the cells any more, and then it does not before the next reset.
  offset : p.total rate < 2 ^ 64 → c.skipOffsetMs.toNat = p.offset rate
  duration : p.total rate < 2 ^ 64 → c.duration.toNat = p.total rate

section Tracks

variable {rate : Rate} {c : StreamClock} {p : PlayTime}

theorem tracks_reset (p : PlayTime) :
    Tracks rate { duration := 0, startTicks := none, skipOffsetMs := 0 } p.reset where
  start := rfl
  offset _ := rfl
  duration _ := rfl

/-- The duration is folded into the offset. -/
theorem Tracks.pause (h : Tracks rate c p) :
    Tracks rate { c with skipOffsetMs := c.duration, startTicks := none } p.pause where
  start := rfl
  offset htotal := by
    rw [PlayTime.total_pause] at htotal
    rw [PlayTime.offset_pause]
    exact h.duration htotal
  duration htotal := by
    rw [PlayTime.total_pause] at htotal ⊢
    exact h.duration htotal

theorem saturate_of_lt {n : Nat} (h : n < 2 ^ 64) : saturate n = n := by
  unfold saturate
  omega

/-- The time that the code computes from the ticks is that of the segment. -/
theorem elapsed_eq_played {time : StreamTime} {seg : Segment} (hlatest : seg.latest = time.ticks)
    (hproduct : 1000 * rate.num.toNat * seg.ticks < 2 ^ 64) :
    StreamClock.elapsed time (seg.first, rate.num, rate.denom) = seg.played rate := by
  have hticks : time.ticks.toNat - seg.first.toNat = seg.ticks := by rw [← hlatest]; rfl
  have hassoc : seg.ticks * 1000 * rate.num.toNat = 1000 * rate.num.toNat * seg.ticks := by ring
  -- The factor that comes first does not make the product too large by itself.
  have hfactor : seg.ticks * 1000 ≤ seg.ticks * 1000 * rate.num.toNat :=
    Nat.le_mul_of_pos_right _ rate.num_pos
  calc StreamClock.elapsed time (seg.first, rate.num, rate.denom)
    _ = saturate (saturate (seg.ticks * 1000) * rate.num.toNat) / rate.denom.toNat := by
        simp only [StreamClock.elapsed, hticks, Nat.max_eq_left rate.num_pos,
          Nat.max_eq_left rate.denom_pos]
    _ = saturate (1000 * rate.num.toNat * seg.ticks) / rate.denom.toNat := by
        rw [saturate_of_lt (n := seg.ticks * 1000) (by omega), hassoc]
    _ = seg.played rate := by
        rw [saturate_of_lt hproduct]
        rfl

theorem Tracks.process (h : Tracks rate c p) {time : StreamTime} (hnum : time.rateNum = rate.num)
    (hdenom : time.rateDenom = rate.denom)
    (hticks : ∀ seg, p.current = some seg → seg.latest ≤ time.ticks)
    (hproduct : 1000 * rate.num.toNat * (p.extended time.ticks).ticks < 2 ^ 64) (skippedMs : Nat) :
    Tracks rate (c.process skippedMs (some time)) (p.callback time.ticks skippedMs) := by
  have hrate : time.rateDenom ≠ 0 := by
    intro hzero
    have hpos := rate.denom_pos
    rw [← hdenom, hzero] at hpos
    cases hpos
  -- The segment starts with this callback, or it goes on.
  have hstart : c.startTicks.getD (time.ticks, time.rateNum, time.rateDenom) =
      ((p.extended time.ticks).first, rate.num, rate.denom) := by
    rw [h.start, hnum, hdenom, PlayTime.extended]
    cases p.current <;> rfl
  have hlatest : (p.extended time.ticks).latest = time.ticks := by
    rw [PlayTime.extended]
    cases p.current <;> rfl
  have helapsed := elapsed_eq_played hlatest hproduct
  have hskipped (htotal : (p.callback time.ticks skippedMs).total rate < 2 ^ 64) :
      (c.skipOffsetMs + UInt64.ofNat skippedMs).toNat = p.offset rate + skippedMs := by
    have hbefore := h.offset
      (Nat.lt_of_le_of_lt (PlayTime.total_le_total_callback hticks rate skippedMs) htotal)
    rw [PlayTime.total_callback] at htotal
    rw [UInt64.toNat_add, UInt64.toNat_ofNat', hbefore, Nat.add_mod_mod]
    exact Nat.mod_eq_of_lt (by omega)
  refine ⟨?_, ?_, ?_⟩
  · simp [StreamClock.process, StreamClock.update, hrate, hstart, PlayTime.callback]
  · intro htotal
    have hoffset : (p.callback time.ticks skippedMs).offset rate = p.offset rate + skippedMs :=
      (Nat.add_assoc _ _ _).symm
    rw [hoffset, ← hskipped htotal]
    simp [StreamClock.process, StreamClock.update, hrate]
  · intro htotal
    have hsum : (p.extended time.ticks).played rate +
        (c.skipOffsetMs + UInt64.ofNat skippedMs).toNat =
          (p.callback time.ticks skippedMs).total rate := by
      rw [hskipped htotal, PlayTime.total_callback]
      exact Nat.add_comm _ _
    simp only [StreamClock.process, StreamClock.update, hrate, if_false, hstart, helapsed]
    rw [hsum, saturate_of_lt htotal, UInt64.toNat_ofNat', Nat.mod_eq_of_lt htotal]

end Tracks

/-! ## What every run keeps up -/

variable {g : Growth} {rate : Rate} {s t : PipewireRun}

theorem clock_enqueue (o : PipewireOutput) (stream : VibeDecoder) (autostart : AutoStart) :
    (o.enqueue stream autostart).clock = o.clock := by
  unfold PipewireOutput.enqueue
  split_ifs <;> rfl

theorem clock_play (o : PipewireOutput) : o.play.1.clock = o.clock := by
  unfold PipewireOutput.play
  cases o.playing <;> rfl

theorem tracks_step (hs : Tracks rate s.output.clock s.time) (h : Step g rate s t) :
    Tracks rate t.output.clock t.time := by
  cases h with
  | process hclock hcall htime hnum hdenom _ hticks hproduct =>
      have hprocess := PipewireStream.clock_onProcess hcall
      rw [hclock, htime] at hprocess
      show Tracks rate _ (s.time.callback _ _)
      rw [processed, hprocess]
      exact hs.process hnum hdenom hticks hproduct _
  | enqueue stream autostart =>
      rw [clock_enqueue]
      exact hs
  | pause =>
      unfold pause PipewireOutput.pause
      cases s.output.playing with
      | none => exact hs
      | some stream => exact hs.pause
  | unpause =>
      rw [unpause, clock_play]
      exact hs
  | trackStarted | shift | stop => exact tracks_reset s.time

theorem tracks (hs : (system g rate).Reachable s) : Tracks rate s.output.clock s.time := by
  refine System.Reachable.invariant (fun s => Tracks rate s.output.clock s.time) ?_ ?_ hs
  · rintro s rfl
    exact ⟨rfl, fun _ => rfl, fun _ => rfl⟩
  · intro s t _ hs hst
    exact tracks_step hs hst

/-- A step resets the time, or does not take any away. -/
theorem time_step (h : Step g rate s t) :
    t.time.resets = s.time.resets + 1 ∨
      t.time.resets = s.time.resets ∧ s.time.total rate ≤ t.time.total rate := by
  cases h with
  | process _ _ _ _ _ _ hticks _ =>
      exact .inr ⟨rfl, PlayTime.total_le_total_callback hticks rate _⟩
  | enqueue stream autostart => exact .inr ⟨rfl, Nat.le_refl _⟩
  | pause =>
      unfold pause
      split
      · exact .inr ⟨rfl, Nat.le_of_eq (PlayTime.total_pause _ _).symm⟩
      · exact .inr ⟨rfl, Nat.le_refl _⟩
  | unpause => exact .inr ⟨rfl, Nat.le_refl _⟩
  | trackStarted | shift | stop => exact .inl rfl

theorem time_steps (h : (system g rate).Steps s t) :
    s.time.resets ≤ t.time.resets ∧
      (t.time.resets = s.time.resets → s.time.total rate ≤ t.time.total rate) := by
  refine System.Steps.invariant (fun t => s.time.resets ≤ t.time.resets ∧
    (t.time.resets = s.time.resets → s.time.total rate ≤ t.time.total rate)) h ?_ ?_
  · exact ⟨Nat.le_refl _, fun _ => Nat.le_refl _⟩
  · rintro a b ⟨hresets, htotal⟩ hstep
    rcases time_step hstep with hreset | ⟨hsame, hle⟩
    · exact ⟨by omega, fun hback => absurd hback (by omega)⟩
    · refine ⟨by omega, ?_⟩
      intro hback
      exact Nat.le_trans (htotal (by omega)) hle

/-- What a callback leaves that skips nothing. -/
def callback (s : PipewireRun) (rate : Rate) (ticks : UInt64) : PipewireRun :=
  s.processed (s.output.clock.process 0 (some (.at ticks rate))) ticks 0

/-- There is always such a callback, that of a stream that is draining. -/
theorem step_callback (ticks : UInt64) (hpaused : s.paused = false)
    (hticks : ∀ seg, s.time.current = some seg → seg.latest ≤ ticks)
    (hproduct : 1000 * rate.num.toNat * (s.time.extended ticks).ticks < 2 ^ 64) :
    Step .exact rate s (s.callback rate ticks) := by
  let stream : PipewireStream .exact :=
    { decoder := lastFrame
      audioBuf := GrowVec.withCapacity MIN_AUDIO_BUFFER_SIZE
      state := .draining
      clock := s.output.clock
      log := [] }
  let call : ProcessCall := { skip := 0, buffer := .nothing, time := some (.at ticks rate) }
  have hreturns : ∃ fuel stream', stream.onProcess fuel call = some stream' :=
    PipewireStream.exists_onProcess stream rfl
  obtain ⟨fuel, stream', hcall⟩ := hreturns
  have hclock : stream'.clock = s.output.clock.process 0 (some (.at ticks rate)) :=
    PipewireStream.clock_onProcess hcall
  rw [callback, ← hclock]
  exact .process rfl hcall rfl rfl rfl hpaused hticks hproduct

/-- The first callback of a segment. -/
theorem step_callback_first (ticks : UInt64) (hpaused : s.paused = false)
    (hcurrent : s.time.current = none) : Step .exact rate s (s.callback rate ticks) := by
  refine step_callback ticks hpaused ?_ ?_
  · intro seg hseg
    rw [hcurrent] at hseg
    cases hseg
  · simp [PlayTime.extended, hcurrent, Segment.ticks]

/-- A later one. -/
theorem step_callback_next (ticks : UInt64) (hpaused : s.paused = false) {seg : Segment}
    (hcurrent : s.time.current = some seg) (hticks : seg.latest ≤ ticks)
    (hproduct : 1000 * rate.num.toNat * (ticks.toNat - seg.first.toNat) < 2 ^ 64) :
    Step .exact rate s (s.callback rate ticks) := by
  refine step_callback ticks hpaused ?_ ?_
  · intro seg' hseg
    rw [hcurrent] at hseg
    cases hseg
    exact hticks
  · rw [PlayTime.extended, hcurrent]
    exact hproduct

/-- The duration is the time of the segments and what has been skipped, and it does not decrease
between two resets, as long as the time fits in 64 bits. -/
theorem duration_played (hs : (system g rate).Reachable s) :
    (s.time.total rate < 2 ^ 64 →
      AudioOutput.getDur s.output = Duration.fromMillis (s.time.total rate)) ∧
    ∀ t, (system g rate).Steps s t → t.time.resets = s.time.resets →
      t.time.total rate < 2 ^ 64 → AudioOutput.getDur s.output ≤ AudioOutput.getDur t.output := by
  have hdur {u : PipewireRun} (hu : (system g rate).Reachable u)
      (htotal : u.time.total rate < 2 ^ 64) :
      AudioOutput.getDur u.output = Duration.fromMillis (u.time.total rate) :=
    congrArg Duration.fromMillis ((tracks hu).duration htotal)
  refine ⟨hdur hs, ?_⟩
  intro t hrun hresets htotal
  have hle := (time_steps hrun).2 hresets
  rw [hdur hs (Nat.lt_of_le_of_lt hle htotal), hdur (hs.steps hrun) htotal]
  exact Nat.mul_le_mul_right _ hle

def rate48000 : Rate :=
  { num := 1
    denom := 48000
    num_pos := by decide
    denom_pos := by decide }

def anyDecoder : VibeDecoder :=
  { format := .mp3
    pcmsamplesize := .selfDescribing
    pcmsamplerate := .selfDescribing
    pcmchannels := .selfDescribing
    origin := 0 }

/-- A stream that plays. -/
def playing : PipewireRun :=
  { output := PipewireOutput.new.enqueue anyDecoder .auto
    time := .new
    paused := false }

theorem reachable_playing (rate : Rate) : (system .exact rate).Reachable playing := by
  have hinit : (system .exact rate).Reachable _ := .init rfl
  exact hinit.step (.enqueue anyDecoder .auto)

/-- Half a second is played. -/
def half : PipewireRun := (playing.callback rate48000 7000).callback rate48000 31000

/-- After a pause of two seconds, half a second more. -/
def whole : PipewireRun :=
  (half.pause.unpause.callback rate48000 127000).callback rate48000 151000

theorem duration_played_paused :
    (system .exact rate48000).Reachable half ∧ (system .exact rate48000).Steps half whole ∧
      AudioOutput.getDur half.output = Duration.fromMillis 500 ∧
      AudioOutput.getDur whole.output = Duration.fromMillis 1000 ∧
      AudioOutput.getDur half.output ≤ AudioOutput.getDur whole.output := by
  have hfirst := (reachable_playing rate48000).step (step_callback_first 7000 rfl rfl)
  have hhalf : (system .exact rate48000).Reachable half :=
    hfirst.step (step_callback_next 31000 rfl rfl (by decide) (by decide))
  have hrun : (system .exact rate48000).Steps half whole :=
    .head .pause <| .head .unpause <| .head (step_callback_first 127000 rfl rfl) <|
      .head (step_callback_next 151000 rfl rfl (by decide) (by decide)) (.refl _)
  have hdur := duration_played hhalf
  have hdur' := duration_played (hhalf.steps hrun)
  have htotal : half.time.total rate48000 = 500 := by decide
  have htotal' : whole.time.total rate48000 = 1000 := by decide
  have hresets : whole.time.resets = half.time.resets := by decide
  refine ⟨hhalf, hrun, ?_, ?_, hdur.2 _ hrun hresets ?_⟩
  · rw [← htotal]
    exact hdur.1 (by rw [htotal]; decide)
  · rw [← htotal']
    exact hdur'.1 (by rw [htotal']; decide)
  · rw [htotal']
    decide

/-- A graph with a tick a second. -/
def everySecond : Rate :=
  { num := 1
    denom := 1
    num_pos := by decide
    denom_pos := by decide }

/-- The milliseconds of one segment fit in 64 bits, and those of two do not. -/
theorem duration_saturates :
    ∃ s, (system .exact everySecond).Reachable s ∧ s.time.total everySecond = 2 ^ 64 + 384 ∧
      AudioOutput.getDur s.output = Duration.fromMillis (2 ^ 64 - 1) := by
  have hfirst := (reachable_playing everySecond).step (step_callback_first 0 rfl rfl)
  have hlong := hfirst.step
    (step_callback_next 18446744073709551 rfl rfl (by decide) (by decide))
  have hagain := (hlong.step .pause).step .unpause
  have hnext := hagain.step (step_callback_first 18446744073709551 rfl rfl)
  have hlast := hnext.step (step_callback_next 18446744073709552 rfl rfl (by decide) (by decide))
  exact ⟨_, hlast, by decide, by decide⟩

end PipewireRun

end Vibe
end LmsPlayer
