import LmsPlayer.Library.TransitionSystem
import LmsPlayer.Vibe.Callback

/-!
# Vibe.PipewireStream — the process callback of a PipeWire stream

The graph of PipeWire calls back at its own pace, with a buffer of any size or with none, also while
the stream is draining.  Every call fills the own buffer of the stream, hands over as much as fits,
and asks PipeWire to drain when there is nothing left to hand over.

A call may not return while a Skip is pending, so `onProcess` runs with fuel.  `exists_onProcess` is
that it does return otherwise.
-/

namespace LmsPlayer
namespace Vibe

open TransitionSystem

inductive ProcessState where
  | running
  | draining
  deriving DecidableEq, Repr

/-- What `dequeue_buffer` gives: no buffer, one whose memory is not mapped, or one of a certain
size. -/
inductive Dequeued where
  | nothing
  | unmapped
  | mapped (size : Nat)
  deriving DecidableEq, Repr

structure StreamTime where
  ticks : UInt64
  rateNum : UInt32
  rateDenom : UInt32
  queued : UInt64
  delay : Int

/-- A call of `on_process`, with what it finds in `SKIP` and gets from PipeWire. -/
structure ProcessCall where
  skip : Duration
  buffer : Dequeued
  time : Option StreamTime

/-- The cells in which the duration is kept.  The streams share them with the output. -/
structure StreamClock where
  /-- In milliseconds. -/
  duration : UInt64
  /-- The ticks and the rate at the first callback of a segment. -/
  startTicks : Option (UInt64 × UInt32 × UInt32)
  skipOffsetMs : UInt64
  deriving DecidableEq, Repr

structure PipewireStream (g : Growth) where
  decoder : Decoding
  audioBuf : GrowVec g UInt8
  state : ProcessState
  clock : StreamClock
  log : List Action

def saturate (n : Nat) : Nat := min n (2 ^ 64 - 1)

namespace StreamClock

/-- Elapsed time, anchored to PipeWire's graph clock at track start. -/
def elapsed (time : StreamTime) : UInt64 × UInt32 × UInt32 → Nat
  | (startTick, startNum, startDenom) =>
      saturate (saturate ((time.ticks.toNat - startTick.toNat) * 1000) * max startNum.toNat 1) /
        max startDenom.toNat 1

/-- Keep the duration updated. -/
def update (c : StreamClock) (time : StreamTime) : StreamClock :=
  if time.rateDenom = 0 then
    c
  else
    let start := c.startTicks.getD (time.ticks, time.rateNum, time.rateDenom)
    { c with
      startTicks := some start
      duration := UInt64.ofNat (saturate (elapsed time start + c.skipOffsetMs.toNat)) }

end StreamClock

namespace PipewireStream

variable {g : Growth}

/-- A stream whose buffer has been prefilled. -/
def new (decoder : Decoding) (audioBuf : GrowVec g UInt8) (clock : StreamClock) :
    PipewireStream g :=
  { decoder := decoder
    audioBuf := audioBuf
    state := .running
    clock := clock
    log := [] }

def act (s : PipewireStream g) (actions : List Action) : PipewireStream g :=
  { s with log := s.log ++ actions }

def absorb (s : PipewireStream g) (r : Refill g UInt8) : PipewireStream g :=
  { decoder := r.decoder
    audioBuf := r.audioBuf
    -- Only a `StreamError` changes the state here.
    state := if r.failed then .draining else s.state
    clock :=
      { s.clock with skipOffsetMs := s.clock.skipOffsetMs + UInt64.ofNat r.skippedMs }
    log := s.log ++ r.posted.map .post }

/-- Fill the buffer from the decoder, and skip.  The result is `end_of_decode`. -/
def refill (fuel : Nat) (s : PipewireStream g) (skip : Duration) :
    Option (PipewireStream g × Bool) :=
  -- A stream that is draining is not refilled, and a Skip has no effect on it.
  if s.state = .draining then
    some (s, true)
  else
    (Iteration.run Refill.pipewireRound fuel (.start s.decoder s.audioBuf skip)).map
      fun (r, eod) => (s.absorb r, eod)

/-- Hand over what fits.  There is nothing to drain as long as there is something to hand over. -/
def handOver (s : PipewireStream g) (buffer : Dequeued) : PipewireStream g :=
  if s.audioBuf.isEmpty then
    -- Also when the stream is draining already: it is flushed once more with every call.
    s.act [.flush]
  else
    match buffer with
    | .nothing | .unmapped => s
    | .mapped size =>
        let len := min size s.audioBuf.len
        let audioBuf := s.audioBuf.drain len
        -- The buffer grows up to the size that PipeWire asks for, for the sake of the next refill.
        { s with
          audioBuf :=
            if audioBuf.capacity < size then audioBuf.reserve (size - audioBuf.capacity)
            else audioBuf
          log := s.log ++ [.copy (s.audioBuf.data.take len) (4 * s.decoder.channels)] }

/-- What PipeWire holds, in bytes: queued plus the driver's reported hardware delay. -/
def held (s : PipewireStream g) (time : StreamTime) : Nat :=
  let bytesPerFrame := 4 * s.decoder.channels
  let driverDelayBytes :=
    if time.rateDenom = 0 then 0
    else saturate (saturate (time.delay.toNat * s.decoder.sampleRate) * bytesPerFrame) /
      time.rateDenom.toNat
  time.queued.toNat + driverDelayBytes

/-- Do timing stuff, and report the output buffer fullness. -/
def keepTime (s : PipewireStream g) : Option StreamTime → PipewireStream g
  | none => s
  | some time =>
      { s with
        clock := s.clock.update time
        log := s.log ++ [.report (UInt32.ofNat s.audioBuf.capacity)
          (totalFullness s.audioBuf.len (s.held time))] }

def finish (s : PipewireStream g) (endOfDecode : Bool) : PipewireStream g :=
  -- After a `StreamError` the state is `Draining` by now.
  if endOfDecode = true ∧ s.state = .running then
    { s with
      state := .draining
      log := s.log ++ [.post .endOfDecode] }
  else
    s

def onProcess (fuel : Nat) (s : PipewireStream g) (call : ProcessCall) :
    Option (PipewireStream g) :=
  (s.refill fuel call.skip).map fun (s, endOfDecode) =>
    ((s.handOver call.buffer).keepTime call.time).finish endOfDecode

/-- All the calls that PipeWire may make while no Skip is pending. -/
def system (g : Growth) (d : Decoding) (outputThreshold : Duration) : System (PipewireStream g) :=
  { init := fun s => ∃ d' audioBuf clock, prefill g d outputThreshold = some (d', audioBuf) ∧
      s = new d' audioBuf clock
    step := fun s t => ∃ fuel call, call.skip = 0 ∧ s.onProcess fuel call = some t }

/-! ## The parts of a call -/

theorem handOver_kept (s : PipewireStream g) (buffer : Dequeued) :
    writtenIn (s.handOver buffer).log ++ (s.handOver buffer).audioBuf.data =
        writtenIn s.log ++ s.audioBuf.data ∧
      postsOf (s.handOver buffer).log = postsOf s.log ∧
      (s.handOver buffer).decoder = s.decoder ∧ (s.handOver buffer).state = s.state := by
  unfold handOver
  split
  · refine ⟨?_, ?_, rfl, rfl⟩
    · simp [act]
    · simp [act]
  · cases buffer with
    | nothing => exact ⟨rfl, rfl, rfl, rfl⟩
    | unmapped => exact ⟨rfl, rfl, rfl, rfl⟩
    | mapped size =>
        refine ⟨?_, ?_, rfl, rfl⟩
        · -- More capacity does not change what is in the buffer.
          simp [apply_ite GrowVec.data]
        · simp

theorem flushedAfter_handOver {s : PipewireStream g} {data : Bytes}
    (h : FlushedAfter data s.log) (hempty : s.audioBuf.data = [] → writtenIn s.log = data)
    (buffer : Dequeued) : FlushedAfter data (s.handOver buffer).log := by
  unfold handOver
  split
  · exact h.flush (hempty (GrowVec.isEmpty_iff.1 ‹_›))
  · cases buffer with
    | nothing => exact h
    | unmapped => exact h
    | mapped size => exact h.append (by simp)

theorem keepTime_kept (s : PipewireStream g) (time : Option StreamTime) :
    (s.keepTime time).decoder = s.decoder ∧ (s.keepTime time).audioBuf = s.audioBuf ∧
      (s.keepTime time).state = s.state ∧ ∃ actions, (s.keepTime time).log = s.log ++ actions ∧
      postsOf actions = [] ∧ writtenIn actions = [] ∧ .flush ∉ actions := by
  cases time with
  | none => exact ⟨rfl, rfl, rfl, [], by simp [keepTime], rfl, rfl, List.not_mem_nil⟩
  | some time =>
      refine ⟨rfl, rfl, rfl, _, rfl, rfl, rfl, ?_⟩
      simp

/-- What follows the refill moves bytes from the buffer to PipeWire, and nothing else. -/
theorem serve_kept (s : PipewireStream g) (call : ProcessCall) :
    let t := (s.handOver call.buffer).keepTime call.time
    writtenIn t.log ++ t.audioBuf.data = writtenIn s.log ++ s.audioBuf.data ∧
      postsOf t.log = postsOf s.log ∧ t.decoder = s.decoder ∧ t.state = s.state ∧
      ∀ data, FlushedAfter data s.log → (s.audioBuf.data = [] → writtenIn s.log = data) →
        FlushedAfter data t.log := by
  obtain ⟨hwritten, hposts, hdecoder, hstate⟩ := handOver_kept s call.buffer
  obtain ⟨hdecoder', hbuffer, hstate', actions, hlog, hquiet, hnone, hflush⟩ :=
    keepTime_kept (s.handOver call.buffer) call.time
  refine ⟨?_, ?_, hdecoder'.trans hdecoder, hstate'.trans hstate, ?_⟩
  · simpa [hlog, hbuffer, hnone] using hwritten
  · simpa [hlog, hquiet] using hposts
  · intro data h hempty
    rw [hlog]
    exact (flushedAfter_handOver h hempty call.buffer).append hflush

/-- The loop returns when no Skip is pending, and what it leaves behind does not depend on the
fuel. -/
theorem refill_iff (s : PipewireStream g) (hstate : s.state = .running)
    (r : PipewireStream g × Bool) :
    (∃ fuel, s.refill fuel 0 = some r) ↔
      (s.absorb (Refill.refilled .raw none (.start s.decoder s.audioBuf 0)).1,
        (Refill.refilled .raw none (.start s.decoder s.audioBuf 0)).2) = r := by
  have hreturns : Iteration.Returns Refill.pipewireRound (.start s.decoder s.audioBuf 0)
      (Refill.refilled .raw none (.start s.decoder s.audioBuf 0)) :=
    (Refill.returns_skipRound_iff rfl).2 rfl
  simp only [refill, hstate, reduceCtorEq, if_false]
  exact hreturns.exists_map_eq_some_iff

/-- A refill leaves something in the buffer, or comes to the end. -/
theorem refill_cases {s u : PipewireStream g} {fuel : Nat} {eod : Bool}
    (hstate : s.state = .running) (h : s.refill fuel 0 = some (u, eod)) :
    (∃ xs, s.decoder.Plays u.decoder xs ∧
      u.audioBuf.data = s.audioBuf.data ++ Layout.raw.encode xs ∧ u.audioBuf.data ≠ [] ∧
      u.log = s.log ∧ u.state = .running ∧ eod = false) ∨
    (∃ xs damaged, s.decoder.Ends u.decoder xs damaged ∧
      u.audioBuf.data = s.audioBuf.data ++ Layout.raw.encode xs ∧
      u.log = s.log ++ (Refill.notices damaged).map .post ∧
      u.state = (if damaged then .draining else .running) ∧ eod = true) := by
  have habsorb := (refill_iff s hstate _).1 ⟨fuel, h⟩
  rcases Refill.refilled_start_cases .raw none s.decoder s.audioBuf 0 with
    ⟨d', buffer', xs, hplays, hdata, hlen, heq⟩ |
    ⟨d', buffer', xs, damaged, hends, hdata, -, heq⟩
  · rw [heq] at habsorb
    obtain ⟨rfl, rfl⟩ := Prod.mk.inj habsorb
    refine .inl ⟨xs, hplays, hdata, ?_, ?_, hstate, rfl⟩
    · -- The limit is never zero.
      intro hempty
      have hzero : buffer'.len = 0 := GrowVec.len_eq_zero.2 hempty
      simp [hzero, Refill.leastLimit] at hlen
    · exact List.append_nil s.log
  · rw [heq] at habsorb
    obtain ⟨rfl, rfl⟩ := Prod.mk.inj habsorb
    refine .inr ⟨xs, damaged, hends, hdata, rfl, ?_, rfl⟩
    simp only [absorb, hstate]

/-- Without a Skip every call returns. -/
theorem exists_onProcess (s : PipewireStream g) {call : ProcessCall} (hskip : call.skip = 0) :
    ∃ fuel t, s.onProcess fuel call = some t := by
  cases hstate : s.state with
  | running =>
      obtain ⟨fuel, hrefill⟩ := (refill_iff s hstate _).2 rfl
      exact ⟨fuel, _, by rw [onProcess, hskip, hrefill]; rfl⟩
  | draining => exact ⟨0, _, by rw [onProcess, refill, if_pos hstate]; rfl⟩

/-! ## Runs -/

/-- What the callback posts at the end of the stream: nothing but the error, if there is one. -/
def announced (damaged : Bool) : List PlayerMsg :=
  if damaged then [.notSupported] else [.endOfDecode]

/-- Where a stream of the decoder `d` can stand between two calls. -/
inductive Stands (d : Decoding) (s : PipewireStream g) : Prop where
  | running {xs : List Sample} (hstate : s.state = .running) (hplays : d.Plays s.decoder xs)
      (hdata : writtenIn s.log ++ s.audioBuf.data = Layout.raw.encode xs)
      (hposts : postsOf s.log = []) (hflush : ∀ data, FlushedAfter data s.log)
  | draining {xs : List Sample} {damaged : Bool} (hstate : s.state = .draining)
      (hends : d.Ends s.decoder xs damaged)
      (hdata : writtenIn s.log ++ s.audioBuf.data = Layout.raw.encode xs)
      (hposts : postsOf s.log = announced damaged)
      (hflush : FlushedAfter (Layout.raw.encode xs) s.log)

variable {d : Decoding} {outputThreshold : Duration} {s t : PipewireStream g}

theorem stands_of_ended {xs : List Sample} {damaged : Bool} (hstate : s.state = .draining)
    (hends : d.Ends s.decoder xs damaged)
    (hdata : writtenIn s.log ++ s.audioBuf.data = Layout.raw.encode xs)
    (hposts : postsOf s.log = announced damaged)
    (hflush : FlushedAfter (Layout.raw.encode xs) s.log) (call : ProcessCall) :
    Stands d (((s.handOver call.buffer).keepTime call.time).finish true) := by
  obtain ⟨hwritten, hposts', hdecoder, hstate', hflush'⟩ := serve_kept s call
  have hfinish : ((s.handOver call.buffer).keepTime call.time).finish true =
      (s.handOver call.buffer).keepTime call.time := by
    simp [finish, hstate', hstate]
  rw [hfinish]
  refine .draining (hstate'.trans hstate) (hdecoder ▸ hends) (hwritten.trans hdata)
    (hposts'.trans hposts) (hflush' _ hflush ?_)
  intro hempty
  simpa [hempty] using hdata

/-- The call in which the decoder comes to its end announces it, behind whatever it hands over. -/
theorem stands_of_ending {xs : List Sample} (hstate : s.state = .running)
    (hends : d.Ends s.decoder xs false)
    (hdata : writtenIn s.log ++ s.audioBuf.data = Layout.raw.encode xs)
    (hposts : postsOf s.log = [])
    (hflush : FlushedAfter (Layout.raw.encode xs) s.log) (call : ProcessCall) :
    Stands d (((s.handOver call.buffer).keepTime call.time).finish true) := by
  obtain ⟨hwritten, hposts', hdecoder, hstate', hflush'⟩ := serve_kept s call
  have hrunning : ((s.handOver call.buffer).keepTime call.time).state = .running :=
    hstate'.trans hstate
  have hfinish : ((s.handOver call.buffer).keepTime call.time).finish true =
      { (s.handOver call.buffer).keepTime call.time with
        state := .draining
        log := ((s.handOver call.buffer).keepTime call.time).log ++ [.post .endOfDecode] } := by
    simp [finish, hrunning]
  rw [hfinish]
  have hended : d.Ends ((s.handOver call.buffer).keepTime call.time).decoder xs false :=
    hdecoder ▸ hends
  refine .draining rfl hended ?_ ?_ ?_
  · simpa using hwritten.trans hdata
  · rw [postsOf_append, hposts', hposts]
    rfl
  · refine (hflush' _ hflush ?_).append (by simp)
    intro hempty
    simpa [hempty] using hdata

theorem stands_onProcess {fuel : Nat} {call : ProcessCall} (h : Stands d s) (hskip : call.skip = 0)
    (hcall : s.onProcess fuel call = some t) : Stands d t := by
  obtain ⟨⟨u, eod⟩, hrefill, ht⟩ := Option.map_eq_some_iff.1 hcall
  have hserved : t = ((u.handOver call.buffer).keepTime call.time).finish eod := ht.symm
  rw [hskip] at hrefill
  rw [hserved]
  cases h with
  | draining hstate hends hdata hposts hflush =>
      rw [refill, if_pos hstate] at hrefill
      cases hrefill
      exact stands_of_ended hstate hends hdata hposts hflush call
  | @running xs hstate hplays hdata hposts hflush =>
      rcases refill_cases hstate hrefill with
        ⟨ys, hplays', hbuffer, hsome, hlog, hrunning, rfl⟩ |
        ⟨ys, damaged, hends, hbuffer, hlog, hu, rfl⟩
      · -- Something is left in the buffer, so that the stream is not flushed.
        obtain ⟨hwritten, hposts', hdecoder, hstate', hflush'⟩ := serve_kept u call
        have hopen : ((u.handOver call.buffer).keepTime call.time).finish false =
            (u.handOver call.buffer).keepTime call.time := by
          simp [finish]
        rw [hopen]
        rw [hlog] at hwritten hposts' hflush'
        have hplayed : d.Plays ((u.handOver call.buffer).keepTime call.time).decoder (xs ++ ys) :=
          hdecoder ▸ hplays.trans hplays'
        refine .running (hstate'.trans hrunning) hplayed ?_ (hposts'.trans hposts) ?_
        · rw [hwritten, hbuffer, Layout.raw.encode_append, ← hdata, List.append_assoc]
        · exact fun data => hflush' data (hflush data) (fun hempty => absurd hempty hsome)
      · -- The decoder has ended: what is in the buffer now is all that is left to hand over.
        have hends' := Decoding.Ends.of_plays hplays hends
        have hdata' : writtenIn u.log ++ u.audioBuf.data = Layout.raw.encode (xs ++ ys) := by
          rw [hlog, writtenIn_append, writtenIn_map_post, List.append_nil, hbuffer,
            Layout.raw.encode_append, ← hdata, List.append_assoc]
        have hposted : postsOf u.log = Refill.notices damaged := by
          rw [hlog, postsOf_append, postsOf_map_post, hposts, List.nil_append]
        have hquiet : FlushedAfter (Layout.raw.encode (xs ++ ys)) u.log := by
          rw [hlog]
          exact (hflush _).append (by simp)
        cases damaged with
        | true =>
            -- The state is `Draining` already, and nothing more is announced.
            exact stands_of_ended hu hends' hdata' hposted hquiet call
        | false => exact stands_of_ending hu hends' hdata' hposted hquiet call

theorem stands (h : (system g d outputThreshold).Reachable s) : Stands d s := by
  refine System.Reachable.invariant (Stands d) ?_ ?_ h
  · rintro s ⟨d', audioBuf, clock, hprefill, rfl⟩
    obtain ⟨xs, hplays, hdata⟩ := plays_of_prefill hprefill
    refine .running rfl hplays hdata rfl ?_
    intro data before after hsplit
    simp [new] at hsplit
  · rintro s t _ hs ⟨fuel, call, hskip, hcall⟩
    exact stands_onProcess hs hskip hcall

/-- Whatever buffers PipeWire provides, a stream is handed over as it is decoded: no byte is lost or
copied twice, PipeWire is asked to drain after all of it, and the end is announced at most once. -/
theorem handedOver (h : (system g d outputThreshold).Reachable s) :
    (∃ xs, d.HandedOut s.decoder xs ∧
      writtenIn s.log ++ s.audioBuf.data = Layout.raw.encode xs) ∧
    (∀ before after, s.log = before ++ .flush :: after →
      writtenIn before = Layout.raw.encode d.audio ∧
        ∃ xs damaged, d.Ends s.decoder xs damaged) ∧
    (postsOf s.log).count .endOfDecode ≤ 1 ∧
    (.endOfDecode ∈ postsOf s.log → s.decoder.AtEnd) ∧
    (.notSupported ∈ postsOf s.log → .endOfDecode ∉ postsOf s.log) := by
  cases stands h with
  | running hstate hplays hdata hposts hflush =>
      refine ⟨⟨_, hplays.handedOut, hdata⟩, ?_, ?_, ?_, ?_⟩
      · intro before after hsplit
        -- The log would be flushed after whatever bytes one likes.
        have hnil := hflush [] before after hsplit
        have hzero := hflush [0] before after hsplit
        cases hnil.symm.trans hzero
      · simp [hposts]
      · simp [hposts]
      · simp [hposts]
  | @draining xs damaged hstate hends hdata hposts hflush =>
      refine ⟨⟨_, hends.handedOut, hdata⟩, ?_, ?_, ?_, ?_⟩
      · intro before after hsplit
        exact ⟨by rw [hends.audio_eq]; exact hflush before after hsplit, _, _, hends⟩
      · cases damaged <;> simp [hposts, announced]
      · cases hends with
        | ended _ hend => exact fun _ => hend
        | failed _ => simp [hposts, announced]
      · cases damaged <;> simp [hposts, announced]

/-- The last frame of a stream is handed over, and the next call finds nothing more. -/
theorem handedOver_lastFrame :
    ∃ s, (system .exact lastFrame 0).Reachable s ∧ .flush ∈ s.log ∧
      ∀ before after, s.log = before ++ .flush :: after →
        writtenIn before = Layout.raw.encode lastFrame.audio ∧
          ∃ xs damaged, lastFrame.Ends s.decoder xs damaged := by
  have hstart : (system .exact lastFrame 0).Reachable _ :=
    .init ⟨_, _, { duration := 0, startTicks := none, skipOffsetMs := 0 }, rfl, rfl⟩
  have hserved := hstart.step ⟨1, { skip := 0, buffer := .mapped 16, time := none }, rfl, rfl⟩
  have hflushed := hserved.step ⟨0, { skip := 0, buffer := .nothing, time := none }, rfl, rfl⟩
  exact ⟨_, hflushed, by decide, (handedOver hflushed).2.1⟩

end PipewireStream

end Vibe
end LmsPlayer
