import LmsPlayer.Library.TransitionSystem
import LmsPlayer.Vibe.Callback

/-!
# Vibe.PulseStream — the write callback of a PulseAudio stream

PulseAudio asks for data again and again, also when all has been written and the stream is draining.
The callback keeps a `WriteState` of its own so that it announces the end of the track once.

The `Draining` branch writes nothing.  No audio is lost there because the limit of a refill is the
number of bytes asked for: when a refill comes to the end of the stream, everything in the buffer is
written in the same call (`drained_of_draining`).
-/

namespace LmsPlayer
namespace Vibe

open TransitionSystem

inductive WriteState where
  | starting
  | running
  | draining
  | drained
  deriving DecidableEq, Repr

/-- A call of `on_write`: the bytes asked for, and what it finds in `SKIP` and in `get_latency`. -/
structure WriteCall where
  len : Nat
  skip : Duration
  /-- In microseconds; `none` when there is none or it is negative. -/
  latency : Option Nat

structure PulseStream (g : Growth) where
  decoder : Decoding
  audioBuf : GrowVec g UInt8
  state : WriteState
  log : List Action

namespace PulseStream

variable {g : Growth}

/-- A stream whose buffer has been prefilled. -/
def new (decoder : Decoding) (audioBuf : GrowVec g UInt8) : PulseStream g :=
  { decoder := decoder
    audioBuf := audioBuf
    state := .starting
    log := [] }

def act (s : PulseStream g) (actions : List Action) : PulseStream g :=
  { s with log := s.log ++ actions }

/-- Fill the buffer from the decoder.  The result is `end_of_decode`. -/
def refill (s : PulseStream g) (len : Nat) : PulseStream g × Bool :=
  -- The loop of `Refill.refillRound`, which is always left (`Refill.run_refilled`).
  let (r, endOfDecode) := Refill.refilled .raw (some len) (.start s.decoder s.audioBuf 0)
  ({ decoder := r.decoder
     audioBuf := r.audioBuf
     -- Only a `StreamError` changes the state here.
     state := if r.failed then .draining else s.state
     log := s.log ++ r.posted.map .post }, endOfDecode)

/-- Write to PulseAudio, honouring any skip requests.  A Skip waits for a call that writes. -/
def write (s : PulseStream g) (len : Nat) (skip : Duration) : PulseStream g :=
  if s.audioBuf.isEmpty then
    s
  else
    let bufLen := min s.audioBuf.len len
    -- The Skip is a seek: PulseAudio leaves out what it asks for.
    { s with
      audioBuf := s.audioBuf.drain bufLen
      log := s.log ++
        [.writeCopy (s.audioBuf.data.take bufLen) (s.decoder.durToSamples skip * 4)] }

/-- Report the output buffer fullness. -/
def report (s : PulseStream g) (latency : Option Nat) : PulseStream g :=
  let bytesPerFrame := 4 * s.decoder.channels
  let pulseLatencyBytes :=
    match latency with
    | some usecs => usecs * s.decoder.sampleRate * bytesPerFrame / 1000000
    | none => 0
  s.act [.report (UInt32.ofNat s.audioBuf.capacity)
    (totalFullness s.audioBuf.len pulseLatencyBytes)]

/-- Send the end of decode message. -/
def finish (s : PulseStream g) : PulseStream g :=
  { s with
    state := .draining
    log := s.log ++ [.post .endOfDecode] }

/-- The part of the callback that is left out while the stream is draining. -/
def feed (s : PulseStream g) (call : WriteCall) : PulseStream g :=
  let (s, endOfDecode) := s.refill call.len
  let s := (s.write call.len call.skip).report call.latency
  if endOfDecode then s.finish else s

def begin (s : PulseStream g) : PulseStream g :=
  if s.state = .starting then
    { s with
      state := .running
      log := s.log ++ [.post .trackStarted] }
  else
    s

def settle (s : PulseStream g) : PulseStream g :=
  if s.state = .draining ∧ s.audioBuf.isEmpty = true then { s with state := .drained } else s

def onWrite (s : PulseStream g) (call : WriteCall) : PulseStream g :=
  if s.state = .drained then
    s
  else
    let s := s.begin
    let s := if s.state ≠ .draining then s.feed call else s
    s.settle

/-- The callback that detects the end of the track. -/
def onUnderflow (s : PulseStream g) : PulseStream g :=
  if s.state = .drained then s.act [.post .drained] else s

/-- All the calls that PulseAudio may make. -/
def system (g : Growth) (d : Decoding) (outputThreshold : Duration) : System (PulseStream g) :=
  { init := fun s => ∃ d' audioBuf, prefill g d outputThreshold = some (d', audioBuf) ∧
      s = new d' audioBuf
    step := fun s t => (∃ call, t = s.onWrite call) ∨ t = s.onUnderflow }

/-! ## The parts of a call -/

/-- A refill leaves enough for the call, or comes to the end with less than that in the buffer. -/
theorem refill_cases (s : PulseStream g) (len : Nat) :
    (∃ d' buffer' xs, s.decoder.Plays d' xs ∧
      buffer'.data = s.audioBuf.data ++ Layout.raw.encode xs ∧ len ≤ buffer'.len ∧
      s.refill len = ({ s with decoder := d', audioBuf := buffer' }, false)) ∨
    (∃ d' buffer' xs damaged, s.decoder.Ends d' xs damaged ∧
      buffer'.data = s.audioBuf.data ++ Layout.raw.encode xs ∧ buffer'.len ≤ len ∧
      (s.refill len).1.decoder = d' ∧ (s.refill len).1.audioBuf = buffer' ∧
      (s.refill len).1.log = s.log ++ (Refill.notices damaged).map .post ∧
      (s.refill len).2 = true) := by
  rcases Refill.refilled_start_cases .raw (some len) s.decoder s.audioBuf 0 with
    ⟨d', buffer', xs, hplays, hdata, hlen, heq⟩ |
    ⟨d', buffer', xs, damaged, hends, hdata, hlen, heq⟩
  · refine .inl ⟨d', buffer', xs, hplays, hdata, hlen, ?_⟩
    simp only [refill, heq]
    simp [Refill.start]
  · refine .inr ⟨d', buffer', xs, damaged, hends, hdata, (hlen len rfl).le, ?_⟩
    simp only [refill, heq]
    simp [Refill.start]

/-- What a call writes leaves the buffer. -/
theorem write_kept (s : PulseStream g) (len : Nat) (skip : Duration) :
    writtenIn (s.write len skip).log ++ (s.write len skip).audioBuf.data =
        writtenIn s.log ++ s.audioBuf.data ∧
      postsOf (s.write len skip).log = postsOf s.log ∧
      (s.write len skip).decoder = s.decoder ∧ (s.write len skip).state = s.state := by
  unfold write
  split
  · exact ⟨rfl, rfl, rfl, rfl⟩
  · refine ⟨?_, ?_, rfl, rfl⟩
    · simp
    · simp

/-- A call that asks for no less than there is empties the buffer. -/
theorem write_empties {s : PulseStream g} {len : Nat} (h : s.audioBuf.len ≤ len) (skip : Duration) :
    (s.write len skip).audioBuf.data = [] := by
  unfold write
  split
  · exact GrowVec.isEmpty_iff.1 ‹_›
  · simp only [GrowVec.data_drain, Nat.min_eq_left h]
    exact List.drop_length

@[simp] theorem writtenIn_report (s : PulseStream g) (latency : Option Nat) :
    writtenIn (s.report latency).log = writtenIn s.log := by
  simp [report, act]

@[simp] theorem postsOf_report (s : PulseStream g) (latency : Option Nat) :
    postsOf (s.report latency).log = postsOf s.log := by
  simp [report, act]

@[simp] theorem audioBuf_report (s : PulseStream g) (latency : Option Nat) :
    (s.report latency).audioBuf = s.audioBuf := rfl

@[simp] theorem decoder_report (s : PulseStream g) (latency : Option Nat) :
    (s.report latency).decoder = s.decoder := rfl

@[simp] theorem state_report (s : PulseStream g) (latency : Option Nat) :
    (s.report latency).state = s.state := rfl

/-- A call either goes on with the stream or finishes it. -/
theorem feed_cases (s : PulseStream g) (call : WriteCall) :
    (∃ xs, s.decoder.Plays (s.feed call).decoder xs ∧
      call.len ≤ s.audioBuf.len + 4 * xs.length ∧
      writtenIn (s.feed call).log ++ (s.feed call).audioBuf.data =
        writtenIn s.log ++ s.audioBuf.data ++ Layout.raw.encode xs ∧
      postsOf (s.feed call).log = postsOf s.log ∧ (s.feed call).state = s.state) ∨
    (∃ xs damaged before, s.decoder.Ends (s.feed call).decoder xs damaged ∧
      (s.feed call).log = before ++ [.post .endOfDecode] ∧
      writtenIn before = writtenIn s.log ++ s.audioBuf.data ++ Layout.raw.encode xs ∧
      postsOf before = postsOf s.log ++ Refill.notices damaged ∧
      (s.feed call).audioBuf.data = [] ∧ (s.feed call).state = .draining) := by
  rcases refill_cases s call.len with
    ⟨d', buffer', xs, hplays, hdata, hlen, heq⟩ |
    ⟨d', buffer', xs, damaged, hends, hdata, hlen, hdecoder, hbuffer, hlog, hend⟩
  · -- The refill has stopped at the limit.
    obtain ⟨hwritten, hposts, hdecoder, hstate⟩ :=
      write_kept { s with decoder := d', audioBuf := buffer' } call.len call.skip
    refine .inl ⟨xs, ?_, ?_, ?_, ?_, ?_⟩
    · simpa [feed, heq, hdecoder] using hplays
    · simpa [GrowVec.len, hdata] using hlen
    · simpa [feed, heq, hdata] using hwritten
    · simpa [feed, heq] using hposts
    · simpa [feed, heq] using hstate
  · -- The stream is over, and the call asks for no less than is left of it.
    obtain ⟨hwritten, hposts, hdecoder', -⟩ := write_kept (s.refill call.len).1 call.len call.skip
    have hempty : ((s.refill call.len).1.write call.len call.skip).audioBuf.data = [] :=
      write_empties (hbuffer ▸ hlen) call.skip
    refine .inr ⟨xs, damaged,
      (((s.refill call.len).1.write call.len call.skip).report call.latency).log, ?_, ?_, ?_,
        ?_, ?_, ?_⟩
    · simpa [feed, hend, finish, hdecoder', hdecoder] using hends
    · simp [feed, hend, finish]
    · simpa [hempty, hlog, hbuffer, hdata] using hwritten
    · simpa [hlog] using hposts
    · simpa [feed, hend, finish] using hempty
    · simp [feed, hend, finish]

/-! ## Runs -/

/-- Where a stream of the decoder `d` can stand between two calls. -/
inductive Stands (d : Decoding) (s : PulseStream g) : Prop where
  | starting {xs : List Sample} (hstate : s.state = .starting) (hplays : d.Plays s.decoder xs)
      (hdata : s.audioBuf.data = Layout.raw.encode xs) (hlog : s.log = [])
  | running {xs : List Sample} (hstate : s.state = .running) (hplays : d.Plays s.decoder xs)
      (hdata : writtenIn s.log ++ s.audioBuf.data = Layout.raw.encode xs)
      (hposts : postsOf s.log = [.trackStarted])
  | drained {xs : List Sample} {damaged : Bool} {before : List Action} {n : Nat}
      (hstate : s.state = .drained) (hends : d.Ends s.decoder xs damaged)
      (hempty : s.audioBuf.data = [])
      (hlog : s.log = before ++ .post .endOfDecode :: List.replicate n (.post .drained))
      (hwritten : writtenIn before = Layout.raw.encode xs)
      (hposts : postsOf before = .trackStarted :: Refill.notices damaged)

variable {d : Decoding} {outputThreshold : Duration} {s t : PulseStream g}

/-- A stream that has started is fed, and is drained if that comes to the end. -/
theorem stands_of_fed {xs : List Sample} (hstate : s.state = .running)
    (hplays : d.Plays s.decoder xs)
    (hdata : writtenIn s.log ++ s.audioBuf.data = Layout.raw.encode xs)
    (hposts : postsOf s.log = [.trackStarted]) (call : WriteCall) :
    Stands d (s.feed call).settle := by
  rcases feed_cases s call with
    ⟨ys, hplays', -, hdata', hposts', hstate'⟩ |
    ⟨ys, damaged, before, hends, hlog, hwritten, hposts', hempty, hstate'⟩
  · have hsettle : (s.feed call).settle = s.feed call := by
      simp [settle, hstate', hstate]
    rw [hsettle]
    refine .running (hstate'.trans hstate) (hplays.trans hplays') ?_ (hposts'.trans hposts)
    rw [hdata', hdata, Layout.raw.encode_append]
  · -- Nothing is left in the buffer, so that `Draining` is left at once.
    have hsettle : (s.feed call).settle = { s.feed call with state := .drained } := by
      simp [settle, hstate', GrowVec.isEmpty_iff, hempty]
    rw [hsettle]
    refine .drained (n := 0) rfl (.of_plays hplays hends) hempty hlog ?_ ?_
    · rw [hwritten, hdata, Layout.raw.encode_append]
    · rw [hposts', hposts]
      rfl

theorem stands_onWrite (h : Stands d s) (call : WriteCall) : Stands d (s.onWrite call) := by
  cases h with
  | starting hstate hplays hdata hlog =>
      -- The first call posts `TrackStarted`, and goes on as every other one.
      have hcall : s.onWrite call =
          (feed { s with state := .running, log := [.post .trackStarted] } call).settle := by
        simp [onWrite, begin, hstate, hlog]
      rw [hcall]
      exact stands_of_fed (s := { s with state := .running, log := [.post .trackStarted] })
        rfl hplays hdata rfl call
  | running hstate hplays hdata hposts =>
      have hcall : s.onWrite call = (s.feed call).settle := by
        simp [onWrite, begin, hstate]
      rw [hcall]
      exact stands_of_fed hstate hplays hdata hposts call
  | drained hstate hends hempty hlog hwritten hposts =>
      have hcall : s.onWrite call = s := by
        simp [onWrite, hstate]
      rw [hcall]
      exact .drained hstate hends hempty hlog hwritten hposts

theorem stands_onUnderflow (h : Stands d s) : Stands d s.onUnderflow := by
  cases h with
  | starting hstate hplays hdata hlog =>
      have hcall : s.onUnderflow = s := by simp [onUnderflow, hstate]
      rw [hcall]
      exact .starting hstate hplays hdata hlog
  | running hstate hplays hdata hposts =>
      have hcall : s.onUnderflow = s := by simp [onUnderflow, hstate]
      rw [hcall]
      exact .running hstate hplays hdata hposts
  | @drained xs damaged before n hstate hends hempty hlog hwritten hposts =>
      have hcall : s.onUnderflow = s.act [.post .drained] := by simp [onUnderflow, hstate]
      rw [hcall]
      -- `Drained` is posted once for each underflow.
      refine .drained (n := n + 1) hstate hends hempty ?_ hwritten hposts
      simp [act, hlog, List.replicate_succ']

/-- The invariant of every run. -/
theorem stands (h : (system g d outputThreshold).Reachable s) : Stands d s := by
  refine System.Reachable.invariant (Stands d) ?_ ?_ h
  · rintro s ⟨d', audioBuf, hprefill, rfl⟩
    obtain ⟨xs, hplays, hdata⟩ := plays_of_prefill hprefill
    exact .starting rfl hplays hdata rfl
  · rintro s t _ hs (⟨call, rfl⟩ | rfl)
    · exact stands_onWrite hs call
    · exact stands_onUnderflow hs

theorem endOfDecode_notMem_notices (damaged : Bool) :
    .endOfDecode ∉ .trackStarted :: Refill.notices damaged := by
  cases damaged <;> decide

/-- Whatever PulseAudio asks for, a stream is played as it is decoded: no byte is lost or written
twice, and the end of the track is announced once and after all of it. -/
theorem played (h : (system g d outputThreshold).Reachable s) :
    (∃ xs, d.HandedOut s.decoder xs ∧
      writtenIn s.log ++ s.audioBuf.data = Layout.raw.encode xs) ∧
    (s.log = [] ∨
      ∃ rest, postsOf s.log = .trackStarted :: rest ∧ .trackStarted ∉ rest) ∧
    (postsOf s.log).count .endOfDecode ≤ 1 ∧
    (∀ before after, s.log = before ++ .post .endOfDecode :: after →
      writtenIn before = Layout.raw.encode d.audio ∧ s.state = .drained) ∧
    s.state ≠ .draining ∧
    (s.state = .drained → ∀ call, s.onWrite call = s) := by
  cases stands h with
  | starting hstate hplays hdata hlog =>
      refine ⟨⟨_, hplays.handedOut, by simpa [hlog] using hdata⟩, .inl hlog, ?_, ?_, ?_, ?_⟩
      · simp [hlog]
      · intro before after hsplit
        simp [hlog] at hsplit
      · simp [hstate]
      · simp [hstate]
  | running hstate hplays hdata hposts =>
      refine ⟨⟨_, hplays.handedOut, hdata⟩, .inr ⟨[], hposts, List.not_mem_nil⟩, ?_, ?_, ?_, ?_⟩
      · simp [hposts]
      · intro before after hsplit
        have hmem : .endOfDecode ∈ postsOf s.log := mem_postsOf.2 (by simp [hsplit])
        simp [hposts] at hmem
      · simp [hstate]
      · simp [hstate]
  | @drained xs damaged before n hstate hends hempty hlog hwritten hposts =>
      -- `EndOfDecode` has been posted once, between `before` and the notices of the underflows.
      have hbefore : Action.post .endOfDecode ∉ before := by
        intro hmem
        exact endOfDecode_notMem_notices damaged (hposts ▸ mem_postsOf.2 hmem)
      have hafter : Action.post .endOfDecode ∉ List.replicate n (Action.post .drained) := by
        intro hmem
        cases List.eq_of_mem_replicate hmem
      have hdone : postsOf s.log =
          .trackStarted :: (Refill.notices damaged ++ .endOfDecode ::
            List.replicate n .drained) := by
        rw [hlog, postsOf_append, hposts]
        simp
      refine ⟨⟨xs, hends.handedOut, ?_⟩, .inr ⟨_, hdone, ?_⟩, ?_, ?_, ?_, ?_⟩
      · simp [hempty, hlog, hwritten]
      · cases damaged <;> simp [Refill.notices]
      · cases damaged <;> simp [hdone, Refill.notices, List.count_replicate]
      · intro before' after' hsplit
        obtain ⟨rfl, -, -⟩ :=
          (List.append_cons_inj_of_notMem hbefore hafter).1 (hlog.symm.trans hsplit)
        exact ⟨by rw [hwritten, hends.audio_eq], hstate⟩
      · simp [hstate]
      · intro _ call
        simp [onWrite, hstate]

/-- The last frame of a stream, once PulseAudio has asked for it. -/
def lastFrameWritten : PulseStream .exact :=
  onWrite
    (new { lastFrame with pending := [] }
      ((GrowVec.withCapacity MIN_AUDIO_BUFFER_SIZE).extend (Layout.raw.encode [0, 0])))
    { len := 16, skip := 0, latency := none }

theorem reachable_lastFrameWritten :
    (system .exact lastFrame 0).Reachable lastFrameWritten :=
  .step (.init ⟨_, _, rfl, rfl⟩) (.inl ⟨_, rfl⟩)

theorem played_lastFrame :
    lastFrameWritten.state = .drained ∧
      ∀ before after, lastFrameWritten.log = before ++ .post .endOfDecode :: after →
        writtenIn before = Layout.raw.encode lastFrame.audio ∧ lastFrameWritten.state = .drained :=
  ⟨rfl, (played reachable_lastFrameWritten).2.2.2.1⟩

end PulseStream

end Vibe
end LmsPlayer
