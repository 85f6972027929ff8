import LmsPlayer.Vibe.Pass
import LmsPlayer.Vibe.PulseStream
import LmsPlayer.Vibe.PipewireStream
import LmsPlayer.Vibe.RodioStream

/-!
# Vibe.Backends — how the three backends announce the start and the end of a track

The callbacks of the three backends, side by side on the same stream.  A stream is played out when
everything has been handed over: a PulseAudio stream is `Drained`, a PipeWire stream is draining
with nothing in its buffer, and rodio has been given a `None`.  Enough calls bring every stream
there.

The PulseAudio callback and the source of rodio post `EndOfDecode` after a `StreamError` too.  The
PipeWire callback does not: the error has already changed the state that it looks at.

The start of a track is announced at most once (`StartsOnce`): by the first call in PulseAudio and
in rodio, and in PipeWire by the change of the state that comes of `connect`.  So a stream posts
what a `BackendStep` of the program lets it post (`backendStep_of_startsOnce`).
-/

namespace LmsPlayer
namespace Vibe

open Channel (Sends)
open ThreadPool (Replace)
open TransitionSystem (System)

variable {g : Growth} {d : Decoding} {outputThreshold : Duration}

/-- The messages with which the end of a track is announced. -/
def endings (log : List Action) : List PlayerMsg :=
  (postsOf log).filter fun msg => msg = .notSupported ∨ msg = .endOfDecode

namespace PulseStream

variable {s t : PulseStream g}

/-- A run in which the stream has been played out. -/
structure PlayedOut (d : Decoding) (outputThreshold : Duration) (s : PulseStream g) : Prop where
  reachable : (system g d outputThreshold).Reachable s
  drained : s.state = .drained

theorem endings_of_drained (h : s.PlayedOut d outputThreshold) :
    ∃ damaged : Bool, (d.Damaged ↔ damaged = true) ∧
      endings s.log = Refill.notices damaged ++ [.endOfDecode] := by
  cases stands h.reachable with
  | starting hstate => cases h.drained.symm.trans hstate
  | running hstate => cases h.drained.symm.trans hstate
  | @drained xs damaged before n _ hends hempty hlog hwritten hposts =>
      refine ⟨damaged, hends.damaged_iff, ?_⟩
      cases damaged <;> simp [endings, hlog, hposts, Refill.notices]

/-- A call that asks for more than there is comes to the end of the stream. -/
theorem drained_of_feed {call : WriteCall}
    (hlen : s.audioBuf.len + 4 * s.decoder.audio.length < call.len) :
    (s.feed call).settle.state = .drained := by
  -- A refill that stops at the limit would have found more samples than there are.
  rcases feed_cases s call with
    ⟨xs, hplays, hfull, -⟩ | ⟨xs, damaged, before, -, -, -, -, hempty, hstate⟩
  · have hle : xs.length ≤ s.decoder.audio.length := by
      simp [hplays.audio_eq]
    omega
  · simp [settle, hstate, GrowVec.isEmpty_iff, hempty]

/-- One call is enough to play a stream out. -/
theorem exists_playedOut (h : (system g d outputThreshold).Reachable s) :
    ∃ t : PulseStream g, t.PlayedOut d outputThreshold := by
  let call : WriteCall :=
    { len := s.audioBuf.len + 4 * s.decoder.audio.length + 1, skip := 0, latency := none }
  have hcall : (system g d outputThreshold).Reachable (s.onWrite call) := h.step (.inl ⟨call, rfl⟩)
  cases stands h with
  | starting hstate hplays hdata hlog =>
      have hwrite : s.onWrite call =
          (feed { s with state := .running, log := [.post .trackStarted] } call).settle := by
        simp [onWrite, begin, hstate, hlog]
      exact ⟨_, hcall, hwrite ▸ drained_of_feed (Nat.lt_succ_self _)⟩
  | running hstate hplays hdata hposts =>
      have hwrite : s.onWrite call = (s.feed call).settle := by
        simp [onWrite, begin, hstate]
      exact ⟨_, hcall, hwrite ▸ drained_of_feed (Nat.lt_succ_self _)⟩
  | drained hstate => exact ⟨s, h, hstate⟩

end PulseStream

namespace PipewireStream

variable {s t : PipewireStream g}

/-- A run in which the stream has been played out. -/
structure PlayedOut (d : Decoding) (outputThreshold : Duration) (s : PipewireStream g) : Prop where
  reachable : (system g d outputThreshold).Reachable s
  draining : s.state = .draining
  empty : s.audioBuf.data = []

theorem endings_of_draining (h : s.PlayedOut d outputThreshold) :
    ∃ damaged : Bool, (d.Damaged ↔ damaged = true) ∧
      endings s.log = announced damaged := by
  cases stands h.reachable with
  | running hstate => cases h.draining.symm.trans hstate
  | @draining xs damaged _ hends hdata hposts hflush =>
      refine ⟨damaged, hends.damaged_iff, ?_⟩
      cases damaged <;> simp [endings, hposts, announced]

/-- A call with a buffer that is large enough takes all there is in the buffer of the stream. -/
theorem handOver_empties {size : Nat} (h : s.audioBuf.len ≤ size) :
    (s.handOver (.mapped size)).audioBuf.data = [] := by
  unfold handOver
  split
  · exact GrowVec.isEmpty_iff.1 ‹_›
  · simp only [Nat.min_eq_right h, apply_ite GrowVec.data, GrowVec.data_reserve, GrowVec.data_drain,
      ite_self]
    exact List.drop_length

/-- A call with a large buffer, which is what it takes to play a stream out. -/
def largeCall (s : PipewireStream g) : ProcessCall :=
  { skip := 0
    buffer := .mapped (s.audioBuf.len + 4 * s.decoder.audio.length)
    time := none }

/-- After such a call the buffer is empty, and either the decoder has come to its end or some of
what was pending has been used. -/
theorem of_largeCall {fuel : Nat} (h : s.onProcess fuel s.largeCall = some t) :
    t.audioBuf.data = [] ∧
      (t.state = .draining ∨ s.audioBuf.data ≠ [] ∨
        t.decoder.pending.length < s.decoder.pending.length) := by
  obtain ⟨⟨u, eod⟩, hrefill, ht⟩ := Option.map_eq_some_iff.1 h
  have hserved : t = (u.handOver s.largeCall.buffer).finish eod := ht.symm
  have hfinish : t.audioBuf = (u.handOver s.largeCall.buffer).audioBuf ∧
      t.decoder = u.decoder := by
    rw [hserved, finish]
    split <;> exact ⟨rfl, (handOver_kept u _).2.2.1⟩
  have hdraining : eod = true → t.state = .draining := by
    rintro rfl
    rw [hserved, finish]
    cases hstate : (u.handOver s.largeCall.buffer).state <;> simp [hstate]
  cases hstate : s.state with
  | draining =>
      rw [refill, if_pos hstate] at hrefill
      cases hrefill
      refine ⟨?_, .inl (hdraining rfl)⟩
      rw [hfinish.1]
      exact handOver_empties (Nat.le_add_right _ _)
  | running =>
      -- A refill adds no more than the stream has, and so no more than the buffer takes.
      rcases refill_cases hstate hrefill with
        ⟨xs, hplays, hdata, hsome, -, -, -⟩ | ⟨xs, damaged, hends, hdata, -, -, rfl⟩
      · have hle : xs.length ≤ s.decoder.audio.length := by
          simp [hplays.audio_eq]
        refine ⟨?_, .inr ?_⟩
        · rw [hfinish.1]
          refine handOver_empties ?_
          simp only [GrowVec.len, hdata, List.length_append, Layout.length_raw]
          omega
        · by_cases hbuf : s.audioBuf.data = []
          · refine .inr ?_
            rw [hfinish.2]
            refine hplays.handedOut.length_pending_lt ?_
            rintro rfl
            exact hsome (by simp [hdata, hbuf, Layout.encode_nil])
          · exact .inl hbuf
      · have hle : xs.length ≤ s.decoder.audio.length := by
          simp [hends.audio_eq]
        refine ⟨?_, .inl (hdraining rfl)⟩
        rw [hfinish.1]
        refine handOver_empties ?_
        simp only [GrowVec.len, hdata, List.length_append, Layout.length_raw]
        omega

/-- Enough calls play a stream out. -/
theorem exists_playedOut (h : (system g d outputThreshold).Reachable s) :
    ∃ t : PipewireStream g, t.PlayedOut d outputThreshold := by
  have hcall : ∀ {s : PipewireStream g}, (system g d outputThreshold).Reachable s →
      ∃ t, (system g d outputThreshold).Reachable t ∧ t.audioBuf.data = [] ∧
        (t.state = .draining ∨ s.audioBuf.data ≠ [] ∨
          t.decoder.pending.length < s.decoder.pending.length) := by
    intro s h
    have hskip : s.largeCall.skip = 0 := rfl
    obtain ⟨fuel, t, hcall⟩ := exists_onProcess s hskip
    exact ⟨t, h.step ⟨fuel, s.largeCall, rfl, hcall⟩, of_largeCall hcall⟩
  -- After the first call the buffer is empty, and from then on every call uses what is pending.
  have hrest : ∀ n, ∀ s : PipewireStream g, (system g d outputThreshold).Reachable s →
      s.audioBuf.data = [] → s.decoder.pending.length ≤ n →
        ∃ t : PipewireStream g, t.PlayedOut d outputThreshold := by
    intro n
    induction n with
    | zero =>
        intro s h hempty hpending
        obtain ⟨t, ht, hempty', hdraining | hsome | hless⟩ := hcall h
        · exact ⟨t, ht, hdraining, hempty'⟩
        · exact absurd hempty hsome
        · omega
    | succ n ih =>
        intro s h hempty hpending
        obtain ⟨t, ht, hempty', hdraining | hsome | hless⟩ := hcall h
        · exact ⟨t, ht, hdraining, hempty'⟩
        · exact absurd hempty hsome
        · exact ih t ht hempty' (by omega)
  obtain ⟨t, ht, hempty, -⟩ := hcall h
  exact hrest _ t ht hempty le_rfl

end PipewireStream

namespace DecoderSource

variable {s t : DecoderSource g}

/-- A run in which the stream has been played out. -/
structure PlayedOut (d : Decoding) (s : DecoderSource g) : Prop where
  reachable : (system g d).Reachable s
  returnedNone : none ∈ returned s.log

theorem endings_of_over (h : s.PlayedOut d) :
    ∃ damaged : Bool, (d.Damaged ↔ damaged = true) ∧
      endings s.log = Refill.notices damaged ++ [.endOfDecode] := by
  have hnone := h.returnedNone
  cases stands h.reachable with
  | fresh _ _ _ _ hlog => simp [hlog] at hnone
  | playing _ _ _ _ hreturned => simp [hreturned] at hnone
  | ending _ _ _ _ hreturned => simp [hreturned] at hnone
  | @silent xs damaged before n _ _ hends _ hlog hreturned hposts =>
      refine ⟨damaged, hends.damaged_iff, ?_⟩
      cases damaged <;>
        simp [endings, hlog, hposts, postsOf_silence, announced, Refill.notices]

/-- Every call returns one value. -/
theorem length_returned_next {fuel : Nat} {sample : Option Sample}
    (h : s.next fuel 0 = some (t, sample)) :
    (returned t.log).length = (returned s.log).length + 1 := by
  obtain ⟨u, hrefill, hpop⟩ := Option.map_eq_some_iff.1 h
  have hbegin : returned s.begin.log = returned s.log := by
    simp only [begin]
    split <;> simp
  have hu : returned u.log = returned s.log := by
    cases heod : s.begin.eodFlag with
    | false =>
        obtain ⟨-, ⟨xs, -, -, -, -, -, hreturned⟩ | ⟨xs, damaged, -, -, -, -, hreturned⟩⟩ :=
          refill_cases heod hrefill
        · exact hreturned.trans hbegin
        · exact hreturned.trans hbegin
    | true =>
        rw [refill_of_eod heod] at hrefill
        cases hrefill
        exact hbegin
  have ht : t = u.pop.1 := by rw [hpop]
  cases hdata : u.frame.data with
  | nil => simp [ht, pop_of_nil hdata, hu]
  | cons x rest => simp [ht, pop_of_cons hdata, hu]

/-- Before the first `None` no more values are returned than there are samples. -/
theorem length_returned_le (h : (system g d).Reachable s) (hnone : none ∉ returned s.log) :
    (returned s.log).length ≤ d.audio.length := by
  cases stands h with
  | fresh _ _ _ _ hlog => simp [hlog]
  | playing _ _ hplays hframe hreturned =>
      simp only [hreturned, List.length_map, hplays.audio_eq, ← hframe, List.length_append]
      omega
  | ending _ _ hends hframe hreturned =>
      simp only [hreturned, List.length_map, hends.audio_eq, ← hframe, List.length_append]
      omega
  | silent _ _ _ _ hlog => exact absurd (by simp [hlog, returned_silence]) hnone

/-- Enough calls return `None`. -/
theorem exists_playedOut (h : (system g d).Reachable s) : ∃ t : DecoderSource g, t.PlayedOut d := by
  -- By induction on the number of values that can be returned before a `None` has to be.
  induction hn : d.audio.length + 1 - (returned s.log).length generalizing s with
  | zero =>
      refine ⟨s, h, ?_⟩
      by_contra hnone
      have hle := length_returned_le h hnone
      omega
  | succ n ih =>
      obtain ⟨fuel, ⟨t, sample⟩, hnext⟩ := exists_next s
      have hlength := length_returned_next hnext
      exact ih (h.step ⟨fuel, sample, hnext⟩) (by omega)

end DecoderSource

/-! ## Agreement -/

/-- Every stream that is not damaged at its beginning can be played out by all three backends. -/
theorem exists_playedOut (g : Growth) (hprefill : (prefill g d outputThreshold).isSome = true) :
    (∃ p : PulseStream g, p.PlayedOut d outputThreshold) ∧
      (∃ w : PipewireStream g, w.PlayedOut d outputThreshold) ∧
      ∃ r : DecoderSource g, r.PlayedOut d := by
  obtain ⟨⟨d', audioBuf⟩, hsome⟩ := Option.isSome_iff_exists.1 hprefill
  let clock : StreamClock := { duration := 0, startTicks := none, skipOffsetMs := 0 }
  exact ⟨PulseStream.exists_playedOut (.init ⟨d', audioBuf, hsome, rfl⟩),
    PipewireStream.exists_playedOut (.init ⟨d', audioBuf, clock, hsome, rfl⟩),
    DecoderSource.exists_playedOut (.init ⟨0, rfl⟩)⟩

/-- The backends announce the end of a track alike exactly when there is no `StreamError`. -/
theorem backends_agree_iff (g : Growth) (hprefill : (prefill g d outputThreshold).isSome = true) :
    (∀ (p : PulseStream g) (w : PipewireStream g) (r : DecoderSource g),
      p.PlayedOut d outputThreshold → w.PlayedOut d outputThreshold → r.PlayedOut d →
        endings p.log = endings w.log ∧ endings w.log = endings r.log ∧
          (endings w.log).count .endOfDecode = 1) ↔
      ¬d.Damaged := by
  constructor
  · intro hagree hdamaged
    obtain ⟨⟨p, hp⟩, ⟨w, hw⟩, r, hr⟩ := exists_playedOut g hprefill
    obtain ⟨damaged, hdamaged', hendings⟩ := PipewireStream.endings_of_draining hw
    -- After the error the PipeWire callback posts nothing more.
    have honce := (hagree p w r hp hw hr).2.2
    rw [hendings, hdamaged'.1 hdamaged] at honce
    simp [PipewireStream.announced] at honce
  · intro hwhole p w r hp hw hr
    obtain ⟨damaged, hdamaged, hendings⟩ := PulseStream.endings_of_drained hp
    obtain ⟨damaged', hdamaged', hendings'⟩ := PipewireStream.endings_of_draining hw
    obtain ⟨damaged'', hdamaged'', hendings''⟩ := DecoderSource.endings_of_over hr
    -- Without an error the three announcements are the same.
    have hfalse : damaged = false := by simpa [hdamaged] using hwhole
    have hfalse' : damaged' = false := by simpa [hdamaged'] using hwhole
    have hfalse'' : damaged'' = false := by simpa [hdamaged''] using hwhole
    rw [hendings, hendings', hendings'', hfalse, hfalse', hfalse'']
    decide

theorem backends_agree_lastFrame :
    ∃ (p : PulseStream .exact) (w : PipewireStream .exact) (r : DecoderSource .exact),
      p.PlayedOut lastFrame 0 ∧ w.PlayedOut lastFrame 0 ∧ r.PlayedOut lastFrame ∧
        endings p.log = endings w.log ∧ endings w.log = endings r.log ∧
          (endings w.log).count .endOfDecode = 1 := by
  have hprefill : (prefill .exact lastFrame 0).isSome = true := by decide
  have hwhole : ¬lastFrame.Damaged := by simp [Decoding.Damaged, lastFrame]
  obtain ⟨⟨p, hp⟩, ⟨w, hw⟩, r, hr⟩ := exists_playedOut .exact hprefill
  exact ⟨p, w, r, hp, hw, hr, (backends_agree_iff .exact hprefill).2 hwhole p w r hp hw hr⟩

/-- A stream that breaks off after one packet. -/
def brokenOff : Decoding :=
  { sampleRate := 44100
    channels := 2
    sampleRate_pos := lastFrame.sampleRate_pos
    channels_pos := lastFrame.channels_pos
    pending := [.ok (List.replicate 1024 0)]
    ending := .streamError }

/-- With PipeWire its end is not announced. -/
theorem backends_disagree_brokenOff :
    ∃ (p : PulseStream .exact) (w : PipewireStream .exact) (r : DecoderSource .exact),
      p.PlayedOut brokenOff 0 ∧ w.PlayedOut brokenOff 0 ∧ r.PlayedOut brokenOff ∧
        endings p.log = [.notSupported, .endOfDecode] ∧ endings w.log = [.notSupported] ∧
          endings r.log = [.notSupported, .endOfDecode] := by
  have hprefill : (prefill .exact brokenOff 0).isSome = true := by decide +kernel
  have hdamaged : brokenOff.Damaged := .inr rfl
  obtain ⟨⟨p, hp⟩, ⟨w, hw⟩, r, hr⟩ := exists_playedOut .exact hprefill
  obtain ⟨damaged, hiff, hendings⟩ := PulseStream.endings_of_drained hp
  obtain ⟨damaged', hiff', hendings'⟩ := PipewireStream.endings_of_draining hw
  obtain ⟨damaged'', hiff'', hendings''⟩ := DecoderSource.endings_of_over hr
  rw [hiff.1 hdamaged] at hendings
  rw [hiff'.1 hdamaged] at hendings'
  rw [hiff''.1 hdamaged] at hendings''
  exact ⟨p, w, r, hp, hw, hr, hendings, hendings', hendings''⟩

/-! ## The start of a track -/

/-- A stream posts what callbacks post, and announces the start of its track at most once. -/
structure StartsOnce (posts : List PlayerMsg) : Prop where
  fromCallback : ∀ msg ∈ posts, msg.FromCallback
  once : posts.count .trackStarted ≤ 1

namespace StartsOnce

theorem nil : StartsOnce [] where
  fromCallback := List.forall_mem_nil _
  once := Nat.zero_le 1

theorem cons {rest : List PlayerMsg} (hrest : ∀ msg ∈ rest, msg.FromCallback)
    (hnone : .trackStarted ∉ rest) : StartsOnce (.trackStarted :: rest) where
  fromCallback := List.forall_mem_cons.2 ⟨trivial, hrest⟩
  once := by rw [List.count_cons_self, List.count_eq_zero.2 hnone]

/-- A track that has been announced, with its end and whatever `Drained` comes behind that. -/
theorem ended (damaged : Bool) (n : Nat) : StartsOnce
    (.trackStarted :: (Refill.notices damaged ++ .endOfDecode :: List.replicate n .drained)) := by
  refine .cons ?_ ?_
  · cases damaged <;> simp [Refill.notices, PlayerMsg.FromCallback]
  · cases damaged <;> simp [Refill.notices]

theorem of_perm {posts posts' : List PlayerMsg} (h : StartsOnce posts) (hperm : posts'.Perm posts) :
    StartsOnce posts' where
  fromCallback msg hmsg := h.fromCallback msg (hperm.mem_iff.1 hmsg)
  once := (hperm.count_eq _).trans_le h.once

end StartsOnce

theorem PulseStream.startsOnce {s : PulseStream g} (h : (system g d outputThreshold).Reachable s) :
    StartsOnce (postsOf s.log) := by
  cases stands h with
  | starting hstate hplays hdata hlog =>
      rw [hlog]
      exact .nil
  | running hstate hplays hdata hposts =>
      rw [hposts]
      exact .cons (List.forall_mem_nil _) List.not_mem_nil
  | @drained xs damaged before n hstate hends hempty hlog hwritten hposts =>
      have hall : postsOf s.log =
          .trackStarted :: (Refill.notices damaged ++ .endOfDecode ::
            List.replicate n .drained) := by
        rw [hlog, postsOf_append, hposts]
        simp
      rw [hall]
      exact .ended damaged n

theorem DecoderSource.startsOnce {s : DecoderSource g} (h : (system g d).Reachable s) :
    StartsOnce (postsOf s.log) := by
  cases stands h with
  | fresh hstart heod hdecoder hframe hlog =>
      rw [hlog]
      exact .nil
  | playing hstart heod hplays hframe hreturned hposts =>
      rw [hposts]
      exact .cons (List.forall_mem_nil _) List.not_mem_nil
  | @ending xs ys damaged hstart heod hends hframe hreturned hposts =>
      rw [hposts]
      exact .ended damaged 0
  | @silent xs damaged before n hstart heod hends hframe hlog hreturned hposts =>
      have hall : postsOf s.log = .trackStarted ::
          (Refill.notices damaged ++ .endOfDecode :: List.replicate (n + 1) .drained) := by
        rw [hlog, postsOf_append, hposts, postsOf_silence]
        simp [announced]
      rw [hall]
      exact .ended damaged (n + 1)

namespace PipewireStream

/-- The state of a stream, as PipeWire has it. -/
inductive StreamState where
  | error
  | unconnected
  | connecting
  | paused
  | streaming
  deriving DecidableEq, Repr

/-- What `on_state_change` posts. -/
def onStateChange : StreamState → StreamState → Option PlayerMsg
  | .connecting, .paused => some .trackStarted
  | .connecting, .streaming => some .trackStarted
  | .error, _ => some .notSupported
  | _, .error => some .notSupported
  | _, _ => none

/-- What it posts for a stream that goes through these states. -/
def stateMsgs : List StreamState → List PlayerMsg
  | old :: new :: rest => (onStateChange old new).toList ++ stateMsgs (new :: rest)
  | _ => []

theorem fromCallback_of_mem_stateMsgs {states : List StreamState} :
    ∀ msg ∈ stateMsgs states, msg.FromCallback := by
  induction states using stateMsgs.induct with
  | case1 old new rest ih =>
      have hchange : ∀ msg ∈ (onStateChange old new).toList, msg.FromCallback := by
        cases old <;> cases new <;> simp [onStateChange, PlayerMsg.FromCallback]
      exact List.forall_mem_append.2 ⟨hchange, ih⟩
  | case2 states hshort =>
      rw [stateMsgs.eq_2 states hshort]
      exact List.forall_mem_nil _

/-- The start of the track is announced when a stream is not connecting any more. -/
theorem count_stateMsgs_le (states : List StreamState) :
    (stateMsgs states).count .trackStarted ≤ states.count .connecting := by
  induction states using stateMsgs.induct with
  | case1 old new rest ih =>
      -- What is posted for a change goes by the state that is left.
      have hchange :
          (onStateChange old new).toList.count .trackStarted ≤ [old].count .connecting := by
        cases old <;> cases new <;> decide
      calc
        (stateMsgs (old :: new :: rest)).count .trackStarted
            = (onStateChange old new).toList.count .trackStarted +
                (stateMsgs (new :: rest)).count .trackStarted := List.count_append
        _ ≤ [old].count .connecting + (new :: rest).count .connecting := Nat.add_le_add hchange ih
        _ = (old :: new :: rest).count .connecting := List.count_append.symm
  | case2 states hshort =>
      rw [stateMsgs.eq_2 states hshort]
      exact Nat.zero_le _

/-- A stream of PipeWire, which is connected once: its three callbacks may take turns in any way. -/
theorem startsOnce {s : PipewireStream g} (h : (system g d outputThreshold).Reachable s)
    {states : List StreamState} (hconnect : states.count .connecting ≤ 1) {n : Nat}
    {posts : List PlayerMsg}
    (hposts : posts.Perm (stateMsgs states ++ (postsOf s.log ++ List.replicate n .drained))) :
    StartsOnce posts := by
  have hprocess : ∀ msg ∈ postsOf s.log, msg = .notSupported ∨ msg = .endOfDecode := by
    cases stands h with
    | running hstate hplays hdata hlog => simp [hlog]
    | @draining xs damaged hstate hends hdata hlog => cases damaged <;> simp [hlog, announced]
  have hother : ∀ msg ∈ postsOf s.log ++ List.replicate n .drained,
      msg.FromCallback ∧ msg ≠ .trackStarted := by
    intro msg hmsg
    rcases List.mem_append.1 hmsg with hmem | hmem
    · rcases hprocess msg hmem with rfl | rfl
      · simp [PlayerMsg.FromCallback]
      · simp [PlayerMsg.FromCallback]
    · cases List.eq_of_mem_replicate hmem
      simp [PlayerMsg.FromCallback]
  refine StartsOnce.of_perm ⟨?_, ?_⟩ hposts
  · exact List.forall_mem_append.2
      ⟨fromCallback_of_mem_stateMsgs, fun msg hmsg => (hother msg hmsg).1⟩
  · -- Only a change of the state announces the start.
    have hnone :
        (postsOf s.log ++ List.replicate n PlayerMsg.drained).count .trackStarted = 0 :=
      List.count_eq_zero.2 fun hmem => (hother _ hmem).2 rfl
    rw [List.count_append, hnone]
    exact le_trans (count_stateMsgs_le states) hconnect

end PipewireStream

/-- What a stream posts next is what the program lets it post, if a stream that has not announced
the start of its track is still among those that are to. -/
theorem backendStep_of_startsOnce {O : Type} {now : Instant} {globals : Globals} {p : Pass O}
    {decoder : VibeDecoder} {posted rest : List PlayerMsg} {msg : PlayerMsg}
    {queue : List PlayerMsg} (h : StartsOnce (posted ++ msg :: rest))
    (hstarting : .trackStarted ∉ posted → decoder ∈ p.starting)
    (hsend : Sends (p.attached = true) STREAM_CAPACITY p.stream msg queue) :
    ∃ starting,
      BackendStep now globals p globals { p with stream := queue, starting := starting } ∧
      (.trackStarted ∉ posted ++ [msg] → decoder ∈ starting) := by
  by_cases hmsg : msg = .trackStarted
  · subst hmsg
    -- It has not been posted before, so the stream is still there to leave.
    have hfirst : .trackStarted ∉ posted := by
      intro hmem
      have hpos := List.count_pos_iff.2 hmem
      have honce := h.once
      rw [List.count_append, List.count_cons_self] at honce
      omega
    obtain ⟨starting, hleft⟩ := Replace.exists_of_mem (hstarting hfirst) none
    refine ⟨starting, .trackStarted hsend hleft, ?_⟩
    intro hnone
    exact absurd (List.mem_append_right _ (List.mem_singleton_self _)) hnone
  · have hfrom := h.fromCallback msg (List.mem_append_right _ (List.mem_cons_self ..))
    refine ⟨p.starting, .post hfrom hmsg hsend, ?_⟩
    intro hnone
    exact hstarting fun hmem => hnone (List.mem_append_left _ hmem)

end Vibe
end LmsPlayer
