import LmsPlayer.Library.TransitionSystem
import LmsPlayer.Vibe.Callback

/-!
# Vibe.RodioStream — the source that rodio plays

rodio takes one sample after the other from `DecoderSource::next`, and takes `None` for the end of
the track.  The source keeps a deque of samples and refills it, through a vector of its own, when it
runs low.

As with PipeWire, a call may not return while a Skip is pending, so `next` runs with fuel.
-/

namespace LmsPlayer
namespace Vibe

open TransitionSystem

structure DecoderSource (g : Growth) where
  decoder : Decoding
  frame : GrowVec g Sample
  startFlag : Bool
  eodFlag : Bool
  log : List Action

namespace DecoderSource

variable {g : Growth}

def MIN_AUDIO_BUFFER_SIZE : Nat := 4 * 1024

def new (decoder : Decoding) (capacity : Nat) : DecoderSource g :=
  { decoder := decoder
    frame := GrowVec.withCapacity capacity
    startFlag := true
    eodFlag := false
    log := [] }

def begin (s : DecoderSource g) : DecoderSource g :=
  if s.startFlag then
    { s with
      startFlag := false
      log := s.log ++ [.post .trackStarted] }
  else
    s

/-- What the loop leaves behind, the report of the buffer fullness and the end of decode. -/
def absorb (s : DecoderSource g) (r : Refill g Sample) (eod : Bool) : DecoderSource g :=
  -- Nothing is appended when the loop has found nothing.
  let frame := if r.audioBuf.isEmpty then s.frame else s.frame.extend r.audioBuf.data
  { s with
    decoder := r.decoder
    frame := frame
    eodFlag := eod
    log := s.log ++ r.posted.map .post ++
      [.report (UInt32.ofNat (frame.capacity * 4)) (UInt32.ofNat (frame.len * 4))] ++
      if eod then [.post .endOfDecode] else [] }

/-- The loop fills a vector of its own, which starts empty. -/
def loopStart (s : DecoderSource g) (skip : Duration) : Refill g Sample :=
  .start s.decoder (GrowVec.withCapacity s.frame.capacity) skip

def refill (fuel : Nat) (s : DecoderSource g) (skip : Duration) : Option (DecoderSource g) :=
  if s.frame.len < MIN_AUDIO_BUFFER_SIZE ∧ s.eodFlag = false then
    (Iteration.run Refill.rodioRound fuel (s.loopStart skip)).map fun (r, eod) => s.absorb r eod
  else
    some s

/-- Take the next sample. -/
def pop (s : DecoderSource g) : DecoderSource g × Option Sample :=
  match s.frame.data with
  -- rodio drops the source at the first `None`, but nothing here relies on that.
  | [] => ({ s with log := s.log ++ [.post .drained, .yield none] }, none)
  | x :: _ =>
      ({ s with
        frame := s.frame.drain 1
        log := s.log ++ [.yield (some x)] }, some x)

def next (fuel : Nat) (s : DecoderSource g) (skip : Duration) :
    Option (DecoderSource g × Option Sample) :=
  (s.begin.refill fuel skip).map pop

/-- All the calls that rodio may make while no Skip is pending. -/
def system (g : Growth) (d : Decoding) : System (DecoderSource g) :=
  { init := fun s => ∃ capacity, s = new d capacity
    step := fun s t => ∃ fuel sample, s.next fuel 0 = some (t, sample) }

@[simp] def yield? : Action → Option (Option Sample)
  | .yield sample => some sample
  | _ => none

/-- The values that have been returned. -/
def returned (log : List Action) : List (Option Sample) := log.filterMap yield?

@[simp] theorem returned_nil : returned [] = [] := rfl

@[simp] theorem returned_cons (action : Action) (log : List Action) :
    returned (action :: log) = (yield? action).toList ++ returned log := by
  cases action <;> rfl

@[simp] theorem returned_append (log log' : List Action) :
    returned (log ++ log') = returned log ++ returned log' := List.filterMap_append

@[simp] theorem returned_map_post (msgs : List PlayerMsg) : returned (msgs.map .post) = [] := by
  induction msgs with
  | nil => rfl
  | cons msg msgs ih => simp [ih]

/-! ## The parts of a call -/

/-- The loop returns when no Skip is pending, and what it leaves behind does not depend on the
fuel. -/
theorem refill_iff (s : DecoderSource g)
    (hlow : s.frame.len < MIN_AUDIO_BUFFER_SIZE ∧ s.eodFlag = false) (t : DecoderSource g) :
    (∃ fuel, s.refill fuel 0 = some t) ↔
      s.absorb (Refill.refilled .samples Refill.rodioLimit (s.loopStart 0)).1
        (Refill.refilled .samples Refill.rodioLimit (s.loopStart 0)).2 = t := by
  have hreturns : Iteration.Returns Refill.rodioRound (s.loopStart 0)
      (Refill.refilled .samples Refill.rodioLimit (s.loopStart 0)) :=
    (Refill.returns_skipRound_iff rfl).2 rfl
  simp only [refill, hlow, and_self, if_true]
  exact hreturns.exists_map_eq_some_iff

/-- Without a Skip every call returns. -/
theorem exists_next (s : DecoderSource g) : ∃ fuel r, s.next fuel 0 = some r := by
  by_cases hlow : s.begin.frame.len < MIN_AUDIO_BUFFER_SIZE ∧ s.begin.eodFlag = false
  · obtain ⟨fuel, hrefill⟩ := (refill_iff s.begin hlow _).2 rfl
    exact ⟨fuel, _, by rw [next, hrefill]; rfl⟩
  · exact ⟨0, _, by rw [next, refill, if_neg hlow]; rfl⟩

/-- The samples of the refill are appended, whether there are any or not. -/
theorem data_absorb (s : DecoderSource g) (r : Refill g Sample) (eod : Bool) :
    (s.absorb r eod).frame.data = s.frame.data ++ r.audioBuf.data := by
  simp only [absorb]
  split
  · simp [GrowVec.isEmpty_iff.1 ‹_›]
  · rfl

/-- A source that runs low gets more samples than it needs for the call, or comes to the end. -/
theorem refill_cases {s t : DecoderSource g} {fuel : Nat} (heod : s.eodFlag = false)
    (h : s.refill fuel 0 = some t) :
    t.startFlag = s.startFlag ∧
    ((∃ xs, s.decoder.Plays t.decoder xs ∧ t.frame.data = s.frame.data ++ xs ∧
      t.frame.data ≠ [] ∧ t.eodFlag = false ∧ postsOf t.log = postsOf s.log ∧
      returned t.log = returned s.log) ∨
    (∃ xs damaged, s.decoder.Ends t.decoder xs damaged ∧ t.frame.data = s.frame.data ++ xs ∧
      t.eodFlag = true ∧
      postsOf t.log = postsOf s.log ++ (Refill.notices damaged ++ [.endOfDecode]) ∧
      returned t.log = returned s.log)) := by
  by_cases hlow : s.frame.len < MIN_AUDIO_BUFFER_SIZE ∧ s.eodFlag = false
  · have habsorb := (refill_iff s hlow t).1 ⟨fuel, h⟩
    rw [loopStart] at habsorb
    rcases Refill.refilled_start_cases .samples Refill.rodioLimit s.decoder
      (GrowVec.withCapacity s.frame.capacity : GrowVec g Sample) 0 with
      ⟨d', buffer', xs, hplays, hdata, hlen, heq⟩ |
      ⟨d', buffer', xs, damaged, hends, hdata, -, heq⟩
    · rw [heq] at habsorb
      subst habsorb
      have hxs : buffer'.data = xs := by simpa [Layout.samples] using hdata
      refine ⟨rfl, .inl ⟨xs, hplays, ?_, ?_, rfl, ?_, ?_⟩⟩
      · rw [data_absorb]
        simp [Refill.start, hxs]
      · rw [data_absorb]
        intro hempty
        have hnil : buffer'.data = [] := (List.append_eq_nil_iff.1 hempty).2
        have hzero : buffer'.len = 0 := GrowVec.len_eq_zero.2 hnil
        simp [hzero, Refill.leastLimit, Refill.rodioLimit] at hlen
      · simp [absorb, Refill.start]
      · simp [absorb, Refill.start]
    · rw [heq] at habsorb
      subst habsorb
      have hxs : buffer'.data = xs := by simpa [Layout.samples] using hdata
      refine ⟨rfl, .inr ⟨xs, damaged, hends, ?_, rfl, ?_, ?_⟩⟩
      · rw [data_absorb]
        simp [Refill.start, hxs]
      · simp [absorb]
      · simp [absorb]
  · -- Above the low-water mark the decoder is not asked.
    rw [refill, if_neg hlow] at h
    cases h
    have hmany : MIN_AUDIO_BUFFER_SIZE ≤ s.frame.len :=
      Nat.le_of_not_lt (fun hless => hlow ⟨hless, heod⟩)
    refine ⟨rfl, .inl ⟨[], .refl, by simp, ?_, heod, rfl, rfl⟩⟩
    intro hempty
    have hzero : s.frame.len = 0 := GrowVec.len_eq_zero.2 hempty
    simp [hzero, MIN_AUDIO_BUFFER_SIZE] at hmany

/-! ## Runs -/

/-- What `n` calls do after the last sample. -/
def silence : Nat → List Action
  | 0 => []
  | n + 1 => .post .drained :: .yield none :: silence n

theorem silence_concat (n : Nat) :
    silence n ++ [.post .drained, .yield none] = silence (n + 1) := by
  induction n with
  | zero => rfl
  | succ n ih => rw [silence, List.cons_append, List.cons_append, ih]; rfl

theorem postsOf_silence (n : Nat) : postsOf (silence n) = List.replicate n .drained := by
  induction n with
  | zero => rfl
  | succ n ih => simp [silence, ih, List.replicate_succ]

theorem returned_silence (n : Nat) : returned (silence n) = List.replicate n none := by
  induction n with
  | zero => rfl
  | succ n ih => simp [silence, ih, List.replicate_succ]

/-- `Drained` is followed by the `None` it announces. -/
theorem yield_of_silence {n : Nat} {before after : List Action}
    (h : silence n = before ++ .post .drained :: after) : ∃ rest, after = .yield none :: rest := by
  induction n generalizing before with
  | zero => simp [silence] at h
  | succ n ih =>
      match before with
      | [] => exact ⟨_, (List.cons.inj h).2.symm⟩
      -- The second action of a call is the `None`, not a message.
      | [a] =>
          have hyield := (List.cons.inj (List.cons.inj h).2).1
          cases hyield
      | a :: b :: rest => exact ih (List.cons.inj (List.cons.inj h).2).2

/-- A log that ends in silence is cut at a `Drained`, which has not been posted before. -/
theorem cut_at_drained {n : Nat} {log before after : List Action} (hlog : .drained ∉ postsOf log)
    (h : log ++ silence n = before ++ .post .drained :: after) :
    (∃ mid, before = log ++ mid) ∧ ∃ rest, after = .yield none :: rest := by
  rcases List.append_eq_append_iff.1 h with ⟨mid, hbefore, hmid⟩ | ⟨mid, hbefore, hmid⟩
  · exact ⟨⟨mid, hbefore⟩, yield_of_silence hmid⟩
  · cases mid with
    | nil =>
        have hsilence : silence n = [] ++ .post .drained :: after := hmid.symm
        exact ⟨⟨[], by simpa using hbefore.symm⟩, yield_of_silence hsilence⟩
    | cons a mid =>
        obtain ⟨rfl, -⟩ := List.cons.inj hmid
        exact absurd (mem_postsOf.2 (by simp [hbefore])) hlog

/-- What has been posted once the decoder has come to its end. -/
def announced (damaged : Bool) : List PlayerMsg :=
  .trackStarted :: (Refill.notices damaged ++ [.endOfDecode])

/-- Where the source of the decoder `d` can stand between two calls. -/
inductive Stands (d : Decoding) (s : DecoderSource g) : Prop where
  | fresh (hstart : s.startFlag = true) (heod : s.eodFlag = false) (hdecoder : s.decoder = d)
      (hframe : s.frame.data = []) (hlog : s.log = [])
  | playing {xs ys : List Sample} (hstart : s.startFlag = false) (heod : s.eodFlag = false)
      (hplays : d.Plays s.decoder xs) (hframe : ys ++ s.frame.data = xs)
      (hreturned : returned s.log = ys.map some) (hposts : postsOf s.log = [.trackStarted])
  | ending {xs ys : List Sample} {damaged : Bool} (hstart : s.startFlag = false)
      (heod : s.eodFlag = true) (hends : d.Ends s.decoder xs damaged)
      (hframe : ys ++ s.frame.data = xs) (hreturned : returned s.log = ys.map some)
      (hposts : postsOf s.log = announced damaged)
  | silent {xs : List Sample} {damaged : Bool} {before : List Action} {n : Nat}
      (hstart : s.startFlag = false) (heod : s.eodFlag = true)
      (hends : d.Ends s.decoder xs damaged) (hframe : s.frame.data = [])
      (hlog : s.log = before ++ silence (n + 1))
      (hreturned : returned before = xs.map some) (hposts : postsOf before = announced damaged)

variable {d : Decoding} {s t : DecoderSource g} {fuel : Nat} {sample : Option Sample}

theorem pop_of_cons {x : Sample} {rest : List Sample} (h : s.frame.data = x :: rest) :
    s.pop.1 = { s with frame := s.frame.drain 1, log := s.log ++ [.yield (some x)] } := by
  simp [pop, h]

theorem pop_of_nil (h : s.frame.data = []) :
    s.pop.1 = { s with log := s.log ++ [.post .drained, .yield none] } := by
  simp [pop, h]

/-- As long as the decoder has not ended, there is a sample to take. -/
theorem stands_pop_playing {xs ys : List Sample} (hstart : s.startFlag = false)
    (heod : s.eodFlag = false) (hplays : d.Plays s.decoder xs) (hframe : ys ++ s.frame.data = xs)
    (hreturned : returned s.log = ys.map some) (hposts : postsOf s.log = [.trackStarted])
    (hsome : s.frame.data ≠ []) : Stands d s.pop.1 := by
  obtain ⟨x, rest, hcons⟩ := List.exists_cons_of_ne_nil hsome
  rw [pop_of_cons hcons]
  have hframe' : (ys ++ [x]) ++ (s.frame.drain 1).data = xs := by
    simpa [hcons] using hframe
  refine .playing hstart heod hplays hframe' ?_ ?_
  · simp [hreturned]
  · simpa using hposts

/-- Then the samples that are left are taken, and after them `None`. -/
theorem stands_pop_ending {xs ys : List Sample} {damaged : Bool} (hstart : s.startFlag = false)
    (heod : s.eodFlag = true) (hends : d.Ends s.decoder xs damaged)
    (hframe : ys ++ s.frame.data = xs) (hreturned : returned s.log = ys.map some)
    (hposts : postsOf s.log = announced damaged) : Stands d s.pop.1 := by
  cases hdata : s.frame.data with
  | nil =>
      rw [pop_of_nil hdata]
      -- This is the first `None`: all samples have been returned.
      have hall : ys = xs := by simpa [hdata] using hframe
      exact .silent (n := 0) hstart heod hends hdata rfl (hall ▸ hreturned) hposts
  | cons x rest =>
      rw [pop_of_cons hdata]
      have hframe' : (ys ++ [x]) ++ (s.frame.drain 1).data = xs := by
        simpa [hdata] using hframe
      refine .ending hstart heod hends hframe' ?_ ?_
      · simp [hreturned]
      · simpa using hposts

/-- A source that has started is refilled, and a sample is taken. -/
theorem stands_of_refill {xs ys : List Sample} (hstart : s.startFlag = false)
    (heod : s.eodFlag = false) (hplays : d.Plays s.decoder xs) (hframe : ys ++ s.frame.data = xs)
    (hreturned : returned s.log = ys.map some) (hposts : postsOf s.log = [.trackStarted])
    (h : s.refill fuel 0 = some t) : Stands d t.pop.1 := by
  obtain ⟨hstart', hrest⟩ := refill_cases heod h
  rcases hrest with
    ⟨zs, hplays', hframe', hsome, heod', hposts', hreturned'⟩ |
    ⟨zs, damaged, hends, hframe', heod', hposts', hreturned'⟩
  · have hall : ys ++ t.frame.data = xs ++ zs := by
      rw [hframe', ← hframe, List.append_assoc]
    exact stands_pop_playing (hstart'.trans hstart) heod' (hplays.trans hplays') hall
      (hreturned'.trans hreturned) (hposts'.trans hposts) hsome
  · have hall : ys ++ t.frame.data = xs ++ zs := by
      rw [hframe', ← hframe, List.append_assoc]
    refine stands_pop_ending (hstart'.trans hstart) heod' (.of_plays hplays hends) hall
      (hreturned'.trans hreturned) ?_
    rw [hposts', hposts]
    rfl

/-- Once the decoder has ended, the source is not refilled any more. -/
theorem refill_of_eod (h : s.eodFlag = true) : s.refill fuel 0 = some s := by
  simp [refill, h]

theorem stands_next (h : Stands d s) (hcall : s.next fuel 0 = some (t, sample)) : Stands d t := by
  obtain ⟨u, hrefill, hpop⟩ := Option.map_eq_some_iff.1 hcall
  have ht : t = u.pop.1 := by rw [hpop]
  rw [ht]
  cases h with
  | fresh hstart heod hdecoder hframe hlog =>
      have hbegin : s.begin = { s with startFlag := false, log := [.post .trackStarted] } := by
        simp [begin, hstart, hlog]
      rw [hbegin] at hrefill
      have hplays : d.Plays s.decoder [] := by
        rw [hdecoder]
        exact .refl
      have hframe' : [] ++ s.frame.data = [] := by simpa using hframe
      exact stands_of_refill (s := { s with startFlag := false, log := [.post .trackStarted] }) rfl
        heod hplays hframe' rfl rfl hrefill
  | playing hstart heod hplays hframe hreturned hposts =>
      have hbegin : s.begin = s := by simp [begin, hstart]
      rw [hbegin] at hrefill
      exact stands_of_refill hstart heod hplays hframe hreturned hposts hrefill
  | ending hstart heod hends hframe hreturned hposts =>
      have hbegin : s.begin = s := by simp [begin, hstart]
      rw [hbegin, refill_of_eod heod] at hrefill
      cases hrefill
      exact stands_pop_ending hstart heod hends hframe hreturned hposts
  | @silent xs damaged before n hstart heod hends hframe hlog hreturned hposts =>
      have hbegin : s.begin = s := by simp [begin, hstart]
      rw [hbegin, refill_of_eod heod] at hrefill
      cases hrefill
      rw [pop_of_nil hframe]
      refine .silent (n := n + 1) hstart heod hends hframe ?_ hreturned hposts
      rw [hlog, List.append_assoc, silence_concat]

/-- The invariant of every run. -/
theorem stands (h : (system g d).Reachable s) : Stands d s := by
  refine System.Reachable.invariant (Stands d) ?_ ?_ h
  · rintro s ⟨capacity, rfl⟩
    exact .fresh rfl rfl rfl rfl rfl
  · rintro s t _ hs ⟨fuel, sample, hcall⟩
    exact stands_next hs hcall

theorem trackStarted_notMem_notices (damaged : Bool) :
    .trackStarted ∉ Refill.notices damaged ++ [PlayerMsg.endOfDecode] := by
  cases damaged <;> decide

theorem drained_notMem_announced (damaged : Bool) : .drained ∉ announced damaged := by
  cases damaged <;> decide

/-- Whatever the decoder does, rodio gets every sample once and in order, and `None` only after the
last one. -/
theorem yielded (h : (system g d).Reachable s) :
    (∃ xs ys n, d.HandedOut s.decoder xs ∧
      returned s.log = ys.map some ++ List.replicate n none ∧ ys ++ s.frame.data = xs ∧
      (0 < n → ys = d.audio)) ∧
    (s.log = [] ∨
      ∃ rest, postsOf s.log = .trackStarted :: rest ∧ .trackStarted ∉ rest) ∧
    (postsOf s.log).count .endOfDecode ≤ 1 ∧
    (none ∈ returned s.log → (postsOf s.log).count .endOfDecode = 1) ∧
    (∀ before after, s.log = before ++ .post .drained :: after →
      .endOfDecode ∈ postsOf before ∧ ∃ rest, after = .yield none :: rest) := by
  -- As long as there has been no `Drained`, nothing is to be said of it.
  have hundrained : .drained ∉ postsOf s.log → ∀ before after,
      s.log = before ++ .post .drained :: after →
        .endOfDecode ∈ postsOf before ∧ ∃ rest, after = .yield none :: rest := by
    intro hnot before after hsplit
    exact absurd (mem_postsOf.2 (by simp [hsplit])) hnot
  cases stands h with
  | fresh hstart heod hdecoder hframe hlog =>
      refine ⟨⟨[], [], 0, ⟨[], by simp [hdecoder], rfl⟩, ?_, ?_, ?_⟩, .inl hlog, ?_, ?_, ?_⟩
      · simp [hlog]
      · simp [hframe]
      · simp
      · simp [hlog]
      · simp [hlog]
      · exact hundrained (by simp [hlog])
  | @playing xs ys hstart heod hplays hframe hreturned hposts =>
      refine ⟨⟨xs, ys, 0, hplays.handedOut, ?_, hframe, ?_⟩, .inr ⟨[], hposts, ?_⟩, ?_, ?_, ?_⟩
      · simpa using hreturned
      · simp
      · simp
      · simp [hposts]
      · simp [hreturned]
      · exact hundrained (by simp [hposts])
  | @ending xs ys damaged hstart heod hends hframe hreturned hposts =>
      refine ⟨⟨xs, ys, 0, hends.handedOut, ?_, hframe, ?_⟩,
        .inr ⟨_, hposts, trackStarted_notMem_notices damaged⟩, ?_, ?_, ?_⟩
      · simpa using hreturned
      · simp
      · cases damaged <;> simp [hposts, announced, Refill.notices]
      · simp [hreturned]
      · exact hundrained (hposts ▸ drained_notMem_announced damaged)
  | @silent xs damaged before n hstart heod hends hframe hlog hreturned hposts =>
      have hposted : postsOf s.log = announced damaged ++ List.replicate (n + 1) .drained := by
        rw [hlog, postsOf_append, hposts, postsOf_silence]
      have hcount : (postsOf s.log).count .endOfDecode = 1 := by
        cases damaged <;> simp [hposted, announced, Refill.notices, List.count_replicate]
      refine ⟨⟨xs, xs, n + 1, hends.handedOut, ?_, ?_, ?_⟩, .inr ⟨_, hposted, ?_⟩, hcount.le,
        fun _ => hcount, ?_⟩
      · rw [hlog, returned_append, hreturned, returned_silence]
      · simp [hframe]
      · exact fun _ => hends.audio_eq.symm
      · simpa using trackStarted_notMem_notices damaged
      · intro before' after hsplit
        have hend : .endOfDecode ∈ postsOf before := by
          cases damaged <;> simp [hposts, announced]
        -- Only the calls after the last sample post `Drained`.
        have hfresh : .drained ∉ postsOf before := hposts ▸ drained_notMem_announced damaged
        obtain ⟨⟨mid, rfl⟩, hyield⟩ := cut_at_drained hfresh (hlog.symm.trans hsplit)
        exact ⟨by simp [hend], hyield⟩

/-- The last frame of a stream, and the end of the track. -/
theorem yielded_lastFrame :
    ∃ s, (system .exact lastFrame).Reachable s ∧ none ∈ returned s.log ∧
      (postsOf s.log).count .endOfDecode = 1 := by
  have hstart : (system .exact lastFrame).Reachable _ := .init ⟨0, rfl⟩
  have hleft := hstart.step ⟨1, _, rfl⟩
  have hright := hleft.step ⟨0, _, rfl⟩
  have hover := hright.step ⟨0, _, rfl⟩
  exact ⟨_, hover, by decide, (yielded hover).2.2.2.1 (by decide)⟩

end DecoderSource

end Vibe
end LmsPlayer
