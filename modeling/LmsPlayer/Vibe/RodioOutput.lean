import LmsPlayer.Library.InTurn
import LmsPlayer.Vibe.RodioStream

/-!
# Vibe.RodioOutput — the tracks that rodio plays

`RodioAudioOutput` over a `Player` of rodio.  That one is not part of the program: `Rodio` is what
the output uses of it, and `Rodio.AsDocumented` what the results rest on.

* rodio asks for its samples on a thread of its own.  A new stream that is not to start by itself is
  paused only after its source has been appended, and rodio may come in between.
* A stream keeps an account of its sources (`Stream.line`), which nothing in the code reads.  It
  agrees with the queue of the player, and `InTurn` has the rest: the sources are machines in a line
  (`tracks`).
-/

namespace LmsPlayer
namespace Vibe

open InTurn (Line Machines)
open LmsProto
open TransitionSystem

variable {g : Growth}

/-! ## rodio -/

/-- `rodio::Player`. -/
structure Rodio (g : Growth) where
  Player : Type
  connectNew : Player
  append : Player → DecoderSource g → Player
  play : Player → Player
  pause : Player → Player
  stop : Player → Player
  /-- With this Skip pending, the player calls `next` of a source, which is `source` then and has
  returned `sample`. -/
  Calls : Player → (skip : Duration) → (source : DecoderSource g) → (sample : Option Sample) →
    Player → Prop
  /-- The sources that it has not dropped, the one that is playing first. -/
  queue : Player → List (DecoderSource g)

/-- `append` adds a source to the queue, and `play` and `pause` leave the queue alone.  The first
source is the one that is asked for samples, until it returns `None`: then it is dropped. -/
structure Rodio.AsDocumented (R : Rodio g) : Prop where
  queue_connectNew : R.queue R.connectNew = []
  queue_append : ∀ p source, R.queue (R.append p source) = R.queue p ++ [source]
  queue_play : ∀ p, R.queue (R.play p) = R.queue p
  queue_pause : ∀ p, R.queue (R.pause p) = R.queue p
  exists_next : ∀ {p p' skip source sample}, R.Calls p skip source sample p' →
    ∃ first ∈ (R.queue p).head?, ∃ fuel, first.next fuel skip = some (source, sample)
  queue_of_some : ∀ {p p' skip source x}, R.Calls p skip source (some x) p' →
    R.queue p' = source :: (R.queue p).tail
  queue_of_none : ∀ {p p' skip source}, R.Calls p skip source none p' →
    R.queue p' = (R.queue p).tail

/-- A source that has been appended to a player, and the decoder as it was then. -/
structure Track (g : Growth) where
  decoding : Decoding
  source : DecoderSource g

variable {R : Rodio g}

namespace RodioAudioOutput

/-- `struct Stream`, which is little more than its sink. -/
structure Stream (R : Rodio g) where
  sink : R.Player
  /-- Not in the code: what has become of the sources that have been appended. -/
  line : Line (Track g) Action
  /-- Nor are their decoders. -/
  enqueued : List Decoding

namespace Stream

def tryFromDevice (R : Rodio g) (opens : Bool) : Option (Stream R) :=
  if opens then
    some
      { sink := R.connectNew
        line := .empty
        enqueued := [] }
  else
    none

def play (stream : Stream R) (track : Track g) : Stream R :=
  { sink := R.append stream.sink track.source
    line := stream.line.join track
    enqueued := stream.enqueued ++ [track.decoding] }

def unpause (stream : Stream R) : Stream R := { stream with sink := R.play stream.sink }

def pause (stream : Stream R) : Stream R := { stream with sink := R.pause stream.sink }

def stop (stream : Stream R) : Stream R := { stream with sink := R.stop stream.sink }

/-- The player has called `next`, and is `sink` now. -/
def called (stream : Stream R) (source : DecoderSource g) (sample : Option Sample)
    (sink : R.Player) :
    Stream R :=
  match stream.line.waiting with
  | [] => { stream with sink := sink }
  | track :: _ =>
      let track' : Track g := { track with source := source }
      let done := source.log.drop track.source.log.length
      { stream with
        sink := sink
        line := if sample.isSome then stream.line.move track' done else stream.line.leave
          track' done }

end Stream

end RodioAudioOutput

open RodioAudioOutput (Stream)

structure RodioAudioOutput (R : Rodio g) where
  playing : Option (Stream R)

/-- What `enqueue_new_stream` comes to. -/
structure Enqueued (R : Rodio g) where
  output : RodioAudioOutput R
  posted : List PlayerMsg
  /-- The new stream is still to be paused. -/
  toPause : Bool
  /-- No stream could be made of the device. -/
  failed : Bool

namespace RodioAudioOutput

def new : RodioAudioOutput R := { playing := none }

/-- `enqueue_new_stream` up to the point where it pauses a new stream, if it does. -/
def enqueueNewStream (o : RodioAudioOutput R) (decoder : Decoding) (params : StreamParams)
    (opens : Bool) : Enqueued R :=
  let autostart := params.autostart = .auto
  let capacity := decoder.durToSamples params.outputThreshold
  let track : Track g :=
    { decoding := decoder
      source := .new decoder capacity }
  let ended (output : RodioAudioOutput R) (toPause failed : Bool) : Enqueued R :=
    { output := output
      posted := [.streamEstablished]
      toPause := toPause
      failed := failed }
  match o.playing with
  | some stream => ended { playing := some (stream.play track) } false false
  | none =>
      match Stream.tryFromDevice R opens with
      | some stream => ended { playing := some (stream.play track) } (¬autostart) false
      | none => ended o false true

def unpause (o : RodioAudioOutput R) : RodioAudioOutput R × Bool :=
  match o.playing with
  | some stream => ({ playing := some stream.unpause }, true)
  | none => (o, false)

def pause (o : RodioAudioOutput R) : RodioAudioOutput R × Bool :=
  match o.playing with
  | some stream => ({ playing := some stream.pause }, true)
  | none => (o, false)

def flush (_ : RodioAudioOutput R) : RodioAudioOutput R := { playing := none }

/-- The sink is stopped before it is dropped. -/
def stop (o : RodioAudioOutput R) : RodioAudioOutput R :=
  let stopped : RodioAudioOutput R := { playing := o.playing.map Stream.stop }
  stopped.flush

/-- Noop - uses rodio's stream append -/
def shift (o : RodioAudioOutput R) : RodioAudioOutput R := o

end RodioAudioOutput

/-! ## Runs -/

/-- The output, and the call of `enqueue_new_stream` that is under way. -/
structure RodioRun (R : Rodio g) where
  output : RodioAudioOutput R
  toPause : Bool
  posted : List PlayerMsg

def RodioRun.enqueue (s : RodioRun R) (decoder : Decoding) (params : StreamParams) (opens : Bool) :
    RodioRun R :=
  let e := s.output.enqueueNewStream decoder params opens
  { output := e.output
    toPause := e.toPause
    posted := s.posted ++ e.posted }

def RodioRun.setOutput (s : RodioRun R) (output : RodioAudioOutput R) : RodioRun R :=
  { s with output := output }

/-- A call of the event loop, or one of rodio while no Skip is pending. -/
inductive RodioStep (s : RodioRun R) : RodioRun R → Prop where
  | enqueue (decoder : Decoding) (params : StreamParams) (opens : Bool)
      (hidle : s.toPause = false) :
      RodioStep s (s.enqueue decoder params opens)
  | pauseNew (hpause : s.toPause = true) :
      RodioStep s { s.setOutput s.output.pause.1 with toPause := false }
  | unpause (hidle : s.toPause = false) : RodioStep s (s.setOutput s.output.unpause.1)
  | pause (hidle : s.toPause = false) : RodioStep s (s.setOutput s.output.pause.1)
  | stop (hidle : s.toPause = false) : RodioStep s (s.setOutput s.output.stop)
  | flush (hidle : s.toPause = false) : RodioStep s (s.setOutput s.output.flush)
  | shift (hidle : s.toPause = false) : RodioStep s (s.setOutput s.output.shift)
  | call {stream : Stream R} {source : DecoderSource g} {sample : Option Sample} {sink : R.Player}
      (hplaying : s.output.playing = some stream)
        (hcalls : R.Calls stream.sink 0 source sample sink) :
      RodioStep s (s.setOutput { playing := some (stream.called source sample sink) })

def rodioSystem (R : Rodio g) : System (RodioRun R) :=
  { init := fun s =>
      s =
        { output := .new
          toPause := false
          posted := [] }
    step := RodioStep }

/-! ## One call of `next` -/

namespace DecoderSource

variable {s t : DecoderSource g} {fuel : Nat} {skip : Duration} {sample : Option Sample}

/-- A call only adds to the record, and what it returns comes last. -/
theorem log_next (h : s.next fuel skip = some (t, sample)) :
    ∃ acts, t.log = s.log ++ acts ∧ returned acts = [sample] := by
  rcases Option.map_eq_some_iff.1 h with ⟨u, hrefill, hpop⟩
  have hbegin : ∃ acts, s.begin.log = s.log ++ acts ∧ returned acts = [] := by
    unfold begin
    split
    · exact ⟨[.post .trackStarted], rfl, rfl⟩
    · exact ⟨[], by simp, rfl⟩
  have hrefilled : ∃ acts, u.log = s.begin.log ++ acts ∧ returned acts = [] := by
    unfold refill at hrefill
    split at hrefill
    · rcases Option.map_eq_some_iff.1 hrefill with ⟨⟨r, eod⟩, -, rfl⟩
      refine ⟨_, by simp only [absorb, List.append_assoc]; rfl, ?_⟩
      cases eod <;> simp
    · cases hrefill
      exact ⟨[], by simp, rfl⟩
  have hpopped : ∃ acts, u.pop.1.log = u.log ++ acts ∧ returned acts = [u.pop.2] := by
    unfold pop
    cases u.frame.data with
    | nil => exact ⟨_, rfl, rfl⟩
    | cons x rest => exact ⟨_, rfl, rfl⟩
  rw [hpop] at hpopped
  rcases hbegin with ⟨acts, hlog, hnone⟩
  rcases hrefilled with ⟨acts', hlog', hnone'⟩
  rcases hpopped with ⟨acts'', hlog'', hone⟩
  refine ⟨acts ++ acts' ++ acts'', ?_, ?_⟩
  · calc
      t.log = u.log ++ acts'' := hlog''
      _ = s.log ++ acts ++ acts' ++ acts'' := by rw [hlog', hlog]
      _ = s.log ++ (acts ++ acts' ++ acts'') := by simp
  · rw [returned_append, returned_append, hnone, hnone', hone]
    rfl

/-- The first thing a source does is to announce its track. -/
theorem head_log_next (hstart : s.startFlag = true) (hlog : s.log = [])
    (h : s.next fuel skip = some (t, sample)) : t.log.head? = some (.post .trackStarted) := by
  have hnext : s.begin.next fuel skip = some (t, sample) := by
    have hbegin : s.begin.begin = s.begin := by simp [begin, hstart]
    rw [← h, next, next, hbegin]
  rcases log_next hnext with ⟨acts, hacts, -⟩
  rw [hacts]
  simp [begin, hstart, hlog]

end DecoderSource

/-! ## The stages of a track -/

namespace Track

open DecoderSource (Stands announced returned silence)

/-- A source that has been made and has not been asked for a sample. -/
def Fresh (track : Track g) : Prop :=
  ∃ capacity, track.source = .new track.decoding capacity

/-- The track is announced before anything else. -/
def Announced (track : Track g) : Prop :=
  track.source.log = [] ∧ track.source.startFlag = true ∨
    track.source.log.head? = some (.post .trackStarted)

def Running (track : Track g) : Prop :=
  Stands track.decoding track.source ∧ track.Announced ∧ none ∉ returned track.source.log

/-- There has been one `None`, and it has come last. -/
def Ended (track : Track g) : Prop :=
  Stands track.decoding track.source ∧ track.Announced ∧
    ∃ ys : List Sample, returned track.source.log = ys.map some ++ [none]

end Track

/-- The sources of a sink. -/
def tracks (g : Growth) : Machines (Track g) Action :=
  { Fresh := Track.Fresh
    Running := Track.Running
    Ended := Track.Ended
    record := fun track => track.source.log
    running_of_fresh := by
      rintro track ⟨capacity, hsource⟩
      refine ⟨?_, .inl ?_, ?_⟩ <;> rw [hsource]
      · exact .fresh rfl rfl rfl rfl rfl
      · exact ⟨rfl, rfl⟩
      · exact nofun
    record_of_fresh := by
      rintro track ⟨capacity, hsource⟩
      rw [hsource]
      rfl }

namespace Track

open DecoderSource (Stands announced returned silence)

variable {track : Track g} {source : DecoderSource g} {fuel : Nat} {sample : Option Sample}

theorem announced_of_next (h : track.Announced)
    (hcall : track.source.next fuel 0 = some (source, sample)) :
    Announced { track with source := source } := by
  rcases h with ⟨hlog, hstart⟩ | hhead
  · exact .inr (DecoderSource.head_log_next hstart hlog hcall)
  · rcases DecoderSource.log_next hcall with ⟨acts, hacts, -⟩
    refine .inr ?_
    cases hlog : track.source.log with
    | nil =>
        rw [hlog] at hhead
        cases hhead
    | cons action log =>
        rw [hlog] at hhead hacts
        rw [hacts]
        exact hhead

/-- A source that returns a sample goes on running. -/
theorem running_of_next {x : Sample} (h : track.Running)
    (hcall : track.source.next fuel 0 = some (source, some x)) :
    Running { track with source := source } := by
  rcases h with ⟨hstands, hannounced, hnone⟩
  rcases DecoderSource.log_next hcall with ⟨acts, hacts, hreturned⟩
  refine ⟨DecoderSource.stands_next hstands hcall, announced_of_next hannounced hcall, ?_⟩
  rw [hacts, DecoderSource.returned_append, hreturned]
  simp [hnone]

/-- What has been returned before the first `None` are samples. -/
theorem exists_samples {values : List (Option Sample)} (h : none ∉ values) :
    ∃ ys : List Sample, values = ys.map some := by
  induction values with
  | nil => exact ⟨[], rfl⟩
  | cons value values ih =>
      cases value with
      | none => exact absurd (List.mem_cons_self ..) h
      | some x =>
          rcases ih fun hmem => h (List.mem_cons_of_mem _ hmem) with ⟨ys, rfl⟩
          exact ⟨x :: ys, rfl⟩

theorem ended_of_next (h : track.Running) (hcall : track.source.next fuel 0 = some (source, none)) :
    Ended { track with source := source } := by
  rcases h with ⟨hstands, hannounced, hnone⟩
  rcases DecoderSource.log_next hcall with ⟨acts, hacts, hreturned⟩
  rcases exists_samples hnone with ⟨ys, hys⟩
  refine ⟨DecoderSource.stands_next hstands hcall, announced_of_next hannounced hcall, ys, ?_⟩
  rw [hacts, DecoderSource.returned_append, hreturned, hys]

end Track

/-! ## What has been played -/

open DecoderSource (announced returned)

/-- A whole track: it is announced, all its samples are taken, and `Drained` comes with the `None`
behind the last one. -/
def PlayedOut (d : Decoding) (log : List Action) : Prop :=
  ∃ before damaged, log = before ++ [.post .drained, .yield none] ∧
    before.head? = some (.post .trackStarted) ∧ returned before = d.audio.map some ∧
    postsOf before = announced damaged ∧ (damaged = true ↔ d.Damaged)

/-- Some of a track, from its beginning. -/
def PlayedSoFar (d : Decoding) (log : List Action) : Prop :=
  log = [] ∨
    log.head? = some (.post .trackStarted) ∧ (∃ ys, ys <+: d.audio ∧ returned log = ys.map some) ∧
      (postsOf log = [.trackStarted] ∨ ∃ damaged, postsOf log = announced damaged)

namespace Track

open DecoderSource (Stands silence)

variable {track : Track g}

theorem playedSoFar (h : track.Running) : PlayedSoFar track.decoding track.source.log := by
  rcases h with ⟨hstands, hannounced, hnone⟩
  rcases hannounced with ⟨hlog, -⟩ | hhead
  · exact .inl hlog
  · refine .inr ⟨hhead, ?_⟩
    cases hstands with
    | fresh _ _ _ _ hlog =>
        rw [hlog] at hhead
        cases hhead
    | @playing xs ys _ _ hplays hframe hreturned hposts =>
        have hfront : ys <+: track.decoding.audio := by
          rw [hplays.audio_eq, ← hframe, List.append_assoc]
          exact List.prefix_append ys _
        exact ⟨⟨ys, hfront, hreturned⟩, .inl hposts⟩
    | @ending xs ys damaged _ _ hends hframe hreturned hposts =>
        have hfront : ys <+: track.decoding.audio := by
          rw [hends.audio_eq, ← hframe]
          exact List.prefix_append ys _
        exact ⟨⟨ys, hfront, hreturned⟩, .inr ⟨damaged, hposts⟩⟩
    | @silent xs damaged before n _ _ _ _ hlog _ _ =>
        -- A source that has returned `None` is not running.
        rw [hlog] at hnone
        exact absurd (by simp [silence]) hnone

theorem playedOut (h : track.Ended) : PlayedOut track.decoding track.source.log := by
  rcases h with ⟨hstands, hannounced, ys, hys⟩
  have hnone : none ∈ returned track.source.log := by
    rw [hys]
    simp
  cases hstands with
  | fresh _ _ _ _ hlog =>
      rw [hlog] at hnone
      cases hnone
  | playing _ _ _ _ hreturned _ =>
      rw [hreturned] at hnone
      exact absurd hnone (by simp)
  | ending _ _ _ _ hreturned _ =>
      rw [hreturned] at hnone
      exact absurd hnone (by simp)
  | @silent xs damaged before n _ _ hends _ hlog hreturned hposts =>
      -- One `None` has been returned, so the source has been asked no more.
      have hvalues : ys.map some ++ [none] = xs.map some ++ List.replicate (n + 1) none := by
        rw [← hys, hlog, DecoderSource.returned_append, hreturned, DecoderSource.returned_silence]
      have hzero : ∀ zs : List Sample, (zs.map some).count none = 0 :=
        fun zs => List.count_eq_zero.2 (by simp)
      have hcount := congrArg (List.count none) hvalues
      obtain rfl : n = 0 := by
        simpa [hzero] using hcount.symm
      have hhead : before.head? = some (.post .trackStarted) := by
        cases before with
        | nil => cases hposts
        | cons action before =>
            rcases hannounced with ⟨hnil, -⟩ | hhead
            · rw [hnil] at hlog
              cases hlog
            · rw [hlog] at hhead
              exact hhead
      exact ⟨before, damaged, hlog, hhead, by rw [hreturned, hends.audio_eq], hposts,
        hends.damaged_iff.symm⟩

end Track

/-! ## The invariant -/

/-- The sources have been played one after the other, in the order in which they were appended, and
those that are left are in the queue of the player. -/
structure RodioAudioOutput.Stream.InOrder (stream : Stream R) : Prop where
  line : stream.line.Ordered (tracks g)
  enqueued : stream.line.all.map Track.decoding = stream.enqueued
  queue : R.queue stream.sink = stream.line.waiting.map Track.source

namespace RodioAudioOutput.Stream

variable {stream : Stream R}

theorem InOrder.play (hR : R.AsDocumented) (h : stream.InOrder) (decoder : Decoding)
    (capacity : Nat) :
    (stream.play { decoding := decoder, source := .new decoder capacity }).InOrder := by
  refine ⟨h.line.join ⟨capacity, rfl⟩, ?_, ?_⟩
  · simp [Stream.play, h.enqueued]
  · show R.queue (R.append stream.sink _) = _
    rw [hR.queue_append, h.queue]
    simp [Stream.play, Line.join]

theorem InOrder.setSink (h : stream.InOrder) {sink : R.Player}
    (hqueue : R.queue sink = R.queue stream.sink) :
    ({ stream with sink := sink } : Stream R).InOrder :=
  ⟨h.line, h.enqueued, hqueue.trans h.queue⟩

theorem InOrder.called (hR : R.AsDocumented) (h : stream.InOrder) {source : DecoderSource g}
    {sample : Option Sample} {sink : R.Player} (hcalls : R.Calls stream.sink 0 source sample sink) :
    (stream.called source sample sink).InOrder := by
  rcases hR.exists_next hcalls with ⟨first, hfirst, fuel, hcall⟩
  rw [h.queue] at hfirst
  have hrunning := h.line.first
  unfold Stream.called
  cases hwaiting : stream.line.waiting with
  | nil =>
      rw [hwaiting] at hfirst
      cases hfirst
  | cons track rest =>
      rw [hwaiting] at hfirst hrunning
      obtain rfl : track.source = first := Option.some.inj hfirst
      have hrunning := hrunning track rfl
      -- What the source has done is what the call has added to its record.
      rcases DecoderSource.log_next hcall with ⟨acts, hacts, -⟩
      have hdone : source.log.drop track.source.log.length = acts := by
        rw [hacts, List.drop_left]
      have hsame : (stream.line.past ++ { track with source := source } :: rest).map
          Track.decoding = stream.enqueued := by
        rw [← h.enqueued, Line.all, hwaiting]
        simp
      -- The player asks the first source, so the others are those behind it.
      have htail : (R.queue stream.sink).tail = rest.map Track.source := by
        rw [h.queue, hwaiting]
        rfl
      dsimp only
      rw [hdone]
      cases sample with
      | some x =>
          refine ⟨h.line.move hwaiting (Track.running_of_next hrunning hcall) hacts, ?_, ?_⟩
          · exact (congrArg (List.map Track.decoding) (Line.all_move hwaiting)).trans hsame
          · show R.queue sink = _
            rw [hR.queue_of_some hcalls, htail]
            simp [Line.move, hwaiting]
      | none =>
          refine ⟨h.line.leave hwaiting (Track.ended_of_next hrunning hcall) hacts, ?_, ?_⟩
          · exact (congrArg (List.map Track.decoding) (Line.all_leave hwaiting)).trans hsame
          · show R.queue sink = _
            rw [hR.queue_of_none hcalls, htail]
            simp [Line.leave, hwaiting]

end RodioAudioOutput.Stream

namespace RodioAudioOutput

variable {o : RodioAudioOutput R}

def InOrder (o : RodioAudioOutput R) : Prop := ∀ stream ∈ o.playing, stream.InOrder

theorem InOrder.enqueueNewStream (hR : R.AsDocumented) (h : o.InOrder) (decoder : Decoding)
    (params : StreamParams) (opens : Bool) :
    (o.enqueueNewStream decoder params opens).output.InOrder := by
  have hempty : ({ sink := R.connectNew, line := .empty, enqueued := [] } : Stream R).InOrder :=
    ⟨Line.ordered_empty, rfl, hR.queue_connectNew⟩
  unfold RodioAudioOutput.enqueueNewStream
  dsimp only
  cases hplaying : o.playing with
  | some stream =>
      rintro stream' ⟨rfl⟩
      exact (h stream hplaying).play hR decoder _
  | none =>
      cases opens with
      | true =>
          rintro stream' ⟨rfl⟩
          exact hempty.play hR decoder _
      | false => exact h

theorem InOrder.unpause (hR : R.AsDocumented) (h : o.InOrder) : o.unpause.1.InOrder := by
  unfold RodioAudioOutput.unpause
  cases hplaying : o.playing with
  | some stream =>
      rintro stream' ⟨rfl⟩
      exact (h stream hplaying).setSink (hR.queue_play stream.sink)
  | none => exact h

theorem InOrder.pause (hR : R.AsDocumented) (h : o.InOrder) : o.pause.1.InOrder := by
  unfold RodioAudioOutput.pause
  cases hplaying : o.playing with
  | some stream =>
      rintro stream' ⟨rfl⟩
      exact (h stream hplaying).setSink (hR.queue_pause stream.sink)
  | none => exact h

end RodioAudioOutput

theorem inOrder_of_rodioStep (hR : R.AsDocumented) {s t : RodioRun R} (h : s.output.InOrder)
    (hstep : RodioStep s t) : t.output.InOrder := by
  cases hstep with
  -- Only here is a source appended.
  | enqueue decoder params opens _ => exact h.enqueueNewStream hR decoder params opens
  | pauseNew _ => exact h.pause hR
  | unpause _ => exact h.unpause hR
  | pause _ => exact h.pause hR
  | stop _ => exact nofun
  | flush _ => exact nofun
  | shift _ => exact h
  | call hplaying hcalls =>
      rintro stream' ⟨rfl⟩
      exact (h _ hplaying).called hR hcalls

theorem inOrder (hR : R.AsDocumented) {s : RodioRun R} (h : (rodioSystem R).Reachable s) :
    s.output.InOrder := by
  refine System.Reachable.invariant (fun s => s.output.InOrder) ?_ ?_ h
  · rintro s rfl
    exact nofun
  · intro s t _ hs hstep
    exact inOrder_of_rodioStep hR hs hstep

/-! ## From one track to the next -/

/-- The samples that have been taken. -/
def taken (log : List Action) : List Sample := (returned log).filterMap id

theorem taken_append (log log' : List Action) : taken (log ++ log') = taken log ++ taken log' := by
  simp [taken]

theorem taken_of_returned {log : List Action} {xs : List Sample} (h : returned log = xs.map some) :
    taken log = xs := by
  simp [taken, h]

theorem taken_of_playedOut {d : Decoding} {log : List Action} (h : PlayedOut d log) :
    taken log = d.audio := by
  rcases h with ⟨before, damaged, rfl, -, hreturned, -, -⟩
  rw [taken_append, taken_of_returned hreturned]
  exact List.append_nil _

theorem taken_of_playedSoFar {d : Decoding} {log : List Action} (h : PlayedSoFar d log) :
    taken log <+: d.audio := by
  rcases h with rfl | ⟨-, ⟨ys, hfront, hreturned⟩, -⟩
  · exact List.nil_prefix
  · rw [taken_of_returned hreturned]
    exact hfront

/-- Whole tracks give whole samples. -/
theorem taken_of_past {past : List (Decoding × List Action)}
    (h : ∀ track ∈ past, PlayedOut track.1 track.2) :
    taken (past.flatMap Prod.snd) = (past.map Prod.fst).flatMap Decoding.audio := by
  induction past with
  | nil => rfl
  | cons track past ih =>
      rw [List.flatMap_cons, taken_append, taken_of_playedOut (h track (List.mem_cons_self ..)),
        ih fun track' hmem => h track' (List.mem_cons_of_mem _ hmem)]
      rfl

/-- Of the others only the first one gives any. -/
theorem taken_of_waiting {waiting : List (Decoding × List Action)}
    (hfirst : ∀ track ∈ waiting.head?, PlayedSoFar track.1 track.2)
    (hbehind : ∀ track ∈ waiting.tail, track.2 = []) :
    taken (waiting.flatMap Prod.snd) <+: (waiting.map Prod.fst).flatMap Decoding.audio := by
  cases waiting with
  | nil => exact List.nil_prefix
  | cons track waiting =>
      have hnone : waiting.flatMap Prod.snd = [] := List.flatMap_eq_nil_iff.2 hbehind
      rw [List.flatMap_cons, hnone, List.append_nil]
      exact (taken_of_playedSoFar (hfirst track rfl)).trans (List.prefix_append _ _)

/-- **Tracks are played one after the other**: let rodio's `Player` do what its documentation says.
Whenever the event loop calls the output, and whenever rodio calls a source, the sources that have
been appended since the stream was made are played one after the other and in this order.  Each
track is announced first, all of its samples are taken once and in order, the end of its decoding is
posted once, and `Drained` comes with the `None` behind its last sample, before the next track is
announced; no other source has done anything.  All samples together are the beginning of what there
is to play, and the tracks that are not over are those in the queue of the player. -/
theorem tracks_in_order (hR : R.AsDocumented) {s : RodioRun R} (h : (rodioSystem R).Reachable s)
    {stream : Stream R} (hplaying : s.output.playing = some stream) :
    ∃ past waiting : List (Decoding × List Action),
      stream.enqueued = (past ++ waiting).map Prod.fst ∧
      stream.line.done = (past ++ waiting).flatMap Prod.snd ∧
      (∀ track ∈ past, PlayedOut track.1 track.2) ∧
      (∀ track ∈ waiting.head?, PlayedSoFar track.1 track.2) ∧
      (∀ track ∈ waiting.tail, track.2 = []) ∧
      taken stream.line.done <+: stream.enqueued.flatMap Decoding.audio ∧
      (R.queue stream.sink).map DecoderSource.log = waiting.map Prod.snd := by
  have horder := inOrder hR h stream hplaying
  let played (track : Track g) : Decoding × List Action := (track.decoding, track.source.log)
  have henqueued : stream.enqueued =
      (stream.line.past.map played ++ stream.line.waiting.map played).map Prod.fst := by
    rw [← horder.enqueued, Line.all, ← List.map_append, List.map_map]
    rfl
  have hdone : stream.line.done =
      (stream.line.past.map played ++ stream.line.waiting.map played).flatMap Prod.snd := by
    rw [horder.line.done, Line.all, ← List.map_append, List.flatMap_map]
    rfl
  have hpast : ∀ track ∈ stream.line.past.map played, PlayedOut track.1 track.2 := by
    intro track hmem
    rcases List.mem_map.1 hmem with ⟨track', hold, rfl⟩
    exact Track.playedOut (horder.line.past track' hold)
  have hfirst : ∀ track ∈ (stream.line.waiting.map played).head?, PlayedSoFar track.1 track.2 := by
    intro track hmem
    rw [List.head?_map] at hmem
    rcases Option.mem_map.1 hmem with ⟨track', hold, rfl⟩
    exact Track.playedSoFar (horder.line.first track' hold)
  have hbehind : ∀ track ∈ (stream.line.waiting.map played).tail, track.2 = [] := by
    intro track hmem
    rw [← List.map_tail] at hmem
    rcases List.mem_map.1 hmem with ⟨track', hold, rfl⟩
    exact (tracks g).record_of_fresh track' (horder.line.behind track' hold)
  refine ⟨_, _, henqueued, hdone, hpast, hfirst, hbehind, ?_, ?_⟩
  · rw [henqueued, hdone, List.flatMap_append, taken_append, taken_of_past hpast, List.map_append,
      List.flatMap_append]
    exact (List.prefix_append_right_inj _).2 (taken_of_waiting hfirst hbehind)
  · rw [horder.queue, List.map_map, List.map_map]
    rfl

/-- A player that is a queue, and calls nobody as long as it is paused. -/
def queuePlayer : Rodio .exact :=
  { Player := List (DecoderSource .exact) × Bool
    connectNew := ([], false)
    append := fun p source => (p.1 ++ [source], p.2)
    play := fun p => (p.1, false)
    pause := fun p => (p.1, true)
    stop := fun p => ([], p.2)
    Calls := fun p skip source sample p' =>
      p.2 = false ∧ ∃ first rest fuel, p.1 = first :: rest ∧
        first.next fuel skip = some (source, sample) ∧
        p' = (if sample.isSome then source :: rest else rest, false)
    queue := Prod.fst }

theorem queuePlayer_asDocumented : queuePlayer.AsDocumented := by
  refine ⟨rfl, fun _ _ => rfl, fun _ => rfl, fun _ => rfl, ?_, ?_, ?_⟩
  · rintro ⟨sources, paused⟩ p' skip source sample ⟨-, first, rest, fuel, rfl, hcall, -⟩
    exact ⟨first, rfl, fuel, hcall⟩
  · rintro ⟨sources, paused⟩ p' skip source x ⟨-, first, rest, fuel, rfl, -, rfl⟩
    rfl
  · rintro ⟨sources, paused⟩ p' skip source ⟨-, first, rest, fuel, rfl, -, rfl⟩
    rfl

/-- Two tracks of one frame: the second one begins when the first one is over. -/
theorem tracks_in_order_twoFrames : ∃ (s : RodioRun queuePlayer) (stream : Stream queuePlayer),
    (rodioSystem queuePlayer).Reachable s ∧ s.output.playing = some stream ∧
      (taken stream.line.done).length = 3 ∧ postsOf stream.line.done =
        [.trackStarted, .endOfDecode, .drained, .trackStarted, .endOfDecode] ∧
      taken stream.line.done <+: stream.enqueued.flatMap Decoding.audio := by
  let params : StreamParams :=
    { autostart := .auto
      outputThreshold := 0 }
  have hstart : (rodioSystem queuePlayer).Reachable _ := .init rfl
  have hfirst := hstart.step (.enqueue lastFrame params true rfl)
  have hsecond := hfirst.step (.enqueue lastFrame params true rfl)
  have hleft := hsecond.step (.call rfl ⟨rfl, _, _, 1, rfl, rfl, rfl⟩)
  have hright := hleft.step (.call rfl ⟨rfl, _, _, 0, rfl, rfl, rfl⟩)
  have hpast := hright.step (.call rfl ⟨rfl, _, _, 0, rfl, rfl, rfl⟩)
  have hnext := hpast.step (.call rfl ⟨rfl, _, _, 1, rfl, rfl, rfl⟩)
  rcases tracks_in_order queuePlayer_asDocumented hnext rfl with ⟨_, _, _, _, _, _, _, htaken, _⟩
  exact ⟨_, _, hnext, rfl, by decide, by decide, htaken⟩

end Vibe
end LmsPlayer
