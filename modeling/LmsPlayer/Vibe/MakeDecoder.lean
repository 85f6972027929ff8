import LmsPlayer.Vibe.Pass
import LmsPlayer.LmsProto.Buffer.EndOfStream
import LmsPlayer.LmsProto.Buffer.Counters

/-!
# Vibe.MakeDecoder — the stream buffer while the decoder is made

The stream-connect thread together with the buffer it makes: `ConnectStep` says what the rest of the
program sees of the thread, here its buffer is filled meanwhile, step by step.  From the making of
the buffer on, the fill thread goes its own way; the stream-connect thread is the consumer when it
reads the headers and probes the stream.

`BufferThreshold` is posted behind the making of the buffer and waits for nothing.  So it may be
posted before anything has been read, whatever the threshold is.
-/

namespace LmsPlayer
namespace Vibe

open LmsProto
open Channel (Sends)
open SlimBuffer (FillStep ConsumerStep OthersStep)
open ThreadPool (Replace)
open TransitionSystem (System)

/-- A run of `make_decoder` and of what `stream-connect` posts after it. -/
structure MakeDecoder where
  phase : Option ConnectPhase
  dataStream : Option SlimBuffer
  /-- What has been posted, each with the buffer as it was then. -/
  posted : List (PlayerMsg × Option SlimBuffer)

namespace MakeDecoder

def start : MakeDecoder :=
  { phase := some .dialing
    dataStream := none
    posted := [] }

def post (s : MakeDecoder) (msg : PlayerMsg) (phase : Option ConnectPhase) : MakeDecoder :=
  { s with
    phase := phase
    posted := s.posted ++ [(msg, s.dataStream)] }

inductive ThreadStep (t : ConnectThread) (s : MakeDecoder) : MakeDecoder → Prop where
  | dial (hpc : s.phase = some .dialing) : ThreadStep t s { s with phase := some .connected }
  | dialFailed (hpc : s.phase = some .dialing) :
      ThreadStep t s { s with phase := some (.posting .notSupported) }
  | postConnected (hpc : s.phase = some .connected) :
      ThreadStep t s (s.post .connected (some .buffering))
  | createBuffer (status : StatusData) (hpc : s.phase = some .buffering) :
      ThreadStep t s
        { s with
          dataStream := some (.withCapacity t.request.buffer status)
          phase := some .buffered }
  | postBufferThreshold (hpc : s.phase = some .buffered) :
      ThreadStep t s (s.post .bufferThreshold (some .preparing))
  | read {b b' : SlimBuffer} (hpc : s.phase = some .preparing) (hbuffer : s.dataStream = some b)
      (hread : ConsumerStep b b') : ThreadStep t s { s with dataStream := some b' }
  | prepared (hpc : s.phase = some .preparing) :
      ThreadStep t s { s with phase := some (.posting t.decoderMsg) }
  | notPrepared (hpc : s.phase = some .preparing) :
      ThreadStep t s { s with phase := some (.posting .notSupported) }
  | post {msg : PlayerMsg} (hpc : s.phase = some (.posting msg)) : ThreadStep t s (s.post msg none)

/-- The fill thread, and whoever else writes to `STATUS`. -/
inductive BufferStep (request : DecoderRequest) (s : MakeDecoder) : MakeDecoder → Prop where
  | fill {b b' : SlimBuffer} (hbuffer : s.dataStream = some b) (h : FillStep request.buffer b b') :
      BufferStep request s { s with dataStream := some b' }
  | others {b b' : SlimBuffer} (hbuffer : s.dataStream = some b) (h : OthersStep b b') :
      BufferStep request s { s with dataStream := some b' }

def system (t : ConnectThread) : System MakeDecoder :=
  { init := fun s => s = start
    step := fun s s' => ThreadStep t s s' ∨ BufferStep t.request s s' }

variable {t : ConnectThread} {s s' : MakeDecoder}

/-! ## The thread as the program sees it -/

section Program

variable {O : Type} {now : Instant} {g : Globals} {p : Pass O}

def MovesTo (now : Instant) (g : Globals) (p : Pass O) (t : ConnectThread)
    (phase : Option ConnectPhase) : Prop :=
  ∃ g' p' entries, ConnectStep now g p g' p' entries ∧
    ∀ next, phase = some next → { t with phase := next } ∈ p'.connects

/-- The thread reads from its buffer, which is no concern of the program, or it moves on as the
program lets it, when the channel has room. -/
theorem movesTo_of_threadStep (h : ThreadStep t s s') (hphase : s.phase = some t.phase)
    (hthread : t ∈ p.connects) (hroom : p.stream.length < STREAM_CAPACITY)
    (hattached : p.attached = true) :
    s'.phase = s.phase ∨ MovesTo now g p t s'.phase := by
  have hsend : ∀ msg, Sends (p.attached = true) STREAM_CAPACITY p.stream msg (p.stream ++ [msg]) :=
    fun msg => .queued hattached hroom
  have hgoes : ∀ next, ∃ connects, Replace t (some { t with phase := next }) p.connects connects :=
    fun next => Replace.exists_of_mem hthread _
  have hnext : ∀ {next : ConnectPhase} {connects : List ConnectThread},
      Replace t (some { t with phase := next }) p.connects connects →
      ∀ next', some next = some next' → { t with phase := next' } ∈ connects := by
    rintro next connects hreplace next' hsame
    cases hsame
    exact hreplace.mem_of_some
  cases h with
  | dial hpc =>
      rcases hgoes .connected with ⟨connects, hreplace⟩
      have hdialing := Option.some.inj (hphase.symm.trans hpc)
      exact Or.inr ⟨_, _, _, .dial hdialing hreplace, hnext hreplace⟩
  | dialFailed hpc =>
      rcases hgoes (.posting .notSupported) with ⟨connects, hreplace⟩
      have hdialing := Option.some.inj (hphase.symm.trans hpc)
      exact Or.inr ⟨_, _, _, .dialFailed hdialing hreplace, hnext hreplace⟩
  | postConnected hpc =>
      rcases hgoes .buffering with ⟨connects, hreplace⟩
      have hconnected := Option.some.inj (hphase.symm.trans hpc)
      exact Or.inr ⟨_, _, _, .postConnected hconnected (hsend _) hreplace, hnext hreplace⟩
  | createBuffer status hpc =>
      rcases hgoes .buffered with ⟨connects, hreplace⟩
      have hbuffering := Option.some.inj (hphase.symm.trans hpc)
      exact Or.inr ⟨_, _, _, .createBuffer hbuffering hreplace, hnext hreplace⟩
  | postBufferThreshold hpc =>
      rcases hgoes .preparing with ⟨connects, hreplace⟩
      have hbuffered := Option.some.inj (hphase.symm.trans hpc)
      exact Or.inr ⟨_, _, _, .postBufferThreshold hbuffered (hsend _) hreplace, hnext hreplace⟩
  | read hpc hbuffer hread => exact Or.inl rfl
  | prepared hpc =>
      rcases hgoes (.posting t.decoderMsg) with ⟨connects, hreplace⟩
      have hpreparing := Option.some.inj (hphase.symm.trans hpc)
      exact Or.inr ⟨_, _, _, .prepared hpreparing hreplace, hnext hreplace⟩
  | notPrepared hpc =>
      rcases hgoes (.posting .notSupported) with ⟨connects, hreplace⟩
      have hpreparing := Option.some.inj (hphase.symm.trans hpc)
      exact Or.inr ⟨_, _, _, .notPrepared hpreparing hreplace, hnext hreplace⟩
  | post hpc =>
      rcases Replace.exists_of_mem hthread none with ⟨connects, hreplace⟩
      have hposting := Option.some.inj (hphase.symm.trans hpc)
      exact Or.inr ⟨_, _, _, .post hposting (hsend _) hreplace, fun next hnone => by cases hnone⟩

end Program

/-! ## The report of the threshold -/

/-- As many bytes as the threshold have been appended, or the source has ended or failed. -/
def Buffered (request : DecoderRequest) (b : SlimBuffer) : Prop :=
  request.threshold.toNat ≤ b.history.appended.length ∨
    (sourceEnd b.history.sourced).isSome = true

/-- Whenever `BufferThreshold` has been posted, the buffer had reached the threshold. -/
def ThresholdReached (request : DecoderRequest) (s : MakeDecoder) : Prop :=
  ∀ dataStream, (.bufferThreshold, dataStream) ∈ s.posted →
    ∃ b, dataStream = some b ∧ Buffered request b

structure Provided (s : MakeDecoder) : Prop where
  buffered : s.phase = some .buffered → s.dataStream ≠ none
  posted : ∀ dataStream, (.bufferThreshold, dataStream) ∈ s.posted → dataStream ≠ none
  posting : ∀ msg, s.phase = some (.posting msg) → msg ≠ .bufferThreshold

theorem Provided.goOn (hs : s.Provided) {phase : Option ConnectPhase}
    (hphase : phase ≠ some .buffered)
    (hposting : ∀ msg, phase = some (.posting msg) → msg ≠ .bufferThreshold) :
    ({ s with phase := phase } : MakeDecoder).Provided :=
  { buffered := fun hbuffered => absurd hbuffered hphase
    posted := hs.posted
    posting := hposting }

theorem Provided.post (hs : s.Provided) {msg : PlayerMsg} {phase : Option ConnectPhase}
    (hmsg : msg = .bufferThreshold → s.dataStream ≠ none) (hphase : phase ≠ some .buffered)
    (hposting : ∀ msg, phase ≠ some (.posting msg)) : (s.post msg phase).Provided := by
  refine ⟨fun hbuffered => absurd hbuffered hphase, ?_, fun msg h => absurd h (hposting msg)⟩
  intro dataStream hmem
  rcases List.mem_append.1 hmem with hold | hnew
  · exact hs.posted dataStream hold
  · cases List.mem_singleton.1 hnew
    exact hmsg rfl

theorem Provided.update (hs : s.Provided) (b : SlimBuffer) :
    ({ s with dataStream := some b } : MakeDecoder).Provided :=
  { hs with buffered := fun _ => Option.some_ne_none b }

theorem provided_of_threadStep (h : ThreadStep t s s') (hs : s.Provided) : s'.Provided := by
  cases h with
  | dial hpc =>
      refine hs.goOn (fun hphase => ?_) (fun msg hphase => ?_)
      · cases hphase
      · cases hphase
  | dialFailed hpc | notPrepared hpc | prepared hpc =>
      refine hs.goOn (fun hphase => ?_) ?_
      · cases hphase
      · rintro msg hphase rfl
        cases hphase
  | postConnected hpc =>
      refine hs.post (fun hmsg => ?_) (fun hphase => ?_) (fun msg hphase => ?_)
      · cases hmsg
      · cases hphase
      · cases hphase
  | createBuffer status hpc =>
      refine ⟨fun _ => Option.some_ne_none _, hs.posted, fun msg hphase => ?_⟩
      cases hphase
  | postBufferThreshold hpc =>
      refine hs.post (fun _ => hs.buffered hpc) (fun hphase => ?_) (fun msg hphase => ?_)
      · cases hphase
      · cases hphase
  | read hpc hbuffer hread => exact hs.update _
  | post hpc =>
      -- The decoder, or that there is none.
      refine hs.post (fun hmsg => absurd hmsg (hs.posting _ hpc)) (fun hphase => ?_)
        (fun msg hphase => ?_)
      · cases hphase
      · cases hphase

theorem provided (h : (system t).Reachable s) : s.Provided := by
  refine System.Reachable.invariant Provided ?_ ?_ h
  · rintro s rfl
    refine ⟨fun hphase => ?_, fun _ hmem => absurd hmem List.not_mem_nil, fun msg hphase => ?_⟩
    · cases hphase
    · cases hphase
  · rintro s s' _ hs (hthread | hbuffer)
    · exact provided_of_threadStep hthread hs
    · cases hbuffer with
      | fill hbuffer hfill => exact hs.update _
      | others hbuffer hothers => exact hs.update _

/-- The thread may post `BufferThreshold` as soon as it has made the buffer. -/
theorem exists_posted (t : ConnectThread) : ∃ s, (system t).Reachable s ∧
    s.posted = [(.connected, none),
      (.bufferThreshold, some (.withCapacity t.request.buffer (StatusData.default 0)))] := by
  have h0 : (system t).Reachable start := .init rfl
  have h1 := h0.step (.inl (.dial rfl))
  have h2 := h1.step (.inl (.postConnected rfl))
  have h3 := h2.step (.inl (.createBuffer (StatusData.default 0) rfl))
  have h4 := h3.step (.inl (.postBufferThreshold rfl))
  exact ⟨_, h4, rfl⟩

theorem not_buffered_withCapacity {request : DecoderRequest} (h : request.threshold ≠ 0)
    (status : StatusData) : ¬Buffered request (.withCapacity request.buffer status) := by
  rintro (hreached | hended)
  · have hzero : request.threshold.toNat = 0 := Nat.le_zero.1 hreached
    exact h (UInt32.toNat_inj.1 hzero)
  · exact absurd hended Bool.false_ne_true

theorem not_thresholdReached (t : ConnectThread) (h : t.request.threshold ≠ 0) :
    ∃ s, (system t).Reachable s ∧ ¬s.ThresholdReached t.request := by
  -- The fill thread has done nothing yet.
  rcases exists_posted t with ⟨s, hs, hposted⟩
  refine ⟨s, hs, ?_⟩
  intro hreached
  have hmem : (PlayerMsg.bufferThreshold,
      some (SlimBuffer.withCapacity t.request.buffer (StatusData.default 0))) ∈ s.posted := by
    simp [hposted]
  rcases hreached _ hmem with ⟨b, hb, hbuffered⟩
  cases hb
  exact not_buffered_withCapacity h _ hbuffered

/-- **`BufferThreshold` means that the threshold is reached only if there is none**: in all runs of
`make_decoder`, with every source and every schedule of the fill thread, the buffer has reached the
threshold when it is posted, exactly if the threshold is zero. -/
theorem thresholdReached_iff (t : ConnectThread) :
    (∀ s, (system t).Reachable s → s.ThresholdReached t.request) ↔ t.request.threshold = 0 := by
  constructor
  · intro hall
    by_contra hpositive
    rcases not_thresholdReached t hpositive with ⟨s, hs, hearly⟩
    exact hearly (hall s hs)
  · intro hzero s hs dataStream hmem
    cases dataStream with
    | none => exact absurd rfl ((provided hs).posted none hmem)
    | some b =>
        refine ⟨b, rfl, Or.inl ?_⟩
        rw [hzero]
        exact Nat.zero_le _

/-- A thread that is to buffer 255 KiB before it reports. -/
def bufferingThread : ConnectThread :=
  { origin := 0
    request :=
      { serverIp := .new 10 0 0 1
        defaultIp := .new 10 0 0 1
        serverPort := 9000
        httpHeaders := "GET /stream.mp3 HTTP/1.0\r\n"
        threshold := 255 * 1024
        format := .mp3
        pcmsamplesize := .selfDescribing
        pcmsamplerate := .selfDescribing
        pcmchannels := .selfDescribing
        autostart := .auto
        outputThreshold := 0 }
    phase := .dialing }

theorem not_thresholdReached_buffering : ∃ s, (system bufferingThread).Reachable s ∧
    ¬s.ThresholdReached bufferingThread.request :=
  not_thresholdReached bufferingThread (by decide)

end MakeDecoder

end Vibe
end LmsPlayer
