import LmsPlayer.Vibe.Callback

/-!
# Vibe.Skip — what a Skip drops

How the refill loop of the PipeWire callback and of `DecoderSource::next` serves a Skip.  All that
matters of the stream are the sizes of the successive refills (`refillSizes`): a refill is dropped
whole as long as the Skip that is left covers it, and the loop is left at the first one that is not.

* `terminates_iff` — the loop is left unless every refill is dropped and some of the Skip is left;
* `dropped_of_returns` — how much has been dropped then.
-/

namespace LmsPlayer
namespace Vibe

open Iteration

namespace Refill

variable {g : Growth} {α : Type} {l : Layout α} {limit : Option Nat} {s t : Refill g α}

/-! ## The sizes of refills -/

/-- The sizes of the next refills, when each is dropped whole. -/
def refillSizes (l : Layout α) (limit : Option Nat) :
    Nat → Decoding → GrowVec g α → List Nat
  | 0, _, _ => []
  | m + 1, decoder, audioBuf =>
      let s := (refilled l limit (start decoder audioBuf 0)).1
      s.audioBuf.len ::
        refillSizes l limit m s.decoder (s.audioBuf.drain s.audioBuf.len)

/-- Whether a refill of `n` elements is dropped whole when `k` of the Skip is left. -/
def DroppedWhole (l : Layout α) (d : Decoding) (k : Duration) (n : Nat) : Prop :=
  0 < k ∧ n ≤ d.durToSamples k * l.size

instance (l : Layout α) (d : Decoding) (k : Duration) (n : Nat) :
    Decidable (DroppedWhole l d k n) :=
  inferInstanceAs (Decidable (_ ∧ _))

/-- What is left of the Skip once a refill of `n` elements has been dropped. -/
def skipAfter (l : Layout α) (d : Decoding) (k : Duration) (n : Nat) : Duration :=
  k - d.samplesToDur (n / l.size)

/-- All refills are dropped whole, and some of the Skip is left. -/
def Outlasts (l : Layout α) (d : Decoding) : Duration → List Nat → Prop
  | k, [] => 0 < k
  | k, n :: ns => DroppedWhole l d k n ∧ Outlasts l d (skipAfter l d k n) ns

instance decidableOutlasts (l : Layout α) (d : Decoding) :
    ∀ (k : Duration) (ns : List Nat), Decidable (Outlasts l d k ns)
  | k, [] => inferInstanceAs (Decidable (0 < k))
  | k, n :: ns =>
      have := decidableOutlasts l d (skipAfter l d k n) ns
      inferInstanceAs (Decidable (DroppedWhole l d k n ∧ Outlasts l d (skipAfter l d k n) ns))

/-- The sizes of the refills that are dropped whole. -/
def wholes (l : Layout α) (d : Decoding) : Duration → List Nat → List Nat
  | _, [] => []
  | k, n :: ns =>
      if DroppedWhole l d k n then n :: wholes l d (skipAfter l d k n) ns else []

/-- What is left of the Skip at the first refill that is not dropped whole. -/
def leftOver (l : Layout α) (d : Decoding) : Duration → List Nat → Duration
  | k, [] => k
  | k, n :: ns => if DroppedWhole l d k n then leftOver l d (skipAfter l d k n) ns else k

/-! ## A refill does not depend on the Skip -/

/-- Two loops with the same decoder and the same buffer. -/
def SameStream (s t : Refill g α) : Prop := s.decoder = t.decoder ∧ s.audioBuf = t.audioBuf

theorem refillRound_sameStream (l : Layout α) (limit : Option Nat) (h : SameStream s t) :
    (∃ a b, refillRound l limit s = .inl a ∧ refillRound l limit t = .inl b ∧ SameStream a b) ∨
    (∃ a b eod, refillRound l limit s = .inr (a, eod) ∧ refillRound l limit t = .inr (b, eod) ∧
      SameStream a b) := by
  simp only [refillRound, h.1, h.2]
  rcases t.decoder.fillBuffer l t.audioBuf limit with ⟨(_ | _) | eod, decoder, audioBuf⟩
  · exact .inl ⟨_, _, rfl, rfl, rfl, rfl⟩
  · exact .inr ⟨_, _, _, rfl, rfl, rfl, rfl⟩
  · exact .inr ⟨_, _, _, rfl, rfl, rfl, rfl⟩

theorem run_refillRound_sameStream (h : SameStream s t) {fuel : Nat} {r r' : Refill g α × Bool}
    (hs : run (refillRound l limit) fuel s = some r)
    (ht : run (refillRound l limit) fuel t = some r') : SameStream r.1 r'.1 := by
  induction fuel generalizing s t with
  | zero => cases hs
  | succ fuel ih =>
      rcases refillRound_sameStream l limit h with ⟨a, b, ha, hb, hab⟩ | ⟨a, b, eod, ha, hb, hab⟩
      · simp only [run, ha] at hs
        simp only [run, hb] at ht
        exact ih hab hs ht
      · simp only [run, ha] at hs
        simp only [run, hb] at ht
        cases hs
        cases ht
        exact hab

theorem refilled_sameStream (h : SameStream s t) :
    SameStream (refilled l limit s).1 (refilled l limit t).1 := by
  refine run_refillRound_sameStream h (run_refilled l limit s) ?_
  simpa [h.1] using run_refilled l limit t

/-! ## One refill -/

/-- The size of the next refill. -/
def nextSize (l : Layout α) (limit : Option Nat) (s : Refill g α) : Nat :=
  (refilled l limit s).1.audioBuf.len

/-- The state after a refill that is dropped whole. -/
def emptied (l : Layout α) (limit : Option Nat) (s : Refill g α) : Refill g α :=
  (refilled l limit s).1.dropSome l

theorem toDrop_of_droppedWhole (h : DroppedWhole l s.decoder s.skip (nextSize l limit s)) :
    (refilled l limit s).1.toDrop l = nextSize l limit s := by
  obtain ⟨hskip, -, pending, hdecoder⟩ := refilled_kept l limit s
  simp only [toDrop, hskip, hdecoder]
  exact Nat.min_eq_right h.2

theorem audioBuf_emptied (h : DroppedWhole l s.decoder s.skip (nextSize l limit s)) :
    (emptied l limit s).audioBuf = (refilled l limit s).1.audioBuf.drain (nextSize l limit s) := by
  simp only [emptied, dropSome, toDrop_of_droppedWhole h]

theorem data_emptied (h : DroppedWhole l s.decoder s.skip (nextSize l limit s)) :
    (emptied l limit s).audioBuf.data = [] := by
  simp [audioBuf_emptied h, nextSize, GrowVec.len]

theorem decoder_emptied (s : Refill g α) :
    (emptied l limit s).decoder = (refilled l limit s).1.decoder := rfl

theorem skip_emptied (h : DroppedWhole l s.decoder s.skip (nextSize l limit s)) :
    (emptied l limit s).skip = skipAfter l s.decoder s.skip (nextSize l limit s) := by
  obtain ⟨hskip, -, pending, hdecoder⟩ := refilled_kept l limit s
  simp only [emptied, dropSome, toDrop_of_droppedWhole h, hskip, hdecoder]
  rfl

theorem dropped_emptied (h : DroppedWhole l s.decoder s.skip (nextSize l limit s)) :
    (emptied l limit s).dropped = s.dropped + nextSize l limit s := by
  obtain ⟨-, hdropped, -⟩ := refilled_kept l limit s
  simp only [emptied, dropSome, toDrop_of_droppedWhole h, hdropped]

/-- The loop goes on after a refill that is dropped whole. -/
theorem dropNext_of_droppedWhole (h : DroppedWhole l s.decoder s.skip (nextSize l limit s)) :
    dropNext l (refilled l limit s) = .inl (emptied l limit s) := by
  have hpos : 0 < (refilled l limit s).1.skip := (refilled_kept l limit s).1.symm ▸ h.1
  have hempty : ((refilled l limit s).1.dropSome l).audioBuf.isEmpty = true :=
    GrowVec.isEmpty_iff.2 (data_emptied h)
  simp [dropNext, hpos, hempty, emptied]

theorem returns_emptied (h : DroppedWhole l s.decoder s.skip (nextSize l limit s))
    {r : Refill g α × Bool} :
    Returns (skipRound l limit) s r ↔ Returns (skipRound l limit) (emptied l limit s) r :=
  returns_andThen_of_inl (returns_refilled l limit s) (dropNext_of_droppedWhole h)

/-- The loop is left after a refill that is not. -/
theorem returns_of_not_droppedWhole (h : ¬DroppedWhole l s.decoder s.skip (nextSize l limit s)) :
    ∃ r, Returns (skipRound l limit) s r ∧
      r.1.dropped = s.dropped + s.decoder.durToSamples s.skip * l.size := by
  obtain ⟨hskip, hdropped, pending, hdecoder⟩ := refilled_kept l limit s
  -- Either the refill is longer than the Skip, or there is no Skip.
  by_cases hpos : 0 < s.skip
  · have hless : s.decoder.durToSamples s.skip * l.size < nextSize l limit s :=
      Nat.lt_of_not_le (fun hle => h ⟨hpos, hle⟩)
    have hdrop : (refilled l limit s).1.toDrop l = s.decoder.durToSamples s.skip * l.size := by
      simp only [toDrop, hskip, hdecoder]
      exact Nat.min_eq_left hless.le
    -- Something is left in the buffer.
    have hsome : ((refilled l limit s).1.dropSome l).audioBuf.isEmpty = false := by
      have hlen : 0 < ((refilled l limit s).1.dropSome l).audioBuf.len := by
        simp only [dropSome, hdrop, GrowVec.len_drain]
        exact Nat.sub_pos_of_lt hless
      simpa [GrowVec.isEmpty, GrowVec.len, List.length_pos_iff] using hlen
    have hnext : dropNext l (refilled l limit s) =
        .inr ((refilled l limit s).1.dropSome l, (refilled l limit s).2) := by
      simp [dropNext, hskip, hpos, hsome]
    refine ⟨_, (returns_andThen_of_inr (returns_refilled l limit s) hnext).2 rfl, ?_⟩
    simp only [dropSome, hdrop, hdropped]
  · have hzero : s.skip = 0 := Nat.eq_zero_of_not_pos hpos
    have hnext : dropNext l (refilled l limit s) = .inr (refilled l limit s) := by
      simp [dropNext, hskip, hzero]
    refine ⟨_, (returns_andThen_of_inr (returns_refilled l limit s) hnext).2 rfl, ?_⟩
    simp [hdropped, hzero, Decoding.durToSamples, Duration.asMillis]

/-! ## The end of the stream -/

/-- The number of refills that can have elements: the first, if there is something in the buffer,
and one for each pending result. -/
def rank (s : Refill g α) : Nat := s.decoder.pending.length + if s.audioBuf.data = [] then 0 else 1

/-- An empty buffer is filled with what is pending. -/
theorem pending_refilled (hlimit : 0 < leastLimit limit) (s : Refill g α) :
    (refilled l limit s).1.decoder.pending.length ≤ s.decoder.pending.length ∧
      (s.audioBuf.data = [] →
        (refilled l limit s).1.decoder.pending.length < s.decoder.pending.length ∨
        (refilled l limit s).1.decoder.pending = []) := by
  have hrefills := refills_refilled l limit s
  generalize refilled l limit s = r at hrefills ⊢
  cases hrefills with
  | @full d' buffer' xs h hdata hlen =>
      refine ⟨h.length_pending_le, ?_⟩
      intro hempty
      refine .inl (h.handedOut.length_pending_lt ?_)
      rintro rfl
      have hzero : buffer'.len = 0 := by
        simp [GrowVec.len, hdata, hempty, l.encode_nil]
      exact absurd (hzero ▸ hlen) (Nat.not_le_of_lt hlimit)
  | ended h _ _ hend => exact ⟨h.length_pending_le, fun _ => .inr hend.1⟩
  | failed h => exact ⟨h.length_pending_le, fun _ => h.length_pending_lt⟩

theorem rank_emptied (hlimit : 0 < leastLimit limit) {m : Nat} (hs : s.rank ≤ m + 1)
    (h : DroppedWhole l s.decoder s.skip (nextSize l limit s)) :
    (emptied l limit s).rank ≤ m := by
  obtain ⟨hle, hfirst⟩ := pending_refilled (l := l) hlimit s
  simp only [rank, decoder_emptied, data_emptied h, if_true, Nat.add_zero]
  -- What was in the buffer at first counts only once.
  by_cases hbuf : s.audioBuf.data = []
  · simp only [rank, hbuf, if_true, Nat.add_zero] at hs
    rcases hfirst hbuf with hless | hnil
    · omega
    · simp [hnil]
  · simp only [rank, hbuf, if_false] at hs
    omega

/-- Nothing is left to be played. -/
def Over (s : Refill g α) : Prop := s.decoder.pending = [] ∧ s.audioBuf.data = []

theorem over_of_rank (h : s.rank ≤ 0) : s.Over := by
  unfold rank at h
  by_cases hbuf : s.audioBuf.data = []
  · simp only [hbuf, if_true, Nat.add_zero] at h
    exact ⟨List.eq_nil_of_length_eq_zero (Nat.le_zero.1 h), hbuf⟩
  · simp [hbuf] at h

/-- There is nothing to retry then, and nothing to fill the buffer with. -/
theorem refillRound_of_over (hlimit : 0 < leastLimit limit) (h : s.Over) :
    refillRound l limit s = .inr (refilled l limit s) ∧ nextSize l limit s = 0 ∧
      (refilled l limit s).1.decoder.pending = [] := by
  obtain ⟨hpending, hempty⟩ := h
  obtain ⟨hle, -⟩ := pending_refilled (l := l) hlimit s
  have hround : refillRound l limit s = .inr (refilled l limit s) := by
    rcases refillRound_cases l limit s with ⟨t, -, -, hless⟩ | ⟨r, hr, -⟩
    · simp [hpending] at hless
    · exact hr.trans (congrArg _ (((returns_of_inr hr).2 rfl).unique (returns_refilled l limit s)))
  have hpending' : (refilled l limit s).1.decoder.pending = [] := by
    simpa [hpending] using hle
  refine ⟨hround, ?_, hpending'⟩
  obtain ⟨xs, hout, hdata⟩ := (refills_refilled l limit s).exists_handedOut
  have hnone : xs = [] := by
    by_contra hxs
    have hless := hout.length_pending_lt hxs
    simp [hpending] at hless
  simp [nextSize, GrowVec.len, hdata, hempty, hnone, l.encode_nil]

/-- From then on the loop goes on with the Skip as it is. -/
theorem not_terminates_of_over (hlimit : 0 < leastLimit limit) (hover : s.Over)
    (hskip : 0 < s.skip) :
    ¬Terminates (skipRound l limit) s := by
  -- Every further refill is empty: it is dropped whole and takes nothing off the Skip.
  refine not_terminates_of_invariant (fun s => s.Over ∧ 0 < s.skip) ⟨hover, hskip⟩ ?_
  intro a ha
  obtain ⟨hover, hskip⟩ := ha
  obtain ⟨hround, hsize, hpending⟩ := refillRound_of_over (l := l) hlimit hover
  have hwhole : DroppedWhole l a.decoder a.skip (nextSize l limit a) :=
    ⟨hskip, hsize ▸ Nat.zero_le _⟩
  refine ⟨emptied l limit a, ?_, ⟨hpending, data_emptied hwhole⟩, ?_⟩
  · exact (andThen_of_inr hround).trans (dropNext_of_droppedWhole hwhole)
  · -- Nothing dropped is no time skipped.
    simpa [skip_emptied hwhole, hsize, skipAfter, Decoding.samplesToDur, Duration.fromMillis]
      using hskip

/-! ## All refills -/

/-- Decoders that convert between samples and time alike. -/
def SameSpec (d d' : Decoding) : Prop := d'.sampleRate = d.sampleRate ∧ d'.channels = d.channels

theorem SameSpec.durToSamples {d d' : Decoding} (h : SameSpec d d') (k : Duration) :
    d'.durToSamples k = d.durToSamples k := by
  simp only [Decoding.durToSamples, h.1, h.2]

theorem SameSpec.droppedWhole {d d' : Decoding} (h : SameSpec d d') {k : Duration} {n : Nat} :
    DroppedWhole l d' k n ↔ DroppedWhole l d k n := by
  simp only [DroppedWhole, h.durToSamples]

theorem SameSpec.skipAfter {d d' : Decoding} (h : SameSpec d d') (k : Duration) (n : Nat) :
    skipAfter l d' k n = skipAfter l d k n := by
  simp only [Refill.skipAfter, Decoding.samplesToDur, h.1, h.2]

theorem SameSpec.emptied {d : Decoding} (h : SameSpec d s.decoder) :
    SameSpec d (emptied l limit s).decoder := by
  obtain ⟨-, -, pending, hdecoder⟩ := refilled_kept l limit s
  rw [decoder_emptied, hdecoder]
  exact h

theorem exists_refillSizes_succ (l : Layout α) (limit : Option Nat) (m : Nat) (s : Refill g α) :
    ∃ ns, refillSizes l limit (m + 1) s.decoder s.audioBuf = nextSize l limit s :: ns ∧
      (DroppedWhole l s.decoder s.skip (nextSize l limit s) →
        ns = refillSizes l limit m (emptied l limit s).decoder (emptied l limit s).audioBuf) := by
  have hsame : SameStream (refilled l limit (start s.decoder s.audioBuf 0)).1
      (refilled l limit s).1 := refilled_sameStream ⟨rfl, rfl⟩
  simp only [refillSizes, hsame.1, hsame.2]
  refine ⟨_, rfl, ?_⟩
  intro h
  simp only [decoder_emptied, audioBuf_emptied h, nextSize]

/-- The loop goes on forever when all refills are dropped whole and some of the Skip is left.  It
drops the Skip that is left from the first refill that is longer. -/
theorem skipRound_spec (hlimit : 0 < leastLimit limit) (d : Decoding) {m : Nat} {s : Refill g α}
    (hs : s.rank ≤ m) (hspec : SameSpec d s.decoder) :
    (Outlasts l d s.skip (refillSizes l limit m s.decoder s.audioBuf) →
      ¬Terminates (skipRound l limit) s) ∧
    (¬Outlasts l d s.skip (refillSizes l limit m s.decoder s.audioBuf) →
      ∃ r, Returns (skipRound l limit) s r ∧
        r.1.dropped = s.dropped +
          (wholes l d s.skip (refillSizes l limit m s.decoder s.audioBuf)).sum +
          d.durToSamples (leftOver l d s.skip (refillSizes l limit m s.decoder s.audioBuf)) *
            l.size) := by
  -- By induction on the number of refills that can have elements.
  induction m generalizing s with
  | zero =>
      -- The stream is over: only a Skip that has been served lets the loop end.
      refine ⟨not_terminates_of_over hlimit (over_of_rank hs), ?_⟩
      intro hskip
      have hnot : ¬DroppedWhole l s.decoder s.skip (nextSize l limit s) := fun h => hskip h.1
      obtain ⟨r, hr, hdropped⟩ := returns_of_not_droppedWhole hnot
      refine ⟨r, hr, ?_⟩
      simpa [refillSizes, wholes, leftOver, hspec.durToSamples] using hdropped
  | succ m ih =>
      obtain ⟨ns, hsizes, hns⟩ := exists_refillSizes_succ l limit m s
      by_cases h : DroppedWhole l s.decoder s.skip (nextSize l limit s)
      · have hd : DroppedWhole l d s.skip (nextSize l limit s) := hspec.droppedWhole.1 h
        have hskip : (emptied l limit s).skip = skipAfter l d s.skip (nextSize l limit s) := by
          rw [skip_emptied h, hspec.skipAfter]
        obtain ⟨hforever, hreturns⟩ := ih (rank_emptied hlimit hs h) hspec.emptied
        -- What holds of the rest holds of the whole, the refill added to what is dropped.
        rw [hskip, ← hns h] at hforever hreturns
        simp only [hsizes, Outlasts, wholes, leftOver, hd, true_and, if_true]
        refine ⟨?_, ?_⟩
        · intro houtlasts hterminates
          refine hforever houtlasts ?_
          obtain ⟨r, hr⟩ := hterminates
          exact ⟨r, (returns_emptied h).1 hr⟩
        · intro houtlasts
          obtain ⟨r, hr, hdropped⟩ := hreturns houtlasts
          refine ⟨r, (returns_emptied h).2 hr, ?_⟩
          simp [hdropped, dropped_emptied h, Nat.add_assoc]
      · have hd : ¬DroppedWhole l d s.skip (nextSize l limit s) :=
          fun hd => h (hspec.droppedWhole.2 hd)
        obtain ⟨r, hr, hdropped⟩ := returns_of_not_droppedWhole h
        simp only [hsizes, Outlasts, wholes, leftOver, hd, false_and, if_false]
        refine ⟨False.elim, fun _ => ⟨r, hr, ?_⟩⟩
        simpa [hspec.durToSamples] using hdropped

theorem rank_start_le (d : Decoding) (audioBuf : GrowVec g α) (skip : Duration) :
    (start d audioBuf skip).rank ≤ d.pending.length + 1 := by
  by_cases hempty : audioBuf.data = []
  · simp [rank, start, hempty]
  · simp [rank, start, hempty]

theorem terminates_iff (l : Layout α) (hlimit : 0 < leastLimit limit) (d : Decoding)
    (audioBuf : GrowVec g α) (skip : Duration) :
    Terminates (skipRound l limit) (start d audioBuf skip) ↔
      ¬Outlasts l d skip (refillSizes l limit (d.pending.length + 1) d audioBuf) := by
  have hspec := skipRound_spec (l := l) hlimit d (rank_start_le d audioBuf skip) ⟨rfl, rfl⟩
  constructor
  · intro hterminates houtlasts
    exact hspec.1 houtlasts hterminates
  · intro houtlasts
    obtain ⟨r, hr, -⟩ := hspec.2 houtlasts
    exact ⟨r, hr⟩

theorem dropped_of_returns (l : Layout α) (hlimit : 0 < leastLimit limit) (d : Decoding)
    (audioBuf : GrowVec g α) (skip : Duration) {r : Refill g α × Bool}
    (hr : Returns (skipRound l limit) (start d audioBuf skip) r) :
    r.1.dropped =
      (wholes l d skip (refillSizes l limit (d.pending.length + 1) d audioBuf)).sum +
        d.durToSamples
          (leftOver l d skip (refillSizes l limit (d.pending.length + 1) d audioBuf)) * l.size := by
  have hspec := skipRound_spec (l := l) hlimit d (rank_start_le d audioBuf skip) ⟨rfl, rfl⟩
  have houtlasts := (terminates_iff l hlimit d audioBuf skip).1 ⟨r, hr⟩
  obtain ⟨r', hr', hdropped⟩ := hspec.2 houtlasts
  rw [hr.unique hr']
  simpa [start] using hdropped

end Refill

open Refill

/-! ## The loops of the two backends -/

/-- The loops that serve a Skip end unless it outlasts the audio: then they go on for good. -/
theorem skipLoops_terminate_iff (g : Growth) :
    (∀ (d : Decoding) (audioBuf : GrowVec g UInt8) (skip : Duration),
      Terminates pipewireRound (start d audioBuf skip) ↔
        ¬Outlasts .raw d skip (refillSizes .raw none (d.pending.length + 1) d audioBuf)) ∧
    (∀ (d : Decoding) (audioBuf : GrowVec g Sample) (skip : Duration),
      Terminates rodioRound (start d audioBuf skip) ↔
        ¬Outlasts .samples d skip
          (refillSizes .samples rodioLimit (d.pending.length + 1) d audioBuf)) :=
  ⟨terminates_iff .raw (by decide), terminates_iff .samples (by decide)⟩

/-- A Skip of a second is not served.  The buffers are those of a stream without a threshold. -/
theorem not_terminates_lastFrame :
    ¬Terminates pipewireRound
        (start lastFrame (GrowVec.withCapacity MIN_AUDIO_BUFFER_SIZE : GrowVec .exact UInt8)
          (.fromMillis 1000)) ∧
      ¬Terminates rodioRound
        (start lastFrame (GrowVec.withCapacity 0 : GrowVec .exact Sample) (.fromMillis 1000)) := by
  constructor
  · refine (skipRound_spec (by decide) lastFrame (rank_start_le _ _ _) ⟨rfl, rfl⟩).1 ?_
    decide
  · refine (skipRound_spec (by decide) lastFrame (rank_start_le _ _ _) ⟨rfl, rfl⟩).1 ?_
    decide

end Vibe
end LmsPlayer
