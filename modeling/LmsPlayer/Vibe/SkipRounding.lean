import LmsPlayer.Vibe.Skip
import Mathlib.Algebra.BigOperators.Ring.List
import Mathlib.Tactic.Ring

/-!
# Vibe.SkipRounding — frames and rounding in a Skip

Two consequences of how a Skip is served.  Samples are counted from milliseconds and milliseconds
from samples, rounding down both times.

* What is dropped from the refill in which the loop is left may end in the middle of a frame.
* Every refill that is dropped whole adds what its time was rounded by to what is dropped in the
  end.
-/

namespace LmsPlayer
namespace Vibe

open Iteration

namespace Refill

variable {g : Growth} {α : Type} {l : Layout α} {limit : Option Nat}

/-! ## Whole frames -/

def WholePackets (d : Decoding) : Prop :=
  ∀ packet, .ok packet ∈ d.pending → d.channels ∣ packet.length

theorem dvd_length_samplesOf {n : Nat} {rs : List DecodeResult}
    (h : ∀ packet, .ok packet ∈ rs → n ∣ packet.length) : n ∣ (Decoding.samplesOf rs).length := by
  induction rs with
  | nil => simp [Decoding.samplesOf]
  | cons r rs ih =>
      have hrest : n ∣ (Decoding.samplesOf rs).length :=
        ih (fun packet hmem => h packet (List.mem_cons_of_mem _ hmem))
      cases r with
      | ok packet =>
          have hpacket : n ∣ packet.length := h packet List.mem_cons_self
          simpa [Decoding.samplesOf] using Nat.dvd_add hpacket hrest
      | error e => simpa [Decoding.samplesOf] using hrest

/-- What a decoder hands out of whole packets is whole frames, and what is pending still is. -/
theorem dvd_of_handedOut {d d' : Decoding} {xs : List Sample} {n : Nat}
    (h : ∀ packet, .ok packet ∈ d.pending → n ∣ packet.length) (hout : d.HandedOut d' xs) :
    n ∣ xs.length ∧ ∀ packet, .ok packet ∈ d'.pending → n ∣ packet.length := by
  obtain ⟨used, hused, rfl⟩ := hout
  rw [hused] at h
  refine ⟨dvd_length_samplesOf ?_, ?_⟩
  · intro packet hmem
    exact h packet (List.mem_append_left _ hmem)
  · intro packet hmem
    exact h packet (List.mem_append_right _ hmem)

theorem dvd_nextSize {s : Refill g α} {n : Nat} (hbuf : n * l.size ∣ s.audioBuf.len)
    (h : ∀ packet, .ok packet ∈ s.decoder.pending → n ∣ packet.length) :
    n * l.size ∣ nextSize l limit s ∧
      ∀ packet, .ok packet ∈ (refilled l limit s).1.decoder.pending → n ∣ packet.length := by
  obtain ⟨xs, hout, hdata⟩ := (refills_refilled l limit s).exists_handedOut
  obtain ⟨hxs, hpending⟩ := dvd_of_handedOut h hout
  refine ⟨?_, hpending⟩
  have hsize : nextSize l limit s = s.audioBuf.len + xs.length * l.size := by
    calc
      nextSize l limit s = (s.audioBuf.data ++ l.encode xs).length := congrArg List.length hdata
      _ = s.audioBuf.len + xs.length * l.size := by
        rw [List.length_append, l.length_encode, Nat.mul_comm l.size]
        rfl
  rw [hsize]
  exact Nat.dvd_add hbuf (Nat.mul_dvd_mul_right hxs l.size)

theorem dvd_refillSizes {n m : Nat} {d : Decoding} {audioBuf : GrowVec g α}
    (hbuf : n * l.size ∣ audioBuf.len)
    (h : ∀ packet, .ok packet ∈ d.pending → n ∣ packet.length) :
    ∀ size ∈ refillSizes l limit m d audioBuf, n * l.size ∣ size := by
  induction m generalizing d audioBuf with
  | zero => simp [refillSizes]
  | succ m ih =>
      obtain ⟨hsize, hpending⟩ := dvd_nextSize (l := l) (s := start d audioBuf 0)
        hbuf h
      simp only [refillSizes, List.mem_cons]
      rintro size (rfl | hmem)
      · exact hsize
      · exact ih (by simp) hpending size hmem

theorem mem_of_mem_wholes {d : Decoding} {k : Duration} {ns : List Nat} {n : Nat}
    (h : n ∈ wholes l d k ns) : n ∈ ns := by
  induction ns generalizing k with
  | nil => simp [wholes] at h
  | cons m ns ih =>
      by_cases hwhole : DroppedWhole l d k m
      · simp only [wholes, hwhole, if_true, List.mem_cons] at h
        exact h.elim (fun h => h ▸ List.mem_cons_self) (fun h => List.mem_cons_of_mem _ (ih h))
      · simp [wholes, hwhole] at h

/-- `dur_to_samples` gives whole frames when the frames it rounds down by, taken for each channel,
are less than a sample. -/
theorem dvd_durToSamples_iff (d : Decoding) (k : Duration) :
    d.channels ∣ d.durToSamples k ↔ d.channels * (d.sampleRate * k.asMillis % 1000) < 1000 := by
  have hdiv := Nat.div_add_mod (d.sampleRate * k.asMillis) 1000
  generalize d.sampleRate * k.asMillis / 1000 = q at hdiv
  generalize hrem : d.sampleRate * k.asMillis % 1000 = r at hdiv
  have hr : r < 1000 := hrem ▸ Nat.mod_lt _ (by decide)
  have hsamples : d.durToSamples k = d.channels * q + d.channels * r / 1000 := by
    have hprod : d.sampleRate * d.channels * k.asMillis =
        1000 * (d.channels * q) + d.channels * r := by
      calc
        d.sampleRate * d.channels * k.asMillis = d.channels * (d.sampleRate * k.asMillis) := by ring
        _ = d.channels * (1000 * q + r) := by rw [hdiv]
        _ = 1000 * (d.channels * q) + d.channels * r := by ring
    rw [Decoding.durToSamples, hprod, Nat.mul_add_div (by decide)]
  -- All but the last term is whole frames, and that is less than one.
  rw [hsamples, Nat.dvd_add_right (Nat.dvd_mul_right _ _)]
  constructor
  · intro hdvd
    have hless : d.channels * r / 1000 < d.channels := by
      refine Nat.div_lt_of_lt_mul ?_
      rw [Nat.mul_comm 1000]
      exact Nat.mul_lt_mul_of_pos_left hr d.channels_pos
    have hzero : d.channels * r / 1000 = 0 := Nat.eq_zero_of_dvd_of_lt hdvd hless
    exact Nat.lt_of_div_eq_zero (by decide) hzero
  · intro hlt
    rw [Nat.div_eq_of_lt hlt]
    exact Nat.dvd_zero _

/-- What the loop has dropped when it is left is whole frames if what it drops last is. -/
theorem wholeFrames_iff (l : Layout α) (hlimit : 0 < leastLimit limit) {d : Decoding}
    {audioBuf : GrowVec g α} (hbuf : d.channels * l.size ∣ audioBuf.len)
    (hpackets : WholePackets d) (skip : Duration) :
    (∀ r, Returns (skipRound l limit) (start d audioBuf skip) r →
        d.channels * l.size ∣ r.1.dropped) ↔
      Outlasts l d skip (refillSizes l limit (d.pending.length + 1) d audioBuf) ∨
        d.channels * (d.sampleRate *
          (leftOver l d skip (refillSizes l limit (d.pending.length + 1) d audioBuf)).asMillis %
            1000) < 1000 := by
  rw [← dvd_durToSamples_iff]
  have hwholes : d.channels * l.size ∣
      (wholes l d skip (refillSizes l limit (d.pending.length + 1) d audioBuf)).sum :=
    List.dvd_sum (fun n hn => dvd_refillSizes hbuf hpackets n (mem_of_mem_wholes hn))
  have hdropped : ∀ r, Returns (skipRound l limit) (start d audioBuf skip) r →
      (d.channels * l.size ∣ r.1.dropped ↔ d.channels ∣ d.durToSamples
        (leftOver l d skip (refillSizes l limit (d.pending.length + 1) d audioBuf))) := by
    intro r hr
    rw [dropped_of_returns l hlimit d audioBuf skip hr, Nat.dvd_add_right hwholes]
    exact Nat.mul_dvd_mul_iff_right l.size_pos
  have hterminates := terminates_iff l hlimit d audioBuf skip
  -- A loop that is not left drops nothing in the end.
  constructor
  · intro hall
    by_cases houtlasts : Outlasts l d skip (refillSizes l limit (d.pending.length + 1) d audioBuf)
    · exact .inl houtlasts
    · obtain ⟨r, hr⟩ := hterminates.2 houtlasts
      exact .inr ((hdropped r hr).1 (hall r hr))
  · rintro (houtlasts | hdvd) r hr
    · exact absurd houtlasts (hterminates.1 ⟨r, hr⟩)
    · exact (hdropped r hr).2 hdvd

/-! ## Rounding -/

/-- What rounding its time down loses of a refill, in thousandths of a sample. -/
def rounding (l : Layout α) (d : Decoding) (n : Nat) : Nat :=
  1000 * (n / l.size) % (d.sampleRate * d.channels)

def totalRounding (l : Layout α) (d : Decoding) (ns : List Nat) : Nat :=
  (ns.map (rounding l d)).sum

/-- A refill that is dropped whole takes no more time than is left. -/
theorem asMillis_skipAfter {d : Decoding} {k : Duration} {n : Nat} (h : DroppedWhole l d k n) :
    d.sampleRate * d.channels * k.asMillis + rounding l d n =
      d.sampleRate * d.channels * (skipAfter l d k n).asMillis + 1000 * (n / l.size) := by
  have hrate : 0 < d.sampleRate * d.channels := Nat.mul_pos d.sampleRate_pos d.channels_pos
  -- The samples of the refill are at most those that the Skip asks for.
  have hsamples : n / l.size ≤ d.sampleRate * d.channels * k.asMillis / 1000 :=
    Nat.div_le_of_le_mul (h.2.trans_eq (Nat.mul_comm _ _))
  have htime : 1000 * (n / l.size) ≤ d.sampleRate * d.channels * k.asMillis := by
    calc
      1000 * (n / l.size) ≤ 1000 * (d.sampleRate * d.channels * k.asMillis / 1000) :=
        Nat.mul_le_mul_left _ hsamples
      _ ≤ d.sampleRate * d.channels * k.asMillis := Nat.mul_div_le _ _
  have hafter : (skipAfter l d k n).asMillis =
      k.asMillis - 1000 * (n / l.size) / (d.sampleRate * d.channels) := by
    simp only [skipAfter, Decoding.samplesToDur, Duration.asMillis, Duration.fromMillis,
      Nat.mul_comm (n / l.size)]
    rw [Nat.mul_comm _ 1000000, Nat.sub_mul_div]
  have hle : 1000 * (n / l.size) / (d.sampleRate * d.channels) ≤ k.asMillis :=
    Nat.div_le_of_le_mul htime
  have hdiv := Nat.div_add_mod (1000 * (n / l.size)) (d.sampleRate * d.channels)
  rw [hafter, Nat.mul_sub, rounding]
  have hmul := Nat.mul_le_mul_left (d.sampleRate * d.channels) hle
  omega

theorem asMillis_leftOver (d : Decoding) (k : Duration) (ns : List Nat) :
    d.sampleRate * d.channels * k.asMillis + totalRounding l d (wholes l d k ns) =
      d.sampleRate * d.channels * (leftOver l d k ns).asMillis +
        1000 * ((wholes l d k ns).map (· / l.size)).sum := by
  induction ns generalizing k with
  | nil => simp [wholes, leftOver, totalRounding]
  | cons n ns ih =>
      by_cases h : DroppedWhole l d k n
      · have hfirst := asMillis_skipAfter h
        have hrest := ih (skipAfter l d k n)
        simp only [wholes, leftOver, h, if_true, totalRounding, List.map_cons, List.sum_cons]
          at hrest ⊢
        omega
      · simp [wholes, leftOver, h, totalRounding]

/-- The samples of the whole refills and of what the last one loses are what the Skip asks for if
the rounding adds up to less than a sample. -/
theorem samples_eq_iff (d : Decoding) (k : Duration) (ns : List Nat) :
    d.durToSamples k ≤
        ((wholes l d k ns).map (· / l.size)).sum + d.durToSamples (leftOver l d k ns) ∧
      (((wholes l d k ns).map (· / l.size)).sum + d.durToSamples (leftOver l d k ns) =
          d.durToSamples k ↔
        d.sampleRate * d.channels * k.asMillis % 1000 + totalRounding l d (wholes l d k ns) <
          1000) := by
  have htotal := asMillis_leftOver (l := l) d k ns
  simp only [Decoding.durToSamples]
  generalize d.sampleRate * d.channels * k.asMillis = asked at *
  generalize d.sampleRate * d.channels * (leftOver l d k ns).asMillis = left at *
  generalize ((wholes l d k ns).map (· / l.size)).sum = samples at *
  omega

theorem sum_div_mul (ns : List Nat) (n : Nat) :
    (ns.map (· / n)).sum * n ≤ ns.sum ∧
      ((ns.map (· / n)).sum * n = ns.sum ↔ ∀ m ∈ ns, n ∣ m) := by
  induction ns with
  | nil => simp
  | cons m ns ih =>
      have hle : m / n * n ≤ m := Nat.div_mul_le_self m n
      have hdvd : m / n * n = m ↔ n ∣ m := (Nat.dvd_iff_div_mul_eq m n).symm
      simp only [List.map_cons, List.sum_cons, Nat.add_mul, List.forall_mem_cons, ← ih.2, ← hdvd]
      have hrest := ih.1
      omega

private theorem total_eq_iff {total samples last asked size : Nat} (hsize : 0 < size)
    (htotal : samples * size ≤ total) (hasked : asked ≤ samples + last) :
    total + last * size = asked * size ↔ samples * size = total ∧ samples + last = asked := by
  have hmul : asked * size ≤ (samples + last) * size := Nat.mul_le_mul_right size hasked
  rw [Nat.add_mul] at hmul
  -- Both differences are at least zero, and they add up to zero.
  constructor
  · intro h
    have hsamples : samples * size = total := by omega
    refine ⟨hsamples, Nat.eq_of_mul_eq_mul_right hsize ?_⟩
    rw [Nat.add_mul, hsamples, h]
  · rintro ⟨rfl, rfl⟩
    exact (Nat.add_mul samples last size).symm

/-- The loop drops what the Skip asks for if it ends, drops whole samples and loses less than a
sample by rounding. -/
theorem dropsAsked_iff (l : Layout α) (hlimit : 0 < leastLimit limit) (d : Decoding)
    (audioBuf : GrowVec g α) (skip : Duration) :
    (∃ r, Returns (skipRound l limit) (start d audioBuf skip) r ∧
        r.1.dropped = d.durToSamples skip * l.size) ↔
      ¬Outlasts l d skip (refillSizes l limit (d.pending.length + 1) d audioBuf) ∧
      (∀ n ∈ wholes l d skip (refillSizes l limit (d.pending.length + 1) d audioBuf), l.size ∣ n) ∧
      d.sampleRate * d.channels * skip.asMillis % 1000 +
        totalRounding l d
          (wholes l d skip (refillSizes l limit (d.pending.length + 1) d audioBuf)) < 1000 := by
  have hterminates := terminates_iff l hlimit d audioBuf skip
  have hdropped := fun r => dropped_of_returns l (r := r) hlimit d audioBuf skip
  generalize refillSizes l limit (d.pending.length + 1) d audioBuf = sizes at *
  obtain ⟨hasked, hsamples⟩ := samples_eq_iff (l := l) d skip sizes
  obtain ⟨hsum, hwhole⟩ := sum_div_mul (wholes l d skip sizes) l.size
  rw [← hsamples, ← hwhole, ← total_eq_iff l.size_pos hsum hasked, ← hterminates]
  constructor
  · rintro ⟨r, hr, hr'⟩
    exact ⟨⟨r, hr⟩, (hdropped r hr).symm.trans hr'⟩
  · rintro ⟨⟨r, hr⟩, hr'⟩
    exact ⟨r, hr, (hdropped r hr).trans hr'⟩

end Refill

open Refill

/-! ## The loops of the two backends -/

/-- A Skip is served in whole frames unless it cuts the refill in which the loop is left. -/
theorem skipLoops_wholeFrames_iff (g : Growth) (d : Decoding) (hpackets : WholePackets d)
    (skip : Duration) :
    (∀ audioBuf : GrowVec g UInt8, d.channels * 4 ∣ audioBuf.len →
      ((∀ r, Returns pipewireRound (start d audioBuf skip) r → d.channels * 4 ∣ r.1.dropped) ↔
        Outlasts .raw d skip (refillSizes .raw none (d.pending.length + 1) d audioBuf) ∨
          d.channels * (d.sampleRate *
            (leftOver .raw d skip
              (refillSizes .raw none (d.pending.length + 1) d audioBuf)).asMillis % 1000) < 1000)) ∧
    (∀ audioBuf : GrowVec g Sample, d.channels ∣ audioBuf.len →
      ((∀ r, Returns rodioRound (start d audioBuf skip) r → d.channels ∣ r.1.dropped) ↔
        Outlasts .samples d skip
            (refillSizes .samples rodioLimit (d.pending.length + 1) d audioBuf) ∨
          d.channels * (d.sampleRate *
            (leftOver .samples d skip
              (refillSizes .samples rodioLimit (d.pending.length + 1) d audioBuf)).asMillis %
                1000) < 1000)) := by
  refine ⟨?_, ?_⟩
  · intro audioBuf hbuf
    exact wholeFrames_iff .raw (by decide) hbuf hpackets skip
  · intro audioBuf hbuf
    have hunit : d.channels * Layout.samples.size = d.channels := Nat.mul_one d.channels
    have hlimit : 0 < leastLimit rodioLimit := by decide
    have hiff := wholeFrames_iff .samples hlimit (hunit.symm ▸ hbuf) hpackets skip
    rw [hunit] at hiff
    exact hiff

/-- 221 stereo frames in a buffer of the least capacity that it can have. -/
def frames221 : GrowVec .exact UInt8 :=
  { data := List.replicate 1768 0
    capacity := MIN_AUDIO_BUFFER_SIZE
    length_le := List.length_replicate.trans_le (by decide) }

theorem len_frames221 : frames221.len = 1768 := List.length_replicate

theorem wholePackets_lastFrame : WholePackets lastFrame := by
  intro packet hmem
  obtain rfl : packet = [0, 0] := by simpa [lastFrame] using hmem
  decide

theorem skipLoops_wholeFrames_twoMillis :
    ∃ r, Returns pipewireRound (start lastFrame frames221 (.fromMillis 2)) r ∧
      8 ∣ r.1.dropped := by
  have hlimit : 0 < leastLimit none := by decide
  obtain ⟨r, hr⟩ := (terminates_iff .raw hlimit lastFrame frames221 (.fromMillis 2)).2
    (by decide +kernel)
  have hbuf : lastFrame.channels * 4 ∣ frames221.len := by
    rw [len_frames221]
    decide
  have hiff :=
    (skipLoops_wholeFrames_iff .exact lastFrame wholePackets_lastFrame (.fromMillis 2)).1 frames221
      hbuf
  exact ⟨r, hr, hiff.2 (by decide +kernel) r hr⟩

theorem not_wholeFrames_fiveMillis :
    8 ∣ frames221.len ∧ WholePackets lastFrame ∧
      ∃ r, Returns pipewireRound (start lastFrame frames221 (.fromMillis 5)) r ∧
        ¬8 ∣ r.1.dropped := by
  refine ⟨by rw [len_frames221]; decide, wholePackets_lastFrame, ?_⟩
  have hlimit : 0 < leastLimit none := by decide
  obtain ⟨r, hr⟩ := (terminates_iff .raw hlimit lastFrame frames221 (.fromMillis 5)).2
    (by decide +kernel)
  refine ⟨r, hr, ?_⟩
  rw [dropped_of_returns .raw hlimit lastFrame frames221 (.fromMillis 5) hr]
  decide +kernel

/-- A Skip drops the samples it asks for unless it outlasts the audio, meets a part of a sample or
loses a whole one by rounding. -/
theorem skipLoops_dropAsked_iff (g : Growth) (d : Decoding) (skip : Duration) :
    (∀ audioBuf : GrowVec g UInt8,
      (∃ r, Returns pipewireRound (start d audioBuf skip) r ∧
          r.1.dropped = d.durToSamples skip * 4) ↔
        ¬Outlasts .raw d skip (refillSizes .raw none (d.pending.length + 1) d audioBuf) ∧
        (∀ n ∈ wholes .raw d skip (refillSizes .raw none (d.pending.length + 1) d audioBuf),
          4 ∣ n) ∧
        d.sampleRate * d.channels * skip.asMillis % 1000 +
          totalRounding .raw d
            (wholes .raw d skip
              (refillSizes .raw none (d.pending.length + 1) d audioBuf)) < 1000) ∧
    (∀ audioBuf : GrowVec g Sample,
      (∃ r, Returns rodioRound (start d audioBuf skip) r ∧
          r.1.dropped = d.durToSamples skip) ↔
        ¬Outlasts .samples d skip
          (refillSizes .samples rodioLimit (d.pending.length + 1) d audioBuf) ∧
        d.sampleRate * d.channels * skip.asMillis % 1000 +
          totalRounding .samples d
            (wholes .samples d skip
              (refillSizes .samples rodioLimit (d.pending.length + 1) d audioBuf)) < 1000) := by
  refine ⟨?_, ?_⟩
  · intro audioBuf
    exact dropsAsked_iff .raw (by decide) d audioBuf skip
  · intro audioBuf
    have hlimit : 0 < leastLimit rodioLimit := by decide
    have hiff := dropsAsked_iff .samples hlimit d audioBuf skip
    -- Every number of samples is whole.
    have hwhole : ∀ n ∈ wholes .samples d skip
        (refillSizes .samples rodioLimit (d.pending.length + 1) d audioBuf),
        Layout.samples.size ∣ n := fun n _ => Nat.one_dvd n
    have hunit : d.durToSamples skip * Layout.samples.size = d.durToSamples skip := Nat.mul_one _
    rw [hunit, and_iff_right hwhole] at hiff
    exact hiff

def twoPackets : Decoding :=
  { sampleRate := 44100
    channels := 1
    sampleRate_pos := lastFrame.sampleRate_pos
    channels_pos := Nat.one_pos
    pending := [.ok (List.replicate 1024 0), .ok (List.replicate 1024 0)]
    ending := .endOfStream }

/-- What a stream without a threshold begins with: one of the packets is in the buffer. -/
def onePacketAhead : Decoding × GrowVec .exact UInt8 :=
  (prefill .exact twoPackets 0).get (by decide +kernel)

theorem prefill_twoPackets :
    prefill .exact twoPackets 0 = some (onePacketAhead.1, onePacketAhead.2) := by
  have hsome : prefill .exact twoPackets 0 = some onePacketAhead := (Option.some_get _).symm
  rw [hsome]

/-- Thirty milliseconds are 1323 samples, but 1332 are dropped. -/
theorem not_dropsAsked_thirtyMillis :
    ∃ (d : Decoding) (audioBuf : GrowVec .exact UInt8),
      prefill .exact twoPackets 0 = some (d, audioBuf) ∧
      d.durToSamples (.fromMillis 30) * 4 ≤ audioBuf.len + (Layout.raw.encode d.audio).length ∧
      ∃ r, Returns pipewireRound (start d audioBuf (.fromMillis 30)) r ∧
        r.1.dropped ≠ d.durToSamples (.fromMillis 30) * 4 := by
  refine ⟨onePacketAhead.1, onePacketAhead.2, prefill_twoPackets, by decide +kernel, ?_⟩
  have hlimit : 0 < leastLimit none := by decide
  obtain ⟨r, hr⟩ :=
    (terminates_iff .raw hlimit onePacketAhead.1 onePacketAhead.2 (.fromMillis 30)).2
      (by decide +kernel)
  refine ⟨r, hr, ?_⟩
  rw [dropped_of_returns .raw hlimit onePacketAhead.1 onePacketAhead.2 (.fromMillis 30) hr]
  decide +kernel

end Vibe
end LmsPlayer
