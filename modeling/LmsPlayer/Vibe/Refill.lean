import LmsPlayer.Library.Iteration
import LmsPlayer.Vibe.Decode
import LmsPlayer.Vibe.Message

/-!
# Vibe.Refill — the refill loops of the audio callbacks

Every callback first fills its buffer from the decoder, in a loop that goes on as long as the
decoder asks to retry.  The PipeWire callback and the source that rodio plays then drop from the
buffer what a Skip asks for, and go on when that empties it.

* `refillRound` is a round of the loop without a Skip, as the PulseAudio callback has it.
* `skipRound` is a round of the loop with a Skip.
* `refilled` is the state in which the loop without a Skip is left; it always is.
-/

namespace LmsPlayer
namespace Vibe

open Iteration

structure Refill (g : Growth) (α : Type) where
  decoder : Decoding
  audioBuf : GrowVec g α
  /-- What the loop has posted. -/
  posted : List PlayerMsg
  /-- A `StreamError` has been met. -/
  failed : Bool
  /-- What is left of the Skip. -/
  skip : Duration
  /-- Not in the code: how many elements of the buffer have been dropped. -/
  dropped : Nat
  /-- The time they stand for, rounded down round by round. -/
  skippedMs : Nat

namespace Refill

variable {g : Growth} {α : Type}

def start (decoder : Decoding) (audioBuf : GrowVec g α) (skip : Duration) : Refill g α :=
  { decoder := decoder
    audioBuf := audioBuf
    posted := []
    failed := false
    skip := skip
    dropped := 0
    skippedMs := 0 }

/-! ## Rounds -/

/-- A refill, which is left with whether the decoder has come to its end. -/
def refillRound (l : Layout α) (limit : Option Nat) (s : Refill g α) :
    Refill g α ⊕ (Refill g α × Bool) :=
  match s.decoder.fillBuffer l s.audioBuf limit with
  | (.ok eod, decoder, audioBuf) =>
      .inr ({ s with decoder := decoder, audioBuf := audioBuf }, eod)
  -- `NotSupported` is posted at once, and the loop is left as at the end of the stream.
  | (.error .streamError, decoder, audioBuf) =>
      .inr ({ s with
        decoder := decoder
        audioBuf := audioBuf
        posted := s.posted ++ [.notSupported]
        failed := true }, true)
  -- `continue`: what has been decoded so far stays in the buffer.
  | (.error .retry, decoder, audioBuf) =>
      .inl { s with decoder := decoder, audioBuf := audioBuf }

def toDrop (l : Layout α) (s : Refill g α) : Nat :=
  min (s.decoder.durToSamples s.skip * l.size) s.audioBuf.len

def dropSome (l : Layout α) (s : Refill g α) : Refill g α :=
  let n := s.toDrop l
  let actualSkipTime := s.decoder.samplesToDur (n / l.size)
  { s with
    audioBuf := s.audioBuf.drain n
    skip := s.skip - actualSkipTime
    dropped := s.dropped + n
    skippedMs := s.skippedMs + actualSkipTime.asMillis }

/-- After a refill: a Skip that empties the buffer asks for another one. -/
def dropNext (l : Layout α) (r : Refill g α × Bool) : Refill g α ⊕ (Refill g α × Bool) :=
  if 0 < r.1.skip then
    let s := r.1.dropSome l
    -- The source looks at the buffer, not at whether the decoder has come to its end.
    if s.audioBuf.isEmpty then .inl s else .inr (s, r.2)
  else
    .inr r

def skipRound (l : Layout α) (limit : Option Nat) :
    Refill g α → Refill g α ⊕ (Refill g α × Bool) :=
  andThen (refillRound l limit) (dropNext l)

/-- The loop in the PipeWire callback. -/
def pipewireRound : Refill g UInt8 → Refill g UInt8 ⊕ (Refill g UInt8 × Bool) :=
  skipRound .raw none

/-- `Some(2 * MIN_AUDIO_BUFFER_SIZE)`, where the latter is 4 KiB. -/
def rodioLimit : Option Nat := some (2 * (4 * 1024))

/-- The loop in `DecoderSource::next`. -/
def rodioRound : Refill g Sample → Refill g Sample ⊕ (Refill g Sample × Bool) :=
  skipRound .samples rodioLimit

/-! ## The loop without a Skip -/

variable {l : Layout α} {limit : Option Nat} {s t : Refill g α} {r : Refill g α × Bool}

/-- A limit that is at least this. -/
def leastLimit (limit : Option Nat) : Nat := limit.getD 1024

theorem leastLimit_le (limit : Option Nat) (buffer : GrowVec g α) :
    leastLimit limit ≤ Decoding.fillLimit limit buffer := by
  cases limit with
  | none => exact Nat.le_max_right _ _
  | some n => exact Nat.le_refl n

/-- What the loop without a Skip comes to. -/
inductive Refills (l : Layout α) (limit : Option Nat) (s : Refill g α) :
    Refill g α × Bool → Prop where
  | full {d' : Decoding} {buffer' : GrowVec g α} {xs : List Sample} (h : s.decoder.Plays d' xs)
      (hdata : buffer'.data = s.audioBuf.data ++ l.encode xs)
      (hlen : leastLimit limit ≤ buffer'.len) :
      Refills l limit s ({ s with decoder := d', audioBuf := buffer' }, false)
  | ended {d' : Decoding} {buffer' : GrowVec g α} {xs : List Sample} (h : s.decoder.Plays d' xs)
      (hdata : buffer'.data = s.audioBuf.data ++ l.encode xs)
      (hlen : ∀ n, limit = some n → buffer'.len < n) (hend : d'.AtEnd) :
      Refills l limit s ({ s with decoder := d', audioBuf := buffer' }, true)
  | failed {d' : Decoding} {buffer' : GrowVec g α} {xs : List Sample} (h : s.decoder.Fails d' xs)
      (hdata : buffer'.data = s.audioBuf.data ++ l.encode xs)
      (hlen : ∀ n, limit = some n → buffer'.len < n) :
      Refills l limit s
        ({ s with
          decoder := d'
          audioBuf := buffer'
          posted := s.posted ++ [.notSupported]
          failed := true }, true)

/-- Where the loop without a Skip is after some retries. -/
def Retried (l : Layout α) (s t : Refill g α) : Prop :=
  ∃ xs, s.decoder.Plays t.decoder xs ∧ t.audioBuf.data = s.audioBuf.data ++ l.encode xs ∧
    t = { s with decoder := t.decoder, audioBuf := t.audioBuf }

theorem Retried.trans {u : Refill g α} (h : Retried l s t) (h' : Retried l t u) :
    Retried l s u := by
  obtain ⟨xs, hplays, hdata, heq⟩ := h
  obtain ⟨ys, hplays', hdata', heq'⟩ := h'
  refine ⟨xs ++ ys, hplays.trans hplays', ?_, ?_⟩
  · simp [hdata', hdata, l.encode_append]
  · rw [heq', heq]

theorem Refills.of_retried (h : Retried l s t) (h' : Refills l limit t r) :
    Refills l limit s r := by
  obtain ⟨xs, hplays, hdata, heq⟩ := h
  have hbuffer : ∀ ys, t.audioBuf.data ++ l.encode ys = s.audioBuf.data ++ l.encode (xs ++ ys) := by
    intro ys
    simp [hdata, l.encode_append]
  cases h' with
  | full h hdata' hlen =>
      rw [heq]
      exact .full (hplays.trans h) (hdata'.trans (hbuffer _)) hlen
  | ended h hdata' hlen hend =>
      rw [heq]
      exact .ended (hplays.trans h) (hdata'.trans (hbuffer _)) hlen hend
  | failed h hdata' hlen =>
      rw [heq]
      exact .failed (.of_plays hplays h) (hdata'.trans (hbuffer _)) hlen

/-- What has been handed out during a refill is what has been added to the buffer. -/
theorem Refills.exists_handedOut (h : Refills l limit s r) :
    ∃ xs, s.decoder.HandedOut r.1.decoder xs ∧
      r.1.audioBuf.data = s.audioBuf.data ++ l.encode xs := by
  cases h with
  | full h hdata => exact ⟨_, h.handedOut, hdata⟩
  | ended h hdata => exact ⟨_, h.handedOut, hdata⟩
  | failed h hdata => exact ⟨_, h.handedOut, hdata⟩

/-- A round retries, which uses up a result, or is a refill. -/
theorem refillRound_cases (l : Layout α) (limit : Option Nat) (s : Refill g α) :
    (∃ t, refillRound l limit s = .inl t ∧ Retried l s t ∧
      t.decoder.pending.length < s.decoder.pending.length) ∨
    (∃ r, refillRound l limit s = .inr r ∧ Refills l limit s r) := by
  have hlimit : ∀ n, limit = some n → Decoding.fillLimit limit s.audioBuf = n := by
    intro n hn
    simp [hn, Decoding.fillLimit]
  have hfills := Decoding.fills_fill l (Decoding.fillLimit limit s.audioBuf) s.decoder s.audioBuf
  -- Only a retry is followed by another round.
  simp only [refillRound, Decoding.fillBuffer]
  generalize Decoding.fill l (Decoding.fillLimit limit s.audioBuf) s.decoder s.audioBuf = filled
    at hfills ⊢
  cases hfills with
  | full h hdata hlen =>
      exact .inr ⟨_, rfl, .full h hdata ((leastLimit_le limit s.audioBuf).trans hlen)⟩
  | ended h hdata hlen hend =>
      exact .inr ⟨_, rfl, .ended h hdata (fun n hn => hlimit n hn ▸ hlen) hend⟩
  | retry h hdata hlen hless => exact .inl ⟨_, rfl, ⟨_, h, hdata, rfl⟩, hless⟩
  | failed h hdata hlen => exact .inr ⟨_, rfl, .failed h hdata (fun n hn => hlimit n hn ▸ hlen)⟩

theorem refills_of_returns (h : Returns (refillRound l limit) s r) : Refills l limit s r := by
  have hstart : Retried l s s := ⟨[], .refl, by simp [l.encode_nil], rfl⟩
  -- The loop comes by states that have only retried, and is left by a refill.
  refine Returns.invariant (Retried l s) (Refills l limit s) h hstart ?_ ?_
  · intro a b ha hround
    rcases refillRound_cases l limit a with ⟨t, ht, hretried, -⟩ | ⟨q, hq, -⟩
    · obtain rfl : t = b := Sum.inl.inj (ht.symm.trans hround)
      exact ha.trans hretried
    · cases hq.symm.trans hround
  · intro a q ha hround
    rcases refillRound_cases l limit a with ⟨t, ht, -, -⟩ | ⟨q', hq', hrefills⟩
    · cases ht.symm.trans hround
    · obtain rfl : q' = q := Sum.inr.inj (hq'.symm.trans hround)
      exact hrefills.of_retried ha

theorem length_pending_lt_of_inl (h : refillRound l limit s = .inl t) :
    t.decoder.pending.length < s.decoder.pending.length := by
  rcases refillRound_cases l limit s with ⟨t', ht', -, hless⟩ | ⟨q, hq, -⟩
  · obtain rfl : t' = t := Sum.inl.inj (ht'.symm.trans h)
    exact hless
  · cases hq.symm.trans h

/-- Where the loop without a Skip is left. -/
def refilled (l : Layout α) (limit : Option Nat) (s : Refill g α) : Refill g α × Bool :=
  (run (refillRound l limit) (s.decoder.pending.length + 1) s).getD (s, true)

theorem run_refilled (l : Layout α) (limit : Option Nat) (s : Refill g α) :
    run (refillRound l limit) (s.decoder.pending.length + 1) s = some (refilled l limit s) := by
  obtain ⟨r, hrun⟩ := exists_run_of_rank (refillRound l limit)
    (fun s => s.decoder.pending.length) (fun _ _ => length_pending_lt_of_inl)
    (Nat.lt_succ_self s.decoder.pending.length)
  have hr : refilled l limit s = r := by
    simp only [refilled, hrun, Option.getD_some]
  exact hr ▸ hrun

theorem returns_refilled (l : Layout α) (limit : Option Nat) (s : Refill g α) :
    Returns (refillRound l limit) s (refilled l limit s) :=
  ⟨_, run_refilled l limit s⟩

theorem refills_refilled (l : Layout α) (limit : Option Nat) (s : Refill g α) :
    Refills l limit s (refilled l limit s) :=
  refills_of_returns (returns_refilled l limit s)

/-- A refill changes only where the stream stands. -/
theorem refilled_kept (l : Layout α) (limit : Option Nat) (s : Refill g α) :
    (refilled l limit s).1.skip = s.skip ∧ (refilled l limit s).1.dropped = s.dropped ∧
      ∃ pending, (refilled l limit s).1.decoder = { s.decoder with pending := pending } := by
  have hrefills := refills_refilled l limit s
  generalize refilled l limit s = r at hrefills ⊢
  cases hrefills with
  | full h => exact ⟨rfl, rfl, _, h.eq_with⟩
  | ended h => exact ⟨rfl, rfl, _, h.eq_with⟩
  | failed h => exact ⟨rfl, rfl, _, h.eq_with⟩

/-- Without a Skip the loop with a Skip is the loop without. -/
theorem returns_skipRound_iff (h : s.skip = 0) :
    Returns (skipRound l limit) s r ↔ refilled l limit s = r := by
  refine returns_andThen_of_inr (returns_refilled l limit s) ?_
  -- A refill leaves the Skip alone, so that there is still nothing to drop after it.
  have hskip : (refilled l limit s).1.skip = 0 := (refilled_kept l limit s).1.trans h
  simp [dropNext, hskip]

def notices (damaged : Bool) : List PlayerMsg := if damaged then [.notSupported] else []

/-- A refill leaves enough in the buffer, or comes to the end. -/
theorem refilled_start_cases (l : Layout α) (limit : Option Nat) (d : Decoding)
    (audioBuf : GrowVec g α) (skip : Duration) :
    (∃ d' buffer' xs, d.Plays d' xs ∧ buffer'.data = audioBuf.data ++ l.encode xs ∧
      leastLimit limit ≤ buffer'.len ∧
      refilled l limit (start d audioBuf skip) = (start d' buffer' skip, false)) ∨
    (∃ d' buffer' xs damaged, d.Ends d' xs damaged ∧
      buffer'.data = audioBuf.data ++ l.encode xs ∧ (∀ n, limit = some n → buffer'.len < n) ∧
      refilled l limit (start d audioBuf skip) =
        ({ start d' buffer' skip with posted := notices damaged, failed := damaged }, true)) := by
  have hrefills := refills_refilled l limit (start d audioBuf skip)
  generalize refilled l limit (start d audioBuf skip) = r at hrefills ⊢
  cases hrefills with
  | full h hdata hlen => exact .inl ⟨_, _, _, h, hdata, hlen, rfl⟩
  | ended h hdata hlen hend => exact .inr ⟨_, _, _, _, .ended h hend, hdata, hlen, rfl⟩
  | failed h hdata hlen => exact .inr ⟨_, _, _, _, .failed h, hdata, hlen, rfl⟩

end Refill

end Vibe
end LmsPlayer
