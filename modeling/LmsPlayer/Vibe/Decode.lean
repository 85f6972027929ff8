import LmsPlayer.Library.GrowVec
import LmsPlayer.Library.BigEndian
import LmsPlayer.LmsProto.Basic

/-!
# Vibe.Decode — filling the buffers of the audio backends

`VibeDecoder` as the audio backends use it: the results of its next calls are known in advance, and
once they are used up the stream goes on ending in the same way.

* A sample is an `f32`, of which only the bytes matter here.
* The backends fill their buffers with samples or with the bytes of samples.  `Layout` covers both.
* Rates and counts are natural numbers; a decoder without a rate or without channels is left out,
  since `samples_to_dur` divides by both.  In the source they are `u64`s, which is the same as long
  as their products fit (`toNat_durToSamples64`, `samplesToDur64_eq`).
-/

namespace LmsPlayer
namespace Vibe

/-! ## Samples -/

/-- An `f32`, as its bits. -/
abbrev Sample := UInt32

/-- The bytes of a sample in memory, the least significant one first. -/
def Sample.toLeBytes (x : Sample) : Bytes := (BigEndian.toBytes 4 x.toNat).reverse

@[simp] theorem Sample.length_toLeBytes (x : Sample) : x.toLeBytes.length = 4 := by
  simp [Sample.toLeBytes]

/-- What a buffer holds for a list of samples. -/
structure Layout (α : Type) where
  encode : List Sample → List α
  /-- The number of elements for each sample. -/
  size : Nat
  size_pos : 0 < size
  encode_append : ∀ xs ys, encode (xs ++ ys) = encode xs ++ encode ys
  length_encode : ∀ xs, (encode xs).length = size * xs.length

namespace Layout

variable {α : Type}

theorem encode_nil (l : Layout α) : l.encode [] = [] := by
  simpa using l.length_encode []

/-- Buffers of samples. -/
def samples : Layout Sample :=
  { encode := id
    size := 1
    size_pos := Nat.one_pos
    encode_append := fun _ _ => rfl
    length_encode := fun xs => (Nat.one_mul xs.length).symm }

/-- Buffers of bytes. -/
def raw : Layout UInt8 :=
  { encode := List.flatMap Sample.toLeBytes
    size := 4
    size_pos := by decide
    encode_append := fun xs ys => List.flatMap_append
    length_encode := by
      intro xs
      induction xs with
      | nil => rfl
      | cons x xs ih => simp [ih, Nat.mul_add, Nat.add_comm] }

@[simp] theorem length_raw (xs : List Sample) : (raw.encode xs).length = 4 * xs.length :=
  raw.length_encode xs

end Layout

/-! ## Decoders -/

inductive DecoderError where
  | retry
  | streamError
  deriving DecidableEq, Repr

/-- What `get_audio_buffer` has for its caller before the stream has ended. -/
abbrev DecodeResult := Except DecoderError (List Sample)

/-- How a stream ends. -/
inductive Ending where
  | endOfStream
  | streamError
  deriving DecidableEq, Repr

structure Decoding where
  sampleRate : Nat
  channels : Nat
  sampleRate_pos : 0 < sampleRate
  channels_pos : 0 < channels
  /-- The results of the next calls of `get_audio_buffer`. -/
  pending : List DecodeResult
  /-- What every further call comes to. -/
  ending : Ending

namespace Decoding

variable {g : Growth} {α : Type}

/-- The next packet, with the current volume applied; `none` at the end of the stream. -/
def getAudioBuffer (d : Decoding) : Except DecoderError (Option (List Sample)) × Decoding :=
  match d.pending with
  | .ok packet :: rest => (.ok (some packet), { d with pending := rest })
  | .error e :: rest => (.error e, { d with pending := rest })
  | [] =>
      match d.ending with
      | .endOfStream => (.ok none, d)
      | .streamError => (.error .streamError, d)

/-- The limit of a refill for which the caller names none. -/
def fillLimit (limit : Option Nat) (buffer : GrowVec g α) : Nat :=
  limit.getD (max (buffer.capacity / 2) 1024)

/-- The loop that `fill_sample_buffer` and `fill_raw_buffer` share, one pending result a round.
`fill_eq` is the loop as it is written. -/
def fillLoop (l : Layout α) (limit : Nat) (ending : Ending) :
    List DecodeResult → GrowVec g α → Except DecoderError Bool × List DecodeResult × GrowVec g α
  | pending, buffer =>
      if buffer.len < limit then
        match pending with
        | .ok packet :: rest => fillLoop l limit ending rest (buffer.extend (l.encode packet))
        | .error e :: rest => (.error e, rest, buffer)
        | [] =>
            match ending with
            | .endOfStream => (.ok true, [], buffer)
            | .streamError => (.error .streamError, [], buffer)
      else
        (.ok false, pending, buffer)

def fill (l : Layout α) (limit : Nat) (d : Decoding) (buffer : GrowVec g α) :
    Except DecoderError Bool × Decoding × GrowVec g α :=
  let (result, pending, buffer) := fillLoop l limit d.ending d.pending buffer
  (result, { d with pending := pending }, buffer)

def fillBuffer (l : Layout α) (d : Decoding) (buffer : GrowVec g α) (limit : Option Nat) :
    Except DecoderError Bool × Decoding × GrowVec g α :=
  d.fill l (fillLimit limit buffer) buffer

/-- Fill `buffer` with interleaved `f32` samples (used by the rodio backend). -/
def fillSampleBuffer (d : Decoding) (buffer : GrowVec g Sample) (limit : Option Nat) :
    Except DecoderError Bool × Decoding × GrowVec g Sample :=
  d.fillBuffer .samples buffer limit

/-- Fill `buffer` with raw little-endian `f32`-as-bytes (used by the pulse/pipewire backends). -/
def fillRawBuffer (d : Decoding) (buffer : GrowVec g UInt8) (limit : Option Nat) :
    Except DecoderError Bool × Decoding × GrowVec g UInt8 :=
  d.fillBuffer .raw buffer limit

def samplesToDur (d : Decoding) (samples : Nat) : Duration :=
  Duration.fromMillis (samples * 1000 / (d.sampleRate * d.channels))

def durToSamples (d : Decoding) (dur : Duration) : Nat :=
  d.sampleRate * d.channels * dur.asMillis / 1000

/-! ## Sixty-four bits -/

/-- `dur_to_samples` in the `u64`s of the source, which wrap. -/
def durToSamples64 (d : Decoding) (dur : Duration) : UInt64 :=
  UInt64.ofNat d.sampleRate * UInt64.ofNat d.channels * UInt64.ofNat dur.asMillis / 1000

/-- `samples_to_dur` in the `u64`s of the source. -/
def samplesToDur64 (d : Decoding) (samples : UInt64) : Duration :=
  Duration.fromMillis
    (samples * 1000 / (UInt64.ofNat d.sampleRate * UInt64.ofNat d.channels)).toNat

/-- Nothing wraps as long as the product is a `u64`: always with a Skip, whose milliseconds are a
`u32`, at less than `2 ^ 32` samples a second. -/
theorem toNat_durToSamples64 {d : Decoding} {dur : Duration}
    (h : d.sampleRate * d.channels * dur.asMillis < 2 ^ 64) :
    (d.durToSamples64 dur).toNat = d.durToSamples dur := by
  have hproduct : (UInt64.ofNat d.sampleRate * UInt64.ofNat d.channels *
      UInt64.ofNat dur.asMillis).toNat = d.sampleRate * d.channels * dur.asMillis := by
    rw [← UInt64.ofNat_mul, ← UInt64.ofNat_mul, UInt64.toNat_ofNat_of_lt' h]
  rw [durToSamples64, UInt64.toNat_div, hproduct]
  rfl

theorem samplesToDur64_eq {d : Decoding} {samples : UInt64} (h : samples.toNat * 1000 < 2 ^ 64)
    (hrate : d.sampleRate * d.channels < 2 ^ 64) :
    d.samplesToDur64 samples = d.samplesToDur samples.toNat := by
  have hproduct : (samples * 1000).toNat = samples.toNat * 1000 :=
    (UInt64.toNat_mul samples 1000).trans (Nat.mod_eq_of_lt h)
  have hfactor : (UInt64.ofNat d.sampleRate * UInt64.ofNat d.channels).toNat =
      d.sampleRate * d.channels := by
    rw [← UInt64.ofNat_mul, UInt64.toNat_ofNat_of_lt' hrate]
  rw [samplesToDur64, UInt64.toNat_div, hproduct, hfactor]
  rfl

/-! ## What a decoder hands out -/

/-- The stream is over, and without an error. -/
def AtEnd (d : Decoding) : Prop := d.pending = [] ∧ d.ending = .endOfStream

/-- From `d` to `d'` the decoder hands out the samples `xs`, and meets no `StreamError`. -/
inductive Plays (d : Decoding) : Decoding → List Sample → Prop where
  | refl : Plays d d []
  | packet {m d' : Decoding} {xs packet : List Sample} (h : Plays d m xs)
      (hnext : m.getAudioBuffer = (.ok (some packet), d')) : Plays d d' (xs ++ packet)
  | retry {m d' : Decoding} {xs : List Sample} (h : Plays d m xs)
      (hnext : m.getAudioBuffer = (.error .retry, d')) : Plays d d' xs

/-- From `d` to `d'` the decoder hands out the samples `xs` and then meets a `StreamError`. -/
def Fails (d d' : Decoding) (xs : List Sample) : Prop :=
  ∃ m, Plays d m xs ∧ m.getAudioBuffer = (.error .streamError, d')

/-- The samples before the first `StreamError`. -/
def audioOf : List DecodeResult → List Sample
  | [] => []
  | .ok packet :: rest => packet ++ audioOf rest
  | .error .retry :: rest => audioOf rest
  | .error .streamError :: _ => []

/-- What there is to play. -/
def audio (d : Decoding) : List Sample := audioOf d.pending

/-- The samples in a list of results. -/
def samplesOf : List DecodeResult → List Sample
  | [] => []
  | .ok packet :: rest => packet ++ samplesOf rest
  | .error _ :: rest => samplesOf rest

theorem samplesOf_append (rs rs' : List DecodeResult) :
    samplesOf (rs ++ rs') = samplesOf rs ++ samplesOf rs' := by
  induction rs with
  | nil => rfl
  | cons r rs ih => cases r <;> simp [samplesOf, ih]

/-- The results that have been used between `d` and `d'` hold the samples `xs`. -/
def HandedOut (d d' : Decoding) (xs : List Sample) : Prop :=
  ∃ used, d.pending = used ++ d'.pending ∧ samplesOf used = xs

variable {d m d' : Decoding} {xs ys : List Sample}

/-! ## One call -/

theorem pending_of_packet {packet : List Sample}
    (h : d.getAudioBuffer = (.ok (some packet), d')) :
    d.pending = .ok packet :: d'.pending ∧ d' = { d with pending := d'.pending } := by
  revert h
  fun_cases getAudioBuffer d <;> intro h <;> cases h
  exact ⟨‹_›, rfl⟩

theorem pending_of_retry (h : d.getAudioBuffer = (.error .retry, d')) :
    d.pending = .error .retry :: d'.pending ∧ d' = { d with pending := d'.pending } := by
  revert h
  fun_cases getAudioBuffer d <;> intro h <;> cases h
  exact ⟨‹_›, rfl⟩

/-- A stream that ends in an error meets it again and again. -/
theorem pending_of_streamError (h : d.getAudioBuffer = (.error .streamError, d')) :
    (d.pending = .error .streamError :: d'.pending ∨ d.pending = [] ∧ d'.pending = []) ∧
      d' = { d with pending := d'.pending } := by
  revert h
  fun_cases getAudioBuffer d <;> intro h <;> cases h
  · exact ⟨.inl ‹_›, rfl⟩
  · exact ⟨.inr ⟨‹_›, ‹_›⟩, rfl⟩

theorem atEnd_of_none (h : d.getAudioBuffer = (.ok none, d')) : d' = d ∧ d.AtEnd := by
  revert h
  fun_cases getAudioBuffer d <;> intro h <;> cases h
  exact ⟨rfl, ‹_›, ‹_›⟩

/-! ## Runs of calls -/

theorem Plays.trans (h : Plays d m xs) (h' : Plays m d' ys) : Plays d d' (xs ++ ys) := by
  induction h' with
  | refl => simpa using h
  | packet _ hnext ih => simpa using ih.packet hnext
  | retry _ hnext ih => exact ih.retry hnext

theorem Fails.of_plays (h : Plays d m xs) (h' : Fails m d' ys) : Fails d d' (xs ++ ys) := by
  obtain ⟨b, hplays, hnext⟩ := h'
  exact ⟨b, h.trans hplays, hnext⟩

/-- Only the pending results change. -/
theorem Plays.eq_with (h : Plays d d' xs) : d' = { d with pending := d'.pending } := by
  induction h with
  | refl => rfl
  | packet _ hnext ih => rw [(pending_of_packet hnext).2, ih]
  | retry _ hnext ih => rw [(pending_of_retry hnext).2, ih]

theorem Fails.eq_with (h : Fails d d' xs) : d' = { d with pending := d'.pending } := by
  obtain ⟨m, hplays, hnext⟩ := h
  rw [(pending_of_streamError hnext).2, hplays.eq_with]

theorem Plays.handedOut (h : Plays d d' xs) : HandedOut d d' xs := by
  induction h with
  | refl => exact ⟨[], rfl, rfl⟩
  | packet _ hnext ih =>
      obtain ⟨used, hused, rfl⟩ := ih
      rw [(pending_of_packet hnext).1] at hused
      exact ⟨used ++ [.ok _], by simpa using hused, by simp [samplesOf_append, samplesOf]⟩
  | retry _ hnext ih =>
      obtain ⟨used, hused, rfl⟩ := ih
      rw [(pending_of_retry hnext).1] at hused
      exact ⟨used ++ [.error .retry], by simpa using hused, by simp [samplesOf_append, samplesOf]⟩

theorem Fails.handedOut (h : Fails d d' xs) : HandedOut d d' xs := by
  obtain ⟨m, hplays, hnext⟩ := h
  obtain ⟨used, hused, rfl⟩ := hplays.handedOut
  -- The error has been pending, or it is the one in which the stream ends.
  rcases (pending_of_streamError hnext).1 with hpending | ⟨hpending, hpending'⟩
  · rw [hpending] at hused
    exact ⟨used ++ [.error .streamError], by simpa using hused,
      by simp [samplesOf_append, samplesOf]⟩
  · exact ⟨used, by rw [hused, hpending, hpending'], rfl⟩

/-- What has been handed out comes before what there still is to play. -/
theorem Plays.audio_eq (h : Plays d d' xs) : d.audio = xs ++ d'.audio := by
  induction h with
  | refl => rfl
  | packet _ hnext ih => rw [ih, audio, (pending_of_packet hnext).1]; simp [audioOf, audio]
  | retry _ hnext ih => rw [ih, audio, (pending_of_retry hnext).1]; simp [audioOf, audio]

theorem AtEnd.audio_eq (h : d.AtEnd) : d.audio = [] := by
  simp [audio, h.1, audioOf]

theorem Fails.audio_eq (h : Fails d d' xs) : d.audio = xs := by
  obtain ⟨m, hplays, hnext⟩ := h
  rcases (pending_of_streamError hnext).1 with hpending | ⟨hpending, -⟩
  · rw [hplays.audio_eq]
    simp [audio, hpending, audioOf]
  · rw [hplays.audio_eq]
    simp [audio, hpending, audioOf]

theorem Plays.length_pending_le (h : Plays d d' xs) : d'.pending.length ≤ d.pending.length := by
  obtain ⟨used, hused, -⟩ := h.handedOut
  simp [hused]

/-- Samples come from pending results. -/
theorem HandedOut.length_pending_lt (h : HandedOut d d' xs) (hxs : xs ≠ []) :
    d'.pending.length < d.pending.length := by
  obtain ⟨used, hused, hsamples⟩ := h
  cases used with
  | nil => exact absurd hsamples.symm hxs
  | cons r used =>
      -- The first result that has been used is no longer pending.
      have hle : d'.pending.length ≤ (used ++ d'.pending).length := by
        rw [List.length_append]
        exact Nat.le_add_left _ _
      rw [hused]
      exact Nat.lt_succ_of_le hle

theorem Fails.length_pending_le (h : Fails d d' xs) : d'.pending.length ≤ d.pending.length := by
  obtain ⟨used, hused, -⟩ := h.handedOut
  simp [hused]

/-- A `StreamError` is a pending result, unless the stream is over. -/
theorem Fails.length_pending_lt (h : Fails d d' xs) :
    d'.pending.length < d.pending.length ∨ d'.pending = [] := by
  obtain ⟨m, hplays, hnext⟩ := h
  rcases (pending_of_streamError hnext).1 with hpending | ⟨-, hpending'⟩
  · refine .inl (Nat.lt_of_lt_of_le ?_ hplays.length_pending_le)
    simp [hpending]
  · exact .inr hpending'

/-! ## The end of a stream -/

/-- From `d` to `d'` the decoder hands out the samples `xs` and comes to the end of the stream, or
to a `StreamError`. -/
inductive Ends (d d' : Decoding) (xs : List Sample) : (damaged : Bool) → Prop where
  | ended (h : Plays d d' xs) (hend : d'.AtEnd) : Ends d d' xs false
  | failed (h : Fails d d' xs) : Ends d d' xs true

/-- There is a `StreamError` ahead. -/
def Damaged (d : Decoding) : Prop := .error .streamError ∈ d.pending ∨ d.ending = .streamError

variable {damaged : Bool}

theorem Ends.of_plays (h : Plays d m xs) (h' : Ends m d' ys damaged) :
    Ends d d' (xs ++ ys) damaged := by
  cases h' with
  | ended h' hend => exact .ended (h.trans h') hend
  | failed h' => exact .failed (.of_plays h h')

theorem Ends.handedOut (h : Ends d d' xs damaged) : HandedOut d d' xs := by
  cases h with
  | ended h _ => exact h.handedOut
  | failed h => exact h.handedOut

/-- All there is to play has been handed out then. -/
theorem Ends.audio_eq (h : Ends d d' xs damaged) : d.audio = xs := by
  cases h with
  | ended h hend => simp [h.audio_eq, hend.audio_eq]
  | failed h => exact h.audio_eq

theorem Plays.damaged_iff (h : Plays d d' xs) : d.Damaged ↔ d'.Damaged := by
  induction h with
  | refl => exact Iff.rfl
  | packet _ hnext ih =>
      obtain ⟨hpending, hspec⟩ := pending_of_packet hnext
      rw [ih, Damaged, Damaged, hpending, hspec]
      simp
  | retry _ hnext ih =>
      obtain ⟨hpending, hspec⟩ := pending_of_retry hnext
      rw [ih, Damaged, Damaged, hpending, hspec]
      simp

theorem Ends.damaged_iff (h : Ends d d' xs damaged) : d.Damaged ↔ damaged = true := by
  cases h with
  | ended h hend =>
      rw [h.damaged_iff]
      simp [Damaged, hend.1, hend.2]
  | failed h =>
      obtain ⟨m, hplays, hnext⟩ := h
      rw [hplays.damaged_iff]
      simp only [iff_true]
      revert hnext
      fun_cases getAudioBuffer m <;> intro hnext <;> cases hnext
      · have hpending : m.pending = .error .streamError :: _ := ‹_›
        exact .inl (hpending ▸ List.mem_cons_self)
      · exact .inr ‹_›

/-! ## Refills -/

variable {l : Layout α} {limit : Nat} {buffer buffer' : GrowVec g α}

/-- The loop as it is written. -/
theorem fill_eq (l : Layout α) (limit : Nat) (d : Decoding) (buffer : GrowVec g α) :
    d.fill l limit buffer =
      if buffer.len < limit then
        match d.getAudioBuffer with
        | (.ok (some packet), d') => d'.fill l limit (buffer.extend (l.encode packet))
        | (.ok none, d') => (.ok true, d', buffer)
        | (.error e, d') => (.error e, d', buffer)
      else (.ok false, d, buffer) := by
  obtain ⟨sampleRate, channels, hrate, hchannels, pending, ending⟩ := d
  -- The loop looks at the limit first, and then at the next result.
  by_cases hlen : buffer.len < limit
  · rw [if_pos hlen]
    cases pending with
    | nil => cases ending <;> simp [fill, fillLoop, getAudioBuffer, hlen]
    | cons r rest => cases r <;> simp [fill, fillLoop, getAudioBuffer, hlen]
  · rw [if_neg hlen]
    simp only [fill]
    unfold fillLoop
    simp only [hlen, if_false]

/-- What a refill comes to: enough in the buffer, the end of the stream, or an error. -/
inductive Fills (l : Layout α) (limit : Nat) (d : Decoding) (buffer : GrowVec g α) :
    Except DecoderError Bool × Decoding × GrowVec g α → Prop where
  | full {d' : Decoding} {buffer' : GrowVec g α} {xs : List Sample} (h : Plays d d' xs)
      (hdata : buffer'.data = buffer.data ++ l.encode xs) (hlen : limit ≤ buffer'.len) :
      Fills l limit d buffer (.ok false, d', buffer')
  | ended {d' : Decoding} {buffer' : GrowVec g α} {xs : List Sample} (h : Plays d d' xs)
      (hdata : buffer'.data = buffer.data ++ l.encode xs) (hlen : buffer'.len < limit)
      (hend : d'.AtEnd) : Fills l limit d buffer (.ok true, d', buffer')
  | retry {d' : Decoding} {buffer' : GrowVec g α} {xs : List Sample} (h : Plays d d' xs)
      (hdata : buffer'.data = buffer.data ++ l.encode xs) (hlen : buffer'.len < limit)
      (hless : d'.pending.length < d.pending.length) :
      Fills l limit d buffer (.error .retry, d', buffer')
  | failed {d' : Decoding} {buffer' : GrowVec g α} {xs : List Sample} (h : Fails d d' xs)
      (hdata : buffer'.data = buffer.data ++ l.encode xs) (hlen : buffer'.len < limit) :
      Fills l limit d buffer (.error .streamError, d', buffer')

/-- A refill after the first packet is a refill. -/
theorem Fills.of_packet {packet : List Sample} (hnext : d.getAudioBuffer = (.ok (some packet), d'))
    {r : Except DecoderError Bool × Decoding × GrowVec g α}
    (h : Fills l limit d' (buffer.extend (l.encode packet)) r) : Fills l limit d buffer r := by
  have hfirst : Plays d d' packet := Plays.refl.packet hnext
  have hdata : ∀ xs, (buffer.extend (l.encode packet)).data ++ l.encode xs =
      buffer.data ++ l.encode (packet ++ xs) := by
    intro xs
    simp [l.encode_append]
  cases h with
  | full h hbuffer hlen => exact .full (hfirst.trans h) (hbuffer.trans (hdata _)) hlen
  | ended h hbuffer hlen hend => exact .ended (hfirst.trans h) (hbuffer.trans (hdata _)) hlen hend
  | retry h hbuffer hlen hless =>
      exact .retry (hfirst.trans h) (hbuffer.trans (hdata _)) hlen
        (Nat.lt_of_lt_of_le hless hfirst.length_pending_le)
  | failed h hbuffer hlen => exact .failed (.of_plays hfirst h) (hbuffer.trans (hdata _)) hlen

theorem fills_fill (l : Layout α) (limit : Nat) (d : Decoding) (buffer : GrowVec g α) :
    Fills l limit d buffer (d.fill l limit buffer) := by
  -- The loop uses up one pending result a round.
  induction hn : d.pending.length using Nat.strongRecOn generalizing d buffer with
  | ind n ih =>
      have hdata : buffer.data = buffer.data ++ l.encode [] := by simp [l.encode_nil]
      rw [fill_eq]
      by_cases hlen : buffer.len < limit
      · simp only [hlen, if_true]
        cases hnext : d.getAudioBuffer with
        | mk result d' =>
            rcases result with (_ | _) | (_ | packet)
            · refine .retry (.retry .refl hnext) hdata hlen ?_
              simp [(pending_of_retry hnext).1]
            · exact .failed ⟨d, .refl, hnext⟩ hdata hlen
            · obtain ⟨rfl, hend⟩ := atEnd_of_none hnext
              exact .ended .refl hdata hlen hend
            · have hless : d'.pending.length < n := by
                rw [← hn, (pending_of_packet hnext).1]
                exact Nat.lt_succ_self _
              exact (ih _ hless d' _ rfl).of_packet hnext
      · simp only [hlen, if_false]
        exact .full .refl hdata (Nat.le_of_not_lt hlen)

end Decoding

/-! ## A short stream -/

/-- One frame is left of a stream at 44.1 kHz. -/
def lastFrame : Decoding :=
  { sampleRate := 44100
    channels := 2
    sampleRate_pos := by decide
    channels_pos := by decide
    pending := [.ok [0, 0]]
    ending := .endOfStream }

end Vibe
end LmsPlayer
