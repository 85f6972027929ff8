import LmsPlayer.Vibe.Refill

/-!
# Vibe.Callback — what the audio callbacks do

The callbacks of the three backends act on the channel of the event loop, on the sound server and on
`STATUS`.  A stream keeps the list of these actions, in the order in which they are taken.
-/

namespace LmsPlayer
namespace Vibe

inductive Action where
  /-- Send a message to the event loop. -/
  | post (msg : PlayerMsg)
  /-- `write_copy`, as PulseAudio has it: the bytes and the seek offset. -/
  | writeCopy (data : Bytes) (offset : Nat)
  /-- Copy bytes into a buffer of PipeWire, with the stride that the chunk is given. -/
  | copy (data : Bytes) (stride : Nat)
  /-- `flush(true)`: let PipeWire drain the stream. -/
  | flush
  /-- Return from `next`. -/
  | yield (sample : Option Sample)
  /-- The size and the fullness of the output buffer, as written to `STATUS`. -/
  | report (size fullness : UInt32)
  deriving DecidableEq

namespace Action

@[simp] def post? : Action → Option PlayerMsg
  | post msg => some msg
  | _ => none

@[simp] def data : Action → Bytes
  | writeCopy data _ => data
  | copy data _ => data
  | _ => []

end Action

/-- The messages that have been sent. -/
def postsOf (log : List Action) : List PlayerMsg := log.filterMap Action.post?

/-- The bytes that have been handed to the sound server. -/
def writtenIn (log : List Action) : Bytes := log.flatMap Action.data

@[simp] theorem postsOf_nil : postsOf [] = [] := rfl

@[simp] theorem postsOf_cons (action : Action) (log : List Action) :
    postsOf (action :: log) = action.post?.toList ++ postsOf log := by
  cases action <;> rfl

@[simp] theorem writtenIn_nil : writtenIn [] = [] := rfl

@[simp] theorem writtenIn_cons (action : Action) (log : List Action) :
    writtenIn (action :: log) = action.data ++ writtenIn log := List.flatMap_cons

@[simp] theorem postsOf_append (log log' : List Action) :
    postsOf (log ++ log') = postsOf log ++ postsOf log' := List.filterMap_append

@[simp] theorem writtenIn_append (log log' : List Action) :
    writtenIn (log ++ log') = writtenIn log ++ writtenIn log' := List.flatMap_append

@[simp] theorem postsOf_map_post (msgs : List PlayerMsg) : postsOf (msgs.map .post) = msgs := by
  induction msgs with
  | nil => rfl
  | cons msg msgs ih => simp [ih]

@[simp] theorem writtenIn_map_post (msgs : List PlayerMsg) : writtenIn (msgs.map .post) = [] := by
  induction msgs with
  | nil => rfl
  | cons msg msgs ih => simp [ih]

@[simp] theorem postsOf_replicate_post (n : Nat) (msg : PlayerMsg) :
    postsOf (List.replicate n (.post msg)) = List.replicate n msg := by
  rw [← List.map_replicate, postsOf_map_post]

@[simp] theorem writtenIn_replicate_post (n : Nat) (msg : PlayerMsg) :
    writtenIn (List.replicate n (.post msg)) = [] := by
  rw [← List.map_replicate, writtenIn_map_post]

theorem mem_postsOf {log : List Action} {msg : PlayerMsg} :
    msg ∈ postsOf log ↔ .post msg ∈ log := by
  simp only [postsOf, List.mem_filterMap]
  constructor
  · rintro ⟨action, hmem, hpost⟩
    cases action with
    | post msg' =>
        obtain rfl : msg' = msg := by simpa [Action.post?] using hpost
        exact hmem
    | writeCopy data offset => cases hpost
    | copy data stride => cases hpost
    | flush => cases hpost
    | yield sample => cases hpost
    | report size fullness => cases hpost
  · intro hmem
    exact ⟨_, hmem, rfl⟩

/-- Whenever the sound server is asked to drain, it has been handed the bytes `data`. -/
def FlushedAfter (data : Bytes) (log : List Action) : Prop :=
  ∀ before after, log = before ++ .flush :: after → writtenIn before = data

theorem FlushedAfter.append {data : Bytes} {log actions : List Action} (h : FlushedAfter data log)
    (hactions : .flush ∉ actions) : FlushedAfter data (log ++ actions) := by
  intro before after hsplit
  -- The flush is not among the new actions, so it is one of the old ones.
  rcases List.append_eq_append_iff.1 hsplit with ⟨mid, -, hmid⟩ | ⟨mid, hlog, hmid⟩
  · exact absurd (by simp [hmid]) hactions
  · cases mid with
    | nil =>
        rw [List.nil_append] at hmid
        exact absurd (hmid ▸ List.mem_cons_self) hactions
    | cons a mid =>
        obtain ⟨rfl, -⟩ := List.cons.inj hmid
        exact h before mid hlog

theorem FlushedAfter.flush {data : Bytes} {log : List Action} (h : FlushedAfter data log)
    (hlog : writtenIn log = data) : FlushedAfter data (log ++ [.flush]) := by
  intro before after hsplit
  -- It is the new one, before which is the whole log, or one of the old ones.
  rcases List.append_eq_append_iff.1 hsplit with ⟨mid, hbefore, hmid⟩ | ⟨mid, hbefore, hmid⟩
  · cases mid with
    | nil => simpa [hbefore] using hlog
    | cons a mid => simp at hmid
  · cases mid with
    | nil => simpa [hbefore] using hlog
    | cons a mid =>
        obtain ⟨rfl, -⟩ := List.cons.inj hmid
        exact h before mid hbefore

/-! ## The output buffer -/

/-- The fullness that is reported: what the backend holds and what the sound server holds, as far as
it fits in 32 bits. -/
def totalFullness (ours theirs : Nat) : UInt32 := UInt32.ofNat (min (ours + theirs) (2 ^ 32 - 1))

/-! ## Prefilling -/

/-- `MIN_AUDIO_BUFFER_SIZE` of the PulseAudio and the PipeWire output. -/
def MIN_AUDIO_BUFFER_SIZE : Nat := 8 * 1024

/-- The loop with which a stream of one of these outputs begins.  A stream that turns out to be
damaged is not played. -/
def prefill (g : Growth) (d : Decoding) (outputThreshold : Duration) :
    Option (Decoding × GrowVec g UInt8) :=
  let bufSize := max (d.durToSamples outputThreshold) MIN_AUDIO_BUFFER_SIZE
  -- The result of the refill is not looked at, but for a `StreamError`.
  let r := (Refill.refilled .raw none (.start d (GrowVec.withCapacity bufSize) 0)).1
  if r.failed then none else some (r.decoder, r.audioBuf)

variable {g : Growth} {d d' : Decoding} {outputThreshold : Duration} {audioBuf : GrowVec g UInt8}

/-- The prefilled buffer holds what the decoder has handed out, and there was no error. -/
theorem plays_of_prefill (h : prefill g d outputThreshold = some (d', audioBuf)) :
    ∃ xs, d.Plays d' xs ∧ audioBuf.data = Layout.raw.encode xs := by
  simp only [prefill] at h
  rcases Refill.refilled_start_cases .raw none d (GrowVec.withCapacity _ : GrowVec g UInt8) 0 with
    ⟨d1, buffer1, xs, hplays, hdata, -, heq⟩ | ⟨d1, buffer1, xs, damaged, hends, hdata, -, heq⟩
  · rw [heq] at h
    obtain ⟨rfl, rfl⟩ : d1 = d' ∧ buffer1 = audioBuf := by simpa [Refill.start] using h
    exact ⟨xs, hplays, by simpa using hdata⟩
  · rw [heq] at h
    cases hends with
    | ended hplays hend =>
        obtain ⟨rfl, rfl⟩ : d1 = d' ∧ buffer1 = audioBuf := by simpa [Refill.start] using h
        exact ⟨xs, hplays, by simpa using hdata⟩
    | failed hfails => simp at h

end Vibe
end LmsPlayer
