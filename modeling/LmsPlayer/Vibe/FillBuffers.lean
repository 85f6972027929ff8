import LmsPlayer.Library.Iteration
import LmsPlayer.Vibe.Decode

/-!
# Vibe.FillBuffers — samples and bytes from the same stream, call after call

`fill_sample_buffer` and `fill_raw_buffer` on a stream of any kind: it may go on for ever, and its
errors and its end may come anywhere (`Script`).  The calls follow each other on the same buffer,
whatever they return.

A buffer holds what it has held at the start and the packets that have been decoded since
(`InOrder`).  A buffer of bytes with four times the limit goes on and stops in the same rounds as
one of samples (`InStep`).
-/

namespace LmsPlayer
namespace Vibe

open Iteration (Returns Terminates)
open Decoding (fillLimit)

variable {g : Growth} {α : Type}

/-- What the calls of `get_audio_buffer` come to, one after the other; nothing is the end of the
stream. -/
abbrev Script := Nat → Except DecoderError (Option (List Sample))

/-- A decoder and the buffer that it fills. -/
structure Filling (g : Growth) (α : Type) where
  /-- How often `get_audio_buffer` has been called. -/
  asked : Nat
  buffer : GrowVec g α

namespace Filling

def start (buffer : GrowVec g α) : Filling g α :=
  { asked := 0
    buffer := buffer }

/-- A packet has been decoded. -/
def extend (s : Filling g α) (xs : List α) : Filling g α :=
  { asked := s.asked + 1
    buffer := s.buffer.extend xs }

/-- There has not been a packet. -/
def pass (s : Filling g α) : Filling g α := { s with asked := s.asked + 1 }

end Filling

namespace Script

/-! ## The calls -/

/-- One round of the loop. -/
def fillRound (script : Script) (l : Layout α) (limit : Nat) (s : Filling g α) :
    Filling g α ⊕ Except DecoderError Bool × Filling g α :=
  if s.buffer.len < limit then
    match script s.asked with
    | .ok (some packet) => .inl (s.extend (l.encode packet))
    | .ok none => .inr (.ok true, s.pass)
    -- `?` leaves the packets in the buffer that have come before.
    | .error e => .inr (.error e, s.pass)
  else
    .inr (.ok false, s)

/-- A call of `fill_sample_buffer` or `fill_raw_buffer` with its first rounds; nothing when it takes
more of them. -/
def fillBuffer (script : Script) (l : Layout α) (limit : Option Nat) (rounds : Nat)
    (s : Filling g α) :
    Option (Except DecoderError Bool × Filling g α) :=
  Iteration.run (script.fillRound l (fillLimit limit s.buffer)) rounds s

/-- Fill `buffer` with interleaved `f32` samples (used by the rodio backend). -/
def fillSampleBuffer (script : Script) (limit : Option Nat) (rounds : Nat) (s : Filling g Sample) :
    Option (Except DecoderError Bool × Filling g Sample) :=
  script.fillBuffer .samples limit rounds s

/-- Fill `buffer` with raw little-endian `f32`-as-bytes (used by the pulse/pipewire backends). -/
def fillRawBuffer (script : Script) (limit : Option Nat) (rounds : Nat) (s : Filling g UInt8) :
    Option (Except DecoderError Bool × Filling g UInt8) :=
  script.fillBuffer .raw limit rounds s

end Script

/-- A call that has returned. -/
structure FillCall where
  /-- The limit that has been in force. -/
  limit : Nat
  result : Except DecoderError Bool
  deriving DecidableEq

/-- The call with so many times the limit. -/
def FillCall.times (n : Nat) (call : FillCall) : FillCall := { call with limit := n * call.limit }

/-- Calls one after the other on the same buffer, whatever they return. -/
inductive Calls (fill : Option Nat → Nat → Filling g α →
    Option (Except DecoderError Bool × Filling g α))
    (s : Filling g α) : List FillCall → Filling g α → Prop where
  | nil : Calls fill s [] s
  | concat {calls : List FillCall} {t u : Filling g α} {result : Except DecoderError Bool}
      (h : Calls fill s calls t) (limit : Option Nat) (rounds : Nat)
      (hreturn : fill limit rounds t = some (result, u)) :
      Calls fill s (calls ++ [{ limit := fillLimit limit t.buffer, result := result }]) u

/-! ## What the buffer holds, and what a result says -/

namespace Script

def packet (script : Script) (k : Nat) : List Sample :=
  match script k with
  | .ok (some packet) => packet
  | _ => []

/-- The packets among the first `n` results. -/
def decoded (script : Script) (n : Nat) : List Sample := (List.range n).flatMap script.packet

/-- The latest call of `get_audio_buffer` has come to this. -/
def Met (script : Script) (s : Filling g α) (result : Except DecoderError (Option (List Sample))) :
    Prop :=
  ∃ k, s.asked = k + 1 ∧ script k = result

/-- What the result of a call says. -/
def Answers (script : Script) (limit : Nat) : Except DecoderError Bool → Filling g α → Prop
  | .ok true, s => s.buffer.len < limit ∧ script.Met s (.ok none)
  | .ok false, s => limit ≤ s.buffer.len
  | .error e, s => s.buffer.len < limit ∧ script.Met s (.error e)

/-- The buffer holds what it has held at the start, and the packets in their order. -/
def InOrder (script : Script) (l : Layout α) (buffer : GrowVec g α) (s : Filling g α) : Prop :=
  s.buffer.data = buffer.data ++ l.encode (script.decoded s.asked)

variable {script : Script} {l : Layout α} {buffer : GrowVec g α} {s t : Filling g α} {limit : Nat}

theorem decoded_succ (script : Script) (n : Nat) :
    script.decoded (n + 1) = script.decoded n ++ script.packet n := by
  unfold decoded
  rw [List.range_succ, List.flatMap_append, List.flatMap_singleton]

theorem inOrder_start (script : Script) (l : Layout α) (buffer : GrowVec g α) :
    script.InOrder l buffer (.start buffer) := by
  have hnothing : l.encode (script.decoded 0) = [] := l.encode_nil
  unfold InOrder Filling.start
  rw [hnothing, List.append_nil]

theorem InOrder.extend {packet : List Sample} (hs : script.InOrder l buffer s)
    (h : script s.asked = .ok (some packet)) :
    script.InOrder l buffer (s.extend (l.encode packet)) := by
  have hpacket : script.packet s.asked = packet := by
    unfold Script.packet
    rw [h]
  calc
    (s.extend (l.encode packet)).buffer.data
        = buffer.data ++ l.encode (script.decoded s.asked) ++ l.encode packet :=
          congrArg (· ++ l.encode packet) hs
    _ = buffer.data ++ l.encode (script.decoded (s.asked + 1)) := by
          rw [decoded_succ, hpacket, l.encode_append, List.append_assoc]

/-- A result without a packet leaves the buffer as it is. -/
theorem InOrder.pass (hs : script.InOrder l buffer s)
    (h : ∀ packet, script s.asked ≠ .ok (some packet)) : script.InOrder l buffer s.pass := by
  have hnothing : script.packet s.asked = [] := by
    unfold Script.packet
    split
    · next packet hpacket => exact absurd hpacket (h packet)
    · rfl
  have hsame : script.decoded (s.asked + 1) = script.decoded s.asked := by
    rw [decoded_succ, hnothing, List.append_nil]
  unfold InOrder Filling.pass
  rw [hsame]
  exact hs

/-! ## One round -/

/-- What a round can do. -/
inductive Round (script : Script) (l : Layout α) (limit : Nat) (s : Filling g α) :
    Filling g α ⊕ Except DecoderError Bool × Filling g α → Prop where
  | full (hlen : limit ≤ s.buffer.len) : Round script l limit s (.inr (.ok false, s))
  | packet {packet : List Sample} (hlen : s.buffer.len < limit)
      (h : script s.asked = .ok (some packet)) :
      Round script l limit s (.inl (s.extend (l.encode packet)))
  | ended (hlen : s.buffer.len < limit) (h : script s.asked = .ok none) :
      Round script l limit s (.inr (.ok true, s.pass))
  | error {e : DecoderError} (hlen : s.buffer.len < limit) (h : script s.asked = .error e) :
      Round script l limit s (.inr (.error e, s.pass))

theorem round_fillRound (script : Script) (l : Layout α) (limit : Nat) (s : Filling g α) :
    Round script l limit s (script.fillRound l limit s) := by
  unfold fillRound
  split_ifs with hlen
  · split
    · next packet h => exact .packet hlen h
    · next h => exact .ended hlen h
    · next e h => exact .error hlen h
  · exact .full (Nat.le_of_not_lt hlen)

theorem inOrder_of_inl (hs : script.InOrder l buffer s) (h : script.fillRound l limit s = .inl t) :
    script.InOrder l buffer t ∧ t.asked = s.asked + 1 := by
  have hround := round_fillRound script l limit s
  rw [h] at hround
  cases hround with
  | packet hlen hpacket => exact ⟨hs.extend hpacket, rfl⟩

/-- A call returns with the packets in order, and its result says how the stream and the buffer
are. -/
theorem inOrder_of_inr {result : Except DecoderError Bool} (hs : script.InOrder l buffer s)
    (h : script.fillRound l limit s = .inr (result, t)) :
    script.InOrder l buffer t ∧ script.Answers limit result t := by
  have hround := round_fillRound script l limit s
  rw [h] at hround
  cases hround with
  | full hlen => exact ⟨hs, hlen⟩
  | ended hlen hnone =>
      have hpass : script.InOrder l buffer s.pass := hs.pass (by rw [hnone]; nofun)
      exact ⟨hpass, hlen, s.asked, rfl, hnone⟩
  | error hlen herror =>
      have hpass : script.InOrder l buffer s.pass := hs.pass (by rw [herror]; nofun)
      exact ⟨hpass, hlen, s.asked, rfl, herror⟩

/-! ## One call -/

theorem inOrder_of_returns {result : Except DecoderError Bool} (hs : script.InOrder l buffer s)
    (h : Returns (script.fillRound l limit) s (result, t)) :
    script.InOrder l buffer t ∧ script.Answers limit result t := by
  refine Returns.invariant (script.InOrder l buffer)
    (fun r => script.InOrder l buffer r.2 ∧ script.Answers limit r.1 r.2) h hs ?_ ?_
  · intro a b ha hround
    exact (inOrder_of_inl ha hround).1
  · rintro a ⟨result, b⟩ ha hround
    exact inOrder_of_inr ha hround

/-- The loop does not go on behind `k` results. -/
def Stops (script : Script) (l : Layout α) (buffer : GrowVec g α) (limit k : Nat) : Prop :=
  (∀ packet, script k ≠ .ok (some packet)) ∨
    limit ≤ (buffer.data ++ l.encode (script.decoded k)).length

theorem exists_inr_iff (hs : script.InOrder l buffer s) :
    (∃ r, script.fillRound l limit s = .inr r) ↔ script.Stops l buffer limit s.asked := by
  unfold Stops
  rw [← hs]
  have hround := round_fillRound script l limit s
  generalize script.fillRound l limit s = next at hround ⊢
  cases hround with
  | full hlen => exact iff_of_true ⟨_, rfl⟩ (.inr hlen)
  | packet hlen h =>
      refine iff_of_false nofun ?_
      rintro (hnot | hfull)
      · exact hnot _ h
      · exact absurd hlen (Nat.not_lt.2 hfull)
  | ended _ h => exact iff_of_true ⟨_, rfl⟩ (.inl (by rw [h]; nofun))
  | error _ h => exact iff_of_true ⟨_, rfl⟩ (.inl (by rw [h]; nofun))

/-- A call returns unless only packets are to come, and they never reach the limit. -/
theorem terminates_iff (hs : script.InOrder l buffer s) :
    Terminates (script.fillRound l limit) s ↔
      ∃ k, s.asked ≤ k ∧ script.Stops l buffer limit k := by
  constructor
  · rintro ⟨r, hreturns⟩
    obtain ⟨t, hgoes, hlast⟩ := hreturns.exists_goesOn
    have ht : script.InOrder l buffer t ∧ s.asked ≤ t.asked := by
      refine hgoes.invariant (fun t => script.InOrder l buffer t ∧ s.asked ≤ t.asked)
        ⟨hs, Nat.le_refl _⟩ ?_
      rintro a b ⟨ha, hasked⟩ hround
      obtain ⟨hb, hnext⟩ := inOrder_of_inl ha hround
      exact ⟨hb, by omega⟩
    exact ⟨t.asked, ht.2, (exists_inr_iff ht.1).1 ⟨r, hlast⟩⟩
  · rintro ⟨k, hk, hstops⟩
    -- One round less to go, unless it is the last one.
    induction hrounds : k - s.asked generalizing s with
    | zero =>
        have hlast : s.asked = k := by omega
        obtain ⟨r, hround⟩ := (exists_inr_iff hs).2 (hlast ▸ hstops)
        exact ⟨r, (Iteration.returns_of_inr hround).2 rfl⟩
    | succ n ih =>
        cases hround : script.fillRound l limit s with
        | inl t =>
            obtain ⟨ht, hnext⟩ := inOrder_of_inl hs hround
            obtain ⟨r, hreturns⟩ := ih ht (by omega) (by omega)
            exact ⟨r, (Iteration.returns_of_inl hround).2 hreturns⟩
        | inr r => exact ⟨r, (Iteration.returns_of_inr hround).2 rfl⟩

/-! ## Samples and bytes -/

/-- The two buffers hold the same samples, and the decoders are at the same place. -/
structure InStep (l : Layout α) {g' : Growth} (s : Filling g' Sample) (u : Filling g α) : Prop where
  asked : u.asked = s.asked
  data : u.buffer.data = l.encode s.buffer.data

section InStep

variable {g' : Growth} {v : Filling g' Sample}

theorem InStep.len (h : InStep l v s) : s.buffer.len = l.size * v.buffer.len := by
  unfold GrowVec.len
  rw [h.data, l.length_encode]

theorem InStep.extend (h : InStep l v s) (packet : List Sample) :
    InStep l (v.extend packet) (s.extend (l.encode packet)) := by
  refine ⟨congrArg (· + 1) h.asked, ?_⟩
  unfold Filling.extend
  rw [GrowVec.data_extend, GrowVec.data_extend, h.data, l.encode_append]

theorem InStep.pass (h : InStep l v s) : InStep l v.pass s.pass :=
  ⟨congrArg (· + 1) h.asked, h.data⟩

/-- With a limit as many times as large, the rounds go on and stop together. -/
theorem liftRel_fillRound (script : Script) (limit : Nat) (h : InStep l v s) :
    Sum.LiftRel (InStep l) (fun r r' => r'.1 = r.1 ∧ InStep l r.2 r'.2)
      (script.fillRound .samples limit v) (script.fillRound l (l.size * limit) s) := by
  have hlimit : s.buffer.len < l.size * limit ↔ v.buffer.len < limit := by
    rw [h.len]
    exact Nat.mul_lt_mul_left l.size_pos
  -- Both have come to the same result, and both are below the limit or neither is.
  unfold fillRound
  rw [h.asked]
  simp only [hlimit]
  split_ifs with hlen
  · cases script v.asked with
    | error e => exact .inr ⟨rfl, h.pass⟩
    | ok result =>
        cases result with
        | none => exact .inr ⟨rfl, h.pass⟩
        | some packet => exact .inl (h.extend packet)
  · exact .inr ⟨rfl, h⟩

end InStep

end Script

/-! ## Any number of calls -/

section Calls

variable {fill : Option Nat → Nat → Filling g α → Option (Except DecoderError Bool × Filling g α)}
variable {calls : List FillCall} {call : FillCall} {s t u : Filling g α}

theorem eq_of_calls_nil (h : Calls fill s [] t) : t = s := by
  generalize hcalls : ([] : List FillCall) = calls at h
  cases h with
  | nil => rfl
  | concat _ limit rounds _ => exact absurd hcalls.symm (List.concat_ne_nil _ _)

theorem exists_of_calls_concat (h : Calls fill s (calls ++ [call]) u) :
    ∃ t limit rounds, Calls fill s calls t ∧ call.limit = fillLimit limit t.buffer ∧
      fill limit rounds t = some (call.result, u) := by
  generalize hcalls : calls ++ [call] = calls' at h
  cases h with
  | nil => exact absurd hcalls (List.concat_ne_nil _ _)
  | concat hbefore limit rounds hreturn =>
      obtain ⟨rfl, hcall⟩ := List.append_inj' hcalls rfl
      cases hcall
      exact ⟨_, limit, rounds, hbefore, rfl, hreturn⟩

variable {script : Script} {l : Layout α} {buffer : GrowVec g α}

theorem inOrder_of_calls (h : Calls (script.fillBuffer l) (.start buffer) calls s) :
    script.InOrder l buffer s := by
  induction h with
  | nil => exact Script.inOrder_start script l buffer
  | concat _ limit rounds hreturn ih => exact (Script.inOrder_of_returns ih ⟨rounds, hreturn⟩).1

theorem answers_of_calls (h : Calls (script.fillBuffer l) (.start buffer) (calls ++ [call]) s) :
    script.Answers call.limit call.result s := by
  obtain ⟨t, limit, rounds, hbefore, hlimit, hreturn⟩ := exists_of_calls_concat h
  rw [hlimit]
  exact (Script.inOrder_of_returns (inOrder_of_calls hbefore) ⟨rounds, hreturn⟩).2

variable {g' : Growth} {v v' : Filling g' Sample}

/-- The calls on samples, with the limits that fit, on a buffer of another layout. -/
theorem exists_calls_of_samples (hstart : Script.InStep l v s)
    (h : Calls (script.fillBuffer .samples) v calls v') :
    ∃ s', Calls (script.fillBuffer l) s (calls.map (.times l.size)) s' ∧ Script.InStep l v' s' := by
  induction h with
  | nil => exact ⟨s, .nil, hstart⟩
  | concat _ limit rounds hreturn ih =>
      obtain ⟨t, hbefore, ht⟩ := ih
      obtain ⟨⟨result, u⟩, ⟨rounds', hreturn'⟩, rfl, hu⟩ := Returns.of_liftRel
        (fun a b hab => Script.liftRel_fillRound script _ hab) ht ⟨rounds, hreturn⟩
      refine ⟨u, ?_, hu⟩
      rw [List.map_append]
      exact hbefore.concat (some _) rounds' hreturn'

theorem exists_samples_of_calls (hstart : Script.InStep l v s)
    (h : Calls (script.fillBuffer l) s (calls.map (.times l.size)) t) :
    ∃ v', Calls (script.fillBuffer .samples) v calls v' ∧ Script.InStep l v' t := by
  induction calls using List.reverseRecOn generalizing t with
  | nil =>
      rw [eq_of_calls_nil h]
      exact ⟨v, .nil, hstart⟩
  | append_singleton calls call ih =>
      rw [List.map_append] at h
      obtain ⟨m, limit, rounds, hbefore, hlimit, hreturn⟩ := exists_of_calls_concat h
      obtain ⟨w, hw, hstep⟩ := ih hbefore
      -- Whatever the call was given, the limit in force is what counts.
      have hreturns : Returns (script.fillRound l (l.size * call.limit)) m (call.result, t) := by
        have hsame : l.size * call.limit = fillLimit limit m.buffer := hlimit
        rw [hsame]
        exact ⟨rounds, hreturn⟩
      obtain ⟨⟨result, v'⟩, ⟨rounds', hreturn'⟩, hresult, hv'⟩ := Returns.of_liftRel_right
        (fun a b hab => Script.liftRel_fillRound script _ hab) hstep hreturns
      have hcall : call = { limit := call.limit, result := result } :=
        congrArg (FillCall.mk call.limit) hresult
      refine ⟨v', ?_, hv'⟩
      rw [hcall]
      exact hw.concat (some _) rounds' hreturn'

end Calls

/-- **No packet is lost or played twice, and samples and bytes stay in step**, for every stream and
any number of calls, those behind an error included.  A call of `fill_sample_buffer` returns unless
only packets are to come and they never reach the limit; the buffer holds what it has held at the
start and the packets decoded since; the result says whether the stream has ended below the limit.
With four times the limit, `fill_raw_buffer` returns the same results, with the bytes of the
samples. -/
theorem fills_in_step {g' : Growth} (script : Script) (buffer : GrowVec g Sample)
    (raw : GrowVec g' UInt8) (hraw : raw.data = Layout.raw.encode buffer.data) :
    (∀ calls s, Calls script.fillSampleBuffer (.start buffer) calls s →
      s.buffer.data = buffer.data ++ script.decoded s.asked ∧
      ∀ limit, (∃ r rounds, script.fillSampleBuffer limit rounds s = some r) ↔
        ∃ k, s.asked ≤ k ∧ ((∀ packet, script k ≠ .ok (some packet)) ∨
          fillLimit limit s.buffer ≤ (buffer.data ++ script.decoded k).length)) ∧
    (∀ calls call s, Calls script.fillSampleBuffer (.start buffer) (calls ++ [call]) s →
      script.Answers call.limit call.result s) ∧
    ∀ calls,
      (∀ s, Calls script.fillSampleBuffer (.start buffer) calls s →
        ∃ u, Calls script.fillRawBuffer (.start raw) (calls.map (.times 4)) u ∧
          Script.InStep .raw s u) ∧
      ∀ u, Calls script.fillRawBuffer (.start raw) (calls.map (.times 4)) u →
        ∃ s, Calls script.fillSampleBuffer (.start buffer) calls s ∧ Script.InStep .raw s u := by
  have hstart : Script.InStep .raw (.start buffer) (.start raw) := ⟨rfl, hraw⟩
  refine ⟨?_, ?_, ?_⟩
  · intro calls s hcalls
    have horder := inOrder_of_calls hcalls
    exact ⟨horder, fun limit => Script.terminates_iff horder⟩
  · intro calls call s hcalls
    exact answers_of_calls hcalls
  · intro calls
    exact ⟨fun s hcalls => exists_calls_of_samples hstart hcalls,
      fun u hcalls => exists_samples_of_calls hstart hcalls⟩

/-- Two packets, with a reset of the decoder between them. -/
def Script.interrupted : Script
  | 0 => .ok (some [1, 2])
  | 1 => .error .retry
  | 2 => .ok (some [3])
  | _ => .ok none

/-- The first call fails, the next one goes on to the end of the stream, and the last one finds
enough. -/
theorem fills_in_step_interrupted :
    let calls : List FillCall := [⟨4, .error .retry⟩, ⟨4, .ok true⟩, ⟨3, .ok false⟩]
    (∃ s : Filling .exact Sample,
      Calls Script.interrupted.fillSampleBuffer (.start (.withCapacity 0)) calls s ∧
        s.buffer.data = [1, 2, 3]) ∧
    ∃ u : Filling .exact UInt8,
      Calls Script.interrupted.fillRawBuffer (.start (.withCapacity 0)) (calls.map (.times 4)) u ∧
        u.buffer.data = [1, 0, 0, 0, 2, 0, 0, 0, 3, 0, 0, 0] := by
  intro calls
  have hcalls : Calls Script.interrupted.fillSampleBuffer
      (.start (.withCapacity 0 : GrowVec .exact Sample)) calls _ :=
    ((Calls.nil.concat (some 4) 2 rfl).concat (some 4) 2 rfl).concat (some 3) 1 rfl
  obtain ⟨hsamples, -, hboth⟩ := fills_in_step Script.interrupted (.withCapacity 0)
    (.withCapacity 0 : GrowVec .exact UInt8) rfl
  obtain ⟨u, hraw, hstep⟩ := (hboth calls).1 _ hcalls
  exact ⟨⟨_, hcalls, (hsamples _ _ hcalls).1⟩, u, hraw, hstep.data⟩

/-! ## Streams that end -/

namespace Decoding

/-- What its calls come to. -/
def script (d : Decoding) : Script := fun k =>
  match d.pending[k]? with
  | some (.ok packet) => .ok (some packet)
  | some (.error e) => .error e
  | none =>
      match d.ending with
      | .endOfStream => .ok none
      | .streamError => .error .streamError

theorem getAudioBuffer_script (d : Decoding) :
    d.getAudioBuffer.1 = d.script 0 ∧ ∀ k, d.getAudioBuffer.2.script k = d.script (k + 1) := by
  obtain ⟨sampleRate, channels, hrate, hchannels, pending, ending⟩ := d
  cases pending with
  | nil => cases ending <;> exact ⟨rfl, fun k => rfl⟩
  | cons r rest => cases r <;> exact ⟨rfl, fun k => rfl⟩

/-- From `d` on, the calls come to the rest of the script. -/
def Reads (d : Decoding) (script : Script) (asked : Nat) : Prop :=
  ∀ k, d.script k = script (asked + k)

theorem reads_script (d : Decoding) : d.Reads d.script 0 := by
  intro k
  rw [Nat.zero_add]

variable {script : Script} {d : Decoding} {asked : Nat}

theorem Reads.getAudioBuffer_eq (h : d.Reads script asked) : d.getAudioBuffer.1 = script asked :=
  (getAudioBuffer_script d).1.trans (h 0)

theorem Reads.next (h : d.Reads script asked) : d.getAudioBuffer.2.Reads script (asked + 1) := by
  intro k
  calc
    d.getAudioBuffer.2.script k = d.script (k + 1) := (getAudioBuffer_script d).2 k
    _ = script (asked + (k + 1)) := h (k + 1)
    _ = script (asked + 1 + k) := by rw [Nat.add_comm k 1, Nat.add_assoc]

/-- A refill is a call on the script, and it does return. -/
theorem returns_fill (l : Layout α) (limit : Nat) {s : Filling g α} (h : d.Reads script s.asked) :
    ∃ t, Returns (script.fillRound l limit) s ((d.fill l limit s.buffer).1, t) ∧
      t.buffer = (d.fill l limit s.buffer).2.2 ∧
      (d.fill l limit s.buffer).2.1.Reads script t.asked := by
  -- Every round but the last one uses up a packet that has been pending.
  induction hn : d.pending.length using Nat.strongRecOn generalizing d s with
  | ind n ih =>
      have hround := Script.round_fillRound script l limit s
      have hresult := h.getAudioBuffer_eq
      have hnext := h.next
      rw [fill_eq]
      generalize hnextRound : script.fillRound l limit s = next at hround
      rcases hcall : d.getAudioBuffer with ⟨result, d'⟩
      rw [hcall] at hresult hnext
      cases hround with
      | full hlen =>
          rw [if_neg (Nat.not_lt.2 hlen)]
          exact ⟨s, (Iteration.returns_of_inr hnextRound).2 rfl, rfl, h⟩
      | @packet packet hlen hpacket =>
          obtain rfl := hresult.trans hpacket
          have hless : d'.pending.length < n := by
            rw [← hn, (pending_of_packet hcall).1]
            exact Nat.lt_succ_self _
          obtain ⟨t, hreturns, hrest⟩ := ih _ hless (s := s.extend (l.encode packet)) hnext rfl
          rw [if_pos hlen]
          exact ⟨t, (Iteration.returns_of_inl hnextRound).2 hreturns, hrest⟩
      | ended hlen hnone =>
          obtain rfl := hresult.trans hnone
          rw [if_pos hlen]
          exact ⟨s.pass, (Iteration.returns_of_inr hnextRound).2 rfl, rfl, hnext⟩
      | error hlen herror =>
          obtain rfl := hresult.trans herror
          rw [if_pos hlen]
          exact ⟨s.pass, (Iteration.returns_of_inr hnextRound).2 rfl, rfl, hnext⟩

/-- Calls of `fill_sample_buffer` or `fill_raw_buffer`, one for each limit. -/
def fillCalls (l : Layout α) (d : Decoding) (buffer : GrowVec g α) (limits : List (Option Nat)) :
    List FillCall × Decoding × GrowVec g α :=
  limits.foldl (fun (calls, d, buffer) limit =>
    let (result, d', buffer') := d.fillBuffer l buffer limit
    (calls ++ [{ limit := fillLimit limit buffer, result := result }], d', buffer')) ([], d, buffer)

/-- They are calls on the script. -/
theorem exists_calls_of_fillCalls (l : Layout α) (d : Decoding) (buffer : GrowVec g α)
    (limits : List (Option Nat)) :
    ∃ t, Calls (d.script.fillBuffer l) (.start buffer) (d.fillCalls l buffer limits).1 t ∧
      t.buffer = (d.fillCalls l buffer limits).2.2 ∧
      (d.fillCalls l buffer limits).2.1.Reads d.script t.asked := by
  induction limits using List.reverseRecOn with
  | nil => exact ⟨.start buffer, .nil, rfl, d.reads_script⟩
  | append_singleton limits limit ih =>
      obtain ⟨t, hcalls, hbuffer, hreads⟩ := ih
      obtain ⟨u, ⟨rounds, hreturn⟩, hlast⟩ := returns_fill l (fillLimit limit t.buffer) hreads
      have hboth := hcalls.concat limit rounds hreturn
      unfold fillCalls
      rw [List.foldl_append]
      rw [hbuffer] at hboth hlast
      exact ⟨u, hboth, hlast⟩

end Decoding
end Vibe
end LmsPlayer
