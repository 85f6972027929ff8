import LmsPlayer.Vibe.Decode
import Mathlib.Algebra.Group.Nat.Even

/-!
# Vibe.Volume — the volume of a packet

`VibeDecoder::get_audio_buffer` in full: the next packet is read and decoded, its channels are
interleaved, and the samples are multiplied by the current volume two by two, the first of each pair
by the left gain and the second by the right one.

The pairs are made without a look at the channels.  In a packet with an odd number of samples, the
last one has no partner and is left as it is.

* Samples are of any type, and so is their multiplication.
* What the container and the codec make of the stream is known in advance (`PacketRead`).
-/

namespace LmsPlayer
namespace Vibe

universe u v

variable {α : Type u} {γ : Type v}

/-! ## The volume -/

structure Volume (α : Type u) where
  left : α
  right : α
  deriving DecidableEq, Repr

/-- The gains for a packet; `half` is the gain of 0.5 for a lock that is poisoned. -/
def currentGains (half : α) (volume : Option (Volume α)) : α × α :=
  (volume.map fun vol => (vol.left, vol.right)).getD (half, half)

/-- `PlayerContext::on_gain`; `toGain` caps a setting at 1.0 and takes its square root. -/
def onGain (toGain : γ → α) (volume : Option (Volume α)) (left right : γ) : Option (Volume α) :=
  volume.map fun _ =>
    { left := toGain left
      right := toGain right }

/-! ## Packets -/

/-- A decoded packet: in each frame, one sample for each channel. -/
structure Packet (α : Type u) where
  channels : Nat
  frames : List (Vector α channels)
  deriving DecidableEq

/-- `copy_to_vec_interleaved` -/
def Packet.interleaved (p : Packet α) : List α := p.frames.flatMap Vector.toList

theorem Packet.length_interleaved (p : Packet α) :
    p.interleaved.length = p.channels * p.frames.length := by
  unfold interleaved
  induction p.frames with
  | nil => rfl
  | cons frame frames ih =>
      calc
        (frame.toList ++ frames.flatMap Vector.toList).length
            = p.channels + p.channels * frames.length := by
              rw [List.length_append, Vector.length_toList, ih]
        _ = p.channels * (frame :: frames).length := by
              rw [List.length_cons, Nat.mul_succ, Nat.add_comm]

/-- The loop over `as_chunks_mut::<2>().0`, with the remainder behind it. -/
def scaleChunks (mul : α → α → α) (left right : α) : List α → List α
  | l :: r :: rest => mul l left :: mul r right :: scaleChunks mul left right rest
  | rest => rest

/-- What `next_packet` and `decode` come to for the next piece of the stream. -/
inductive PacketRead (α : Type u) where
  | packet (decoded : Packet α)
  | undecodable
  /-- `next_packet` asks for a reset of the decoder. -/
  | resetRequired
  | failed

structure PacketReader (α : Type u) where
  reads : List (PacketRead α)
  ending : Ending

namespace PacketReader

/-- `VibeDecoder::get_audio_buffer` -/
def getAudioBuffer (mul : α → α → α) (gains : α × α) (reader : PacketReader α) :
    Except DecoderError (Option (List α)) × PacketReader α :=
  match reader.reads with
  | .packet decoded :: rest =>
      (.ok (some (scaleChunks mul gains.1 gains.2 decoded.interleaved)),
        { reader with reads := rest })
  | .undecodable :: rest => (.error .streamError, { reader with reads := rest })
  | .resetRequired :: rest => (.error .retry, { reader with reads := rest })
  | .failed :: rest => (.error .streamError, { reader with reads := rest })
  | [] =>
      match reader.ending with
      | .endOfStream => (.ok none, reader)
      | .streamError => (.error .streamError, reader)

end PacketReader

/-! ## Pairs of samples -/

variable (mul : α → α → α) (g : α)

theorem scaleChunks_append {xs : List α} (h : Even xs.length) (ys : List α) :
    scaleChunks mul g g (xs ++ ys) = xs.map (mul · g) ++ scaleChunks mul g g ys := by
  induction xs using scaleChunks.induct with
  | case1 l r rest ih =>
      have hrest : Even rest.length := by
        rw [List.length_cons, List.length_cons, Nat.even_add_one, Nat.even_add_one, not_not] at h
        exact h
      exact congrArg (fun zs => mul l g :: mul r g :: zs) (ih hrest)
  | case2 rest hrest =>
      -- Less than two samples, and not one.
      match rest, hrest with
      | [], _ => rfl
      | [x], _ => exact absurd h (by simp)
      | l :: r :: rest, hrest => exact (hrest l r rest rfl).elim

theorem scaleChunks_of_even {xs : List α} (h : Even xs.length) :
    scaleChunks mul g g xs = xs.map (mul · g) := by
  simpa [scaleChunks] using scaleChunks_append mul g h []

theorem scaleChunks_concat {xs : List α} (h : Even xs.length) (x : α) :
    scaleChunks mul g g (xs ++ [x]) = xs.map (mul · g) ++ [x] :=
  scaleChunks_append mul g h [x]

def Paired (xs : List α) : Prop :=
  Even xs.length ∨ ∀ x, xs.getLast? = some x → mul x g = x

theorem scaleChunks_eq_map_iff (xs : List α) :
    scaleChunks mul g g xs = xs.map (mul · g) ↔ Paired mul g xs := by
  unfold Paired
  by_cases heven : Even xs.length
  · exact iff_of_true (scaleChunks_of_even mul g heven) (Or.inl heven)
  · rcases List.eq_nil_or_concat xs with rfl | ⟨front, x, rfl⟩
    · exact absurd (Even.zero) heven
    · have hfront : Even front.length := by
        rw [List.concat_eq_append, List.length_append, List.length_singleton,
          Nat.even_add_one, not_not] at heven
        exact heven
      rw [List.concat_eq_append, scaleChunks_concat mul g hfront, List.map_append,
        List.append_cancel_left_eq, List.getLast?_concat]
      constructor
      · intro hlast
        refine Or.inr ?_
        rintro y ⟨rfl⟩
        exact (List.cons.inj hlast).1.symm
      · rintro (hlength | hkept)
        · rw [List.concat_eq_append] at heven
          exact absurd hlength heven
        · exact congrArg (fun y => [y]) (hkept x rfl).symm

theorem length_scaleChunks (left right : α) (xs : List α) :
    (scaleChunks mul left right xs).length = xs.length := by
  induction xs using scaleChunks.induct with
  | case1 l r rest ih => exact congrArg (· + 2) ih
  | case2 rest hrest =>
      match rest, hrest with
      | [], _ => rfl
      | [x], _ => rfl
      | l :: r :: rest, hrest => exact (hrest l r rest rfl).elim

theorem forall_silent_iff (hsilent : ∀ x, mul x g = g) (xs : List α) :
    (∀ y ∈ scaleChunks mul g g xs, y = g) ↔ Paired mul g xs := by
  have hmap : xs.map (mul · g) = List.replicate xs.length g := by
    simp only [hsilent, List.map_const']
  rw [← scaleChunks_eq_map_iff, hmap, List.eq_replicate_iff]
  exact ⟨fun h => ⟨length_scaleChunks mul g g xs, h⟩, And.right⟩

/-! ## A packet with the volume applied -/

/-- **Every sample of a packet is multiplied by the gain exactly when the samples can be paired**:
the number of channels times the number of frames is even, or the multiplication does not change the
very last sample.  In the same cases a gain that silences every sample silences the packet. -/
theorem scaled_iff {half : α} {volume : Option (Volume α)}
    (hgains : currentGains half volume = (g, g)) (decoded : Packet α) (rest : List (PacketRead α))
    (ending : Ending) :
    let reader : PacketReader α := { reads := .packet decoded :: rest, ending := ending }
    let condition := Even (decoded.channels * decoded.frames.length) ∨
      ∀ x, decoded.interleaved.getLast? = some x → mul x g = x
    ∃ buffer, (reader.getAudioBuffer mul (currentGains half volume)).1 = .ok (some buffer) ∧
      (buffer = decoded.interleaved.map (mul · g) ↔ condition) ∧
      ((∀ x, mul x g = g) → ((∀ y ∈ buffer, y = g) ↔ condition)) := by
  intro reader condition
  have hcondition : Paired mul g decoded.interleaved ↔ condition := by
    unfold Paired
    rw [decoded.length_interleaved]
  refine ⟨scaleChunks mul g g decoded.interleaved, ?_, ?_, ?_⟩
  · rw [hgains]
    rfl
  · rw [scaleChunks_eq_map_iff, hcondition]
  · intro hsilent
    rw [forall_silent_iff mul g hsilent, hcondition]

theorem scaled_iff_surround :
    let decoded : Packet Int := { channels := 3, frames := [#v[2, 4, 6], #v[8, 10, 12]] }
    let reader : PacketReader Int := { reads := [.packet decoded], ending := .endOfStream }
    let volume : Option (Volume Int) := some { left := 3, right := 3 }
    ∃ buffer, (reader.getAudioBuffer (· * ·) (currentGains 0 volume)).1 = .ok (some buffer) ∧
      buffer = decoded.interleaved.map (· * 3) := by
  intro decoded reader volume
  have hgains : currentGains 0 volume = (3, 3) := rfl
  rcases scaled_iff (· * ·) 3 hgains decoded [] .endOfStream with ⟨buffer, hbuffer, hscaled, -⟩
  exact ⟨buffer, hbuffer, hscaled.2 (Or.inl (by decide))⟩

/-- One frame of a mono stream, with the volume turned down to nothing: the sample is played as it
is. -/
theorem mono_not_silent :
    let decoded : Packet Int := { channels := 1, frames := [#v[1]] }
    let reader : PacketReader Int := { reads := [.packet decoded], ending := .endOfStream }
    let volume : Option (Volume Int) := onGain id (some { left := 1, right := 1 }) 0 0
    (reader.getAudioBuffer (· * ·) (currentGains 1 volume)).1 = .ok (some [1]) ∧
      decoded.interleaved.map (· * 0) = [0] :=
  ⟨rfl, rfl⟩

end Vibe
end LmsPlayer
