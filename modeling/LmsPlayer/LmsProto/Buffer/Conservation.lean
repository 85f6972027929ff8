import LmsPlayer.LmsProto.Buffer.SlimBuffer
import LmsPlayer.Library.Fifo

/-!
# Buffer.Conservation — the buffer is a pipe

The bytes of a `SlimBuffer` pass from the source through the shared buffer and the staging area to
the consumer.  Whatever the two threads do, what is in these two places is what a first-in first-out
pipe has in flight (`pipe`): appending to the shared buffer sends, `read` and `consume` receive, and
every other step, the move from one place to the other included, leaves the pipe alone.
-/

namespace LmsPlayer
namespace LmsProto
namespace SlimBuffer

open TransitionSystem
open Fifo (Pipe)

variable {cfg : BufferConfig}

/-! ## The position in the staging area -/

@[simp] theorem length_avail (s : SlimBuffer) : s.avail.length = s.staging.length - s.pos :=
  List.length_drop

theorem pos_le_of_fillStep {s t : SlimBuffer} (h : FillStep cfg s t)
    (hpos : s.pos ≤ s.staging.length) : t.pos ≤ t.staging.length := by
  cases h with
  | apply hpc hrun hretry =>
      rename_i result
      -- The fill thread does not touch the staging area.
      cases result with
      | ok chunk => cases chunk <;> exact hpos
      | err e => exact hpos
  | notify hpc =>
      unfold notifyReadable
      cases s.consumer <;> exact hpos
  | signal hpc =>
      unfold signal
      split_ifs <;> exact hpos
  | _ => exact hpos

theorem pos_le_of_consumerStep {s t : SlimBuffer} (h : ConsumerStep s t)
    (hpos : s.pos ≤ s.staging.length) : t.pos ≤ t.staging.length := by
  cases h with
  | consume amt hpc =>
      show s.pos + min amt (s.staging.length - s.pos) ≤ s.staging.length
      omega
  | clear hpc hdata => exact Nat.zero_le _
  | ended hpc hempty heof =>
      unfold refillEmpty
      cases s.state.error <;> exact hpos
  | stage hpc hdata =>
      refine le_trans hpos ?_
      show s.staging.length ≤ (s.staging ++ _).length
      simp
  | notify hpc =>
      unfold notifyWritable
      cases s.fill <;> exact hpos
  | notifyWritable hpc =>
      unfold notifyWritable
      cases s.fill <;> exact hpos
  | finish hpc =>
      rename_i call
      cases call with
      | read len =>
          show s.pos + min s.avail.length len ≤ s.staging.length
          rw [length_avail]
          omega
      | fillBuf => exact hpos
  | _ => exact hpos

/-- The consumer never runs past the end of the staging area. -/
theorem pos_le {s : SlimBuffer} (h : (system cfg).Reachable s) : s.pos ≤ s.staging.length := by
  refine System.Reachable.invariant (fun s => s.pos ≤ s.staging.length) ?_ ?_ h
  · rintro s ⟨status, rfl⟩
    exact Nat.zero_le _
  · intro s t _ hpos hstep
    rcases hstep with hfill | hconsumer
    · exact pos_le_of_fillStep hfill hpos
    · exact pos_le_of_consumerStep hconsumer hpos

/-! ## The pipe -/

/-- A buffer seen as a pipe from the source to the consumer. -/
def pipe (s : SlimBuffer) : Pipe UInt8 :=
  { sent := s.history.appended
    inFlight := s.avail ++ s.state.buf
    received := s.history.delivered }

theorem pipe_append (s : SlimBuffer) (chunk : Bytes) :
    (s.append chunk).pipe = s.pipe.send chunk := by
  simp [pipe, append, avail, Pipe.send]

/-- Moving bytes to the staging area leaves the pipe alone. -/
theorem pipe_stage {s : SlimBuffer} (hpos : s.pos ≤ s.staging.length) : s.stage.pipe = s.pipe := by
  have hinFlight : s.stage.avail ++ s.stage.state.buf = s.avail ++ s.state.buf := by
    unfold stage avail
    dsimp only
    rw [List.drop_append_of_le_length hpos, List.append_assoc, List.take_append_drop]
  unfold pipe
  rw [hinFlight]
  rfl

/-- Passing over bytes of the staging area receives them. -/
theorem pipe_advance (s : SlimBuffer) (n : Nat) :
    Fifo.Step s.pipe (s.advance n).pipe := by
  have hinFlight : s.pipe.inFlight =
      s.avail.take n ++ (s.staging.drop (s.pos + n) ++ s.state.buf) := by
    have hsplit : s.avail.take n ++ s.staging.drop (s.pos + n) = s.avail := by
      unfold avail
      rw [← List.drop_drop]
      exact List.take_append_drop n _
    rw [← List.append_assoc, hsplit]
    rfl
  exact .receive s.pipe hinFlight

theorem pipe_of_fillStep {s t : SlimBuffer} (h : FillStep cfg s t) :
    t.pipe = s.pipe ∨ Fifo.Step s.pipe t.pipe := by
  cases h with
  | apply hpc hrun hretry =>
      rename_i result
      cases result with
      | ok chunk =>
          cases chunk with
          | nil => exact Or.inl rfl
          | cons b bs =>
              -- The read sends its bytes.
              refine Or.inr ?_
              have hsend : Fifo.Step s.pipe (s.append (b :: bs)).pipe := by
                rw [pipe_append]
                exact .send s.pipe (b :: bs)
              exact hsend
      | err e => exact Or.inl rfl
  | notify hpc =>
      unfold notifyReadable
      cases s.consumer <;> exact Or.inl rfl
  | signal hpc =>
      unfold signal
      split_ifs <;> exact Or.inl rfl
  | _ => exact Or.inl rfl

theorem pipe_of_consumerStep {s t : SlimBuffer} (h : ConsumerStep s t)
    (hpos : s.pos ≤ s.staging.length) : t.pipe = s.pipe ∨ Fifo.Step s.pipe t.pipe := by
  cases h with
  | consume amt hpc => exact Or.inr (pipe_advance s _)
  | clear hpc hdata =>
      -- Only a staging area that has been read to its end is cleared.
      refine Or.inl ?_
      have hread : s.staging.drop s.pos = [] := List.drop_eq_nil_of_le (Nat.not_lt.1 hdata)
      unfold pipe avail
      rw [hread]
      rfl
  | ended hpc hempty heof =>
      unfold refillEmpty
      cases s.state.error <;> exact Or.inl rfl
  | stage hpc hdata => exact Or.inl (pipe_stage hpos)
  | notify hpc =>
      unfold notifyWritable
      cases s.fill <;> exact Or.inl rfl
  | notifyWritable hpc =>
      unfold notifyWritable
      cases s.fill <;> exact Or.inl rfl
  | finish hpc =>
      rename_i call
      cases call with
      | read len => exact Or.inr (pipe_advance s _)
      | fillBuf => exact Or.inl rfl
  | _ => exact Or.inl rfl

/-- A `SlimBuffer` does nothing that a pipe could not do. -/
def pipeSimulation (cfg : BufferConfig) : Simulation (system cfg) (Fifo.system UInt8) :=
  { abs := pipe
    init := by
      rintro s ⟨status, rfl⟩
      rfl
    step := by
      intro s t hs hstep
      rcases hstep with hfill | hconsumer
      · exact pipe_of_fillStep hfill
      · exact pipe_of_consumerStep hconsumer (pos_le hs) }

/-! ## What the source has given -/

/-- All bytes the source has returned. -/
def sourcedBytes (s : SlimBuffer) : Bytes := s.history.sourced.flatMap SourceRead.bytes

/-- What has been appended is what the source has returned, except for a result that the fill thread
still has in its hands, or threw away when it was told to stop. -/
def Sourced (s : SlimBuffer) : Prop :=
  match s.fill with
  | .relocking result => s.sourcedBytes = s.history.appended ++ result.bytes
  | .applying result => s.sourcedBytes = s.history.appended ++ result.bytes
  | .returned => s.history.appended <+: s.sourcedBytes
  | _ => s.sourcedBytes = s.history.appended

theorem bytes_of_retry {result : SourceRead} (h : result.Retry) : result.bytes = [] := by
  cases result with
  | ok chunk => exact absurd h id
  | err e => rfl

theorem sourced_of_fillStep {s t : SlimBuffer} (h : FillStep cfg s t) (hs : s.Sourced) :
    t.Sourced := by
  unfold Sourced at hs
  cases h with
  | lock hpc hfree =>
      rw [hpc] at hs
      exact hs
  | wait hpc hrun hfull =>
      rw [hpc] at hs
      exact hs
  | wake hpc =>
      rw [hpc] at hs
      exact hs
  | lockAgain hpc hfree =>
      rw [hpc] at hs
      exact hs
  | stop hpc hstop =>
      rw [hpc] at hs
      exact ⟨[], (List.append_nil _).trans hs.symm⟩
  | startRead hpc hrun hroom =>
      rw [hpc] at hs
      exact hs
  | endRead result hpc hfits =>
      rw [hpc] at hs
      show (s.history.sourced ++ [result]).flatMap SourceRead.bytes = _
      rw [List.flatMap_append, List.flatMap_singleton]
      exact congrArg (· ++ result.bytes) hs
  | relock hpc hfree =>
      rw [hpc] at hs
      exact hs
  | stopAfterRead hpc hstop =>
      rw [hpc] at hs
      exact ⟨_, hs.symm⟩
  | retry hpc hrun hretry =>
      rw [hpc] at hs
      dsimp only at hs
      rw [bytes_of_retry hretry, List.append_nil] at hs
      exact hs
  | apply hpc hrun hretry =>
      rename_i result
      rw [hpc] at hs
      -- The bytes of the read are appended now.
      cases result with
      | ok chunk =>
          cases chunk with
          | nil => exact hs.trans (List.append_nil _)
          | cons b bs => exact hs
      | err e => exact hs.trans (List.append_nil _)
  | notify hpc =>
      rw [hpc] at hs
      unfold notifyReadable
      cases s.consumer <;> exact hs
  | signal hpc =>
      rename_i reached finished
      rw [hpc] at hs
      have hgiven : (s.signal cfg reached).sourcedBytes =
          (s.signal cfg reached).history.appended := by
        unfold signal
        split_ifs <;> exact hs
      cases finished with
      | false => exact hgiven
      | true => exact ⟨[], (List.append_nil _).trans hgiven.symm⟩

theorem sourced_of_notifyWritable {s : SlimBuffer} (hs : s.Sourced) :
    s.notifyWritable.Sourced := by
  unfold notifyWritable
  cases hfill : s.fill with
  | waiting =>
      unfold Sourced at hs
      rw [hfill] at hs
      exact hs
  | _ => exact hs

theorem sourced_of_consumerStep {s t : SlimBuffer} (h : ConsumerStep s t) (hs : s.Sourced) :
    t.Sourced := by
  cases h with
  | ended hpc hempty heof =>
      unfold refillEmpty
      cases s.state.error <;> exact hs
  | notify hpc => exact sourced_of_notifyWritable hs
  | notifyWritable hpc => exact sourced_of_notifyWritable hs
  | finish hpc =>
      rename_i call
      cases call <;> exact hs
  | _ => exact hs

theorem sourced {s : SlimBuffer} (h : (system cfg).Reachable s) : s.Sourced := by
  refine System.Reachable.invariant Sourced ?_ ?_ h
  · rintro s ⟨status, rfl⟩
    rfl
  · intro s t _ hs hstep
    rcases hstep with hfill | hconsumer
    · exact sourced_of_fillStep hfill hs
    · exact sourced_of_consumerStep hconsumer hs

theorem appended_prefix {s : SlimBuffer} (h : (system cfg).Reachable s) :
    s.history.appended <+: s.sourcedBytes := by
  have hs := sourced h
  unfold Sourced at hs
  cases hfill : s.fill <;> rw [hfill] at hs <;>
    first | exact hs | exact hs ▸ List.prefix_rfl | exact ⟨_, hs.symm⟩

/-- **No byte is lost, duplicated or reordered**: in every reachable state the delivered bytes, the
unread part of the staging area and the shared buffer are, in this order, the bytes appended so far,
and these are the first ones that the source has returned. -/
theorem delivered_append_staging_append_buf {s : SlimBuffer} (h : (system cfg).Reachable s) :
    s.history.delivered ++ s.staging.drop s.pos ++ s.state.buf = s.history.appended ∧
      s.history.appended <+: s.sourcedBytes := by
  have hpipe := Fifo.conservation ((pipeSimulation cfg).reachable h)
  refine ⟨?_, appended_prefix h⟩
  calc
    s.history.delivered ++ s.staging.drop s.pos ++ s.state.buf
        = s.history.delivered ++ (s.staging.drop s.pos ++ s.state.buf) :=
          List.append_assoc _ _ _
    _ = s.history.appended := hpipe

/-- Three bytes are appended, two of them are read into a destination of two bytes. -/
theorem delivered_append_staging_append_buf_read :
    ∃ s, (system (BufferConfig.withCapacity 4 2 true)).Reachable s ∧
      s.history.delivered = [7, 8] ∧
      s.history.delivered ++ s.staging.drop s.pos ++ s.state.buf = [7, 8, 9] := by
  have h0 : (system (BufferConfig.withCapacity 4 2 true)).Reachable
      (withCapacity (BufferConfig.withCapacity 4 2 true) (StatusData.default 0)) :=
    .init ⟨_, rfl⟩
  -- The consumer finds nothing and waits.
  have h1 := h0.step (.inr (.read rfl (show 0 < 2 by decide)))
  have h2 := h1.step (.inr (.clear rfl (by decide)))
  have h3 := h2.step (.inr (.lock rfl rfl))
  have h4 := h3.step (.inr (.wait rfl rfl rfl))
  -- The fill thread reads three bytes and wakes it up.
  have h5 := h4.step (.inl (.lock rfl rfl))
  have h6 := h5.step (.inl (.startRead rfl rfl (by decide)))
  have h7 := h6.step (.inl (.endRead (.ok [7, 8, 9]) rfl (by decide)))
  have h8 := h7.step (.inl (.relock rfl rfl))
  have h9 := h8.step (.inl (.apply rfl rfl id))
  have h10 := h9.step (.inl (.notify rfl))
  have h11 := h10.step (.inr (.lockAgain rfl rfl))
  have h12 := h11.step (.inr (.stage rfl (by decide)))
  have h13 := h12.step (.inr (.notify rfl))
  have h14 := h13.step (.inr (.finish rfl))
  exact ⟨_, h14, rfl, (delivered_append_staging_append_buf h14).1⟩

end SlimBuffer

end LmsProto
end LmsPlayer
