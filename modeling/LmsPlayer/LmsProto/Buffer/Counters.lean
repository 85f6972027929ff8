import LmsPlayer.LmsProto.Buffer.Conservation

/-!
# Buffer.Counters — what the buffer reports

A `SlimBuffer` writes two fields of the shared `StatusData`: `bytes_received`, in the calls of the
consumer, and `fullness`, whenever the shared buffer changes.  Other threads write the other fields
meanwhile (`OthersStep`).

The counter is the number of delivered bytes, since every way out of the staging area is an
`advance`; the fullness is the length of the shared buffer, since both change under the lock.
-/

namespace LmsPlayer
namespace LmsProto

open TransitionSystem

namespace FillPc

/-- How many bytes the fill thread may append for a read that is under way. -/
def inHand : FillPc → Nat
  | reading want => want
  | relocking result => result.bytes.length
  | applying result => result.bytes.length
  | _ => 0

@[simp] theorem inHand_woken (pc : FillPc) : pc.woken.inHand = pc.inHand := by
  cases pc <;> rfl

end FillPc

theorem SourceRead.length_bytes_le {want : Nat} {result : SourceRead} (h : result.Fits want) :
    result.bytes.length ≤ want := by
  cases result with
  | ok chunk => exact h
  | err e => exact Nat.zero_le want

namespace SlimBuffer

variable {cfg : BufferConfig} {status : StatusData} {s t : SlimBuffer}

/-! ## The buffer among other writers -/

/-- Somebody else writes fields of the status block that are not written by the buffer. -/
inductive OthersStep (s : SlimBuffer) : SlimBuffer → Prop where
  | write (status : StatusData) (hfullness : status.fullness = s.status.fullness)
      (hreceived : status.bytesReceived = s.status.bytesReceived) :
      OthersStep s { s with status := status }

/-- A buffer created on the status block `status`, which it shares with others. -/
def sharedSystem (cfg : BufferConfig) (status : StatusData) : System SlimBuffer :=
  { init := fun s => s = withCapacity cfg status
    step := fun s t => FillStep cfg s t ∨ ConsumerStep s t ∨ OthersStep s t }

theorem shared_pos_le (h : (sharedSystem cfg status).Reachable s) : s.pos ≤ s.staging.length := by
  refine System.Reachable.invariant (fun s => s.pos ≤ s.staging.length) ?_ ?_ h
  · rintro s rfl
    exact Nat.zero_le _
  · intro s t _ hpos hstep
    rcases hstep with hfill | hconsumer | hothers
    · exact pos_le_of_fillStep hfill hpos
    · exact pos_le_of_consumerStep hconsumer hpos
    · cases hothers
      exact hpos

/-- Among others, too, the buffer is a pipe. -/
def sharedPipeSimulation (cfg : BufferConfig) (status : StatusData) :
    Simulation (sharedSystem cfg status) (Fifo.system UInt8) :=
  { abs := pipe
    init := by
      rintro s rfl
      rfl
    step := by
      intro s t hs hstep
      rcases hstep with hfill | hconsumer | hothers
      · exact pipe_of_fillStep hfill
      · exact pipe_of_consumerStep hconsumer (shared_pos_le hs)
      · cases hothers
        exact Or.inl rfl }

/-! ## The capacity -/

/-- The shared buffer never holds more than its capacity, a read under way included. -/
def Fits (cfg : BufferConfig) (s : SlimBuffer) : Prop :=
  s.state.buf.length + s.fill.inHand ≤ cfg.capacity

/-- Nothing is added, and no larger read is begun. -/
theorem Fits.move (hs : s.Fits cfg) (hbuf : t.state.buf.length ≤ s.state.buf.length)
    (hinHand : t.fill.inHand ≤ s.fill.inHand) : t.Fits cfg :=
  le_trans (Nat.add_le_add hbuf hinHand) hs

theorem fits_of_fillStep (h : FillStep cfg s t) (hs : s.Fits cfg) : t.Fits cfg := by
  cases h with
  | startRead hpc hrun hroom =>
      have hwant : SlimBuffer.want cfg s ≤ cfg.capacity - s.state.buf.length := min_le_left _ _
      calc
        s.state.buf.length + SlimBuffer.want cfg s
            ≤ s.state.buf.length + (cfg.capacity - s.state.buf.length) :=
              Nat.add_le_add_left hwant _
        _ = cfg.capacity := Nat.add_sub_cancel' (le_of_lt hroom)
  | endRead result hpc hfits =>
      refine hs.move le_rfl ?_
      rw [hpc]
      exact SourceRead.length_bytes_le hfits
  | relock hpc hfree =>
      refine hs.move le_rfl ?_
      rw [hpc]
      exact le_rfl
  | apply hpc hrun hretry =>
      rename_i result
      cases result with
      | ok chunk =>
          cases chunk with
          | nil => exact hs.move le_rfl (Nat.zero_le _)
          | cons b bs =>
              unfold Fits at hs
              rw [hpc] at hs
              exact le_of_eq_of_le List.length_append hs
      | err e => exact hs.move le_rfl (Nat.zero_le _)
  | notify hpc =>
      rw [notifyReadable_eq]
      exact hs.move le_rfl (Nat.zero_le _)
  | signal hpc =>
      rename_i reached finished
      rcases exists_signal_eq cfg reached s with ⟨signalled, callbacks, hsignal⟩
      rw [hsignal]
      refine hs.move le_rfl ?_
      cases finished <;> exact Nat.zero_le _
  | _ => exact hs.move le_rfl (Nat.zero_le _)

theorem fits_of_consumerStep (h : ConsumerStep s t) (hs : s.Fits cfg) : t.Fits cfg := by
  cases h with
  | stage hpc hdata =>
      exact hs.move (le_of_eq_of_le List.length_drop (Nat.sub_le _ _)) le_rfl
  | notify hpc =>
      rw [notifyWritable_eq]
      exact hs.move le_rfl (le_of_eq s.fill.inHand_woken)
  | notifyWritable hpc =>
      rw [notifyWritable_eq]
      exact hs.move le_rfl (le_of_eq s.fill.inHand_woken)
  | ended hpc hempty heof =>
      rename_i call
      rcases exists_refillEmpty_eq s call with ⟨error, consumer, results, _, hrefill⟩
      rw [hrefill]
      exact hs.move le_rfl le_rfl
  | finish hpc =>
      rename_i call
      rcases exists_finish_eq s call with ⟨status, pos, delivered, results, hfinish⟩
      rw [hfinish]
      exact hs.move le_rfl le_rfl
  | _ => exact hs.move le_rfl le_rfl

/-! ## What is written -/

/-- What the buffer writes to the status block in one step: the length of its content, or the number
of bytes passed over, if anything at all. -/
def Reported (s t : SlimBuffer) : Prop :=
  t.status = s.status ∨
    t.status = s.status.setFullness (UInt32.ofNat t.state.buf.length) ∨
    ∃ n : Nat, t.status = s.status.addBytesReceived (UInt64.ofNat n)

theorem reported_of_fillStep (h : FillStep cfg s t) : Reported s t := by
  cases h with
  | apply hpc hrun hretry =>
      rename_i result
      cases result with
      | ok chunk =>
          cases chunk with
          | nil => exact Or.inl rfl
          | cons b bs => exact Or.inr (Or.inl rfl)
      | err e => exact Or.inl rfl
  | notify hpc =>
      rw [notifyReadable_eq]
      exact Or.inl rfl
  | signal hpc =>
      rename_i reached finished
      rcases exists_signal_eq cfg reached s with ⟨signalled, callbacks, hsignal⟩
      rw [hsignal]
      exact Or.inl rfl
  | _ => exact Or.inl rfl

theorem reported_of_consumerStep (h : ConsumerStep s t) : Reported s t := by
  cases h with
  | consume amt hpc => exact Or.inr (Or.inr ⟨_, rfl⟩)
  | stage hpc hdata => exact Or.inr (Or.inl rfl)
  | ended hpc hempty heof =>
      rename_i call
      rcases exists_refillEmpty_eq s call with ⟨error, consumer, results, _, hrefill⟩
      rw [hrefill]
      exact Or.inl rfl
  | notify hpc | notifyWritable hpc =>
      rw [notifyWritable_eq]
      exact Or.inl rfl
  | finish hpc =>
      rename_i call
      cases call with
      | read len => exact Or.inr (Or.inr ⟨_, rfl⟩)
      | fillBuf => exact Or.inl rfl
  | _ => exact Or.inl rfl

/-! ## The counters -/

/-- What the two fields say, when the counter has started at `initial`. -/
structure Counted (initial : UInt64) (s : SlimBuffer) : Prop where
  received : s.status.bytesReceived = initial + UInt64.ofNat s.history.delivered.length
  fullness : s.history.appended ≠ [] →
    s.status.fullness = UInt32.ofNat s.state.buf.length

variable {initial : UInt64}

theorem counted_of_fillStep (h : FillStep cfg s t) (hs : s.Counted initial) :
    t.Counted initial := by
  rcases hs with ⟨hreceived, hfullness⟩
  cases h with
  | apply hpc hrun hretry =>
      rename_i result
      cases result with
      | ok chunk =>
          cases chunk with
          | nil => exact ⟨hreceived, hfullness⟩
          | cons b bs => exact ⟨hreceived, fun _ => rfl⟩
      | err e => exact ⟨hreceived, hfullness⟩
  | notify hpc =>
      unfold notifyReadable
      cases s.consumer <;> exact ⟨hreceived, hfullness⟩
  | signal hpc =>
      unfold signal
      split_ifs <;> exact ⟨hreceived, hfullness⟩
  | _ => exact ⟨hreceived, hfullness⟩

/-- Passing over bytes of the staging area counts them. -/
theorem counted_advance (hs : s.Counted initial) {n : Nat} (hn : n ≤ s.avail.length) :
    (s.advance n).Counted initial := by
  refine ⟨?_, hs.fullness⟩
  have hlength : (s.history.delivered ++ s.avail.take n).length =
      s.history.delivered.length + n := by
    rw [List.length_append, List.length_take, min_eq_left hn]
  show s.status.bytesReceived + UInt64.ofNat n = _
  calc
    s.status.bytesReceived + UInt64.ofNat n
        = initial + UInt64.ofNat s.history.delivered.length + UInt64.ofNat n := by rw [hs.received]
    _ = initial + (UInt64.ofNat s.history.delivered.length + UInt64.ofNat n) :=
        UInt64.add_assoc _ _ _
    _ = initial + UInt64.ofNat (s.history.delivered ++ s.avail.take n).length := by
        rw [hlength, UInt64.ofNat_add]

theorem counted_of_consumerStep (h : ConsumerStep s t) (hs : s.Counted initial) :
    t.Counted initial := by
  cases h with
  | consume amt hpc =>
      refine counted_advance hs ?_
      rw [length_avail]
      exact min_le_right _ _
  | ended hpc hempty heof =>
      unfold refillEmpty
      cases s.state.error <;> exact { hs with }
  | stage hpc hdata => exact ⟨hs.received, fun _ => rfl⟩
  | notify hpc =>
      unfold notifyWritable
      cases s.fill <;> exact { hs with }
  | notifyWritable hpc =>
      unfold notifyWritable
      cases s.fill <;> exact { hs with }
  | finish hpc =>
      rename_i call
      cases call with
      | read len => exact { counted_advance hs (min_le_left _ len) with }
      | fillBuf => exact { hs with }
  | _ => exact { hs with }

theorem counted (h : (sharedSystem cfg status).Reachable s) :
    s.Counted status.bytesReceived ∧ s.Fits cfg := by
  refine System.Reachable.invariant
    (fun s => s.Counted status.bytesReceived ∧ s.Fits cfg) ?_ ?_ h
  · rintro s rfl
    refine ⟨⟨(UInt64.add_zero _).symm, fun hnone => absurd rfl hnone⟩, Nat.zero_le _⟩
  · rintro s t _ ⟨hcounted, hfits⟩ hstep
    rcases hstep with hfill | hconsumer | hothers
    · exact ⟨counted_of_fillStep hfill hcounted, fits_of_fillStep hfill hfits⟩
    · exact ⟨counted_of_consumerStep hconsumer hcounted, fits_of_consumerStep hconsumer hfits⟩
    · rcases hothers with ⟨status', hfullness, hreceived⟩
      refine ⟨⟨hreceived.trans hcounted.received, ?_⟩, hfits⟩
      intro happended
      exact hfullness.trans (hcounted.fullness happended)

/-- **Every byte is counted once**: between two calls of the consumer, `bytes_received` has grown by
the number of bytes delivered, and together with what is unread in the staging area and the shared
buffer by the number of bytes appended, modulo 2^64; from the first append on, and when the lock is
free, the fullness is the length of the shared buffer. -/
theorem counters_eq (hcapacity : cfg.capacity < 2 ^ 32)
    (h : (sharedSystem cfg status).Reachable s) :
    (s.consumer = .idle →
      s.status.bytesReceived = status.bytesReceived + UInt64.ofNat s.history.delivered.length ∧
        s.status.bytesReceived + UInt64.ofNat (s.staging.drop s.pos).length +
            UInt64.ofNat s.state.buf.length =
          status.bytesReceived + UInt64.ofNat s.history.appended.length) ∧
    (s.history.appended ≠ [] → s.owner = none →
      s.status.fullness.toNat = s.state.buf.length) := by
  rcases counted h with ⟨hcounted, hfits⟩
  have hpipe : s.history.delivered ++ (s.avail ++ s.state.buf) = s.history.appended :=
    Fifo.conservation ((sharedPipeSimulation cfg status).reachable h)
  refine ⟨fun _ => ⟨hcounted.received, ?_⟩, ?_⟩
  · rw [hcounted.received, ← hpipe, List.length_append, List.length_append, UInt64.ofNat_add,
      UInt64.ofNat_add]
    simp only [UInt64.add_assoc, avail]
  · intro happended _
    have hlength : s.state.buf.length < 2 ^ 32 :=
      lt_of_le_of_lt (le_trans (Nat.le_add_right _ _) hfits) hcapacity
    rw [hcounted.fullness happended]
    exact UInt32.toNat_ofNat_of_lt' hlength

/-- Somebody else writes the elapsed time, and three bytes are appended and passed over by a
`consume` that asks for more. -/
theorem counters_eq_consume :
    ∃ s, (sharedSystem (BufferConfig.withCapacity 4 2 true) (StatusData.default 0)).Reachable s ∧
      s.history.appended = [7, 8, 9] ∧ s.history.delivered = [7, 8, 9] ∧
      s.status.bytesReceived =
        (StatusData.default 0).bytesReceived + UInt64.ofNat s.history.delivered.length ∧
      s.status.fullness.toNat = s.state.buf.length := by
  have h0 : (sharedSystem (BufferConfig.withCapacity 4 2 true) (StatusData.default 0)).Reachable
      (withCapacity (BufferConfig.withCapacity 4 2 true) (StatusData.default 0)) :=
    .init rfl
  have h1 := h0.step (.inr (.inr
    (.write (((StatusData.default 0).setBufferSize 4).setElapsedSeconds 5) rfl rfl)))
  have h2 := h1.step (.inl (.lock rfl rfl))
  have h3 := h2.step (.inl (.startRead rfl rfl (by decide)))
  have h4 := h3.step (.inl (.endRead (.ok [7, 8, 9]) rfl (by decide)))
  have h5 := h4.step (.inl (.relock rfl rfl))
  have h6 := h5.step (.inl (.apply rfl rfl id))
  -- The consumer looks at the bytes, and consumes them.
  have h7 := h6.step (.inr (.inl (.fillBuf rfl)))
  have h8 := h7.step (.inr (.inl (.clear rfl (by decide))))
  have h9 := h8.step (.inr (.inl (.lock rfl rfl)))
  have h10 := h9.step (.inr (.inl (.stage rfl (by decide))))
  have h11 := h10.step (.inr (.inl (.notify rfl)))
  have h12 := h11.step (.inr (.inl (.finish rfl)))
  have h13 := h12.step (.inr (.inl (.consume 100 rfl)))
  have hcounters := counters_eq (by decide) h13
  exact ⟨_, h13, rfl, rfl, (hcounters.1 rfl).1, hcounters.2 (by decide) rfl⟩

end SlimBuffer

end LmsProto
end LmsPlayer
