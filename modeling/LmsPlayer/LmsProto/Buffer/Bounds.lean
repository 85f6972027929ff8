import LmsPlayer.LmsProto.Buffer.Counters
import LmsPlayer.LmsProto.Buffer.EndOfStream

/-!
# Buffer.Bounds — how much is held, and how much is asked for

The fill thread computes the room under the lock, and reads into it after giving the lock back,
while the consumer goes on draining.  The consumer only ever removes bytes, so the room that was
found is still there when the bytes of the read arrive (`Fits`).

What the source was asked for is not part of the buffer's state once the answer is there.  We watch
the reads from outside (`watchedSystem`), each with the length of the slice that it was given.
-/

namespace LmsPlayer
namespace LmsProto
namespace SlimBuffer

open TransitionSystem

variable {cfg : BufferConfig} {s t : SlimBuffer}

/-! ## The room -/

/-- `shared.capacity - st.buf.len()`; there is no answer when the subtraction underflows. -/
def room? (cfg : BufferConfig) (s : SlimBuffer) : Option Nat :=
  if s.state.buf.length ≤ cfg.capacity then some (cfg.capacity - s.state.buf.length) else none

theorem buf_le_capacity (h : (system cfg).Reachable s) : s.state.buf.length ≤ cfg.capacity := by
  have hfits : s.Fits cfg := by
    refine System.Reachable.invariant (Fits cfg) ?_ ?_ h
    · rintro s ⟨status, rfl⟩
      exact Nat.zero_le _
    · intro s t _ hs hstep
      rcases hstep with hfill | hconsumer
      · exact fits_of_fillStep hfill hs
      · exact fits_of_consumerStep hconsumer hs
  exact le_trans (Nat.le_add_right _ _) hfits

theorem room?_eq (h : (system cfg).Reachable s) :
    s.room? cfg = some (cfg.capacity - s.state.buf.length) :=
  if_pos (buf_le_capacity h)

/-! ## The slice -/

/-- A slice that `source.read` may be given: not empty, and no longer than `chunk`. -/
def Slice (want : Nat) : Prop := 1 ≤ want ∧ want ≤ READ_CHUNK

/-- With room left, the slice is not empty. -/
theorem slice_want (hroom : s.state.buf.length < cfg.capacity) : Slice (s.want cfg) := by
  have hleft : 1 ≤ cfg.capacity - s.state.buf.length := Nat.sub_pos_of_lt hroom
  exact ⟨le_min hleft (by decide), min_le_right _ _⟩

/-- A read that is under way has been given a slice. -/
def Sliced (s : SlimBuffer) : Prop := ∀ want, s.fill = .reading want → Slice want

theorem sliced_of_fillStep (h : FillStep cfg s t) : t.Sliced := by
  intro want hreading
  cases h with
  | startRead hpc hrun hroom =>
      injection hreading with hwant
      exact hwant ▸ slice_want hroom
  | signal hpc =>
      rename_i reached finished
      cases finished <;> cases hreading
  | _ => cases hreading

theorem sliced_of_consumerStep (h : ConsumerStep s t) (hs : s.Sliced) : t.Sliced := by
  have hwoken : ∀ want, s.fill.woken = .reading want → Slice want := by
    intro want hreading
    refine hs want ?_
    cases hfill : s.fill <;> rw [hfill] at hreading <;> first | exact hreading | cases hreading
  cases h with
  | ended hpc hempty heof =>
      rename_i call
      rcases exists_refillEmpty_eq s call with ⟨error, consumer, results, _, hrefill⟩
      rw [hrefill]
      exact hs
  | notify hpc =>
      rw [notifyWritable_eq]
      exact hwoken
  | notifyWritable hpc =>
      rw [notifyWritable_eq]
      exact hwoken
  | finish hpc =>
      rename_i call
      rcases exists_finish_eq s call with ⟨status, pos, delivered, results, hfinish⟩
      rw [hfinish]
      exact hs
  | _ => exact hs

theorem sliced (h : (system cfg).Reachable s) : s.Sliced := by
  refine System.Reachable.invariant Sliced ?_ ?_ h
  · rintro s ⟨status, rfl⟩
    exact nofun
  · intro s t _ hs hstep
    rcases hstep with hfill | hconsumer
    · exact sliced_of_fillStep hfill
    · exact sliced_of_consumerStep hconsumer hs

/-! ## The reads, watched from outside -/

/-- One `source.read`: the length of the slice, and the answer. -/
structure Asked where
  want : Nat
  result : SourceRead
  deriving DecidableEq, Repr

/-- The read that has been answered between two states, if there is one. -/
def asked : FillPc → FillPc → List Asked
  | .reading want, .relocking result => [⟨want, result⟩]
  | _, _ => []

/-- A buffer, and the reads of its source so far. -/
structure Watched where
  buffer : SlimBuffer
  reads : List Asked

/-- The system of the buffer with the reads written down. -/
def watchedSystem (cfg : BufferConfig) : System Watched :=
  { init := fun w => (system cfg).init w.buffer ∧ w.reads = []
    step := fun w w' => (system cfg).step w.buffer w'.buffer ∧
      w'.reads = w.reads ++ asked w.buffer.fill w'.buffer.fill }

/-- Watching does not disturb: it is the same system. -/
theorem reachable_of_watched {w : Watched} (h : (watchedSystem cfg).Reachable w) :
    (system cfg).Reachable w.buffer := by
  refine System.Reachable.invariant (fun w => (system cfg).Reachable w.buffer) ?_ ?_ h
  · intro w hinit
    exact .init hinit.1
  · intro w w' _ hw hstep
    exact .step hw hstep.1

/-- Every step can be watched. -/
theorem watched_step {w : Watched} (h : (watchedSystem cfg).Reachable w)
    (hstep : (system cfg).step w.buffer t) :
    (watchedSystem cfg).Reachable ⟨t, w.reads ++ asked w.buffer.fill t.fill⟩ :=
  .step h ⟨hstep, rfl⟩

/-- Every run can be watched. -/
theorem exists_watched (h : (system cfg).Reachable s) :
    ∃ reads, (watchedSystem cfg).Reachable ⟨s, reads⟩ := by
  refine System.Reachable.invariant (fun s => ∃ reads, (watchedSystem cfg).Reachable ⟨s, reads⟩)
    ?_ ?_ h
  · intro s hinit
    exact ⟨[], .init ⟨hinit, rfl⟩⟩
  · intro s t _ hs hstep
    rcases hs with ⟨reads, hreads⟩
    exact ⟨_, watched_step hreads hstep⟩

/-- What is known of the reads. -/
structure Recorded (w : Watched) : Prop where
  sourced : w.reads.map Asked.result = w.buffer.history.sourced
  slices : ∀ read ∈ w.reads, Slice read.want
  /-- Nothing is read behind the end of the source. -/
  last : ∀ read ∈ w.reads.dropLast, read.result.end? = none

/-- A step that ends no read. -/
theorem Recorded.still {w w' : Watched} (hw : Recorded w)
    (hsourced : w'.buffer.history.sourced = w.buffer.history.sourced)
    (hreads : w'.reads = w.reads) : Recorded w' := by
  rcases hw with ⟨hmap, hslices, hlast⟩
  rw [← hsourced, ← hreads] at hmap
  rw [← hreads] at hslices hlast
  exact ⟨hmap, hslices, hlast⟩

theorem asked_of_fillStep (h : FillStep cfg s t) :
    (∃ want result, s.fill = .reading want ∧ t.history.sourced = s.history.sourced ++ [result] ∧
        asked s.fill t.fill = [⟨want, result⟩]) ∨
      t.history.sourced = s.history.sourced ∧ asked s.fill t.fill = [] := by
  cases h with
  | endRead result hpc hfits =>
      rename_i want
      refine Or.inl ⟨want, result, hpc, rfl, ?_⟩
      rw [hpc]
      rfl
  | apply hpc hrun hretry =>
      rename_i result
      refine Or.inr ⟨?_, ?_⟩
      · cases result with
        | ok chunk => cases chunk <;> rfl
        | err e => rfl
      · rw [hpc]
        rfl
  | notify hpc =>
      refine Or.inr ⟨?_, ?_⟩
      · rw [notifyReadable_eq]
      · rw [hpc]
        rfl
  | signal hpc =>
      rename_i reached finished
      rcases exists_signal_eq cfg reached s with ⟨signalled, callbacks, hsignal⟩
      refine Or.inr ⟨?_, ?_⟩
      · rw [hsignal]
      · rw [hpc]
        rfl
  | startRead hpc _ _ | relock hpc _ | lock hpc _ | wait hpc _ _ | wake hpc | lockAgain hpc _
    | stop hpc _ | stopAfterRead hpc _ | retry hpc _ _ =>
      refine Or.inr ⟨rfl, ?_⟩
      rw [hpc]
      rfl

theorem asked_of_consumerStep (h : ConsumerStep s t) :
    t.history.sourced = s.history.sourced ∧ asked s.fill t.fill = [] := by
  have hsame : asked s.fill s.fill = [] := by
    cases s.fill <;> rfl
  have hwoken : asked s.fill s.fill.woken = [] := by
    cases s.fill <;> rfl
  cases h with
  | ended hpc hempty heof =>
      rename_i call
      rcases exists_refillEmpty_eq s call with ⟨error, consumer, results, _, hrefill⟩
      rw [hrefill]
      exact ⟨rfl, hsame⟩
  | notify hpc =>
      rw [notifyWritable_eq]
      exact ⟨rfl, hwoken⟩
  | notifyWritable hpc =>
      rw [notifyWritable_eq]
      exact ⟨rfl, hwoken⟩
  | finish hpc =>
      rename_i call
      rcases exists_finish_eq s call with ⟨status, pos, delivered, results, hfinish⟩
      rw [hfinish]
      exact ⟨rfl, hsame⟩
  | _ => exact ⟨rfl, hsame⟩

/-- While a read is under way, none of the earlier ones was the end. -/
theorem sourceEnd_of_reading (h : (system cfg).Reachable s) {want : Nat}
    (hreading : s.fill = .reading want) : sourceEnd s.history.sourced = none := by
  have hopen : s.state.eof = false := (ended h).eof_eq_false (by rw [hreading]; exact id)
  have hbefore := (heard h).before hopen (by rw [hreading]; exact nofun)
  rw [hreading] at hbefore
  exact hbefore

theorem recorded_of_step {w w' : Watched} (h : (watchedSystem cfg).Reachable w) (hw : Recorded w)
    (hstep : (watchedSystem cfg).step w w') : Recorded w' := by
  have hreachable := reachable_of_watched h
  rcases hstep with ⟨hstep, hreads⟩
  rcases hstep with hfill | hconsumer
  · rcases asked_of_fillStep hfill with ⟨want, result, hpc, hsourced, hasked⟩ | ⟨hsourced, hasked⟩
    · -- A read is answered: it was given a slice, and those before it were not the last.
      rw [hasked] at hreads
      refine ⟨?_, ?_, ?_⟩
      · rw [hreads, hsourced, List.map_append, hw.sourced]
        rfl
      · intro read hread
        rw [hreads] at hread
        rcases List.mem_append.1 hread with hold | hnew
        · exact hw.slices read hold
        · rw [List.mem_singleton.1 hnew]
          exact sliced hreachable want hpc
      · have hnone := List.findSome?_eq_none_iff.1 (sourceEnd_of_reading hreachable hpc)
        intro read hread
        rw [hreads, List.dropLast_concat] at hread
        refine hnone read.result ?_
        rw [← hw.sourced]
        exact List.mem_map_of_mem hread
    · rw [hasked, List.append_nil] at hreads
      exact hw.still hsourced hreads
  · rcases asked_of_consumerStep hconsumer with ⟨hsourced, hasked⟩
    rw [hasked, List.append_nil] at hreads
    exact hw.still hsourced hreads

theorem recorded {w : Watched} (h : (watchedSystem cfg).Reachable w) : Recorded w := by
  refine System.Reachable.invariant Recorded ?_ (fun _ _ => recorded_of_step) h
  rintro ⟨buffer, reads⟩ ⟨⟨status, hbuffer⟩, hreads⟩
  cases hbuffer
  cases hreads
  exact ⟨rfl, nofun, nofun⟩

/-! ## The bounds -/

/-- **The buffer stays within its capacity, and nothing empty is asked for**: in every reachable
state the shared buffer holds at most `max capacity threshold 1` bytes and the room is a difference
without underflow; every read, under way or answered, has a slice of 1 to 8192 bytes; and a read
that gives no bytes is the last one, so no bytes mean the end of the stream. -/
theorem within_bounds {capacity : Nat} {threshold : UInt32} {hasCallback : Bool} {w : Watched}
    (h : (watchedSystem (BufferConfig.withCapacity capacity threshold hasCallback)).Reachable w) :
    w.buffer.state.buf.length ≤ max (max capacity threshold.toNat) 1 ∧
    (∃ room, w.buffer.room? (BufferConfig.withCapacity capacity threshold hasCallback) = some room ∧
      room + w.buffer.state.buf.length = max (max capacity threshold.toNat) 1) ∧
    (∀ want, w.buffer.fill = .reading want → 1 ≤ want ∧ want ≤ 8192) ∧
    (∀ read ∈ w.reads, 1 ≤ read.want ∧ read.want ≤ 8192) ∧
    w.reads.map Asked.result = w.buffer.history.sourced ∧
    ∀ before after want, w.reads = before ++ ⟨want, .ok []⟩ :: after → 1 ≤ want ∧ after = [] := by
  have hreachable := reachable_of_watched h
  have hcapacity := buf_le_capacity hreachable
  have hrecorded := recorded h
  refine ⟨hcapacity, ⟨_, room?_eq hreachable, Nat.sub_add_cancel hcapacity⟩, sliced hreachable,
    hrecorded.slices, hrecorded.sourced, ?_⟩
  intro before after want hreads
  refine ⟨(hrecorded.slices ⟨want, .ok []⟩ (by simp [hreads])).1, ?_⟩
  -- Another read behind this one would make it one of the reads that are not the end.
  cases after with
  | nil => rfl
  | cons next later =>
      have hmem : ⟨want, .ok []⟩ ∈ w.reads.dropLast := by
        rw [hreads, List.dropLast_append_of_ne_nil (by simp)]
        simp
      cases hrecorded.last _ hmem

/-- The source gives two bytes, and the next read is given the single byte of room that is left; it
finds the end. -/
theorem within_bounds_end : ∃ w,
    (watchedSystem (BufferConfig.withCapacity 0 3 true)).Reachable w ∧
      w.reads = [⟨3, .ok [7, 8]⟩, ⟨1, .ok []⟩] ∧
      w.buffer.state.buf.length ≤ max (max 0 (3 : UInt32).toNat) 1 := by
  have h0 : (watchedSystem (BufferConfig.withCapacity 0 3 true)).Reachable
      ⟨withCapacity (BufferConfig.withCapacity 0 3 true) (StatusData.default 0), []⟩ :=
    .init ⟨⟨_, rfl⟩, rfl⟩
  have h1 := watched_step h0 (.inl (.lock rfl rfl))
  have h2 := watched_step h1 (.inl (.startRead rfl rfl (by decide)))
  have h3 := watched_step h2 (.inl (.endRead (.ok [7, 8]) rfl (by decide)))
  have h4 := watched_step h3 (.inl (.relock rfl rfl))
  have h5 := watched_step h4 (.inl (.apply rfl rfl id))
  have h6 := watched_step h5 (.inl (.notify rfl))
  have h7 := watched_step h6 (.inl (.signal rfl))
  have h8 := watched_step h7 (.inl (.lock rfl rfl))
  have h9 := watched_step h8 (.inl (.startRead rfl rfl (by decide)))
  have h10 := watched_step h9 (.inl (.endRead (.ok []) rfl (by decide)))
  exact ⟨_, h10, rfl, (within_bounds h10).1⟩

end SlimBuffer

end LmsProto
end LmsPlayer
