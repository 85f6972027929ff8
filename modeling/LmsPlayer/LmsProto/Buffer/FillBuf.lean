import LmsPlayer.LmsProto.Buffer.EndOfStream
import LmsPlayer.LmsProto.Buffer.Bounds

/-!
# Buffer.FillBuf — a call of `fill_buf` comes back with what is there

While the network delivers an input, `fill_buf` shows the beginning of what has not been passed over
yet, and nothing only when there is nothing left (`shown`).

The call does come back: as long as no thread wakes up by itself and no read has to be retried,
every step of the two threads lowers a rank (`rank_of_fillStep`, `rank_of_callStep`), and one of
them can always move (`exists_move`).
-/

namespace LmsPlayer
namespace LmsProto

open TransitionSystem (System)

namespace ConsumerPc

/-- The call that is under way. -/
def call? : ConsumerPc → Option Call
  | refilling call => some call
  | locking call => some call
  | checking call => some call
  | waiting call => some call
  | waking call => some call
  | notifying call => some call
  | finishing call => some call
  | _ => none

@[simp] theorem call?_woken (pc : ConsumerPc) : pc.woken.call? = pc.call? := by
  cases pc <;> rfl

/-- How far it is to the end of the call. -/
def rank : ConsumerPc → Nat
  | refilling _ => 29
  | locking _ => 28
  | waking _ => 28
  | checking _ => 27
  | waiting _ => 26
  -- The notification may set the fill thread back, and a place of that counts for three.
  | notifying _ => 25
  | finishing _ => 14
  | _ => 0

theorem le_rank_of_call? {pc : ConsumerPc} {call : Call} (h : pc.call? = some call) :
    14 ≤ pc.rank := by
  cases pc with
  | refilling _ | locking _ | waking _ | checking _ | waiting _ | notifying _ | finishing _ =>
      simp [rank]
  | idle | dropping | notifyingWritable | notifyingReadable | joining | dropped => cases h

theorem not_dropping_of_call? {pc : ConsumerPc} {call : Call} (h : pc.call? = some call) :
    ¬pc.Dropping := by
  cases pc with
  | refilling _ | locking _ | waking _ | checking _ | waiting _ | notifying _ | finishing _ =>
      exact id
  | idle | dropping | notifyingWritable | notifyingReadable | joining | dropped => cases h

theorem rank_woken_le (pc : ConsumerPc) : pc.woken.rank ≤ pc.rank + 2 := by
  cases pc <;> simp [woken, rank]

end ConsumerPc

/-- How far it is to the next read that ends.  The result of a read has all the way before it that
the read has saved. -/
def FillPc.rank : FillPc → Nat
  | relocking _ => 13
  | applying _ => 12
  | notifying _ _ => 11
  | signalling _ _ => 10
  | locking => 9
  | waking => 9
  | checking => 8
  | waiting => 7
  | reading _ => 6
  | returned => 0

theorem FillPc.rank_woken_le (pc : FillPc) : pc.woken.rank ≤ pc.rank + 2 := by
  cases pc <;> simp [woken, rank]

namespace SlimBuffer

variable {cfg : BufferConfig} {s t : SlimBuffer} {input : Bytes}

/-- Before the drop nobody asks for the shutdown. -/
theorem shutdown_eq_false (h : (system cfg).Reachable s) (hconsumer : ¬s.consumer.Dropping) :
    s.state.shutdown = false := by
  cases hshutdown : s.state.shutdown with
  | false => rfl
  | true => exact absurd ((ended h).shutdown.1 hshutdown) hconsumer

/-! ## The network -/

/-- What the source has given is the beginning of the input, and it has not ended before it has
given all of it. -/
structure Delivers (input : Bytes) (s : SlimBuffer) : Prop where
  prefix_input : s.sourcedBytes <+: input
  ended : ∀ final, sourceEnd s.history.sourced = some final → final = none ∧ s.sourcedBytes = input

/-- What has not been passed over yet. -/
def undelivered (input : Bytes) (s : SlimBuffer) : Bytes :=
  input.drop s.history.delivered.length

theorem undelivered_congr (h : t.history.delivered = s.history.delivered) :
    t.undelivered input = s.undelivered input := by
  unfold undelivered
  rw [h]

/-- What the staging area holds is the beginning of it. -/
theorem undelivered_starts (h : (system cfg).Reachable s) (hs : s.Delivers input) :
    s.history.delivered ++ s.undelivered input = input ∧ s.avail <+: s.undelivered input := by
  obtain ⟨hpipe, hsourced⟩ := delivered_append_staging_append_buf h
  rw [List.append_assoc] at hpipe
  obtain ⟨more, hmore⟩ := (hpipe ▸ hsourced).trans hs.prefix_input
  rw [List.append_assoc] at hmore
  have hundelivered : s.undelivered input = s.staging.drop s.pos ++ s.state.buf ++ more := by
    rw [undelivered, ← hmore, List.drop_left]
  refine ⟨by rw [hundelivered]; exact hmore, ?_⟩
  rw [hundelivered, List.append_assoc]
  exact List.prefix_append _ _

/-- What a reader gets from here on: what is in the buffer and on the way to it, and what the
network has still to deliver. -/
def unread (input : Bytes) (s : SlimBuffer) : Bytes :=
  s.avail ++ s.state.buf ++ s.inHand ++ input.drop s.sourcedBytes.length

theorem unread_eq (h : (system cfg).Reachable s) (hs : s.Delivers input)
    (hrun : s.state.shutdown = false) : s.unread input = s.undelivered input := by
  have hwhole := ((endOfStream h).2.2.2 hrun).2
  obtain ⟨more, hmore⟩ := hs.prefix_input
  have hinput : s.history.delivered ++ (s.unread input) = input := by
    unfold unread
    calc s.history.delivered ++
          (s.avail ++ s.state.buf ++ s.inHand ++ input.drop s.sourcedBytes.length)
      _ = s.history.delivered ++ s.staging.drop s.pos ++ s.state.buf ++ s.inHand ++
            input.drop s.sourcedBytes.length := by simp [avail]
      _ = s.sourcedBytes ++ input.drop s.sourcedBytes.length := by rw [hwhole]
      _ = input := by rw [← hmore, List.drop_left]
  exact List.append_cancel_left (hinput.trans (undelivered_starts h hs).1.symm)

/-! ## The answer -/

/-- What the fill thread leaves alone. -/
theorem consumerSide_of_fillStep (h : FillStep cfg s t) :
    t.avail = s.avail ∧ t.staging = s.staging ∧ t.pos = s.pos ∧
      t.history.delivered = s.history.delivered ∧
      t.history.results = s.history.results ∧
      (t.consumer = s.consumer ∨ t.consumer = s.consumer.woken) := by
  cases h with
  | apply hpc hrun hretry =>
      rename_i result
      cases result with
      | ok chunk => cases chunk <;> exact ⟨rfl, rfl, rfl, rfl, rfl, Or.inl rfl⟩
      | err e => exact ⟨rfl, rfl, rfl, rfl, rfl, Or.inl rfl⟩
  | notify hpc =>
      rw [notifyReadable_eq]
      exact ⟨rfl, rfl, rfl, rfl, rfl, Or.inr rfl⟩
  | signal hpc =>
      rename_i reached finished
      rcases exists_signal_eq cfg reached s with ⟨signalled, callbacks, hsignal⟩
      rw [hsignal]
      exact ⟨rfl, rfl, rfl, rfl, rfl, Or.inl rfl⟩
  | _ => exact ⟨rfl, rfl, rfl, rfl, rfl, Or.inl rfl⟩

/-- A call of `fill_buf` goes on. -/
structure GoesOn (s t : SlimBuffer) : Prop where
  call : t.consumer.call? = some .fillBuf
  delivered : t.history.delivered = s.history.delivered
  results : t.history.results = s.history.results
  sourced : t.history.sourced = s.history.sourced

/-- A call of `fill_buf` comes back. -/
structure ComesBack (s t : SlimBuffer) (answer : CallResult) : Prop where
  idle : t.consumer = .idle
  delivered : t.history.delivered = s.history.delivered
  results : t.history.results = s.history.results ++ [answer]
  sourced : t.history.sourced = s.history.sourced
  fill : t.fill = s.fill
  answer : answer = .ok .fillBuf t.avail ∨ ∃ e, answer = .err .fillBuf e

/-- One step of a call. -/
theorem callStep_cases (h : ConsumerStep s t) (hcall : s.consumer.call? = some .fillBuf) :
    GoesOn s t ∨ ∃ answer, ComesBack s t answer := by
  cases h with
  | readNothing hpc | read hpc _ | fillBuf hpc | consume _ hpc | drop hpc | shutdown hpc _
    | notifyWritable hpc | notifyReadable hpc | join hpc _ =>
      rw [hpc] at hcall
      cases hcall
  | staged hpc _ | clear hpc _ | lock hpc _ | wait hpc _ _ | wake hpc | lockAgain hpc _
    | stage hpc _ =>
      rw [hpc] at hcall
      exact Or.inl ⟨hcall, rfl, rfl, rfl⟩
  | notify hpc =>
      rw [hpc] at hcall
      rw [notifyWritable_eq]
      exact Or.inl ⟨hcall, rfl, rfl, rfl⟩
  | ended hpc hempty heof =>
      rename_i call
      rw [hpc] at hcall
      cases hcall
      unfold refillEmpty
      cases s.state.error with
      | none => exact Or.inl ⟨rfl, rfl, rfl, rfl⟩
      | some e => exact Or.inr ⟨_, rfl, rfl, rfl, rfl, rfl, Or.inr ⟨e, rfl⟩⟩
  | finish hpc =>
      rename_i call
      rw [hpc] at hcall
      cases hcall
      exact Or.inr ⟨_, rfl, rfl, rfl, rfl, rfl, Or.inl rfl⟩

/-- While the network delivers, the answer is what the staging area holds, and that is nothing only
when nothing is left. -/
theorem shown {answer : CallResult} (h : (system cfg).Reachable t) (ht : t.Delivers input)
    (hback : ComesBack s t answer) :
    answer = .ok .fillBuf t.avail ∧ (t.avail = [] → t.undelivered input = []) := by
  have hlast : answer ∈ t.history.results := by
    rw [hback.results]
    exact List.mem_append_right _ (List.mem_singleton_self _)
  have hends := endOfStream h
  rcases hback.answer with hok | ⟨e, herr⟩
  · refine ⟨hok, ?_⟩
    intro hnothing
    have hatEnd : answer.AtEnd := by
      rw [hok]
      exact hnothing
    rcases hends.1 answer hlast hatEnd with ⟨hsome, hdelivered⟩
    obtain ⟨final, hfinal⟩ := Option.isSome_iff_exists.1 hsome
    rw [undelivered, hdelivered, (ht.ended final hfinal).2, List.drop_length]
  · -- There is no error to be returned.
    have hsplit := hback.results
    rw [herr] at hsplit
    have hfailed := (hends.2.2.1 _ _ _ _ hsplit).1
    exact absurd (ht.ended _ hfailed).1 nofun

/-! ## A call comes back -/

/-- How many reads are to come, at most, the one at the end included. -/
def readsToCome (input : Bytes) (s : SlimBuffer) : Nat :=
  (input.length - s.sourcedBytes.length) + if (sourceEnd s.history.sourced).isSome then 0 else 1

theorem readsToCome_eq (h : t.history.sourced = s.history.sourced) :
    t.readsToCome input = s.readsToCome input := by
  unfold readsToCome sourcedBytes
  rw [h]

/-- A notification of the consumer costs a step of the fill thread, and one of the fill thread a
step of the consumer that counts for more. -/
def rank (input : Bytes) (s : SlimBuffer) : Nat :=
  3 * (10 * s.readsToCome input + s.fill.rank) + s.consumer.rank

/-- The step is neither one in which a thread wakes up by itself nor the end of a read that has to
be retried. -/
structure Undisturbed (s t : SlimBuffer) : Prop where
  notified : s.Notified t
  read : ∀ result, t.history.sourced = s.history.sourced ++ [result] → ¬result.Retry

/-- A read that ends is one less to come. -/
theorem readsToCome_endRead {result : SourceRead} (hopen : sourceEnd s.history.sourced = none)
    (hretry : ¬result.Retry) (hsourced : t.history.sourced = s.history.sourced ++ [result])
    (ht : t.Delivers input) : t.readsToCome input < s.readsToCome input := by
  have hbytes : t.sourcedBytes = s.sourcedBytes ++ result.bytes := by
    unfold sourcedBytes
    rw [hsourced, List.flatMap_append, List.flatMap_singleton]
  have hend : sourceEnd t.history.sourced = result.end? := by
    rw [hsourced, sourceEnd_concat hopen]
  have hlength := ht.prefix_input.length_le
  rw [hbytes, List.length_append] at hlength
  unfold readsToCome
  rw [hbytes, hend, hopen, List.length_append]
  cases result with
  | ok chunk =>
      cases chunk with
      -- The input has ended, and the read that says so is not to come any more.
      | nil => simp [SourceRead.end?, SourceRead.bytes]
      | cons b bs =>
          simp only [SourceRead.end?, SourceRead.bytes, List.length_cons] at hlength ⊢
          simp
          omega
  | err e =>
      -- The network that delivers an input does not fail.
      have hfailed := SourceRead.end?_of_not_retry hretry
      rw [hfailed] at hend
      exact absurd (ht.ended _ hend).1 nofun

theorem rank_of_fillStep (hreachable : (system cfg).Reachable s) (h : FillStep cfg s t)
    (ht : t.Delivers input) (hstep : s.Undisturbed t) : t.rank input < s.rank input := by
  -- But for the end of a read, it is the place of the fill thread that counts.
  have hmoves {u : SlimBuffer} (hsourced : u.history.sourced = s.history.sourced)
      (hfill : u.fill.rank < s.fill.rank) (hconsumer : u.consumer.rank ≤ s.consumer.rank + 2) :
      u.rank input < s.rank input := by
    unfold rank
    rw [readsToCome_eq hsourced]
    omega
  cases h with
  | wake hpc => exact absurd (hstep.notified.1 hpc rfl) nofun
  | endRead result hpc hfits =>
      have hopen := sourceEnd_of_reading hreachable hpc
      have hread {u : SlimBuffer} (hu : u.Delivers input) (hfill : u.fill = .relocking result)
          (hsourced : u.history.sourced = s.history.sourced ++ [result])
          (hconsumer : u.consumer = s.consumer) : u.rank input < s.rank input := by
        have hless := readsToCome_endRead hopen (hstep.read result rfl) hsourced hu
        unfold rank
        rw [hfill, hconsumer, hpc]
        simp only [FillPc.rank]
        omega
      exact hread ht rfl rfl rfl
  | apply hpc hrun hretry =>
      rename_i result
      have hrank : FillPc.rank
          (.notifying (s.apply cfg result).2 (s.apply cfg result).1.state.eof) < s.fill.rank := by
        rw [hpc]
        exact Nat.lt_succ_self _
      cases result with
      | ok chunk =>
          cases chunk with
          | nil => exact hmoves rfl hrank (Nat.le_add_right _ _)
          | cons b bs => exact hmoves rfl hrank (Nat.le_add_right _ _)
      | err e => exact hmoves rfl hrank (Nat.le_add_right _ _)
  | notify hpc =>
      rw [notifyReadable_eq]
      refine hmoves rfl ?_ s.consumer.rank_woken_le
      rw [hpc]
      exact Nat.lt_succ_self _
  | signal hpc =>
      rename_i reached finished
      rcases exists_signal_eq cfg reached s with ⟨signalled, callbacks, hsignal⟩
      rw [hsignal]
      have hrank : FillPc.rank (if finished then .returned else .locking) < s.fill.rank := by
        rw [hpc]
        cases finished <;> simp [FillPc.rank]
      exact hmoves rfl hrank (Nat.le_add_right _ _)
  | lock hpc _ | wait hpc _ _ | lockAgain hpc _ | stop hpc _ | startRead hpc _ _ | relock hpc _
    | stopAfterRead hpc _ | retry hpc _ _ =>
      refine hmoves rfl ?_ (Nat.le_add_right _ _)
      rw [hpc]
      simp [FillPc.rank]

theorem rank_of_callStep (h : ConsumerStep s t) (hcall : s.consumer.call? = some .fillBuf)
    (hstep : s.Undisturbed t) : t.rank input < s.rank input := by
  -- But for a notification, the fill thread stays where it is.
  have hmoves {u : SlimBuffer} (hsourced : u.history.sourced = s.history.sourced)
      (hfill : u.fill = s.fill) (hconsumer : u.consumer.rank < s.consumer.rank) :
      u.rank input < s.rank input := by
    unfold rank
    rw [readsToCome_eq hsourced, hfill]
    omega
  cases h with
  | readNothing hpc | read hpc _ | fillBuf hpc | consume _ hpc | drop hpc | shutdown hpc _
    | notifyWritable hpc | notifyReadable hpc | join hpc _ =>
      rw [hpc] at hcall
      cases hcall
  | wake hpc => exact absurd (hstep.notified.2 _ hpc rfl) nofun
  | staged hpc _ | clear hpc _ | lock hpc _ | wait hpc _ _ | lockAgain hpc _ | stage hpc _ =>
      refine hmoves rfl rfl ?_
      rw [hpc]
      simp [ConsumerPc.rank]
  | notify hpc =>
      have hnotified {u : SlimBuffer} (hsourced : u.history.sourced = s.history.sourced)
          (hfill : u.fill = s.fill.woken) (hconsumer : u.consumer.rank = 14) :
          u.rank input < s.rank input := by
        have hwoken := s.fill.rank_woken_le
        unfold rank
        rw [readsToCome_eq hsourced, hfill, hconsumer, hpc]
        simp only [ConsumerPc.rank]
        omega
      rw [notifyWritable_eq]
      exact hnotified rfl rfl rfl
  | ended hpc hempty heof =>
      rename_i call
      rcases exists_refillEmpty_eq s call with ⟨error, consumer, results, hcase, hrefill⟩
      rw [hrefill]
      refine hmoves rfl rfl ?_
      rw [hpc]
      rcases hcase with rfl | rfl <;> simp [ConsumerPc.rank]
  | finish hpc =>
      rename_i call
      rcases exists_finish_eq s call with ⟨status, pos, delivered, results, hfinish⟩
      rw [hfinish]
      refine hmoves rfl rfl ?_
      rw [hpc]
      simp [ConsumerPc.rank]

/-- The last step of a call goes a long way. -/
theorem rank_of_comesBack {answer : CallResult} (hcall : s.consumer.call? = some .fillBuf)
    (h : ComesBack s t answer) : t.rank input + 14 ≤ s.rank input := by
  have hrank := ConsumerPc.le_rank_of_call? hcall
  have hidle : ConsumerPc.rank .idle = 0 := rfl
  unfold rank
  rw [readsToCome_eq h.sourced, h.fill, h.idle, hidle]
  omega

/-! ## Somebody can move -/

theorem Delivers.congr (hs : s.Delivers input) (h : t.history.sourced = s.history.sourced) :
    t.Delivers input := by
  have hbytes : t.sourcedBytes = s.sourcedBytes := by
    unfold sourcedBytes
    rw [h]
  refine ⟨?_, ?_⟩
  · rw [hbytes]
    exact hs.prefix_input
  · rw [hbytes, h]
    exact hs.ended

/-- A step with which the run goes on. -/
structure Move (cfg : BufferConfig) (input : Bytes) (s t : SlimBuffer) : Prop where
  step : FillStep cfg s t ∨ ConsumerStep s t
  delivers : t.Delivers input
  undisturbed : s.Undisturbed t

/-- The network gives the next byte, or says that there is none. -/
theorem exists_read (hs : s.Delivers input) (hopen : sourceEnd s.history.sourced = none)
    {want : Nat} (hwant : 1 ≤ want) : ∃ result : SourceRead, result.Fits want ∧ ¬result.Retry ∧
      ∀ t : SlimBuffer, t.history.sourced = s.history.sourced ++ [result] → t.Delivers input := by
  obtain ⟨rest, hrest⟩ := hs.prefix_input
  have hbytes {result : SourceRead} {t : SlimBuffer}
      (h : t.history.sourced = s.history.sourced ++ [result]) :
      t.sourcedBytes = s.sourcedBytes ++ result.bytes := by
    unfold sourcedBytes
    rw [h, List.flatMap_append, List.flatMap_singleton]
  cases rest with
  | nil =>
      -- All has been given.
      rw [List.append_nil] at hrest
      refine ⟨.ok [], Nat.zero_le _, id, fun t ht => ?_⟩
      have hall : t.sourcedBytes = input := by rw [hbytes ht, ← hrest]; exact List.append_nil _
      refine ⟨hall ▸ List.prefix_rfl, fun final hfinal => ⟨?_, hall⟩⟩
      rw [ht, sourceEnd_concat hopen] at hfinal
      exact (Option.some.inj hfinal).symm
  | cons b bs =>
      refine ⟨.ok [b], hwant, id, fun t ht => ⟨?_, fun final hfinal => ?_⟩⟩
      · rw [hbytes ht, ← hrest]
        exact ⟨bs, by simp [SourceRead.bytes]⟩
      · rw [ht, sourceEnd_concat hopen] at hfinal
        cases hfinal

theorem exists_fillMove (hreachable : (system cfg).Reachable s) (hs : s.Delivers input)
    (hrun : s.state.shutdown = false) (hfree : ¬s.fill.Holds → s.owner = none)
    (hwaiting : s.fill ≠ .waiting) (hreturned : s.fill ≠ .returned) : ∃ t, Move cfg input s t := by
  -- The fill thread gets to another place, which disturbs nobody.
  have hmoves {pc : FillPc} {t : SlimBuffer} (hpc : s.fill = pc) (hstep : FillStep cfg s t)
      (hmoved : t.fill ≠ pc) (hsourced : t.history.sourced = s.history.sourced) :
      ∃ t, Move cfg input s t := by
    refine ⟨t, Or.inl hstep, hs.congr hsourced, ⟨fun hwait => absurd hwait hwaiting,
      fun _ _ hsame => absurd (hsame.trans hpc) hmoved⟩, ?_⟩
    intro result hread
    rw [hsourced] at hread
    simp at hread
  cases hfill : s.fill with
  | locking =>
      rw [hfill] at hfree
      exact hmoves hfill (.lock hfill (hfree id)) nofun rfl
  | checking =>
      by_cases hfull : cfg.capacity ≤ s.state.buf.length
      · exact hmoves hfill (.wait hfill hrun hfull) nofun rfl
      · exact hmoves hfill (.startRead hfill hrun (Nat.not_le.1 hfull)) nofun rfl
  | waiting => exact absurd hfill hwaiting
  | waking =>
      rw [hfill] at hfree
      exact hmoves hfill (.lockAgain hfill (hfree id)) nofun rfl
  | reading want =>
      have hopen := sourceEnd_of_reading hreachable hfill
      obtain ⟨result, hfits, hretry, hdelivers⟩ :=
        exists_read hs hopen (sliced hreachable want hfill).1
      refine ⟨_, Or.inl (.endRead result hfill hfits), hdelivers _ rfl,
        ⟨fun hwait => absurd hwait hwaiting, fun _ _ hsame => ?_⟩, ?_⟩
      · rw [hfill] at hsame
        cases hsame
      · intro result' hread
        have hsame : result = result' := by simpa using hread
        exact hsame ▸ hretry
  | relocking result =>
      rw [hfill] at hfree
      exact hmoves hfill (.relock hfill (hfree id)) nofun rfl
  | applying result =>
      by_cases hretry : result.Retry
      · exact hmoves hfill (.retry hfill hrun hretry) nofun rfl
      · refine hmoves hfill (.apply hfill hrun hretry) nofun ?_
        cases result with
        | ok chunk => cases chunk <;> rfl
        | err e => rfl
  | notifying reached finished =>
      refine hmoves hfill (.notify hfill) nofun ?_
      rw [notifyReadable_eq]
  | signalling reached finished =>
      refine hmoves hfill (.signal hfill) ?_ ?_
      · cases finished <;> nofun
      · rcases exists_signal_eq cfg reached s with ⟨signalled, callbacks, hsignal⟩
        rw [hsignal]
  | returned => exact absurd hfill hreturned

/-- While a call is under way, somebody can move. -/
theorem exists_move (hreachable : (system cfg).Reachable s) (hs : s.Delivers input) {call : Call}
    (hcall : s.consumer.call? = some call) : ∃ t, Move cfg input s t := by
  have hrun := shutdown_eq_false hreachable (ConsumerPc.not_dropping_of_call? hcall)
  -- The consumer gets to another place, and it has not been waiting.
  have hmoves {pc : ConsumerPc} {t : SlimBuffer} (hpc : s.consumer = pc) (hstep : ConsumerStep s t)
      (hmoved : t.consumer ≠ pc) (hawake : ∀ call, pc ≠ .waiting call)
      (hsourced : t.history.sourced = s.history.sourced) : ∃ t, Move cfg input s t := by
    refine ⟨t, Or.inr hstep, hs.congr hsourced, ⟨fun _ hsame => absurd (hsame.trans hpc) hmoved,
      fun call hwait => absurd (hpc.symm.trans hwait) (hawake call)⟩, ?_⟩
    intro result hread
    rw [hsourced] at hread
    simp at hread
  -- The fill thread is in the way of the lock only while it holds it.
  have hheld (hnot : ¬s.consumer.Holds) (howner : s.owner ≠ none) : ∃ t, Move cfg input s t := by
    have hholds : s.fill.Holds := by
      cases hthread : s.owner with
      | none => exact absurd hthread howner
      | some thread =>
          cases thread with
          | fill => exact (locked hreachable).fill hthread
          | consumer => exact absurd ((locked hreachable).consumer hthread) hnot
    refine exists_fillMove hreachable hs hrun (fun hfill => absurd hholds hfill) ?_ ?_
    · intro hfill
      rw [hfill] at hholds
      exact hholds
    · intro hfill
      rw [hfill] at hholds
      exact hholds
  cases hconsumer : s.consumer with
  | refilling call =>
      by_cases hdata : s.pos < s.staging.length
      · exact hmoves hconsumer (.staged hconsumer hdata) nofun nofun rfl
      · exact hmoves hconsumer (.clear hconsumer hdata) nofun nofun rfl
  | locking call =>
      by_cases hfree : s.owner = none
      · exact hmoves hconsumer (.lock hconsumer hfree) nofun nofun rfl
      · exact hheld (by rw [hconsumer]; exact id) hfree
  | waking call =>
      by_cases hfree : s.owner = none
      · exact hmoves hconsumer (.lockAgain hconsumer hfree) nofun nofun rfl
      · exact hheld (by rw [hconsumer]; exact id) hfree
  | checking call =>
      by_cases hempty : s.state.buf = []
      · cases heof : s.state.eof with
        | false =>
            exact hmoves hconsumer (.wait hconsumer hempty heof) nofun nofun rfl
        | true =>
            rcases exists_refillEmpty_eq s call with ⟨error, consumer, results, hcase, hrefill⟩
            refine hmoves hconsumer (.ended hconsumer hempty heof) ?_ nofun ?_
            · rw [hrefill]
              rcases hcase with rfl | rfl <;> nofun
            · rw [hrefill]
      · exact hmoves hconsumer (.stage hconsumer hempty) nofun nofun rfl
  | waiting call =>
      -- Who is to notify it is neither gone nor waiting itself.
      rcases fill_of_waiting hreachable hconsumer with ⟨hreturned, hwaiting⟩
      by_cases hfree : s.owner = none
      · exact exists_fillMove hreachable hs hrun (fun _ => hfree) hwaiting hreturned
      · exact hheld (by rw [hconsumer]; exact id) hfree
  | notifying call =>
      refine hmoves hconsumer (.notify hconsumer) nofun nofun ?_
      rw [notifyWritable_eq]
  | finishing call =>
      rcases exists_finish_eq s call with ⟨status, pos, delivered, results, hfinish⟩
      refine hmoves hconsumer (.finish hconsumer) nofun nofun ?_
      rw [hfinish]
  | _ =>
      rw [hconsumer] at hcall
      cases hcall

end SlimBuffer

end LmsProto
end LmsPlayer
