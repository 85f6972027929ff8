import LmsPlayer.LmsProto.Buffer.SlimBuffer

/-!
# Buffer.Wakeups — nobody sleeps for ever

Notifications come after the lock has been given back, and the two threads wait for different
things.  `Attended` says why this is enough: whoever waits has a reason to, or the other one is
about to notify it.

After the drop has asked for the shutdown, every step lowers a rank, and there is always one more
step until the fill thread has been joined (`inevitable_dropped`).
-/

namespace LmsPlayer
namespace LmsProto

open TransitionSystem (System)

/-! ## Where the threads are -/

namespace FillPc

/-- The fill thread holds the lock. -/
def Holds : FillPc → Prop
  | checking => True
  | applying _ => True
  | _ => False

/-- The end of the source has been recorded, or the thread has returned. -/
def Finishing : FillPc → Prop
  | notifying _ finished => finished = true
  | signalling _ finished => finished = true
  | returned => True
  | _ => False

/-- How many steps it takes the fill thread to return at most, once it is told to. -/
def stepsLeft : FillPc → Nat
  | notifying _ _ => 4
  | signalling _ _ => 3
  | waiting => 3
  | reading _ => 3
  | waking => 2
  | locking => 2
  | relocking _ => 2
  | checking => 1
  | applying _ => 1
  | returned => 0

/-- How many reads of the source are under way. -/
def readsLeft : FillPc → Nat
  | reading _ => 1
  | _ => 0

theorem woken_ne_waiting (pc : FillPc) : pc.woken ≠ waiting := by
  cases pc <;> nofun

@[simp] theorem holds_woken (pc : FillPc) : pc.woken.Holds ↔ pc.Holds := by
  cases pc <;> exact Iff.rfl

@[simp] theorem finishing_woken (pc : FillPc) : pc.woken.Finishing ↔ pc.Finishing := by
  cases pc <;> exact Iff.rfl

theorem stepsLeft_woken_le (pc : FillPc) : pc.woken.stepsLeft ≤ pc.stepsLeft := by
  cases pc <;> simp [woken, stepsLeft]

@[simp] theorem readsLeft_woken (pc : FillPc) : pc.woken.readsLeft = pc.readsLeft := by
  cases pc <;> rfl

theorem readsLeft_le_one (pc : FillPc) : pc.readsLeft ≤ 1 := by
  cases pc <;> simp [readsLeft]

end FillPc

namespace ConsumerPc

/-- The consumer holds the lock. -/
def Holds : ConsumerPc → Prop
  | checking _ => True
  | _ => False

/-- The drop has asked for the shutdown. -/
def Dropping : ConsumerPc → Prop
  | notifyingWritable => True
  | notifyingReadable => True
  | joining => True
  | dropped => True
  | _ => False

/-- The consumer is about to notify the fill thread. -/
def WillNotify : ConsumerPc → Prop
  | notifying _ => True
  | notifyingWritable => True
  | _ => False

/-- How many steps of the drop are left, once it has asked for the shutdown. -/
def stepsLeft : ConsumerPc → Nat
  | notifyingWritable => 3
  | notifyingReadable => 2
  | joining => 1
  | _ => 0

theorem woken_ne_waiting (pc : ConsumerPc) (call : Call) : pc.woken ≠ waiting call := by
  cases pc <;> nofun

@[simp] theorem holds_woken (pc : ConsumerPc) : pc.woken.Holds ↔ pc.Holds := by
  cases pc <;> exact Iff.rfl

@[simp] theorem dropping_woken (pc : ConsumerPc) : pc.woken.Dropping ↔ pc.Dropping := by
  cases pc <;> exact Iff.rfl

@[simp] theorem stepsLeft_woken (pc : ConsumerPc) : pc.woken.stepsLeft = pc.stepsLeft := by
  cases pc <;> rfl

theorem woken_eq_dropped {pc : ConsumerPc} (h : pc.woken = dropped) : pc = dropped := by
  cases pc <;> first | rfl | cases h

end ConsumerPc

namespace SlimBuffer

variable {cfg : BufferConfig} {s t : SlimBuffer}

/-! ## The lock -/

structure Locked (s : SlimBuffer) : Prop where
  fill : s.owner = some .fill → s.fill.Holds
  consumer : s.owner = some .consumer → s.consumer.Holds

/-- The fill thread moves without the lock. -/
theorem Locked.fillMove (hs : s.Locked) (hpc : ¬s.fill.Holds) (howner : t.owner = s.owner)
    (hconsumer : t.consumer.Holds ↔ s.consumer.Holds) : t.Locked := by
  refine ⟨?_, ?_⟩
  · intro hfill
    exact absurd (hs.fill (howner ▸ hfill)) hpc
  · intro hheld
    exact hconsumer.2 (hs.consumer (howner ▸ hheld))

/-- The consumer moves without the lock. -/
theorem Locked.consumerMove (hs : s.Locked) (hpc : ¬s.consumer.Holds) (howner : t.owner = s.owner)
    (hfill : t.fill.Holds ↔ s.fill.Holds) : t.Locked := by
  refine ⟨?_, ?_⟩
  · intro hheld
    exact hfill.2 (hs.fill (howner ▸ hheld))
  · intro hconsumer
    exact absurd (hs.consumer (howner ▸ hconsumer)) hpc

theorem locked_of_fillStep (h : FillStep cfg s t) (hs : s.Locked) : t.Locked := by
  cases h with
  | lock | lockAgain | relock => exact ⟨fun _ => trivial, nofun⟩
  | wait | stop | startRead | stopAfterRead | retry | apply => exact ⟨nofun, nofun⟩
  | wake hpc => exact hs.fillMove (by rw [hpc]; exact id) rfl Iff.rfl
  | endRead result hpc hfits => exact hs.fillMove (by rw [hpc]; exact id) rfl Iff.rfl
  | notify hpc =>
      rw [notifyReadable_eq]
      exact hs.fillMove (by rw [hpc]; exact id) rfl s.consumer.holds_woken
  | signal hpc =>
      rename_i reached finished
      rcases exists_signal_eq cfg reached s with ⟨signalled, callbacks, hsignal⟩
      rw [hsignal]
      exact hs.fillMove (by rw [hpc]; exact id) rfl Iff.rfl

theorem locked_of_consumerStep (h : ConsumerStep s t) (hs : s.Locked) : t.Locked := by
  cases h with
  | lock | lockAgain => exact ⟨nofun, fun _ => trivial⟩
  | wait | ended | stage => exact ⟨nofun, nofun⟩
  | notify hpc =>
      rw [notifyWritable_eq]
      exact hs.consumerMove (by rw [hpc]; exact id) rfl s.fill.holds_woken
  | notifyWritable hpc =>
      rw [notifyWritable_eq]
      exact hs.consumerMove (by rw [hpc]; exact id) rfl s.fill.holds_woken
  | finish hpc =>
      rename_i call
      rcases exists_finish_eq s call with ⟨status, pos, delivered, results, hfinish⟩
      rw [hfinish]
      exact hs.consumerMove (by rw [hpc]; exact id) rfl Iff.rfl
  | readNothing hpc | read hpc _ | fillBuf hpc | consume _ hpc | staged hpc _ | clear hpc _
    | wake hpc | drop hpc | shutdown hpc _ | notifyReadable hpc | join hpc _ =>
      exact hs.consumerMove (by rw [hpc]; exact id) rfl Iff.rfl

theorem locked (h : (system cfg).Reachable s) : s.Locked := by
  refine System.Reachable.invariant Locked ?_ ?_ h
  · rintro s ⟨status, rfl⟩
    exact ⟨nofun, nofun⟩
  · intro s t _ hs hstep
    rcases hstep with hfill | hconsumer
    · exact locked_of_fillStep hfill hs
    · exact locked_of_consumerStep hconsumer hs

/-! ## The ends -/

/-- The fill thread returns when the source has ended or the drop has asked for it. -/
structure Ended (s : SlimBuffer) : Prop where
  eof : s.state.eof = true → s.fill.Finishing
  finishing : s.fill.Finishing → s.state.eof = true ∨ s.state.shutdown = true
  shutdown : s.state.shutdown = true ↔ s.consumer.Dropping
  joined : s.consumer = .dropped → s.fill = .returned

/-- Nothing has been heard of the end of the source while the fill thread is in its loop. -/
theorem Ended.eof_eq_false (hs : s.Ended) (hpc : ¬s.fill.Finishing) : s.state.eof = false := by
  cases heof : s.state.eof with
  | false => rfl
  | true => exact absurd (hs.eof heof) hpc

theorem Ended.not_dropped (hs : s.Ended) (hpc : s.fill ≠ .returned) : s.consumer ≠ .dropped :=
  fun hdropped => hpc (hs.joined hdropped)

/-- The fill thread stays in its loop. -/
theorem Ended.loop (hs : s.Ended) (hpc : ¬s.fill.Finishing) (hpc' : ¬t.fill.Finishing)
    (hreturned : s.fill ≠ .returned) (hstate : t.state = s.state)
    (hconsumer : t.consumer = s.consumer) : t.Ended := by
  refine ⟨?_, fun hfinishing => absurd hfinishing hpc', ?_, ?_⟩
  · intro heof
    rw [hstate, hs.eof_eq_false hpc] at heof
    cases heof
  · rw [hstate, hconsumer]
    exact hs.shutdown
  · intro hdropped
    exact absurd (hconsumer ▸ hdropped) (hs.not_dropped hreturned)

theorem ended_of_fillStep (h : FillStep cfg s t) (hs : s.Ended) : t.Ended := by
  cases h with
  | lock hpc _ | wait hpc _ _ | wake hpc | lockAgain hpc _ | startRead hpc _ _ | endRead _ hpc _
    | relock hpc _ | retry hpc _ _ =>
      exact hs.loop (by rw [hpc]; exact id) id (by rw [hpc]; nofun) rfl rfl
  | stop hpc hstop => exact ⟨fun _ => trivial, fun _ => Or.inr hstop, hs.shutdown, fun _ => rfl⟩
  | stopAfterRead hpc hstop =>
      exact ⟨fun _ => trivial, fun _ => Or.inr hstop, hs.shutdown, fun _ => rfl⟩
  | apply hpc hrun hretry =>
      rename_i result
      have hdropped := hs.not_dropped (by rw [hpc]; nofun)
      cases result with
      | ok chunk =>
          cases chunk with
          | nil => exact ⟨fun _ => rfl, fun _ => Or.inl rfl, hs.shutdown, fun h =>
              absurd h hdropped⟩
          | cons b bs => exact ⟨id, Or.inl, hs.shutdown, fun h => absurd h hdropped⟩
      | err e => exact ⟨fun _ => rfl, fun _ => Or.inl rfl, hs.shutdown, fun h => absurd h hdropped⟩
  | notify hpc =>
      rcases hs with ⟨heof, hfinishing, hshutdown, hjoined⟩
      rw [hpc] at heof hfinishing hjoined
      rw [notifyReadable_eq]
      refine ⟨heof, hfinishing, hshutdown.trans s.consumer.dropping_woken.symm, ?_⟩
      intro hdropped
      cases hjoined (ConsumerPc.woken_eq_dropped hdropped)
  | signal hpc =>
      rename_i reached finished
      rcases hs with ⟨heof, hfinishing, hshutdown, hjoined⟩
      rw [hpc] at heof hfinishing hjoined
      rcases exists_signal_eq cfg reached s with ⟨signalled, callbacks, hsignal⟩
      rw [hsignal]
      cases finished with
      | true => exact ⟨fun _ => trivial, fun _ => hfinishing rfl, hshutdown, fun _ => rfl⟩
      | false => exact ⟨fun h => (Bool.false_ne_true (heof h)).elim, nofun, hshutdown,
          fun h => by cases hjoined h⟩

theorem ended_of_consumerStep (h : ConsumerStep s t) (hs : s.Ended) : t.Ended := by
  rcases hs with ⟨heof, hfinishing, hshutdown, hjoined⟩
  cases h with
  | readNothing hpc => exact ⟨heof, hfinishing, hshutdown, hjoined⟩
  | consume amt hpc => exact ⟨heof, hfinishing, hshutdown, hjoined⟩
  | ended hpc hempty heof' =>
      rename_i call
      rcases exists_refillEmpty_eq s call with ⟨error, consumer, results, hcase, hrefill⟩
      rw [hpc] at hshutdown
      rw [hrefill]
      refine ⟨heof, hfinishing, ?_, ?_⟩
      · rcases hcase with rfl | rfl <;> exact hshutdown
      · rcases hcase with rfl | rfl <;> nofun
  | notify hpc =>
      rw [hpc] at hshutdown
      rw [notifyWritable_eq]
      exact ⟨fun h => s.fill.finishing_woken.2 (heof h),
        fun h => hfinishing (s.fill.finishing_woken.1 h), hshutdown, nofun⟩
  | notifyWritable hpc =>
      rw [hpc] at hshutdown
      rw [notifyWritable_eq]
      exact ⟨fun h => s.fill.finishing_woken.2 (heof h),
        fun h => hfinishing (s.fill.finishing_woken.1 h), hshutdown, nofun⟩
  | finish hpc =>
      rename_i call
      rcases exists_finish_eq s call with ⟨status, pos, delivered, results, hfinish⟩
      rw [hpc] at hshutdown
      rw [hfinish]
      exact ⟨heof, hfinishing, hshutdown, nofun⟩
  | shutdown hpc hfree =>
      exact ⟨heof, fun _ => Or.inr rfl, ⟨fun _ => trivial, fun _ => rfl⟩, nofun⟩
  | join hpc hdone =>
      rw [hpc] at hshutdown
      exact ⟨heof, hfinishing, hshutdown, fun _ => hdone⟩
  | read hpc _ | fillBuf hpc | staged hpc _ | clear hpc _ | lock hpc _ | wait hpc _ _ | wake hpc
    | lockAgain hpc _ | stage hpc _ | drop hpc | notifyReadable hpc =>
      rw [hpc] at hshutdown
      exact ⟨heof, hfinishing, hshutdown, nofun⟩

theorem ended (h : (system cfg).Reachable s) : s.Ended := by
  refine System.Reachable.invariant Ended ?_ ?_ h
  · rintro s ⟨status, rfl⟩
    exact ⟨nofun, nofun, ⟨nofun, nofun⟩, nofun⟩
  · intro s t _ hs hstep
    rcases hstep with hfill | hconsumer
    · exact ended_of_fillStep hfill hs
    · exact ended_of_consumerStep hconsumer hs

/-! ## Waiting -/

/-- Whoever waits has a reason to, or is about to be notified. -/
structure Attended (cfg : BufferConfig) (s : SlimBuffer) : Prop where
  readable : ∀ call, s.consumer = .waiting call →
    (s.state.buf = [] ∧ s.state.eof = false) ∨
      ∃ reached finished, s.fill = .notifying reached finished
  writable : s.fill = .waiting →
    cfg.capacity ≤ s.state.buf.length ∨ s.consumer.WillNotify
  stopping : s.fill = .waiting → s.state.shutdown = true → s.consumer = .notifyingWritable

/-- The fill thread does something else than waiting and notifying. -/
theorem Attended.fillMove (hs : s.Attended cfg)
    (hnotifying : ∀ reached finished, s.fill ≠ .notifying reached finished)
    (hwaiting : t.fill ≠ .waiting) (hstate : t.state = s.state)
    (hconsumer : t.consumer = s.consumer) : t.Attended cfg := by
  refine ⟨?_, fun h => absurd h hwaiting, fun h => absurd h hwaiting⟩
  intro call hcall
  rw [hconsumer] at hcall
  rw [hstate]
  rcases hs.readable call hcall with hempty | ⟨reached, finished, hfill⟩
  · exact Or.inl hempty
  · exact absurd hfill (hnotifying reached finished)

theorem attended_of_fillStep (h : FillStep cfg s t) (hs : s.Attended cfg) : t.Attended cfg := by
  cases h with
  | wait hpc hrun hfull =>
      refine ⟨?_, fun _ => Or.inl hfull, fun _ hstop => absurd (hrun.symm.trans hstop) nofun⟩
      intro call hcall
      rcases hs.readable call hcall with hempty | ⟨reached, finished, hfill⟩
      · exact Or.inl hempty
      · rw [hpc] at hfill
        cases hfill
  | apply hpc hrun hretry =>
      -- Whatever the read has changed, the notification comes next.
      exact ⟨fun _ _ => Or.inr ⟨_, _, rfl⟩, nofun, nofun⟩
  | notify hpc =>
      rw [notifyReadable_eq]
      exact ⟨fun call hcall => absurd hcall (s.consumer.woken_ne_waiting call), nofun, nofun⟩
  | signal hpc =>
      rename_i reached finished
      rcases exists_signal_eq cfg reached s with ⟨signalled, callbacks, hsignal⟩
      rw [hsignal]
      refine hs.fillMove (by rw [hpc]; nofun) ?_ rfl rfl
      cases finished <;> nofun
  | lock hpc _ | wake hpc | lockAgain hpc _ | stop hpc _ | startRead hpc _ _ | endRead _ hpc _
    | relock hpc _ | stopAfterRead hpc _ | retry hpc _ _ =>
      exact hs.fillMove (by rw [hpc]; nofun) nofun rfl rfl

/-- The consumer does something else than waiting and notifying. -/
theorem Attended.consumerMove (hs : s.Attended cfg) (hpc : ¬s.consumer.WillNotify)
    (hwaiting : ∀ call, t.consumer ≠ .waiting call) (hfill : t.fill = s.fill)
    (hbuf : t.state.buf = s.state.buf) (hshutdown : t.state.shutdown = s.state.shutdown) :
    t.Attended cfg := by
  refine ⟨fun call hcall => absurd hcall (hwaiting call), ?_, ?_⟩
  · intro hfull
    rw [hbuf]
    rcases hs.writable (hfill ▸ hfull) with hlength | hnotify
    · exact Or.inl hlength
    · exact absurd hnotify hpc
  · intro hfull hstop
    have hnotify := hs.stopping (hfill ▸ hfull) (hshutdown ▸ hstop)
    rw [hnotify] at hpc
    exact absurd trivial hpc

theorem attended_of_consumerStep (h : ConsumerStep s t) (hs : s.Attended cfg) :
    t.Attended cfg := by
  cases h with
  | wait hpc hempty heof =>
      refine ⟨fun _ _ => Or.inl ⟨hempty, heof⟩, ?_, ?_⟩
      · intro hfull
        rcases hs.writable hfull with hlength | hnotify
        · exact Or.inl hlength
        · rw [hpc] at hnotify
          exact hnotify.elim
      · intro hfull hstop
        have hnotify := hs.stopping hfull hstop
        rw [hpc] at hnotify
        cases hnotify
  | stage hpc hdata =>
      -- There is room again, and the notification comes next.
      refine ⟨nofun, fun _ => Or.inr trivial, ?_⟩
      intro hfull hstop
      have hnotify := hs.stopping hfull hstop
      rw [hpc] at hnotify
      cases hnotify
  | shutdown hpc hfree => exact ⟨nofun, fun _ => Or.inr trivial, fun _ _ => rfl⟩
  | notify hpc =>
      rw [notifyWritable_eq]
      exact ⟨nofun, fun h => absurd h s.fill.woken_ne_waiting,
        fun h => absurd h s.fill.woken_ne_waiting⟩
  | notifyWritable hpc =>
      rw [notifyWritable_eq]
      exact ⟨nofun, fun h => absurd h s.fill.woken_ne_waiting,
        fun h => absurd h s.fill.woken_ne_waiting⟩
  | ended hpc hempty heof =>
      rename_i call
      rcases exists_refillEmpty_eq s call with ⟨error, consumer, results, hcase, hrefill⟩
      rw [hrefill]
      refine hs.consumerMove (by rw [hpc]; exact id) ?_ rfl rfl rfl
      rcases hcase with rfl | rfl <;> nofun
  | finish hpc =>
      rename_i call
      rcases exists_finish_eq s call with ⟨status, pos, delivered, results, hfinish⟩
      rw [hfinish]
      exact hs.consumerMove (by rw [hpc]; exact id) nofun rfl rfl rfl
  | readNothing hpc | consume _ hpc =>
      refine hs.consumerMove (by rw [hpc]; exact id) ?_ rfl rfl rfl
      intro call hcall
      exact absurd (hpc.symm.trans hcall) nofun
  | read hpc _ | fillBuf hpc | staged hpc _ | clear hpc _ | lock hpc _ | wake hpc
    | lockAgain hpc _ | drop hpc | notifyReadable hpc | join hpc _ =>
      exact hs.consumerMove (by rw [hpc]; exact id) nofun rfl rfl rfl

theorem attended (h : (system cfg).Reachable s) : s.Attended cfg := by
  refine System.Reachable.invariant (Attended cfg) ?_ ?_ h
  · rintro s ⟨status, rfl⟩
    exact ⟨nofun, nofun, nofun⟩
  · intro s t _ hs hstep
    rcases hstep with hfill | hconsumer
    · exact attended_of_fillStep hfill hs
    · exact attended_of_consumerStep hconsumer hs

/-- The consumer never waits for a fill thread that has returned or waits itself. -/
theorem fill_of_waiting (h : (system cfg).Reachable s) {call : Call}
    (hwaiting : s.consumer = .waiting call) : s.fill ≠ .returned ∧ s.fill ≠ .waiting := by
  have hattended := attended h
  have hended := ended h
  rcases hattended.readable call hwaiting with ⟨hempty, heof⟩ | ⟨reached, finished, hfill⟩
  · refine ⟨?_, ?_⟩
    · intro hreturned
      have hfinishing : s.fill.Finishing := by
        rw [hreturned]
        trivial
      rcases hended.finishing hfinishing with hend | hshutdown
      · rw [heof] at hend
        cases hend
      · have hdropping := hended.shutdown.1 hshutdown
        rw [hwaiting] at hdropping
        exact hdropping
    · intro hfull
      rcases hattended.writable hfull with hlength | hnotify
      · rw [hempty] at hlength
        exact absurd hlength (not_le_of_gt cfg.capacity_pos)
      · rw [hwaiting] at hnotify
        exact hnotify
  · rw [hfill]
    exact ⟨nofun, nofun⟩

/-! ## After the shutdown -/

/-- The step is not one in which a waiting thread wakes up without having been notified. -/
def Notified (s t : SlimBuffer) : Prop :=
  (s.fill = .waiting → t.consumer = s.consumer → t.fill = .waiting) ∧
    ∀ call, s.consumer = .waiting call → t.fill = s.fill → t.consumer = .waiting call

def stepsLeft (s : SlimBuffer) : Nat := s.fill.stepsLeft + s.consumer.stepsLeft

/-- What a step does after the shutdown: the buffer stays as it is, a read of the source may end,
but none is begun, and there is one step less to go. -/
structure WindsDown (s t : SlimBuffer) : Prop where
  shutdown : t.state.shutdown = true
  appended : t.history.appended = s.history.appended
  sourced : t.history.sourced.length + t.fill.readsLeft ≤
    s.history.sourced.length + s.fill.readsLeft
  stepsLeft : t.stepsLeft < s.stepsLeft

/-- The fill thread moves on. -/
theorem WindsDown.fillMove (hshutdown : t.state.shutdown = true)
    (hhistory : t.history.appended = s.history.appended ∧ t.history.sourced = s.history.sourced)
    (hreads : t.fill.readsLeft ≤ s.fill.readsLeft) (hsteps : t.fill.stepsLeft < s.fill.stepsLeft)
    (hconsumer : t.consumer.stepsLeft = s.consumer.stepsLeft) : s.WindsDown t :=
  { shutdown := hshutdown
    appended := hhistory.1
    sourced := by
      rw [hhistory.2]
      exact Nat.add_le_add_left hreads _
    stepsLeft := by
      unfold SlimBuffer.stepsLeft
      rw [hconsumer]
      exact Nat.add_lt_add_right hsteps _ }

theorem windsDown_of_fillStep (h : FillStep cfg s t) (hs : s.state.shutdown = true) :
    s.WindsDown t := by
  cases h with
  | endRead result hpc hfits =>
      refine ⟨hs, rfl, ?_, ?_⟩
      · rw [hpc]
        exact le_of_eq List.length_append
      · unfold SlimBuffer.stepsLeft
        rw [hpc]
        exact Nat.add_lt_add_right (Nat.lt_succ_self 2) _
  | wait hpc hrun _ | startRead hpc hrun _ | retry hpc hrun _ | apply hpc hrun _ =>
      rw [hs] at hrun
      cases hrun
  | notify hpc =>
      rw [notifyReadable_eq]
      refine .fillMove hs ⟨rfl, rfl⟩ (Nat.zero_le _) ?_ s.consumer.stepsLeft_woken
      rw [hpc]
      exact Nat.lt_succ_self 3
  | signal hpc =>
      rename_i reached finished
      rcases exists_signal_eq cfg reached s with ⟨signalled, callbacks, hsignal⟩
      rw [hsignal]
      refine .fillMove hs ⟨rfl, rfl⟩ ?_ ?_ rfl
      · cases finished <;> exact Nat.zero_le _
      · rw [hpc]
        cases finished <;> simp [FillPc.stepsLeft]
  | lock hpc _ | wake hpc | lockAgain hpc _ | stop hpc _ | relock hpc _ | stopAfterRead hpc _ =>
      refine .fillMove hs ⟨rfl, rfl⟩ (Nat.zero_le _) ?_ rfl
      rw [hpc]
      exact Nat.lt_succ_self _

theorem windsDown_of_consumerStep (h : ConsumerStep s t) (hs : s.state.shutdown = true)
    (hdropping : s.consumer.Dropping) : s.WindsDown t := by
  cases h with
  | notifyWritable hpc =>
      rw [notifyWritable_eq]
      refine ⟨hs, rfl, le_of_eq (congrArg (_ + ·) s.fill.readsLeft_woken), ?_⟩
      unfold SlimBuffer.stepsLeft
      rw [hpc]
      exact Nat.add_lt_add_of_le_of_lt s.fill.stepsLeft_woken_le (Nat.lt_succ_self 2)
  | notifyReadable hpc =>
      refine ⟨hs, rfl, le_rfl, ?_⟩
      unfold SlimBuffer.stepsLeft
      rw [hpc]
      exact Nat.add_lt_add_left (Nat.lt_succ_self 1) _
  | join hpc hdone =>
      refine ⟨hs, rfl, le_rfl, ?_⟩
      unfold SlimBuffer.stepsLeft
      rw [hpc]
      exact Nat.add_lt_add_left Nat.zero_lt_one _
  | readNothing hpc | read hpc _ | fillBuf hpc | consume _ hpc | staged hpc _ | clear hpc _
    | lock hpc _ | wait hpc _ _ | wake hpc | lockAgain hpc _ | ended hpc _ _ | stage hpc _
    | notify hpc | finish hpc | drop hpc | shutdown hpc _ =>
      -- There are no calls any more.
      rw [hpc] at hdropping
      exact hdropping.elim

theorem windsDown (h : (system cfg).Reachable s) (hs : s.state.shutdown = true)
    (hstep : (system cfg).step s t) : s.WindsDown t := by
  rcases hstep with hfill | hconsumer
  · exact windsDown_of_fillStep hfill hs
  · exact windsDown_of_consumerStep hconsumer hs ((ended h).shutdown.1 hs)

/-- The fill thread is on its way as long as it does not wait for something. -/
theorem exists_fillStep (cfg : BufferConfig) (hs : s.state.shutdown = true)
    (hfree : ¬s.fill.Holds → s.owner = none) (hwaiting : s.fill ≠ .waiting)
    (hreturned : s.fill ≠ .returned) : ∃ t, FillStep cfg s t := by
  cases hfill : s.fill with
  | locking =>
      rw [hfill] at hfree
      exact ⟨_, .lock hfill (hfree id)⟩
  | checking => exact ⟨_, .stop hfill hs⟩
  | waiting => exact absurd hfill hwaiting
  | waking =>
      rw [hfill] at hfree
      exact ⟨_, .lockAgain hfill (hfree id)⟩
  | reading want => exact ⟨_, .endRead (.ok []) hfill (Nat.zero_le want)⟩
  | relocking result =>
      rw [hfill] at hfree
      exact ⟨_, .relock hfill (hfree id)⟩
  | applying result => exact ⟨_, .stopAfterRead hfill hs⟩
  | notifying reached finished => exact ⟨_, .notify hfill⟩
  | signalling reached finished => exact ⟨_, .signal hfill⟩
  | returned => exact absurd hfill hreturned

/-- Unless the drop is done, somebody can move without having to wake up by itself. -/
theorem exists_notified (h : (system cfg).Reachable s) (hs : s.state.shutdown = true)
    (hgoal : s.consumer ≠ .dropped) : ∃ t, (system cfg).step s t ∧ s.Notified t := by
  have hdropping := (ended h).shutdown.1 hs
  have hawake : ∀ t : SlimBuffer, ∀ call, s.consumer = .waiting call → t.fill = s.fill →
      t.consumer = .waiting call := by
    intro t call hwaiting
    rw [hwaiting] at hdropping
    exact hdropping.elim
  cases hconsumer : s.consumer with
  | notifyingWritable =>
      refine ⟨_, Or.inr (.notifyWritable hconsumer), ?_, hawake _⟩
      intro _ hsame
      rw [hconsumer] at hsame
      cases hsame
  | notifyingReadable =>
      exact ⟨_, Or.inr (.notifyReadable hconsumer), fun hfill _ => hfill, hawake _⟩
  | joining =>
      by_cases hreturned : s.fill = .returned
      · exact ⟨_, Or.inr (.join hconsumer hreturned), fun hfill _ => hfill, hawake _⟩
      · have hwaiting : s.fill ≠ .waiting := by
          intro hfill
          have hnotify := (attended h).stopping hfill hs
          rw [hconsumer] at hnotify
          cases hnotify
        have hfree : ¬s.fill.Holds → s.owner = none := by
          intro hfill
          cases howner : s.owner with
          | none => rfl
          | some thread =>
              cases thread with
              | fill => exact absurd ((locked h).fill howner) hfill
              | consumer =>
                  have hholds := (locked h).consumer howner
                  rw [hconsumer] at hholds
                  exact hholds.elim
        rcases exists_fillStep cfg hs hfree hwaiting hreturned with ⟨t, hmove⟩
        exact ⟨t, Or.inl hmove, fun hfill => absurd hfill hwaiting, hawake t⟩
  | dropped => exact absurd hconsumer hgoal
  | _ =>
      rw [hconsumer] at hdropping
      exact hdropping.elim

/-- The drop gets as far as joining the fill thread, whichever threads wake up without having been
notified on the way. -/
theorem inevitable_dropped {ok : SlimBuffer → SlimBuffer → Prop}
    (hok : ∀ a b : SlimBuffer, a.Notified b → ok a b) (h : (system cfg).Reachable s)
    (hs : s.state.shutdown = true) :
    ((system cfg).restrict ok).Inevitable
    (fun t => t.consumer = .dropped ∧ t.fill = .returned) s := by
  refine System.Inevitable.of_rank
    (P := fun s => (system cfg).Reachable s ∧ s.state.shutdown = true) stepsLeft ?_ ?_ ?_ ⟨h, hs⟩
  · rintro a b ⟨ha, hshutdown⟩ ⟨hstep, _⟩
    exact ⟨.step ha hstep, (windsDown ha hshutdown hstep).shutdown⟩
  · rintro a b ⟨ha, hshutdown⟩ ⟨hstep, _⟩
    exact (windsDown ha hshutdown hstep).stepsLeft
  · rintro a ⟨ha, hshutdown⟩ hgoal
    have hconsumer : a.consumer ≠ .dropped :=
      fun hdropped => hgoal ⟨hdropped, (ended ha).joined hdropped⟩
    rcases exists_notified ha hshutdown hconsumer with ⟨b, hstep, hnotified⟩
    exact ⟨b, hstep, hok a b hnotified⟩

/-- What a whole run does after the shutdown. -/
theorem windsDown_of_steps (h : (system cfg).Reachable s) (hs : s.state.shutdown = true)
    (hrun : (system cfg).Steps s t) :
    t.history.appended = s.history.appended ∧
      t.history.sourced.length ≤ s.history.sourced.length + 1 := by
  have hkept : (system cfg).Reachable t ∧ t.state.shutdown = true ∧
      t.history.appended = s.history.appended ∧
      t.history.sourced.length + t.fill.readsLeft ≤
        s.history.sourced.length + s.fill.readsLeft := by
    refine System.Steps.invariant (fun t => (system cfg).Reachable t ∧ t.state.shutdown = true ∧
      t.history.appended = s.history.appended ∧
      t.history.sourced.length + t.fill.readsLeft ≤
        s.history.sourced.length + s.fill.readsLeft) hrun ⟨h, hs, rfl, le_rfl⟩ ?_
    rintro a b ⟨ha, hshutdown, happended, hsourced⟩ hstep
    have hdown := windsDown ha hshutdown hstep
    exact ⟨.step ha hstep, hdown.shutdown, hdown.appended.trans happended,
      le_trans hdown.sourced hsourced⟩
  have hone := s.fill.readsLeft_le_one
  exact ⟨hkept.2.2.1, by omega⟩

/-- **No wake-up is lost**, in every reachable state.  The consumer never waits for a fill thread
that has returned or that waits for the consumer.  And once the drop has set `shutdown`,

* the fill thread only waits while the notification is still to come,
* nothing more is appended, and at most one more read of the source comes to an end,
* every run that goes on as long as it can gets to the end of the join, with the fill thread
  returned: also when no thread ever wakes up without having been notified. -/
theorem no_lost_wakeup (h : (system cfg).Reachable s) :
    (∀ call, s.consumer = .waiting call → s.fill ≠ .returned ∧ s.fill ≠ .waiting) ∧
    (s.state.shutdown = true →
      (s.fill = .waiting → s.consumer = .notifyingWritable) ∧
      (∀ t, (system cfg).Steps s t → t.history.appended = s.history.appended ∧
        t.history.sourced.length ≤ s.history.sourced.length + 1) ∧
      ∀ ok : SlimBuffer → SlimBuffer → Prop, (∀ a b : SlimBuffer, a.Notified b → ok a b) →
        ((system cfg).restrict ok).Inevitable
          (fun t => t.consumer = .dropped ∧ t.fill = .returned) s) := by
  refine ⟨fun call hwaiting => fill_of_waiting h hwaiting, ?_⟩
  intro hshutdown
  refine ⟨?_, ?_, ?_⟩
  · intro hwaiting
    exact (attended h).stopping hwaiting hshutdown
  · intro t hrun
    exact windsDown_of_steps h hshutdown hrun
  · intro ok hok
    exact inevitable_dropped hok h hshutdown

/-- The buffer is dropped while the fill thread waits for room. -/
theorem no_lost_wakeup_drop : ∃ s, (system (BufferConfig.withCapacity 1 0 false)).Reachable s ∧
    s.fill = .waiting ∧ s.state.shutdown = true ∧
    ((system (BufferConfig.withCapacity 1 0 false)).restrict Notified).Inevitable
      (fun t => t.consumer = .dropped ∧ t.fill = .returned) s := by
  have h0 : (system (BufferConfig.withCapacity 1 0 false)).Reachable
      (withCapacity (BufferConfig.withCapacity 1 0 false) (StatusData.default 0)) :=
    .init ⟨_, rfl⟩
  have h1 := h0.step (.inl (.lock rfl rfl))
  have h2 := h1.step (.inl (.startRead rfl rfl (by decide)))
  have h3 := h2.step (.inl (.endRead (.ok [7]) rfl (by decide)))
  have h4 := h3.step (.inl (.relock rfl rfl))
  have h5 := h4.step (.inl (.apply rfl rfl id))
  have h6 := h5.step (.inl (.notify rfl))
  have h7 := h6.step (.inl (.signal rfl))
  -- The one byte fills the buffer.
  have h8 := h7.step (.inl (.lock rfl rfl))
  have h9 := h8.step (.inl (.wait rfl rfl (by decide)))
  have h10 := h9.step (.inr (.drop rfl))
  have h11 := h10.step (.inr (.shutdown rfl rfl))
  exact ⟨_, h11, rfl, rfl, ((no_lost_wakeup h11).2 rfl).2.2 Notified fun _ _ hnotified => hnotified⟩

end SlimBuffer

end LmsProto
end LmsPlayer
