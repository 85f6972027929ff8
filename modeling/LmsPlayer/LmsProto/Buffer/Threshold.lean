import LmsPlayer.LmsProto.Buffer.Wakeups

/-!
# Buffer.Threshold — the threshold callback

The callback is invoked once.  It is not invoked before there is a reason to, that is, before an
append has left as many bytes as the threshold in the shared buffer or the source has ended; and a
full buffer is reason enough, since the capacity is never below the threshold.  So by the time the
fill thread waits for room, the callback has been invoked.
-/

namespace LmsPlayer
namespace LmsProto

open TransitionSystem (System)

namespace FillPc

/-- The fill thread is on its way from a reason to the callback. -/
def Reached : FillPc → Prop
  | notifying reached _ => reached = true
  | signalling reached _ => reached = true
  | _ => False

@[simp] theorem reached_woken (pc : FillPc) : pc.woken.Reached ↔ pc.Reached := by
  cases pc <;> exact Iff.rfl

end FillPc

namespace SlimBuffer

variable {cfg : BufferConfig} {s t : SlimBuffer}

/-! ## Nothing is left unsignalled -/

structure Signals (cfg : BufferConfig) (s : SlimBuffer) : Prop where
  callbacks : s.history.callbacks = if s.signalled && cfg.hasCallback then 1 else 0
  /-- What has not been signalled yet is less than the threshold, or about to be. -/
  pending : s.signalled = true ∨ s.fill.Reached ∨ s.state.buf = [] ∨
    s.state.buf.length < cfg.threshold.toNat
  eof : s.state.eof = true → s.signalled = true ∨ s.fill.Reached
  waiting : s.fill = .waiting → s.signalled = true

/-- A step that neither signals nor adds anything. -/
theorem Signals.move (hs : s.Signals cfg) (hcallbacks : t.history.callbacks = s.history.callbacks)
    (hsignalled : t.signalled = s.signalled) (hreached : s.fill.Reached → t.fill.Reached)
    (hbuf : t.state.buf.length ≤ s.state.buf.length) (heof : t.state.eof = s.state.eof)
    (hwaiting : t.fill = .waiting → s.fill = .waiting) : t.Signals cfg := by
  refine ⟨?_, ?_, ?_, ?_⟩
  · rw [hcallbacks, hsignalled]
    exact hs.callbacks
  · rw [hsignalled]
    rcases hs.pending with hdone | hreason | hempty | hless
    · exact Or.inl hdone
    · exact Or.inr (Or.inl (hreached hreason))
    · rw [hempty] at hbuf
      exact Or.inr (Or.inr (Or.inl (List.length_eq_zero_iff.1 (Nat.le_zero.1 hbuf))))
    · exact Or.inr (Or.inr (Or.inr (lt_of_le_of_lt hbuf hless)))
  · rw [heof, hsignalled]
    intro hend
    exact (hs.eof hend).imp_right hreached
  · rw [hsignalled]
    intro hfill
    exact hs.waiting (hwaiting hfill)

/-- A full buffer has been signalled, since it is not empty and holds as many bytes as the
threshold. -/
theorem Signals.signalled_of_full (hs : s.Signals cfg) (hpc : ¬s.fill.Reached)
    (hfull : cfg.capacity ≤ s.state.buf.length) : s.signalled = true := by
  rcases hs.pending with hdone | hreason | hempty | hless
  · exact hdone
  · exact absurd hreason hpc
  · rw [hempty] at hfull
    exact absurd hfull (not_le_of_gt cfg.capacity_pos)
  · exact absurd (le_trans cfg.threshold_le hfull) (not_le_of_gt hless)

theorem signals_of_fillStep (h : FillStep cfg s t) (hs : s.Signals cfg) (hended : s.Ended) :
    t.Signals cfg := by
  cases h with
  | wait hpc hrun hfull =>
      have hsignalled := hs.signalled_of_full (by rw [hpc]; exact id) hfull
      exact ⟨hs.callbacks, Or.inl hsignalled, fun _ => Or.inl hsignalled, fun _ => hsignalled⟩
  | apply hpc hrun hretry =>
      rename_i result
      have hopen : s.state.eof = false := hended.eof_eq_false (by rw [hpc]; exact id)
      cases result with
      | ok chunk =>
          cases chunk with
          | nil => exact ⟨hs.callbacks, Or.inr (Or.inl rfl), fun _ => Or.inr rfl, nofun⟩
          | cons b bs =>
              refine ⟨hs.callbacks, ?_, fun hend => absurd (hopen.symm.trans hend) nofun, nofun⟩
              by_cases hreached : cfg.threshold.toNat ≤ (s.state.buf ++ b :: bs).length
              · exact Or.inr (Or.inl (decide_eq_true hreached))
              · exact Or.inr (Or.inr (Or.inr (lt_of_not_ge hreached)))
      | err e => exact ⟨hs.callbacks, Or.inr (Or.inl rfl), fun _ => Or.inr rfl, nofun⟩
  | notify hpc =>
      rw [notifyReadable_eq]
      exact hs.move rfl rfl (by rw [hpc]; exact id) le_rfl rfl nofun
  | signal hpc =>
      rename_i reached finished
      have hnotWaiting : (if finished then FillPc.returned else .locking) ≠ .waiting := by
        cases finished <;> nofun
      unfold signal
      by_cases hfirst : (reached && !s.signalled) = true
      · rw [if_pos hfirst]
        rw [Bool.and_eq_true, Bool.not_eq_true'] at hfirst
        have hnone : s.history.callbacks = 0 := by
          rw [hs.callbacks, hfirst.2, Bool.false_and]
          rfl
        refine ⟨?_, Or.inl rfl, fun _ => Or.inl rfl, fun _ => rfl⟩
        show s.history.callbacks + _ = _
        rw [hnone, Nat.zero_add, Bool.true_and]
      · rw [if_neg hfirst]
        -- Either there is nothing to signal, or it has been signalled before.
        have hdone : s.fill.Reached → s.signalled = true := by
          intro hreason
          rw [hpc] at hreason
          cases hsignalled : s.signalled with
          | false =>
              rw [hsignalled, show reached = true from hreason] at hfirst
              exact absurd rfl hfirst
          | true => rfl
        refine ⟨hs.callbacks, ?_, ?_, fun hwaiting => absurd hwaiting hnotWaiting⟩
        · rcases hs.pending with hsignalled | hreason | hfew
          · exact Or.inl hsignalled
          · exact Or.inl (hdone hreason)
          · exact Or.inr (Or.inr hfew)
        · intro hend
          exact Or.inl ((hs.eof hend).elim id hdone)
  | lock hpc _ | wake hpc | lockAgain hpc _ | stop hpc _ | startRead hpc _ _ | endRead _ hpc _
    | relock hpc _ | stopAfterRead hpc _ | retry hpc _ _ =>
      exact hs.move rfl rfl (by rw [hpc]; exact id) le_rfl rfl nofun

theorem signals_of_consumerStep (h : ConsumerStep s t) (hs : s.Signals cfg) : t.Signals cfg := by
  cases h with
  | stage hpc hdata =>
      -- Taking bytes out only makes them fewer.
      exact hs.move rfl rfl id (le_of_eq_of_le List.length_drop (Nat.sub_le _ _)) rfl id
  | notify hpc =>
      rw [notifyWritable_eq]
      exact hs.move rfl rfl s.fill.reached_woken.2 le_rfl rfl
        fun hwaiting => absurd hwaiting s.fill.woken_ne_waiting
  | notifyWritable hpc =>
      rw [notifyWritable_eq]
      exact hs.move rfl rfl s.fill.reached_woken.2 le_rfl rfl
        fun hwaiting => absurd hwaiting s.fill.woken_ne_waiting
  | ended hpc hempty heof' =>
      rename_i call
      rcases exists_refillEmpty_eq s call with ⟨error, consumer, results, _, hrefill⟩
      rw [hrefill]
      exact hs.move rfl rfl id le_rfl rfl id
  | finish hpc =>
      rename_i call
      rcases exists_finish_eq s call with ⟨status, pos, delivered, results, hfinish⟩
      rw [hfinish]
      exact hs.move rfl rfl id le_rfl rfl id
  | _ => exact hs.move rfl rfl id le_rfl rfl id

theorem signals (h : (system cfg).Reachable s) : s.Signals cfg := by
  refine System.Reachable.invariant (Signals cfg) ?_ ?_ h
  · rintro s ⟨status, rfl⟩
    exact ⟨rfl, Or.inr (Or.inr (Or.inl rfl)), nofun, nofun⟩
  · intro s t hs ih hstep
    rcases hstep with hfill | hconsumer
    · exact signals_of_fillStep hfill ih (ended hs)
    · exact signals_of_consumerStep hconsumer ih

/-! ## Reasons -/

/-- In this step an append leaves at least as many bytes as the threshold in the shared buffer, or
the source turns out to have ended or failed. -/
def Reaches (cfg : BufferConfig) (s t : SlimBuffer) : Prop :=
  (t.history.appended ≠ s.history.appended ∧ cfg.threshold.toNat ≤ t.state.buf.length) ∨
    (s.state.eof = false ∧ t.state.eof = true)

/-- No reason, no callback. -/
structure Silent (s : SlimBuffer) : Prop where
  callbacks : s.history.callbacks = 0
  signalled : s.signalled = false
  reached : ¬s.fill.Reached

theorem reaches_of_apply {result : SourceRead} (hopen : s.state.eof = false)
    (hreached : (s.apply cfg result).2 = true) : Reaches cfg s (s.apply cfg result).1 := by
  cases result with
  | ok chunk =>
      cases chunk with
      | nil => exact Or.inr ⟨hopen, rfl⟩
      | cons b bs =>
          refine Or.inl ⟨?_, of_decide_eq_true hreached⟩
          show s.history.appended ++ b :: bs ≠ s.history.appended
          simp
  | err e => exact Or.inr ⟨hopen, rfl⟩

/-- A step without a signal. -/
theorem Silent.move (hs : s.Silent) (hcallbacks : t.history.callbacks = s.history.callbacks)
    (hsignalled : t.signalled = s.signalled) (hreached : t.fill.Reached → s.fill.Reached) :
    t.Silent :=
  ⟨hcallbacks.trans hs.callbacks, hsignalled.trans hs.signalled,
    fun hreason => hs.reached (hreached hreason)⟩

theorem silent_of_fillStep (h : FillStep cfg s t) (hs : s.Silent) (hended : s.Ended)
    (hreaches : ¬Reaches cfg s t) : t.Silent := by
  cases h with
  | apply hpc hrun hretry =>
      rename_i result
      have hopen : s.state.eof = false := hended.eof_eq_false (by rw [hpc]; exact id)
      have hkept : (s.apply cfg result).1.history.callbacks = s.history.callbacks ∧
          (s.apply cfg result).1.signalled = s.signalled := by
        cases result with
        | ok chunk => cases chunk <;> exact ⟨rfl, rfl⟩
        | err e => exact ⟨rfl, rfl⟩
      refine hs.move hkept.1 hkept.2 ?_
      intro hreason
      exact absurd (reaches_of_apply hopen hreason) hreaches
  | notify hpc =>
      rw [notifyReadable_eq]
      exact hs.move rfl rfl (by rw [hpc]; exact id)
  | signal hpc =>
      rename_i reached finished
      have hreached : ¬(reached && !s.signalled) = true := by
        intro hfirst
        rw [Bool.and_eq_true] at hfirst
        refine hs.reached ?_
        rw [hpc]
        exact hfirst.1
      unfold signal
      rw [if_neg hreached]
      exact hs.move rfl rfl (by cases finished <;> nofun)
  | _ => exact hs.move rfl rfl nofun

theorem silent_of_consumerStep (h : ConsumerStep s t) (hs : s.Silent) : t.Silent := by
  cases h with
  | notify hpc =>
      rw [notifyWritable_eq]
      exact hs.move rfl rfl s.fill.reached_woken.1
  | notifyWritable hpc =>
      rw [notifyWritable_eq]
      exact hs.move rfl rfl s.fill.reached_woken.1
  | ended hpc hempty heof =>
      rename_i call
      rcases exists_refillEmpty_eq s call with ⟨error, consumer, results, _, hrefill⟩
      rw [hrefill]
      exact hs.move rfl rfl id
  | finish hpc =>
      rename_i call
      rcases exists_finish_eq s call with ⟨status, pos, delivered, results, hfinish⟩
      rw [hfinish]
      exact hs.move rfl rfl id
  | _ => exact hs.move rfl rfl id

theorem silent (h : ((system cfg).restrict fun s t => ¬Reaches cfg s t).Reachable s) :
    s.Silent := by
  refine System.Reachable.invariant Silent ?_ ?_ h
  · rintro s ⟨status, rfl⟩
    exact ⟨rfl, rfl, id⟩
  · rintro s t hs ih ⟨hstep, hreaches⟩
    rcases hstep with hfill | hconsumer
    · exact silent_of_fillStep hfill ih (ended hs.of_restrict) hreaches
    · exact silent_of_consumerStep hconsumer ih

/-- **The callback comes once, for a reason, and in time**:

* it is invoked at most once;
* in a run in which no append leaves as many bytes as the threshold and the source does not end, it
  is not invoked;
* when the fill thread waits for room, or has returned because the source has ended and not because
  of the shutdown, it has been invoked. -/
theorem callback_in_time (cfg : BufferConfig) :
    (∀ s, (system cfg).Reachable s → s.history.callbacks ≤ 1) ∧
    (∀ s, ((system cfg).restrict fun s t => ¬Reaches cfg s t).Reachable s →
      s.history.callbacks = 0) ∧
    ∀ s, (system cfg).Reachable s →
      s.fill = .waiting ∨ s.fill = .returned ∧ (s.state.shutdown = false ∨ s.state.eof = true) →
        s.history.callbacks = if cfg.hasCallback then 1 else 0 := by
  refine ⟨?_, fun s h => (silent h).callbacks, ?_⟩
  · intro s h
    rw [(signals h).callbacks]
    split_ifs <;> omega
  · intro s h hcase
    have hsignals := signals h
    have hsignalled : s.signalled = true := by
      rcases hcase with hwaiting | ⟨hreturned, hreason⟩
      · exact hsignals.waiting hwaiting
      · have hfinishing : s.fill.Finishing := by
          rw [hreturned]
          trivial
        have heof : s.state.eof = true := by
          rcases (ended h).finishing hfinishing with heof | hshutdown
          · exact heof
          · rcases hreason with hrun | heof
            · rw [hrun] at hshutdown
              cases hshutdown
            · exact heof
        rcases hsignals.eof heof with hdone | hreached
        · exact hdone
        · rw [hreturned] at hreached
          exact hreached.elim
    rw [hsignals.callbacks, hsignalled, Bool.true_and]

/-- One byte reaches the threshold and fills the buffer. -/
theorem callback_in_time_full : ∃ s, (system (BufferConfig.withCapacity 1 1 true)).Reachable s ∧
    s.fill = .waiting ∧ s.history.callbacks = 1 := by
  have h0 : (system (BufferConfig.withCapacity 1 1 true)).Reachable
      (withCapacity (BufferConfig.withCapacity 1 1 true) (StatusData.default 0)) :=
    .init ⟨_, rfl⟩
  have h1 := h0.step (.inl (.lock rfl rfl))
  have h2 := h1.step (.inl (.startRead rfl rfl (by decide)))
  have h3 := h2.step (.inl (.endRead (.ok [7]) rfl (by decide)))
  have h4 := h3.step (.inl (.relock rfl rfl))
  have h5 := h4.step (.inl (.apply rfl rfl id))
  have h6 := h5.step (.inl (.notify rfl))
  have h7 := h6.step (.inl (.signal rfl))
  have h8 := h7.step (.inl (.lock rfl rfl))
  have h9 := h8.step (.inl (.wait rfl rfl (by decide)))
  exact ⟨_, h9, rfl, (callback_in_time _).2.2 _ h9 (Or.inl rfl)⟩

end SlimBuffer

end LmsProto
end LmsPlayer
