import LmsPlayer.LmsProto.Buffer.Conservation
import LmsPlayer.LmsProto.Buffer.Wakeups

/-!
# Buffer.EndOfStream — how a stream ends

The end of the source and its error reach the consumer through flags that the fill thread sets while
there may still be data in the shared buffer and in the staging area.  Up to the first call that
finds both exhausted, the calls give data and the error stays where it is (`Serving`); this call
takes the error, if there is one, and from then on the answer is the end of the stream (`Over`).
-/

namespace LmsPlayer
namespace LmsProto

open TransitionSystem (System)

/-! ## The end of the source -/

namespace SourceRead

/-- A read with which the source ends, and the error if it has failed. -/
def end? : SourceRead → Option (Option IoError)
  | ok [] => some none
  | ok (_ :: _) => none
  | err e => if (err e).Retry then none else some (some e)

theorem end?_of_retry {result : SourceRead} (h : result.Retry) : result.end? = none := by
  cases result with
  | ok chunk => exact h.elim
  | err e => exact if_pos h

theorem end?_of_not_retry {e : IoError} (h : ¬(err e).Retry) : (err e).end? = some (some e) :=
  if_neg h

end SourceRead

namespace FillPc

/-- The result of a read that the fill thread has not dealt with yet. -/
def result? : FillPc → Option SourceRead
  | relocking result => some result
  | applying result => some result
  | _ => none

@[simp] theorem result?_woken (pc : FillPc) : pc.woken.result? = pc.result? := by
  cases pc <;> rfl

theorem woken_eq_returned {pc : FillPc} : pc.woken = returned ↔ pc = returned := by
  cases pc <;> simp [woken]

end FillPc

namespace ConsumerPc

/-- The consumer has found nothing in the staging area, and looks at the shared buffer. -/
def Looking : ConsumerPc → Prop
  | locking _ => True
  | checking _ => True
  | waiting _ => True
  | waking _ => True
  | _ => False

@[simp] theorem looking_woken (pc : ConsumerPc) : pc.woken.Looking ↔ pc.Looking := by
  cases pc <;> exact Iff.rfl

theorem woken_eq_notifying {pc : ConsumerPc} {call : Call} :
    pc.woken = notifying call ↔ pc = notifying call := by
  cases pc <;> simp [woken]

theorem woken_eq_finishing {pc : ConsumerPc} {call : Call} :
    pc.woken = finishing call ↔ pc = finishing call := by
  cases pc <;> simp [woken]

end ConsumerPc

/-- How the source has ended, if it has. -/
def sourceEnd (sourced : List SourceRead) : Option (Option IoError) :=
  sourced.findSome? SourceRead.end?

theorem sourceEnd_concat {sourced : List SourceRead} (h : sourceEnd sourced = none)
    (result : SourceRead) : sourceEnd (sourced ++ [result]) = result.end? := by
  unfold sourceEnd at h ⊢
  rw [List.findSome?_append, h]
  simp

namespace CallResult

/-- The answer of a call that asked for data and did not get any. -/
def AtEnd : CallResult → Prop
  | ok (.read len) bytes => 0 < len ∧ bytes = []
  | ok .fillBuf bytes => bytes = []
  | err _ _ => True

/-- The answer that the end of the source calls for: the error, or no bytes. -/
def Announces (final : Option IoError) : CallResult → Prop
  | ok _ bytes => final = none ∧ bytes = []
  | err _ e => final = some e

end CallResult

namespace SlimBuffer

variable {cfg : BufferConfig} {s t : SlimBuffer}

/-- What is known about the source, before and after `eof` is set. -/
structure Heard (s : SlimBuffer) : Prop where
  error : ∀ e, s.state.error = some e → s.state.eof = true
  eof : s.state.eof = true →
    (sourceEnd s.history.sourced).isSome = true ∧ s.sourcedBytes = s.history.appended
  before : s.state.eof = false → s.fill ≠ .returned →
    sourceEnd s.history.sourced = s.fill.result?.bind SourceRead.end?

/-- A step that hears nothing new. -/
theorem Heard.move (hs : s.Heard) (herror : t.state.error = s.state.error ∨ t.state.error = none)
    (heof : t.state.eof = s.state.eof) (hhistory : t.history.appended = s.history.appended ∧
      t.history.sourced = s.history.sourced)
    (hbefore : s.state.eof = false → t.fill ≠ .returned →
      sourceEnd s.history.sourced = t.fill.result?.bind SourceRead.end?) : t.Heard := by
  refine ⟨?_, ?_, ?_⟩
  · intro e he
    rw [heof]
    rcases herror with hsame | hnone
    · exact hs.error e (hsame ▸ he)
    · rw [hnone] at he
      cases he
  · unfold sourcedBytes
    rw [heof, hhistory.1, hhistory.2]
    exact hs.eof
  · rw [heof, hhistory.2]
    exact hbefore

theorem heard_of_fillStep (h : FillStep cfg s t) (hs : s.Heard) (hended : s.Ended)
    (hsourced : s.Sourced) : t.Heard := by
  cases h with
  | endRead result hpc hfits =>
      have hfalse : s.state.eof = false := hended.eof_eq_false (by rw [hpc]; exact id)
      have hnone : sourceEnd s.history.sourced = none := by
        rw [hs.before hfalse (by rw [hpc]; nofun), hpc]
        rfl
      refine ⟨hs.error, ?_, fun _ _ => sourceEnd_concat hnone result⟩
      intro htrue
      exact absurd (hfalse.symm.trans htrue) nofun
  | retry hpc hrun hretry =>
      refine hs.move (Or.inl rfl) rfl ⟨rfl, rfl⟩ fun hfalse _ => ?_
      have hend := hs.before hfalse (by rw [hpc]; nofun)
      rw [hpc] at hend
      exact hend.trans (SourceRead.end?_of_retry hretry)
  | apply hpc hrun hretry =>
      rename_i result
      have hfalse : s.state.eof = false := hended.eof_eq_false (by rw [hpc]; exact id)
      have hend := hs.before hfalse (by rw [hpc]; nofun)
      unfold Sourced at hsourced
      rw [hpc] at hend hsourced
      dsimp only at hsourced
      have hfinal : ∀ final, result.end? = some final → result.bytes = [] →
          (sourceEnd s.history.sourced).isSome = true ∧ s.sourcedBytes = s.history.appended := by
        intro final hfinal hbytes
        rw [hend, hsourced, hbytes, List.append_nil]
        exact ⟨congrArg Option.isSome hfinal, rfl⟩
      cases result with
      | ok chunk =>
          cases chunk with
          | nil => exact ⟨fun _ _ => rfl, fun _ => hfinal none rfl rfl, nofun⟩
          | cons b bs =>
              refine ⟨hs.error, ?_, fun _ _ => hend⟩
              intro htrue
              exact absurd (hfalse.symm.trans htrue) nofun
      | err e =>
          refine ⟨fun _ _ => rfl, fun _ => hfinal (some e) ?_ rfl, nofun⟩
          exact SourceRead.end?_of_not_retry hretry
  | notify hpc =>
      rw [notifyReadable_eq]
      refine hs.move (Or.inl rfl) rfl ⟨rfl, rfl⟩ fun hfalse _ => ?_
      rw [hs.before hfalse (by rw [hpc]; nofun), hpc]
      rfl
  | signal hpc =>
      rename_i reached finished
      rcases exists_signal_eq cfg reached s with ⟨signalled, callbacks, hsignal⟩
      rw [hsignal]
      refine hs.move (Or.inl rfl) rfl ⟨rfl, rfl⟩ fun hfalse _ => ?_
      rw [hs.before hfalse (by rw [hpc]; nofun), hpc]
      cases finished <;> rfl
  | stop | stopAfterRead =>
      exact hs.move (Or.inl rfl) rfl ⟨rfl, rfl⟩ fun _ hreturned => absurd rfl hreturned
  | lock hpc _ | wait hpc _ _ | wake hpc | lockAgain hpc _ | startRead hpc _ _ | relock hpc _ =>
      refine hs.move (Or.inl rfl) rfl ⟨rfl, rfl⟩ fun hfalse _ => ?_
      rw [hs.before hfalse (by rw [hpc]; nofun), hpc]
      rfl

theorem heard_of_consumerStep (h : ConsumerStep s t) (hs : s.Heard) : t.Heard := by
  have hwoken : s.state.eof = false → s.fill.woken ≠ .returned →
      sourceEnd s.history.sourced = s.fill.woken.result?.bind SourceRead.end? := by
    intro hfalse hreturned
    rw [s.fill.result?_woken]
    exact hs.before hfalse fun hfill => hreturned (FillPc.woken_eq_returned.2 hfill)
  cases h with
  | ended hpc hempty heof' =>
      unfold refillEmpty
      cases s.state.error with
      | none => exact hs.move (Or.inl rfl) rfl ⟨rfl, rfl⟩ hs.before
      | some e => exact hs.move (Or.inr rfl) rfl ⟨rfl, rfl⟩ hs.before
  | notify hpc =>
      rw [notifyWritable_eq]
      exact hs.move (Or.inl rfl) rfl ⟨rfl, rfl⟩ hwoken
  | notifyWritable hpc =>
      rw [notifyWritable_eq]
      exact hs.move (Or.inl rfl) rfl ⟨rfl, rfl⟩ hwoken
  | finish hpc =>
      rename_i call
      rcases exists_finish_eq s call with ⟨status, pos, delivered, results, hfinish⟩
      rw [hfinish]
      exact hs.move (Or.inl rfl) rfl ⟨rfl, rfl⟩ hs.before
  | _ => exact hs.move (Or.inl rfl) rfl ⟨rfl, rfl⟩ hs.before

theorem heard (h : (system cfg).Reachable s) : s.Heard := by
  refine System.Reachable.invariant Heard ?_ ?_ h
  · rintro s ⟨status, rfl⟩
    exact ⟨nofun, nofun, fun _ _ => rfl⟩
  · intro s t hs ih hstep
    rcases hstep with hfill | hconsumer
    · exact heard_of_fillStep hfill ih (ended hs) (sourced hs)
    · exact heard_of_consumerStep hconsumer ih

/-! ## The answers -/

/-- The source has ended, and there is nothing left of it. -/
structure Exhausted (s : SlimBuffer) : Prop where
  eof : s.state.eof = true
  buf : s.state.buf = []
  avail : s.avail = []
  error : s.state.error = none

/-- No call has come to the end yet, and the error waits for the one that does. -/
structure Serving (s : SlimBuffer) : Prop where
  results : ∀ r ∈ s.history.results, ¬r.AtEnd
  error : s.state.eof = true → sourceEnd s.history.sourced = some s.state.error

/-- The answers from the first call at the end on. -/
structure Over (s : SlimBuffer) : Prop where
  exhausted : s.Exhausted
  results : ∃ served first later final, s.history.results = served ++ first :: later ∧
    (∀ r ∈ served, ¬r.AtEnd) ∧ first.AtEnd ∧ sourceEnd s.history.sourced = some final ∧
    first.Announces final ∧ ∀ r ∈ later, ∃ call, r = .ok call []

/-- The staging area while a call looks for data, and when it has found some. -/
structure Staged (s : SlimBuffer) : Prop where
  looking : s.consumer.Looking → s.avail = []
  notifying : ∀ call, s.consumer = .notifying call → s.avail ≠ []

theorem staged_of_fillStep (h : FillStep cfg s t) (hs : s.Staged) : t.Staged := by
  rcases hs with ⟨hlooking, hnotifying⟩
  cases h with
  | apply hpc hrun hretry =>
      rename_i result
      cases result with
      | ok chunk => cases chunk <;> exact ⟨hlooking, hnotifying⟩
      | err e => exact ⟨hlooking, hnotifying⟩
  | notify hpc =>
      rw [notifyReadable_eq]
      exact ⟨fun hlook => hlooking (s.consumer.looking_woken.1 hlook),
        fun call hcall => hnotifying call (ConsumerPc.woken_eq_notifying.1 hcall)⟩
  | signal hpc =>
      rename_i reached finished
      rcases exists_signal_eq cfg reached s with ⟨signalled, callbacks, hsignal⟩
      rw [hsignal]
      exact ⟨hlooking, hnotifying⟩
  | _ => exact ⟨hlooking, hnotifying⟩

theorem avail_stage_ne_nil (hpos : s.pos ≤ s.staging.length) (hdata : s.state.buf ≠ []) :
    s.stage.avail ≠ [] := by
  have hlength : 0 < s.state.buf.length := List.length_pos_iff.2 hdata
  intro hnil
  have hzero := congrArg List.length hnil
  unfold avail stage at hzero
  dsimp only at hzero
  rw [List.length_drop, List.length_append, List.length_take, List.length_nil] at hzero
  have hsize : 0 < STAGING_SIZE := by decide
  omega

theorem staged_of_consumerStep (h : ConsumerStep s t) (hs : s.Staged)
    (hpos : s.pos ≤ s.staging.length) : t.Staged := by
  rcases hs with ⟨hlooking, hnotifying⟩
  cases h with
  | clear hpc hdata => exact ⟨fun _ => rfl, nofun⟩
  | stage hpc hdata => exact ⟨nofun, fun _ _ => avail_stage_ne_nil hpos hdata⟩
  | ended hpc hempty heof =>
      unfold refillEmpty
      cases s.state.error <;> exact ⟨nofun, nofun⟩
  | notify hpc => exact ⟨nofun, nofun⟩
  | notifyWritable hpc => exact ⟨nofun, nofun⟩
  | lock hpc hfree => exact ⟨fun _ => hlooking (by rw [hpc]; trivial), nofun⟩
  | wait hpc hempty heof => exact ⟨fun _ => hlooking (by rw [hpc]; trivial), nofun⟩
  | wake hpc => exact ⟨fun _ => hlooking (by rw [hpc]; trivial), nofun⟩
  | lockAgain hpc hfree => exact ⟨fun _ => hlooking (by rw [hpc]; trivial), nofun⟩
  | readNothing hpc => exact ⟨hlooking, hnotifying⟩
  | consume amt hpc =>
      exact ⟨fun hlook => absurd hlook (by rw [show (s.advance _).consumer = _ from hpc]; exact id),
        fun call hcall => absurd (hpc.symm.trans hcall) nofun⟩
  | _ => exact ⟨nofun, nofun⟩

theorem staged (h : (system cfg).Reachable s) : s.Staged := by
  refine System.Reachable.invariant Staged ?_ ?_ h
  · rintro s ⟨status, rfl⟩
    exact ⟨nofun, nofun⟩
  · intro s t hs ih hstep
    rcases hstep with hfill | hconsumer
    · exact staged_of_fillStep hfill ih
    · exact staged_of_consumerStep hconsumer ih (pos_le hs)

structure Answered (s : SlimBuffer) : Prop where
  results : s.Serving ∨ s.Over
  /-- A call is only let through without data at the end. -/
  finishing : ∀ call, s.consumer = .finishing call → s.avail = [] → s.Exhausted

/-- A step that answers nothing and hears nothing. -/
theorem Answered.still (hs : s.Answered) (hexhausted : s.Exhausted → t.Exhausted)
    (hresults : t.history.results = s.history.results)
    (hsourced : t.history.sourced = s.history.sourced)
    (hstate : t.state.eof = s.state.eof ∧ t.state.error = s.state.error)
    (hfinishing : ∀ call, t.consumer = .finishing call → t.avail = [] → t.Exhausted) :
    t.Answered := by
  refine ⟨?_, hfinishing⟩
  rcases hs.results with hserving | hover
  · refine Or.inl ⟨?_, ?_⟩
    · rw [hresults]
      exact hserving.results
    · rw [hstate.1, hstate.2, hsourced]
      exact hserving.error
  · refine Or.inr ⟨hexhausted hover.exhausted, ?_⟩
    rw [hresults, hsourced]
    exact hover.results

/-- A step before the end, which leaves the answers alone. -/
theorem Answered.open_ (hs : s.Answered) (hfalse : s.state.eof = false)
    (hresults : t.history.results = s.history.results)
    (hconsumer : t.consumer = s.consumer) (havail : t.avail = s.avail)
    (herror : t.state.eof = true → sourceEnd t.history.sourced = some t.state.error) :
    t.Answered := by
  have hnot : ¬s.Exhausted := by
    intro hexhausted
    exact absurd (hfalse.symm.trans hexhausted.eof) nofun
  refine ⟨?_, ?_⟩
  · rcases hs.results with hserving | hover
    · refine Or.inl ⟨?_, herror⟩
      rw [hresults]
      exact hserving.results
    · exact absurd hover.exhausted hnot
  · intro call hcall hnil
    rw [hconsumer] at hcall
    rw [havail] at hnil
    exact absurd (hs.finishing call hcall hnil) hnot

theorem answered_of_fillStep (h : FillStep cfg s t) (hs : s.Answered) (hended : s.Ended)
    (hheard : s.Heard) : t.Answered := by
  cases h with
  | endRead result hpc hfits =>
      have hfalse : s.state.eof = false := hended.eof_eq_false (by rw [hpc]; exact id)
      refine hs.open_ hfalse rfl rfl rfl ?_
      intro htrue
      exact absurd (hfalse.symm.trans htrue) nofun
  | apply hpc hrun hretry =>
      rename_i result
      have hfalse : s.state.eof = false := hended.eof_eq_false (by rw [hpc]; exact id)
      have hend := hheard.before hfalse (by rw [hpc]; nofun)
      rw [hpc] at hend
      have hnone : s.state.error = none := by
        cases herror : s.state.error with
        | none => rfl
        | some e => exact absurd (hfalse.symm.trans (hheard.error e herror)) nofun
      cases result with
      | ok chunk =>
          cases chunk with
          | nil =>
              refine hs.open_ hfalse rfl rfl rfl fun _ => ?_
              exact hend.trans (congrArg some hnone.symm)
          | cons b bs =>
              refine hs.open_ hfalse rfl rfl rfl fun htrue => ?_
              exact absurd (hfalse.symm.trans htrue) nofun
      | err e =>
          refine hs.open_ hfalse rfl rfl rfl fun _ => ?_
          exact hend.trans (SourceRead.end?_of_not_retry hretry)
  | notify hpc =>
      rw [notifyReadable_eq]
      refine hs.still (fun hold => { hold with }) rfl rfl ⟨rfl, rfl⟩ ?_
      intro call hcall havail
      exact { hs.finishing call (ConsumerPc.woken_eq_finishing.1 hcall) havail with }
  | signal hpc =>
      rename_i reached finished
      rcases exists_signal_eq cfg reached s with ⟨signalled, callbacks, hsignal⟩
      rw [hsignal]
      refine hs.still (fun hold => { hold with }) rfl rfl ⟨rfl, rfl⟩ ?_
      exact fun call hcall havail => { hs.finishing call hcall havail with }
  | _ =>
      refine hs.still (fun hold => { hold with }) rfl rfl ⟨rfl, rfl⟩ ?_
      exact fun call hcall havail => { hs.finishing call hcall havail with }

/-! ## The consumer -/

theorem Exhausted.advance (h : s.Exhausted) (n : Nat) : (s.advance n).Exhausted := by
  refine { h with avail := ?_ }
  have hlength := congrArg List.length h.avail
  rw [length_avail] at hlength
  refine List.drop_eq_nil_of_le ?_
  have hle := Nat.sub_eq_zero_iff_le.1 hlength
  exact le_trans hle (Nat.le_add_right _ _)

/-- Something that is not an answer at the end is answered. -/
theorem Serving.concat (hs : s.Serving) {r : CallResult} (hr : ¬r.AtEnd)
    (hresults : t.history.results = s.history.results ++ [r])
    (hsourced : t.history.sourced = s.history.sourced)
    (hstate : t.state.eof = s.state.eof ∧ t.state.error = s.state.error) : t.Serving := by
  refine ⟨?_, ?_⟩
  · intro r' hr'
    rw [hresults] at hr'
    rcases List.mem_append.1 hr' with hold | hnew
    · exact hs.results r' hold
    · rw [List.mem_singleton.1 hnew]
      exact hr
  · rw [hstate.1, hstate.2, hsourced]
    exact hs.error

/-- The first answer at the end. -/
theorem Serving.over (hs : s.Serving) (ht : t.Exhausted) {r : CallResult} {final : Option IoError}
    (hend : r.AtEnd) (hfinal : sourceEnd s.history.sourced = some final)
    (hr : r.Announces final) (hresults : t.history.results = s.history.results ++ [r])
    (hsourced : t.history.sourced = s.history.sourced) : t.Over := by
  refine ⟨ht, s.history.results, r, [], final, hresults, hs.results, hend, ?_, hr, ?_⟩
  · rw [hsourced]
    exact hfinal
  · exact fun r' hr' => absurd hr' List.not_mem_nil

/-- An answer after that. -/
theorem Over.concat (hs : s.Over) (ht : t.Exhausted) {call : Call}
    (hresults : t.history.results = s.history.results ++ [.ok call []])
    (hsourced : t.history.sourced = s.history.sourced) : t.Over := by
  rcases hs.results with
    ⟨served, first, later, final, hall, hserved, hfirst, hfinal, hannounces, hlater⟩
  refine ⟨ht, served, first, later ++ [.ok call []], final, ?_, hserved, hfirst, ?_, hannounces, ?_⟩
  · rw [hresults, hall]
    simp
  · rw [hsourced]
    exact hfinal
  · intro r hr
    rcases List.mem_append.1 hr with hold | hnew
    · exact hlater r hold
    · exact ⟨call, List.mem_singleton.1 hnew⟩

/-- A call without data comes to the end, one with data does not. -/
theorem answered_finish (hs : s.Answered) {call : Call} (hpc : s.consumer = .finishing call) :
    ({ s.finish call with consumer := .idle } : SlimBuffer).Answered := by
  refine ⟨?_, nofun⟩
  by_cases havail : s.avail = []
  · have hexhausted := hs.finishing call hpc havail
    have ht : ({ s.finish call with consumer := .idle } : SlimBuffer).Exhausted := by
      cases call with
      | read len => exact { hexhausted.advance (min s.avail.length len) with }
      | fillBuf => exact { hexhausted with }
    have hresults : (s.finish call).history.results = s.history.results ++ [.ok call []] := by
      cases call with
      | read len =>
          show s.history.results ++ [CallResult.ok (.read len) (s.avail.take _)] = _
          rw [havail, List.take_nil]
      | fillBuf =>
          show s.history.results ++ [CallResult.ok .fillBuf s.avail] = _
          rw [havail]
    have hsourced : (s.finish call).history.sourced = s.history.sourced := by
      cases call <;> rfl
    rcases hs.results with hserving | hover
    · by_cases hend : (CallResult.ok call []).AtEnd
      · refine Or.inr (hserving.over ht hend ?_ ⟨rfl, rfl⟩ hresults hsourced)
        rw [hserving.error hexhausted.eof, hexhausted.error]
      · refine Or.inl (hserving.concat hend hresults hsourced ?_)
        cases call <;> exact ⟨rfl, rfl⟩
    · exact Or.inr (hover.concat ht hresults hsourced)
  · rcases hs.results with hserving | hover
    · refine Or.inl ?_
      cases call with
      | read len =>
          refine hserving.concat (r := .ok (.read len) (s.avail.take (min s.avail.length len))) ?_
            rfl rfl ⟨rfl, rfl⟩
          rintro ⟨hlen, hnil⟩
          -- There is a byte to give, and room for one.
          have hpos : 0 < s.avail.length := List.length_pos_iff.2 havail
          have hlength := congrArg List.length hnil
          rw [List.length_take, List.length_nil] at hlength
          omega
      | fillBuf => exact hserving.concat (r := .ok .fillBuf s.avail) havail rfl rfl ⟨rfl, rfl⟩
    · exact absurd hover.exhausted.avail havail

/-- The call that finds everything exhausted takes the error, or is let through without one. -/
theorem answered_refillEmpty (hs : s.Answered) {call : Call} (hempty : s.state.buf = [])
    (heof : s.state.eof = true) (havail : s.avail = []) :
    ({ s.refillEmpty call with owner := none } : SlimBuffer).Answered := by
  unfold refillEmpty
  cases herror : s.state.error with
  | none =>
      refine hs.still (fun hold => { hold with }) rfl rfl ⟨rfl, rfl⟩ ?_
      exact fun _ _ _ => ⟨heof, hempty, havail, herror⟩
  | some e =>
      refine ⟨?_, nofun⟩
      rcases hs.results with hserving | hover
      · have hfinal : sourceEnd s.history.sourced = some (some e) := by
          rw [hserving.error heof, herror]
        exact Or.inr (hserving.over (r := .err call e) ⟨heof, hempty, havail, rfl⟩ trivial
          hfinal rfl
          rfl rfl)
      · rw [hover.exhausted.error] at herror
        cases herror

theorem answered_of_consumerStep (h : ConsumerStep s t) (hs : s.Answered) (hstaged : s.Staged) :
    t.Answered := by
  cases h with
  | readNothing hpc =>
      have hdata : ¬(CallResult.ok (.read 0) []).AtEnd := fun hend => lt_irrefl 0 hend.1
      refine ⟨?_, ?_⟩
      · rcases hs.results with hserving | hover
        · exact Or.inl (hserving.concat hdata rfl rfl ⟨rfl, rfl⟩)
        · exact Or.inr (hover.concat { hover.exhausted with } rfl rfl)
      · intro call hcall
        rw [show (s.logResult _).consumer = s.consumer from rfl, hpc] at hcall
        cases hcall
  | consume amt hpc =>
      refine hs.still (fun hold => hold.advance _) rfl rfl ⟨rfl, rfl⟩ ?_
      intro call hcall
      rw [show (s.advance _).consumer = s.consumer from rfl, hpc] at hcall
      cases hcall
  | staged hpc hdata =>
      refine hs.still (fun hold => { hold with }) rfl rfl ⟨rfl, rfl⟩ ?_
      intro call hcall hnil
      have hlength : s.staging.length - s.pos = 0 :=
        (length_avail s).symm.trans (congrArg List.length hnil)
      omega
  | clear hpc hdata =>
      exact hs.still (fun hold => { hold with avail := rfl }) rfl rfl ⟨rfl, rfl⟩ nofun
  | ended hpc hempty heof =>
      exact answered_refillEmpty hs hempty heof (hstaged.looking (by rw [hpc]; trivial))
  | stage hpc hdata =>
      exact hs.still (fun hold => absurd hold.buf hdata) rfl rfl ⟨rfl, rfl⟩ nofun
  | notify hpc =>
      rename_i call
      have hdata := hstaged.notifying call hpc
      rw [notifyWritable_eq]
      exact hs.still (fun hold => { hold with }) rfl rfl ⟨rfl, rfl⟩
        fun _ _ hnil => absurd hnil hdata
  | notifyWritable hpc =>
      rw [notifyWritable_eq]
      exact hs.still (fun hold => { hold with }) rfl rfl ⟨rfl, rfl⟩ nofun
  | finish hpc => exact answered_finish hs hpc
  | _ => exact hs.still (fun hold => { hold with }) rfl rfl ⟨rfl, rfl⟩ nofun

theorem answered (h : (system cfg).Reachable s) : s.Answered := by
  refine System.Reachable.invariant Answered ?_ ?_ h
  · rintro s ⟨status, rfl⟩
    exact ⟨Or.inl ⟨fun r hr => absurd hr List.not_mem_nil, nofun⟩, nofun⟩
  · intro s t hs ih hstep
    rcases hstep with hfill | hconsumer
    · exact answered_of_fillStep hfill ih (ended hs) (heard hs)
    · exact answered_of_consumerStep hconsumer ih (staged hs)

/-! ## Nothing gets lost on the way -/

/-- The bytes of a read that the fill thread has not dealt with yet. -/
def inHand (s : SlimBuffer) : Bytes := (s.fill.result?.map SourceRead.bytes).getD []

/-- As long as nobody has asked for the shutdown, all bytes of the source are somewhere. -/
theorem appended_append_inHand (h : (system cfg).Reachable s) (hrun : s.state.shutdown = false) :
    s.history.appended ++ s.inHand = s.sourcedBytes := by
  have hs := sourced h
  unfold Sourced at hs
  unfold inHand
  cases hfill : s.fill with
  | relocking result =>
      rw [hfill] at hs
      exact hs.symm
  | applying result =>
      rw [hfill] at hs
      exact hs.symm
  | returned =>
      have hfinishing : s.fill.Finishing := by
        rw [hfill]
        trivial
      rcases (ended h).finishing hfinishing with heof | hshutdown
      · exact (List.append_nil _).trans ((heard h).eof heof).2.symm
      · rw [hrun] at hshutdown
        cases hshutdown
  | _ =>
      rw [hfill] at hs
      exact (List.append_nil _).trans hs.symm

/-- Errors that are retried do not end the stream. -/
theorem open_of_sourceEnd_eq_none (h : (system cfg).Reachable s) (hrun : s.state.shutdown = false)
    (hnone : sourceEnd s.history.sourced = none) : s.state.eof = false ∧ s.fill ≠ .returned := by
  have hfalse : s.state.eof = false := by
    cases heof : s.state.eof with
    | false => rfl
    | true =>
        have hsome := ((heard h).eof heof).1
        rw [hnone] at hsome
        cases hsome
  refine ⟨hfalse, ?_⟩
  intro hreturned
  have hfinishing : s.fill.Finishing := by
    rw [hreturned]
    trivial
  rcases (ended h).finishing hfinishing with heof | hshutdown
  · exact absurd (hfalse.symm.trans heof) nofun
  · exact absurd (hrun.symm.trans hshutdown) nofun

/-- There is only one first answer at the end. -/
theorem first_unique {served served' later later' : List CallResult} {first first' : CallResult}
    (hall : served ++ first :: later = served' ++ first' :: later')
    (hserved : ∀ r ∈ served, ¬r.AtEnd) (hfirst : first.AtEnd)
    (hserved' : ∀ r ∈ served', ¬r.AtEnd) (hfirst' : first'.AtEnd) : first = first' := by
  rcases List.append_eq_append_iff.1 hall with ⟨middle, hsplit, htail⟩ | ⟨middle, hsplit, htail⟩
  · cases middle with
    | nil => exact (List.cons.inj htail).1
    | cons r rest =>
        -- Then the first of them would be among the answers served before the other.
        have hr : first = r := (List.cons.inj htail).1
        have hmem : first ∈ served' := by
          rw [hsplit, hr]
          exact List.mem_append_right _ (List.mem_cons_self ..)
        exact absurd hfirst (hserved' first hmem)
  · cases middle with
    | nil => exact (List.cons.inj htail).1.symm
    | cons r rest =>
        have hr : first' = r := (List.cons.inj htail).1
        have hmem : first' ∈ served := by
          rw [hsplit, hr]
          exact List.mem_append_right _ (List.mem_cons_self ..)
        exact absurd hfirst' (hserved first' hmem)

/-- **How a stream ends**, in every reachable state:

* a call that was given nothing was answered after the source had ended, and everything it had given
  before had been delivered;
* the first such answer is the error, if the source has failed, and no bytes otherwise;
* an error is only ever the first such answer, it is the one of the source, and all answers after it
  are without bytes;
* as long as the source has not ended, however many reads have been retried, the stream goes on,
  unless the drop has asked for the shutdown;
* and every byte the source has given is delivered or on its way. -/
theorem endOfStream (h : (system cfg).Reachable s) :
    (∀ r ∈ s.history.results, r.AtEnd →
      (sourceEnd s.history.sourced).isSome = true ∧ s.history.delivered = s.sourcedBytes) ∧
    (∀ before first after, s.history.results = before ++ first :: after → first.AtEnd →
      (∀ r ∈ before, ¬r.AtEnd) →
        ∃ final, sourceEnd s.history.sourced = some final ∧ first.Announces final) ∧
    (∀ before call e after, s.history.results = before ++ .err call e :: after →
      sourceEnd s.history.sourced = some (some e) ∧ (∀ r ∈ before, ¬r.AtEnd) ∧
        ∀ r ∈ after, ∃ call', r = .ok call' []) ∧
    (s.state.shutdown = false →
      (sourceEnd s.history.sourced = none → s.state.eof = false ∧ s.fill ≠ .returned) ∧
        s.history.delivered ++ s.staging.drop s.pos ++ s.state.buf ++ s.inHand =
          s.sourcedBytes) := by
  have hpipe : s.history.delivered ++ (s.avail ++ s.state.buf) = s.history.appended :=
    Fifo.conservation ((pipeSimulation cfg).reachable h)
  have hover : ∀ r ∈ s.history.results, r.AtEnd → s.Over := by
    intro r hr hend
    rcases (answered h).results with hserving | hover
    · exact absurd hend (hserving.results r hr)
    · exact hover
  refine ⟨?_, ?_, ?_, ?_⟩
  · intro r hr hend
    have hexhausted := (hover r hr hend).exhausted
    rcases (heard h).eof hexhausted.eof with ⟨hsome, hbytes⟩
    refine ⟨hsome, ?_⟩
    rw [hexhausted.avail, hexhausted.buf, List.append_nil, List.append_nil] at hpipe
    exact hpipe.trans hbytes.symm
  · intro before first after hall hend hbefore
    have hmem : first ∈ s.history.results := by
      rw [hall]
      exact List.mem_append_right _ (List.mem_cons_self ..)
    rcases (hover first hmem hend).results with
      ⟨served, first', later, final, hall', hserved, hend', hfinal, hannounces, _⟩
    have hsame := first_unique (hall'.symm.trans hall) hserved hend' hbefore hend
    exact ⟨final, hfinal, hsame ▸ hannounces⟩
  · intro before call e after hall
    have hmem : CallResult.err call e ∈ s.history.results := by
      rw [hall]
      exact List.mem_append_right _ (List.mem_cons_self ..)
    rcases (hover _ hmem trivial).results with
      ⟨served, first, later, final, hall', hserved, _, hfinal, hannounces, hlater⟩
    have hnotServed : CallResult.err call e ∉ served := fun hin => hserved _ hin trivial
    have hnotLater : CallResult.err call e ∉ later := by
      intro hin
      rcases hlater _ hin with ⟨call', hok⟩
      cases hok
    rcases (List.append_cons_inj_of_notMem hnotServed hnotLater).1 (hall'.symm.trans hall) with
      ⟨rfl, rfl, rfl⟩
    have hfailed : final = some e := hannounces
    rw [hfailed] at hfinal
    exact ⟨hfinal, hserved, hlater⟩
  · intro hrun
    refine ⟨open_of_sourceEnd_eq_none h hrun, ?_⟩
    calc
      s.history.delivered ++ s.staging.drop s.pos ++ s.state.buf ++ s.inHand
          = s.history.delivered ++ (s.avail ++ s.state.buf) ++ s.inHand := by
            rw [← List.append_assoc s.history.delivered]
            rfl
      _ = s.history.appended ++ s.inHand := by rw [hpipe]
      _ = s.sourcedBytes := appended_append_inHand h hrun

/-- The source gives one byte and fails. -/
theorem endOfStream_failed :
    ∃ s, (system (BufferConfig.withCapacity 4 0 false)).Reachable s ∧
      s.history.results = [.ok (.read 10) [7], .err (.read 10) ⟨.connectionReset, ""⟩,
        .ok (.read 10) []] ∧
      sourceEnd s.history.sourced = some (some ⟨.connectionReset, ""⟩) ∧
      s.history.delivered = s.sourcedBytes := by
  have h0 : (system (BufferConfig.withCapacity 4 0 false)).Reachable
      (withCapacity (BufferConfig.withCapacity 4 0 false) (StatusData.default 0)) :=
    .init ⟨_, rfl⟩
  have h1 := h0.step (.inl (.lock rfl rfl))
  have h2 := h1.step (.inl (.startRead rfl rfl (by decide)))
  have h3 := h2.step (.inl (.endRead (.ok [7]) rfl (by decide)))
  have h4 := h3.step (.inl (.relock rfl rfl))
  have h5 := h4.step (.inl (.apply rfl rfl id))
  have h6 := h5.step (.inl (.notify rfl))
  have h7 := h6.step (.inl (.signal rfl))
  have h8 := h7.step (.inl (.lock rfl rfl))
  have h9 := h8.step (.inl (.startRead rfl rfl (by decide)))
  have h10 := h9.step (.inl (.endRead (.err ⟨.connectionReset, ""⟩) rfl (by decide)))
  have h11 := h10.step (.inl (.relock rfl rfl))
  have h12 := h11.step (.inl (.apply rfl rfl (by decide)))
  have h13 := h12.step (.inl (.notify rfl))
  have h14 := h13.step (.inl (.signal rfl))
  -- The byte comes first,
  have h15 := h14.step (.inr (.read rfl (show 0 < 10 by decide)))
  have h16 := h15.step (.inr (.clear rfl (by decide)))
  have h17 := h16.step (.inr (.lock rfl rfl))
  have h18 := h17.step (.inr (.stage rfl (by decide)))
  have h19 := h18.step (.inr (.notify rfl))
  have h20 := h19.step (.inr (.finish rfl))
  -- then the error, once,
  have h21 := h20.step (.inr (.read rfl (show 0 < 10 by decide)))
  have h22 := h21.step (.inr (.clear rfl (by decide)))
  have h23 := h22.step (.inr (.lock rfl rfl))
  have h24 := h23.step (.inr (.ended rfl rfl rfl))
  -- and then nothing.
  have h25 := h24.step (.inr (.read rfl (show 0 < 10 by decide)))
  have h26 := h25.step (.inr (.clear rfl (by decide)))
  have h27 := h26.step (.inr (.lock rfl rfl))
  have h28 := h27.step (.inr (.ended rfl rfl rfl))
  have h29 := h28.step (.inr (.finish rfl))
  have hall := endOfStream h29
  exact ⟨_, h29, rfl, rfl,
    (hall.1 _ (List.mem_append_right _ (List.mem_cons_self ..)) ⟨by decide, rfl⟩).2⟩

end SlimBuffer

end LmsProto
end LmsPlayer
