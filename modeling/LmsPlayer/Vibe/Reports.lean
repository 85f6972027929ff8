import LmsPlayer.Vibe.Wiring

/-!
# Vibe.Reports — what holds of every status report

A status report is a copy of `STATUS` at some instant, which then goes through a channel and a
slim-write thread before it is written.  So whatever holds of `STATUS` at its creation, and is kept
by everybody who writes to it, holds of every report that is written to a server (`reported`).
-/

namespace LmsPlayer
namespace Vibe

open LmsProto
open Channel (Sends)
open ThreadPool (Replace)
open TransitionSystem (System)

/-- If the message is a status report, `Q` holds of its status. -/
def Reports (Q : StatusData → Prop) : ClientMessage → Prop
  | .stat _ status => Q status
  | _ => True

theorem Reports.imp {Q R T : StatusData → Prop} (h : ∀ status, Q status → R status → T status)
    {msg : ClientMessage} (hQ : Reports Q msg) (hR : Reports R msg) : Reports T msg := by
  cases msg with
  | stat code status => exact h status hQ hR
  | _ => trivial

/-- `Q` holds of `STATUS`, also if that is created only now. -/
def Globals.StatusIs (Q : StatusData → Prop) (g : Globals) : Prop := ∀ now, Q (g.lockStatus now)

/-- `Q` holds of a new status block, and is kept by the event loop and the timers. -/
structure Kept (Q : StatusData → Prop) : Prop where
  default : ∀ now, Q (.default now)
  written : ∀ s t, Player.Written s t → Q s → Q t

/-- It does not matter when `STATUS` is looked at. -/
theorem Kept.statusIs {Q : StatusData → Prop} (hQ : Kept Q) {g : Globals} {now : Instant}
    (h : Q (g.lockStatus now)) : g.StatusIs Q := by
  intro now'
  cases hstatus : g.status with
  | some status => simpa [Globals.lockStatus, hstatus] using h
  | none => simpa [Globals.lockStatus, hstatus] using hQ.default now'

namespace Pass

variable {O : Type} {cfg : Config} {k : Nat} {now : Instant} {g g' : Globals} {p p' : Pass O}
  {entries : List LogEntry} {Q : StatusData → Prop}

/-- `Q` holds of all status reports on their way to the server. -/
structure AllReports (Q : StatusData → Prop) (p : Pass O) : Prop where
  outgoing : ∀ out ∈ p.toServer, Reports Q out.msg
  writers : ∀ w ∈ p.writers, ∀ out, w.phase = .sending out → Reports Q out.msg
  timers : ∀ t ∈ p.timers, ∀ msg, t = .sending msg → Reports Q msg

theorem AllReports.start (cfg : Config) (now : Instant) (name : String) (reconnect : Bool) :
    (start cfg now name reconnect : Pass O).AllReports Q :=
  { outgoing := fun _ hout => absurd hout List.not_mem_nil
    writers := fun _ hw => absurd hw List.not_mem_nil
    timers := fun _ ht => absurd ht List.not_mem_nil }

/-- A timer that has just been started sends nothing yet. -/
theorem AllReports.absorb (hp : p.AllReports Q) (origin : Nat) (now : Instant) (done : Player O) :
    (p.absorb origin now done).AllReports Q := by
  refine { hp with timers := ?_ }
  rintro t ht msg rfl
  rcases List.mem_append.1 ht with hold | hnew
  · exact hp.timers _ hold msg rfl
  · rcases List.mem_filterMap.1 hnew with ⟨thread, _, hthread⟩
    cases thread <;> cases hthread

theorem AllReports.writerStep (hp : p.AllReports Q) (h : WriterStep p p' entries) :
    p'.AllReports Q := by
  cases h with
  | take hqueue hthread =>
      rename_i conn out rest writers
      have hout : ∀ o ∈ out :: rest, Reports Q o.msg := hqueue ▸ hp.outgoing
      refine
        { hp with
          outgoing := fun o ho => hout o (List.mem_cons_of_mem _ ho)
          writers := hthread.forall_mem hp.writers ?_ }
      rintro w hw o ho
      cases hw
      cases ho
      exact hout out (List.mem_cons_self ..)
  | written hthread =>
      refine { hp with writers := hthread.forall_mem hp.writers ?_ }
      intro w hw
      split_ifs at hw
      cases hw
      exact fun o ho => by cases ho
  | failed hthread =>
      exact { hp with writers := hthread.forall_mem hp.writers fun w hw => by cases hw }
  | disconnected hqueue hsenders hthread =>
      exact { hp with writers := hthread.forall_mem hp.writers fun w hw => by cases hw }

theorem AllReports.timerStep (hp : p.AllReports Q) (hQ : Kept Q) (hstatus : g.StatusIs Q)
    (h : TimerStep k now g p g' p') :
    p'.AllReports Q := by
  cases h with
  | unpause hwake hsend hthread =>
      exact { hp with timers := hthread.forall_mem hp.timers fun t ht => by cases ht }
  | resume hwake hsend hthread =>
      refine { hp with timers := hthread.forall_mem hp.timers ?_ }
      rintro t ht msg hmsg
      cases ht
      cases hmsg
  | report hthread =>
      refine { hp with timers := hthread.forall_mem hp.timers ?_ }
      rintro t ht msg hmsg
      cases ht
      cases hmsg
      exact hQ.written _ _ (.jiffies _) (hQ.written _ _ (.elapsed _) (hstatus now))
  | send hsend hthread =>
      refine
        { hp with
          outgoing := hsend.forall_mem hp.outgoing (hp.timers _ hthread.mem _ rfl)
          timers := hthread.forall_mem hp.timers fun t ht => by cases ht }

/-- The threads of a pass bring the reports further, and a timer makes one of `STATUS`. -/
theorem AllReports.threadStep (hp : p.AllReports Q) (hQ : Kept Q) (hstatus : g.StatusIs Q)
    (h : ThreadStep cfg k now g p g' p' entries) : p'.AllReports Q := by
  cases h with
  | proto h =>
      cases h with
      | connect hpc =>
          refine { hp with writers := ?_ }
          intro w hw out hout
          rcases List.mem_append.1 hw with hold | hnew
          · exact hp.writers w hold out hout
          · cases List.mem_singleton.1 hnew
            cases hout
      | _ => exact { hp with }
  | writer h => exact hp.writerStep h
  | connect h => cases h <;> exact { hp with }
  | timer h => exact hp.timerStep hQ hstatus h
  | backend h => cases h <;> exact { hp with }

/-- A report that is written has been on its way. -/
theorem AllReports.of_wrote (hp : p.AllReports Q) (h : ThreadStep cfg k now g p g' p' entries)
    {conn : Connection} {sender : Nat} {msg : ClientMessage}
    (he : .wrote conn sender msg ∈ entries) :
    Reports Q msg := by
  cases h with
  | proto h => cases h <;> simp at he
  | connect h => cases h <;> simp at he
  | timer h => exact absurd he List.not_mem_nil
  | backend h => exact absurd he List.not_mem_nil
  | writer h =>
      cases h with
      | written hthread =>
          rename_i conn' out writers
          cases List.mem_singleton.1 he
          unfold writerMessage
          split_ifs
          · trivial
          · exact hp.writers _ hthread.mem out rfl
      | _ => exact absurd he List.not_mem_nil

end Pass

namespace Process

variable {O : Type} {s : Process O} {Q : StatusData → Prop}

/-- `Q` holds of `STATUS`, of all reports on their way, and of all that have been written. -/
structure AllReports (Q : StatusData → Prop) (s : Process O) : Prop where
  status : s.globals.StatusIs Q
  passes : ∀ k, (s.passes k).AllReports Q
  pending : ∀ sends, s.main = .loop sends → ∀ msg, Send.toServer msg ∈ sends → Reports Q msg
  wrote : ∀ conn sender msg, .wrote conn sender msg ∈ s.log → Reports Q msg

/-- What follows from two facts about a status block. -/
theorem AllReports.imp {R T : StatusData → Prop} (h : ∀ status, Q status → R status → T status)
    (hQ : s.AllReports Q) (hR : s.AllReports R) : s.AllReports T :=
  { status := fun now => h _ (hQ.status now) (hR.status now)
    passes := fun k =>
      { outgoing := fun out hout =>
          .imp h ((hQ.passes k).outgoing out hout) ((hR.passes k).outgoing out hout)
        writers := fun w hw out hout =>
          .imp h ((hQ.passes k).writers w hw out hout) ((hR.passes k).writers w hw out hout)
        timers := fun t ht msg hmsg =>
          .imp h ((hQ.passes k).timers t ht msg hmsg) ((hR.passes k).timers t ht msg hmsg) }
    pending := fun sends hsends msg hmsg =>
      .imp h (hQ.pending sends hsends msg hmsg) (hR.pending sends hsends msg hmsg)
    wrote := fun conn sender msg hmem =>
      .imp h (hQ.wrote conn sender msg hmem) (hR.wrote conn sender msg hmem) }

/-- A handler has run, and has found the pass as `p`. -/
theorem AllReports.finish (hs : s.AllReports Q) (hQ : Kept Q) {p : Pass O} {done : Player O}
    {e : LogEntry} (hdone : Player.Handled s.now s.pass.ctx s.globals done) (hp : p.AllReports Q)
    (he : e.ByMain) : ((s.finish p done).record [e]).AllReports Q := by
  refine ⟨hQ.statusIs (hdone.writes.keep hQ.written (hs.status s.now)), ?_, ?_, ?_⟩
  · intro k
    exact setPass_induction (fun _ => hp.absorb _ _ done) (hs.passes k)
  · rintro sends hsends msg hmsg
    cases hsends
    cases msg with
    | stat code status => exact (hdone.reported code status hmsg).keep hQ.written (hs.status s.now)
    | _ => trivial
  · intro conn sender msg hmem
    rcases List.mem_append.1 hmem with hold | hnew
    · exact hs.wrote conn sender msg hold
    · cases List.mem_singleton.1 hnew
      exact he.elim

/-- Anything else that `main` does to the pass it is in. -/
theorem AllReports.move (hs : s.AllReports Q) {p : Pass O} {main : MainPhase} {reconnect : Bool}
    {entries : List LogEntry} (hp : p.AllReports Q) (hentries : ∀ e ∈ entries, e.ByMain)
    (hpending : ∀ sends, main = .loop sends → ∀ msg, Send.toServer msg ∈ sends → Reports Q msg) :
    (({ s.setPass s.current p with
        main := main
        reconnect := reconnect } : Process O).record entries).AllReports Q := by
  refine ⟨hs.status, ?_, hpending, ?_⟩
  · intro k
    exact setPass_induction (fun _ => hp) (hs.passes k)
  · intro conn sender msg hmem
    rcases List.mem_append.1 hmem with hold | hnew
    · exact hs.wrote conn sender msg hold
    · exact (hentries _ hnew).elim

end Process

section Main

variable {O : Type} [AudioOutput O] {cfg : Config} {s t : Process O} {entries : List LogEntry}
  {Q : StatusData → Prop}

theorem allReports_of_mainStep (hwired : s.pass.Wired cfg s.current) (hQ : Kept Q)
    (hs : s.AllReports Q) (h : MainStep cfg s t entries) : (t.record entries).AllReports Q := by
  have hpass : s.pass.AllReports Q := hs.passes s.current
  cases h with
  | serverMessage opened hmain hqueue hdone =>
      subst hdone
      exact hs.finish hQ (handled_of_serverMessage hwired opened hqueue) { hpass with } trivial
  | playerMessage hmain hqueue hdone =>
      subst hdone
      exact hs.finish hQ (s.handled_player.handlePlayerMessage _) { hpass with } trivial
  | timeout hmain hserver hstream hdone =>
      subst hdone
      exact hs.finish hQ s.handled_player.onTimeout hpass trivial
  | sendToServer hmain hsend =>
      rename_i msg pending queue
      have hmsg : Reports Q msg := hs.pending _ hmain msg (List.mem_cons_self ..)
      refine hs.move { hpass with outgoing := hsend.forall_mem hpass.outgoing hmsg }
        (fun e he => absurd he List.not_mem_nil) ?_
      rintro sends hsends m hm
      cases hsends
      exact hs.pending _ hmain m (List.mem_cons_of_mem _ hm)
  | sendToSelf hmain hsend =>
      refine hs.move { hpass with } (fun e he => absurd he List.not_mem_nil) ?_
      rintro sends hsends m hm
      cases hsends
      exact hs.pending _ hmain m (List.mem_cons_of_mem _ hm)
  | lost hmain hqueue =>
      refine hs.move { hpass with } ?_ (fun sends hsends => by cases hsends)
      intro e he
      rw [List.mem_singleton.1 he]
      trivial
  | disconnected hmain hqueue hended =>
      refine ⟨hs.status, hs.passes, (fun sends hsends => by cases hsends), ?_⟩
      intro conn sender msg hmem
      rw [Process.record, List.append_nil] at hmem
      exact hs.wrote conn sender msg hmem
  | bye hmain hsend =>
      exact hs.move { hpass with outgoing := hsend.forall_mem hpass.outgoing trivial }
        (fun e he => absurd he List.not_mem_nil) (fun sends hsends => by cases hsends)
  | restart hostname hmain =>
      have hdetached : (s.setPass s.current s.pass.detach).AllReports Q := by
        refine ⟨hs.status, ?_, hs.pending, hs.wrote⟩
        intro k
        exact Process.setPass_induction (fun _ => { hpass with }) (hs.passes k)
      refine ⟨hs.status, ?_, ?_, ?_⟩
      · intro k
        exact Process.setPass_induction (fun _ => .start _ _ _ _) (hdetached.passes k)
      · rintro sends hsends msg hmsg
        cases hsends
        exact absurd hmsg List.not_mem_nil
      · intro conn sender msg hmem
        rw [Process.record, List.append_nil] at hmem
        exact hs.wrote conn sender msg hmem

omit [AudioOutput O] in
theorem allReports_of_threadStep (hQ : Kept Q) (hs : s.AllReports Q) {k : Nat} {g' : Globals}
    {p' : Pass O} (h : ThreadStep cfg k s.now s.globals (s.passes k) g' p' entries)
    (hstatus : Q (g'.lockStatus s.now)) :
    (({ s.setPass k p' with globals := g' } : Process O).record entries).AllReports Q := by
  refine ⟨hQ.statusIs hstatus, ?_, hs.pending, ?_⟩
  · intro j
    exact Process.setPass_induction (fun hk => hk.threadStep hQ hs.status h) (hs.passes j)
  · intro conn sender msg hmem
    rcases List.mem_append.1 hmem with hold | hnew
    · exact hs.wrote conn sender msg hold
    · exact (hs.passes k).of_wrote h hnew

/-- **What holds of `STATUS` holds of what is reported of it**, in every run whose steps meet `ok`:
of every status report on its way or written to a server, if the threads that write to `STATUS` keep
it. -/
theorem allReports (hQ : Kept Q) {ok : Process O → Process O → Prop}
    (hthread : ∀ (s : Process O) (k : Nat) (g' : Globals) (p' : Pass O) (entries : List LogEntry),
      ((system O cfg).restrict ok).Reachable s → s.AllReports Q →
      ThreadStep cfg k s.now s.globals (s.passes k) g' p' entries →
      ok s (({ s.setPass k p' with globals := g' } : Process O).record entries) →
      Q (g'.lockStatus s.now))
    (h : ((system O cfg).restrict ok).Reachable s) : s.AllReports Q := by
  refine System.Reachable.invariant (Process.AllReports Q) ?_ ?_ h
  · rintro s ⟨now, hostname, rfl⟩
    refine ⟨fun now' => hQ.default now', fun k => .start _ _ _ _, ?_, ?_⟩
    · rintro sends hsends msg hmsg
      cases hsends
      exact absurd hmsg List.not_mem_nil
    · exact fun conn sender msg hmem => absurd hmem List.not_mem_nil
  · intro s t hs ih hstep
    rcases hstep with ⟨hstep, hok⟩
    cases hstep with
    | main hmoved => exact allReports_of_mainStep (wired hs.of_restrict _) hQ ih hmoved
    | thread hrun hk hmoved =>
        exact allReports_of_threadStep hQ ih hmoved (hthread _ _ _ _ _ hs ih hmoved hok)
    | tick d => exact ⟨ih.status, ih.passes, ih.pending, ih.wrote⟩

end Main

end Vibe
end LmsPlayer
