import LmsPlayer.Vibe.Redirect

/-!
# Vibe.HalfBroken — a connection that can only be read from

When a write to the server fails, the slim-write thread of the connection ends without a word.  The
slim-proto thread goes on reading, and with the receiver it keeps for the next connection it also
keeps the channel to the server connected.  So the event loop fills this channel and waits, the
slim-proto thread fills the channel to the event loop and waits, and nobody is left to take anything
(`Process.Deadlocked`).

As long as no write fails in the last slim-write thread of a connection that is still being served
(`LosesWriter`), this does not happen: whoever serves a connection has started a slim-write thread
for it (`Process.Staffed`).
-/

namespace LmsPlayer
namespace Vibe

open LmsProto
open Channel (Sends Blocked)
open ThreadPool (Replace)
open TransitionSystem (System)

/-! ## Who waits for whom -/

namespace ProtoPhase

/-- In `slim_rx_in.send`. -/
def Sending : ProtoPhase → Prop
  | forwarding _ (msg :: _) => ¬IsServ msg
  | redirecting _ _ => True
  | losing => True
  | _ => False

/-- In the serv loop, or on the way out of it. -/
def Serving : ProtoPhase → Prop
  | receiving _ => True
  | forwarding _ _ => True
  | redirecting _ _ => True
  | losing => True
  | _ => False

end ProtoPhase

namespace MainPhase

/-- In `slim_tx.send`. -/
def SendsToServer : MainPhase → Prop
  | loop (.toServer _ :: _) => True
  | resetting => True
  | _ => False

/-- In the event loop, the goodbye not sent yet. -/
def InLoop : MainPhase → Prop
  | loop _ => True
  | resetting => True
  | _ => False

end MainPhase

/-- The slim-proto thread is blocked in `slim_rx_in.send`. -/
def Pass.ProtoBlocked {O : Type} (p : Pass O) : Prop :=
  p.proto.phase.Sending ∧ Blocked (p.attached = true) SLIM_CAPACITY p.toMain

namespace Process

variable {O : Type}

/-- `main` is blocked in `slim_tx.send`. -/
def MainBlocked (s : Process O) : Prop :=
  s.main.SendsToServer ∧ Blocked s.pass.ServerConnected SLIM_CAPACITY s.pass.toServer

/-- Both are blocked, and there is no slim-write thread. -/
structure Deadlocked (s : Process O) : Prop where
  main : s.MainBlocked
  proto : s.pass.ProtoBlocked
  writers : s.pass.writers = []

end Process

/-! ## Once deadlocked, always deadlocked -/

section Frames

variable {O : Type} {cfg : Config} {k : Nat} {now : Instant} {g g' : Globals} {p p' : Pass O}
  {s t : Process O} {entries : List LogEntry}

theorem Pass.ProtoBlocked.not_protoStep (h : p.ProtoBlocked) :
    ¬ProtoStep cfg k now g p g' p' entries := by
  rcases h with ⟨hsending, hblocked⟩
  intro hstep
  cases hstep with
  | forward hpc hmsg hsend => exact Channel.exists_sends_iff.1 ⟨_, hsend⟩ hblocked
  | redirect hpc hsend => exact Channel.exists_sends_iff.1 ⟨_, hsend⟩ hblocked
  | lose hpc hsend => exact Channel.exists_sends_iff.1 ⟨_, hsend⟩ hblocked
  | skipServ hpc hip =>
      rw [hpc] at hsending
      exact hsending trivial
  | acceptServ hpc hip =>
      rw [hpc] at hsending
      exact hsending trivial
  | hello hpc | takeNew hpc hnew | takeCli hpc hnew hcli | discover ip hpc hnew hcli
    | notDiscovered hpc hnew hcli | connect hpc | connectFailed hpc | received msgs hpc hwire
    | lost hpc
    | panic hpc | batchDone hpc =>
      rw [hpc] at hsending
      exact hsending

/-- A slim-write thread that moves is there. -/
theorem writers_ne_nil_of_writerStep (h : WriterStep p p' entries) : p.writers ≠ [] := by
  cases h with
  | take hqueue hthread => exact List.ne_nil_of_mem hthread.mem
  | written hthread => exact List.ne_nil_of_mem hthread.mem
  | failed hthread => exact List.ne_nil_of_mem hthread.mem
  | disconnected hqueue hsenders hthread => exact List.ne_nil_of_mem hthread.mem

/-- What the other threads leave alone while nobody can send to the server. -/
theorem frame_of_threadStep (h : ThreadStep cfg k now g p g' p' entries) (hproto : p.ProtoBlocked)
    (hwriters : p.writers = []) (hserver : Blocked p.ServerConnected SLIM_CAPACITY p.toServer) :
    p'.proto = p.proto ∧ p'.toMain = p.toMain ∧ p'.attached = p.attached ∧ p'.writers = p.writers ∧
      p'.toServer = p.toServer := by
  cases h with
  | proto h => exact absurd h hproto.not_protoStep
  | writer h => exact absurd hwriters (writers_ne_nil_of_writerStep h)
  | connect h => cases h <;> exact ⟨rfl, rfl, rfl, rfl, rfl⟩
  | timer h =>
      cases h with
      | send hsend hthread => exact absurd hserver (Channel.exists_sends_iff.1 ⟨_, hsend⟩)
      | _ => exact ⟨rfl, rfl, rfl, rfl, rfl⟩
  | backend h => cases h <;> exact ⟨rfl, rfl, rfl, rfl, rfl⟩

namespace Process

theorem Deadlocked.of_pass_eq (h : s.Deadlocked) (hmain : t.main = s.main)
    (hproto : t.pass.proto = s.pass.proto) (htoMain : t.pass.toMain = s.pass.toMain)
    (hattached : t.pass.attached = s.pass.attached) (hwriters : t.pass.writers = s.pass.writers)
    (htoServer : t.pass.toServer = s.pass.toServer) : t.Deadlocked := by
  refine ⟨?_, ?_, hwriters.trans h.writers⟩
  · have hconnected : t.pass.ServerConnected ↔ s.pass.ServerConnected := by
      unfold Pass.ServerConnected Pass.ProtoAlive
      rw [hproto, hwriters]
    unfold MainBlocked Blocked
    rw [hmain, htoServer, hconnected]
    exact h.main
  · unfold Pass.ProtoBlocked
    rw [hproto, htoMain, hattached]
    exact h.proto

variable [AudioOutput O]

theorem MainBlocked.not_mainStep (h : s.MainBlocked) : ¬MainStep cfg s t entries := by
  rcases h with ⟨hsending, hblocked⟩
  intro hstep
  cases hstep with
  | sendToServer hmain hsend => exact Channel.exists_sends_iff.1 ⟨_, hsend⟩ hblocked
  | bye hmain hsend => exact Channel.exists_sends_iff.1 ⟨_, hsend⟩ hblocked
  | serverMessage opened hmain hqueue hdone | playerMessage hmain hqueue hdone
    | timeout hmain hserver hstream hdone | sendToSelf hmain hsend | lost hmain hqueue
    | disconnected hmain hqueue hended | restart hostname hmain =>
      rw [hmain] at hsending
      exact hsending

theorem Deadlocked.step (h : s.Deadlocked) (hstep : Step cfg s t) : t.Deadlocked := by
  cases hstep with
  | main hmoved => exact absurd hmoved h.main.not_mainStep
  | @thread k g' p' entries hrun hk hmoved =>
      by_cases hcurrent : k = s.current
      · subst hcurrent
        rcases frame_of_threadStep hmoved h.proto h.writers h.main.2 with
          ⟨hproto, htoMain, hattached, hwriters, htoServer⟩
        have hpass : (({ s.setPass s.current p' with globals := g' } : Process O).record
            entries).pass = p' := setPass_passes_self ..
        exact h.of_pass_eq rfl (by rw [hpass]; exact hproto) (by rw [hpass]; exact htoMain)
          (by rw [hpass]; exact hattached) (by rw [hpass]; exact hwriters)
          (by rw [hpass]; exact htoServer)
      · -- The thread of another pass has moved.
        have hpass : (({ s.setPass k p' with globals := g' } : Process O).record entries).pass =
            s.pass := setPass_passes_of_ne _ _ (Ne.symm hcurrent)
        exact h.of_pass_eq rfl (by rw [hpass]) (by rw [hpass]) (by rw [hpass]) (by rw [hpass])
          (by rw [hpass])
  | tick d => exact h.of_pass_eq rfl rfl rfl rfl rfl rfl

/-- Nobody gets out of it. -/
theorem Deadlocked.steps (h : s.Deadlocked) (hrun : (system O cfg).Steps s t) : t.Deadlocked :=
  System.Steps.invariant Deadlocked hrun h fun _ _ ha hstep => ha.step hstep

end Process

end Frames

/-! ## Connections with a slim-write thread -/

/-- A write fails in the only slim-write thread of a pass whose slim-proto thread still serves a
connection.  (A thread that ends because of a `Bye(1)` has written something.) -/
def LosesWriter {O : Type} (s t : Process O) : Prop :=
  ∃ k conn out, (s.passes k).proto.phase.Serving ∧
    (s.passes k).writers = [{ conn := conn, phase := .sending out }] ∧
    (t.passes k).writers = [] ∧ t.log = s.log

namespace Pass

variable {O : Type} {cfg : Config} {k : Nat} {now : Instant} {g g' : Globals} {p p' : Pass O}
  {entries : List LogEntry}

/-- There is a slim-write thread for every connection that is served, and none of them has been told
to end. -/
structure Staffed (p : Pass O) : Prop where
  attached : p.attached = true
  writers : p.proto.phase.Serving → p.writers ≠ []
  writing : ∀ w ∈ p.writers, ∀ out, w.phase = .sending out → out.msg ≠ .bye 1
  outgoing : ∀ out ∈ p.toServer, out.msg ≠ .bye 1
  timers : ∀ msg, TimerThread.sending msg ∈ p.timers → msg ≠ .bye 1

theorem Staffed.start (cfg : Config) (now : Instant) (name : String) (reconnect : Bool) :
    (start cfg now name reconnect : Pass O).Staffed :=
  { attached := rfl
    writers := fun hserving => hserving.elim
    writing := fun _ hw => absurd hw List.not_mem_nil
    outgoing := fun _ hout => absurd hout List.not_mem_nil
    timers := fun _ ht => absurd ht List.not_mem_nil }

theorem Staffed.protoStep (hp : p.Staffed) (h : ProtoStep cfg k now g p g' p' entries) :
    p'.Staffed := by
  cases h with
  | connect hpc =>
      refine { hp with writers := fun _ =>
        List.append_ne_nil_of_right_ne_nil _ nofun, writing := ?_ }
      intro w hw out hout
      rcases List.mem_append.1 hw with hold | hnew
      · exact hp.writing w hold out hout
      · rw [List.mem_singleton.1 hnew] at hout
        cases hout
  | received msgs hpc hwire | lost hpc | batchDone hpc | skipServ hpc hip | acceptServ hpc hip
    | forward hpc hmsg hsend =>
      -- The connection has been served before.
      refine { hp with writers := fun _ => hp.writers ?_ }
      rw [hpc]
      trivial
  | hello | takeNew | takeCli | discover | notDiscovered | connectFailed | panic | redirect
    | lose => exact { hp with writers := fun hserving => hserving.elim }

/-- The slim-write threads, unless the last one fails. -/
theorem Staffed.writerStep (hp : p.Staffed) (h : WriterStep p p' entries)
    (hok : ∀ conn out, p.proto.phase.Serving →
      p.writers = [{ conn := conn, phase := .sending out }] →
      p'.writers = [] → entries ≠ []) : p'.Staffed := by
  cases h with
  | take hqueue hthread =>
      rename_i conn out rest writers
      have hout : ∀ o ∈ out :: rest, o.msg ≠ .bye 1 := hqueue ▸ hp.outgoing
      refine { hp with writers := fun _ => hthread.ne_nil, writing := ?_, outgoing := ?_ }
      · refine hthread.forall_mem hp.writing ?_
        rintro w hw o ho
        cases hw
        cases ho
        exact hout out (List.mem_cons_self ..)
      · exact fun o ho => hout o (List.mem_cons_of_mem _ ho)
  | written hthread =>
      rename_i conn out writers
      -- Only a goodbye would end the thread.
      have hmsg : out.msg ≠ .bye 1 := hp.writing _ hthread.mem out rfl
      have hgoes : writerMessage out.msg = (out.msg, false) := if_neg hmsg
      rw [hgoes] at hthread
      refine { hp with writers := fun _ => hthread.ne_nil, writing := ?_ }
      refine hthread.forall_mem hp.writing ?_
      rintro w hw o ho
      cases hw
      cases ho
  | failed hthread =>
      rename_i conn out writers
      refine
        { hp with
          writers := ?_
          writing := hthread.forall_mem hp.writing (fun w hw => by cases hw) }
      intro hserving hempty
      exact hok conn out hserving (hthread.eq_singleton hempty) hempty rfl
  | disconnected hqueue hsenders hthread =>
      -- `main` still holds a sender.
      have hgone : p.attached = false := hsenders.1
      rw [hp.attached] at hgone
      cases hgone

theorem Staffed.threadStep (hp : p.Staffed) (h : ThreadStep cfg k now g p g' p' entries)
    (hok : ∀ conn out, p.proto.phase.Serving →
      p.writers = [{ conn := conn, phase := .sending out }] →
      p'.writers = [] → entries ≠ []) : p'.Staffed := by
  cases h with
  | proto h => exact hp.protoStep h
  | writer h => exact hp.writerStep h hok
  | connect h => cases h <;> exact { hp with }
  | timer h =>
      cases h with
      | unpause hwake hsend hthread =>
          refine { hp with timers := fun msg hmem => ?_ }
          exact hthread.forall_mem (P := fun t => ∀ msg, t = .sending msg → msg ≠ .bye 1)
            (fun t ht msg hmsg => hp.timers msg (hmsg ▸ ht)) (fun t ht => by cases ht) _
              hmem msg rfl
      | resume hwake hsend hthread =>
          refine { hp with timers := fun msg hmem => ?_ }
          refine hthread.forall_mem (P := fun t => ∀ msg, t = .sending msg → msg ≠ .bye 1)
            (fun t ht msg hmsg => hp.timers msg (hmsg ▸ ht)) ?_ _ hmem msg rfl
          rintro t ht msg hmsg
          cases ht
          cases hmsg
      | report hthread =>
          refine { hp with timers := fun msg hmem => ?_ }
          refine hthread.forall_mem (P := fun t => ∀ msg, t = .sending msg → msg ≠ .bye 1)
            (fun t ht msg hmsg => hp.timers msg (hmsg ▸ ht)) ?_ _ hmem msg rfl
          -- It is a status report.
          rintro t ht msg hmsg
          cases ht
          cases hmsg
          nofun
      | send hsend hthread =>
          refine { hp with outgoing := ?_, timers := fun msg hmem => ?_ }
          · exact hsend.forall_mem hp.outgoing (hp.timers _ hthread.mem)
          · exact hthread.forall_mem (P := fun t => ∀ msg, t = .sending msg → msg ≠ .bye 1)
              (fun t ht msg hmsg => hp.timers msg (hmsg ▸ ht)) (fun t ht => by cases ht) _ hmem msg
              rfl
  | backend h => cases h <;> exact { hp with }

theorem Staffed.absorb (hp : p.Staffed) (origin : Nat) (done : Player O) :
    (p.absorb origin now done).Staffed := by
  refine { hp with timers := ?_ }
  intro msg hmem
  rcases List.mem_append.1 hmem with hold | hnew
  · exact hp.timers msg hold
  · rcases List.mem_filterMap.1 hnew with ⟨thread, _, hthread⟩
    cases thread with
    | pauseTimer interval => cases hthread
    | resumeTimer dur playTime => cases hthread
    | streamConnect request => cases hthread

end Pass

namespace Process

variable {O : Type} {s t : Process O}

/-- As long as `main` is in the event loop, its pass is staffed, and `main` does not say goodbye. -/
def Staffed (s : Process O) : Prop :=
  s.main.InLoop → s.pass.Staffed ∧
    ∀ pending, s.main = .loop pending → ∀ val, Send.toServer (.bye val) ∉ pending

theorem not_deadlocked_of_staffed (hs : s.Staffed) : ¬s.Deadlocked := by
  intro hdead
  have hloop : s.main.InLoop := by
    have hsending := hdead.main.1
    cases hmain : s.main with
    | loop pending => trivial
    | resetting => trivial
    | leaving =>
        rw [hmain] at hsending
        exact hsending
    | exited =>
        rw [hmain] at hsending
        exact hsending
  have hserving : s.pass.proto.phase.Serving := by
    have hsending := hdead.proto.1
    cases hphase : s.pass.proto.phase with
    | receiving conn => trivial
    | forwarding conn msgs => trivial
    | redirecting ip sgid => trivial
    | losing => trivial
    | _ =>
        rw [hphase] at hsending
        exact hsending.elim
  exact (hs hloop).1.writers hserving hdead.writers

/-- `main` has changed the pass it is in, and goes on. -/
theorem Staffed.move {p : Pass O} {main : MainPhase} {reconnect : Bool} {entries : List LogEntry}
    (hp : main.InLoop → p.Staffed)
    (hpending : ∀ pending, main = .loop pending → ∀ val, Send.toServer (.bye val) ∉ pending) :
    (({ s.setPass s.current p with
        main := main
        reconnect := reconnect } : Process O).record entries).Staffed := by
  intro hloop
  refine ⟨?_, hpending⟩
  show ((s.setPass s.current p).passes s.current).Staffed
  rw [setPass_passes_self]
  exact hp hloop

theorem Staffed.finish {p : Pass O} {done : Player O} {entries : List LogEntry} (hp : p.Staffed)
    (hstays : ∀ val, Send.toServer (.bye val) ∉ done.sends) :
    ((s.finish p done).record entries).Staffed := by
  intro _
  refine ⟨?_, ?_⟩
  · show ((s.finish p done).passes s.current).Staffed
    rw [finish_passes_self]
    exact hp.absorb _ _
  · rintro pending hmain
    cases hmain
    exact hstays

end Process

section Main

variable {O : Type} [AudioOutput O] {cfg : Config} {s t : Process O} {entries : List LogEntry}

theorem staffed_of_mainStep (hwired : s.pass.Wired cfg s.current) (h : MainStep cfg s t entries)
    (hs : s.Staffed) : (t.record entries).Staffed := by
  have hloop : ∀ pending, s.main = .loop pending → s.pass.Staffed := by
    intro pending hmain
    exact (hs (by rw [hmain]; trivial)).1
  cases h with
  | serverMessage opened hmain hqueue hdone =>
      subst hdone
      refine Process.Staffed.finish { hloop _ hmain with } ?_
      exact (handled_of_serverMessage hwired opened hqueue).stays
  | playerMessage hmain hqueue hdone =>
      subst hdone
      refine Process.Staffed.finish { hloop _ hmain with } ?_
      exact (s.handled_player.handlePlayerMessage _).stays
  | timeout hmain hserver hstream hdone =>
      subst hdone
      exact Process.Staffed.finish (hloop _ hmain) s.handled_player.onTimeout.stays
  | sendToServer hmain hsend =>
      rename_i msg pending queue
      have hsent : msg ≠ .bye 1 := by
        intro hbye
        have hnot := (hs (by rw [hmain]; trivial)).2 _ hmain 1
        rw [hbye] at hnot
        exact hnot (List.mem_cons_self ..)
      refine Process.Staffed.move (fun _ => ?_) ?_
      · exact { hloop _ hmain with outgoing := hsend.forall_mem (hloop _ hmain).outgoing hsent }
      · rintro rest hrest val hmem
        cases hrest
        exact (hs (by rw [hmain]; trivial)).2 _ hmain val (List.mem_cons_of_mem _ hmem)
  | sendToSelf hmain hsend =>
      refine Process.Staffed.move (fun _ => { hloop _ hmain with }) ?_
      rintro rest hrest val hmem
      cases hrest
      exact (hs (by rw [hmain]; trivial)).2 _ hmain val (List.mem_cons_of_mem _ hmem)
  | lost hmain hqueue =>
      refine Process.Staffed.move (fun _ => { hloop _ hmain with }) ?_
      intro pending hpending
      cases hpending
  | disconnected hmain hqueue hended =>
      intro hin
      exact hin.elim
  | bye hmain hsend =>
      -- Only now the slim-write thread is told to end.
      refine Process.Staffed.move (fun hin => hin.elim) ?_
      intro pending hpending
      cases hpending
  | restart hostname hmain =>
      intro _
      refine ⟨?_, ?_⟩
      · show (((s.setPass _ _).setPass (s.current + 1) _).passes (s.current + 1)).Staffed
        rw [Process.setPass_passes_self]
        exact .start _ _ _ _
      · rintro pending hpending
        cases hpending
        exact fun _ => List.not_mem_nil

omit [AudioOutput O] in
theorem staffed_of_threadStep {k : Nat} {g' : Globals} {p' : Pass O} (hs : s.Staffed)
    (h : ThreadStep cfg k s.now s.globals (s.passes k) g' p' entries)
    (hok : ¬LosesWriter s (({ s.setPass k p' with globals := g' } : Process O).record entries)) :
    (({ s.setPass k p' with globals := g' } : Process O).record entries).Staffed := by
  intro hin
  rcases hs hin with ⟨hstaffed, hpending⟩
  refine ⟨?_, hpending⟩
  show ((s.setPass k p').passes s.current).Staffed
  by_cases hk : s.current = k
  · subst hk
    rw [Process.setPass_passes_self]
    refine hstaffed.threadStep h ?_
    rintro conn out hserving hwriters hempty rfl
    refine hok ⟨s.current, conn, out, hserving, hwriters, ?_, List.append_nil _⟩
    show ((s.setPass s.current p').passes s.current).writers = []
    rw [Process.setPass_passes_self]
    exact hempty
  · rw [Process.setPass_passes_of_ne _ _ hk]
    exact hstaffed

/-- **No deadlock on a connection that is written to**, in every run in which no write fails in the
last slim-write thread of a connection that is still being served; and a deadlock, where there is
one, is one for ever. -/
theorem not_deadlocked (cfg : Config) :
    (∀ s : Process O, ((system O cfg).restrict fun s t => ¬LosesWriter s t).Reachable s →
      ¬s.Deadlocked) ∧
    ∀ s t : Process O, s.Deadlocked → (system O cfg).Steps s t → t.Deadlocked := by
  refine ⟨?_, fun s t hdead hrun => hdead.steps hrun⟩
  intro s h
  have hstaffed : s.Staffed := by
    refine System.Reachable.invariant Process.Staffed ?_ ?_ h
    · rintro s ⟨now, hostname, rfl⟩ _
      refine ⟨.start _ _ _ _, ?_⟩
      rintro pending hpending
      cases hpending
      exact fun _ => List.not_mem_nil
    · intro s t hs ih hstep
      rcases hstep with ⟨hstep, hok⟩
      cases hstep with
      | main hmoved => exact staffed_of_mainStep (wired hs.of_restrict _) hmoved ih
      | thread hrun hk hmoved => exact staffed_of_threadStep ih hmoved hok
      | tick d => exact ih
  exact Process.not_deadlocked_of_staffed hstaffed

end Main

/-! ## Two runs -/

section Runs

variable {O : Type} {cfg : Config} {s t : Process O} {entries : List LogEntry}

theorem not_losesWriter (hkept : ∀ k, (s.passes k).writers ≠ [] → (t.passes k).writers ≠ []) :
    ¬LosesWriter s t := by
  rintro ⟨k, conn, out, _, hwriters, hempty, _⟩
  refine hkept k ?_ hempty
  rw [hwriters]
  nofun

variable [AudioOutput O]

/-- A thread moves that leaves a slim-write thread where there was one. -/
theorem restrict_writers {k : Nat} {g' : Globals} {p' : Pass O} (hrun : s.main ≠ .exited)
    (hk : k ≤ s.current) (h : ThreadStep cfg k s.now s.globals (s.passes k) g' p' entries)
    (hkept : (s.passes k).writers ≠ [] → p'.writers ≠ []) :
    ((system O cfg).restrict fun s t => ¬LosesWriter s t).step s
      (({ s.setPass k p' with globals := g' } : Process O).record entries) := by
  refine ⟨.thread hrun hk h, not_losesWriter ?_⟩
  intro j hj
  by_cases hjk : j = k
  · subst hjk
    show ((s.setPass j p').passes j).writers ≠ []
    rw [Process.setPass_passes_self]
    exact hkept hj
  · show ((s.setPass k p').passes j).writers ≠ []
    rw [Process.setPass_passes_of_ne _ _ hjk]
    exact hj

theorem restrict_proto {k : Nat} {g' : Globals} {p' : Pass O} (hrun : s.main ≠ .exited)
    (hk : k ≤ s.current) (h : ProtoStep cfg k s.now s.globals (s.passes k) g' p' entries) :
    ((system O cfg).restrict fun s t => ¬LosesWriter s t).step s
      (({ s.setPass k p' with globals := g' } : Process O).record entries) := by
  refine restrict_writers hrun hk (.proto h) ?_
  intro hwriters
  cases h with
  | connect hpc => exact List.append_ne_nil_of_right_ne_nil _ nofun
  | _ => exact hwriters

/-- `main` touches no slim-write thread. -/
theorem restrict_loop (h : MainStep cfg s t entries) (hmain : s.main ≠ .leaving) :
    ((system O cfg).restrict fun s t => ¬LosesWriter s t).step s (t.record entries) := by
  refine ⟨.main h, not_losesWriter ?_⟩
  intro k hk
  have hsame : (t.passes k).writers = (s.passes k).writers := by
    cases h with
    | disconnected => rfl
    | restart hostname hleaving => exact absurd hleaving hmain
    | _ =>
        exact Process.setPass_induction (P := fun p => p.writers = (s.passes k).writers)
          (fun hj => hj) rfl
  show (t.passes k).writers ≠ []
  rw [hsame]
  exact hk

end Runs

/-- The server asks for the name, and the answer takes its time. -/
theorem not_deadlocked_slowWrite : ∃ s : Process PulseOutput,
    ((system PulseOutput cliConfig).restrict fun s t => ¬LosesWriter s t).Reachable s ∧
      s.pass.proto.phase.Serving ∧ ¬s.Deadlocked := by
  have h0 : ((system PulseOutput cliConfig).restrict fun s t => ¬LosesWriter s t).Reachable
      (Process.start cliConfig 0 none) := .init ⟨0, none, rfl⟩
  have h1 := h0.step (restrict_proto nofun (le_refl 0) (.hello rfl))
  have h2 := h1.step (restrict_proto nofun (le_refl 0) (.takeCli rfl rfl rfl))
  have h3 := h2.step (restrict_proto nofun (le_refl 0) (.connect rfl))
  have h4 := h3.step
    (restrict_proto nofun (le_refl 0) (.received [.queryname] rfl (onWire_queryname 1)))
  have h5 := h4.step
    (restrict_proto nofun (le_refl 0) (.forward rfl id (.queued rfl (by decide))))
  have h6 := h5.step (restrict_loop (.serverMessage none rfl rfl rfl) nofun)
  have h7 := h6.step (restrict_loop (.sendToServer rfl (.queued (Or.inl nofun) (by decide))) nofun)
  have h8 := h7.step (restrict_writers nofun (le_refl 0) (.writer (.take rfl (.mk [] []))) nofun)
  exact ⟨_, h8, trivial, (not_deadlocked cliConfig).1 _ h8⟩

/-- The server asks for the name five times, and the first answer cannot be written. -/
theorem exists_deadlocked : ∃ s : Process PulseOutput,
    (system PulseOutput cliConfig).Reachable s ∧ s.Deadlocked := by
  have h0 : (system PulseOutput cliConfig).Reachable (Process.start cliConfig 0 none) :=
    .init ⟨0, none, rfl⟩
  have h1 := reachable_of_threadRun h0 Step.thread nofun (le_refl 0)
    (.cons (.proto (.hello rfl)) <|
      .cons (.proto (.takeCli rfl rfl rfl)) <|
      .cons (.proto (.connect rfl)) <|
      .cons (.proto (.received (List.replicate 5 .queryname) rfl (onWire_queryname 5))) <|
      .cons (.proto (.forward rfl id (.queued rfl (by decide)))) .nil)
  have h2 := h1.step (.main (.serverMessage none rfl rfl rfl))
  have h3 := h2.step (.main (.sendToServer rfl (.queued (Or.inl nofun) (by decide))))
  -- The write fails, and reading goes on.
  have h4 := reachable_of_threadRun h3 Step.thread nofun (le_refl 0)
    (.cons (.writer (.take rfl (.mk [] []))) <|
      .cons (.writer (.failed (.mk [] []))) <|
      .cons (.proto (.forward rfl id (.queued rfl (by decide)))) .nil)
  -- The second answer stays in the channel, and there is no room for the third one.
  have h5 := h4.step (.main (.serverMessage none rfl rfl rfl))
  have h6 := h5.step (.main (.sendToServer rfl (.queued (Or.inl nofun) (by decide))))
  have h7 := reachable_of_threadRun h6 Step.thread nofun (le_refl 0)
    (.cons (.proto (.forward rfl id (.queued rfl (by decide)))) .nil)
  have h8 := h7.step (.main (.serverMessage none rfl rfl rfl))
  have h9 := reachable_of_threadRun h8 Step.thread nofun (le_refl 0)
    (.cons (.proto (.forward rfl id (.queued rfl (by decide)))) .nil)
  refine ⟨_, h9, ?_⟩
  exact ⟨⟨trivial, Or.inl nofun, by decide⟩, ⟨id, rfl, by decide⟩, rfl⟩

end Vibe
end LmsPlayer
