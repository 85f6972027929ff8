import LmsPlayer.Vibe.Pass
import LmsPlayer.Library.TransitionSystem
import Mathlib.Data.List.Basic

/-!
# Vibe.Process — the event loop and the whole program

A `Process` is the program while it runs: the passes of the reconnect loop made so far, each with
its threads, the thread of `main`, and the global state.  Passes are numbered from zero; `main` is
in the event loop of the pass `current`, or on its way to the next one.

In a step one thread of one pass moves, or `main` does, or time goes by.
-/

namespace LmsPlayer
namespace Vibe

open LmsProto
open Channel (Sends)
open TransitionSystem (System)

/-- Where `main` is. -/
inductive MainPhase where
  /-- In the event loop, with messages that the last handler has still to send; in `select_timeout`
  when there are none. -/
  | loop (pending : List Send)
  /-- Sending `Bye(1)` after the loss of the connection. -/
  | resetting
  /-- Behind the event loop. -/
  | leaving
  /-- `main` has returned. -/
  | exited
  deriving DecidableEq

structure Process (O : Type) where
  now : Instant
  globals : Globals
  passes : Nat → Pass O
  current : Nat
  main : MainPhase
  reconnect : Bool
  log : List LogEntry

variable {O : Type}

/-- The name of the player: the host name, when there is one, is part of it. -/
def Config.playerName (cfg : Config) : Option String → String
  | some hostname => cfg.name ++ "@" ++ hostname
  | none => cfg.name

def Spawn.connect? (origin : Nat) : Spawn → Option ConnectThread
  | streamConnect request =>
      some
        { origin := origin
          request := request
          phase := .dialing }
  | _ => none

def Spawn.timer? (now : Instant) : Spawn → Option TimerThread
  | pauseTimer interval => some (.pausing (now + interval))
  | resumeTimer dur playTime => some (.resuming (now + dur) playTime)
  | streamConnect _ => none

namespace Pass

/-- The pass after a handler has run, with the threads it has started and the streams it has given
to the audio backend. -/
def absorb (p : Pass O) (origin : Nat) (now : Instant) (done : Player O) : Pass O :=
  { p with
    ctx := done.ctx
    connects := p.connects ++ done.spawns.filterMap (Spawn.connect? origin)
    timers := p.timers ++ done.spawns.filterMap (Spawn.timer? now)
    starting := p.starting ++ done.enqueued }

/-- The pass after the event loop has let go of its ends of the channels. -/
def detach (p : Pass O) : Pass O :=
  { p with
    attached := false
    toMain := []
    stream := [] }

end Pass

namespace Process

def start (cfg : Config) (now : Instant) (hostname : Option String) : Process O :=
  { now := now
    globals := Globals.new
    passes := fun _ => Pass.start cfg now (cfg.playerName hostname) false
    current := 0
    main := .loop []
    reconnect := false
    log := [] }

/-- A process that has not left its first pass, with `blank` for the ones that may follow. -/
def firstPass (now : Instant) (globals : Globals) (p blank : Pass O) (main : MainPhase)
    (log : List LogEntry) : Process O :=
  { now := now
    globals := globals
    passes := fun j => if j = 0 then p else blank
    current := 0
    main := main
    reconnect := false
    log := log }

/-- The pass `main` is in. -/
def pass (s : Process O) : Pass O := s.passes s.current

def setPass (s : Process O) (k : Nat) (p : Pass O) : Process O :=
  { s with passes := fun j => if j = k then p else s.passes j }

def record (s : Process O) (entries : List LogEntry) : Process O :=
  { s with log := s.log ++ entries }

/-- What a handler works on. -/
def player (s : Process O) : Player O := Player.start s.pass.ctx s.globals

/-- The process after a handler whose message has been taken from the channels, which leaves the
pass `p`. -/
def finish (s : Process O) (p : Pass O) (done : Player O) : Process O :=
  { s.setPass s.current (p.absorb s.log.length s.now done) with
    globals := done.globals
    main := .loop done.sends }

@[simp] theorem setPass_passes_self (s : Process O) (k : Nat) (p : Pass O) :
    (s.setPass k p).passes k = p := if_pos rfl

theorem setPass_passes_of_ne (s : Process O) {j k : Nat} (p : Pass O) (h : j ≠ k) :
    (s.setPass k p).passes j = s.passes j := if_neg h

/-- What is known of one pass alone is known of it after another pass has moved. -/
theorem setPass_induction {P : Pass O → Prop} {s : Process O} {j k : Nat} {p : Pass O}
    (hp : P (s.passes j) → P p) (hk : P (s.passes k)) : P ((s.setPass j p).passes k) := by
  by_cases hkj : k = j
  · subst hkj
    rw [setPass_passes_self]
    exact hp hk
  · rw [setPass_passes_of_ne _ _ hkj]
    exact hk

@[simp] theorem setPass_passes (s : Process O) (k : Nat) : s.setPass k (s.passes k) = s := by
  have hpasses : (fun j => if j = k then s.passes k else s.passes j) = s.passes := by
    funext j
    split_ifs with hj
    · rw [hj]
    · rfl
  unfold setPass
  rw [hpasses]

@[simp] theorem finish_passes_self (s : Process O) (p : Pass O) (done : Player O) :
    (s.finish p done).passes s.current = p.absorb s.log.length s.now done :=
  setPass_passes_self ..

end Process

open Process

/-! ## The event loop -/

section Main

variable [AudioOutput O]

/-- The thread of `main`. -/
inductive MainStep (cfg : Config) (s : Process O) : Process O → List LogEntry → Prop where
  /-- Message from the LMS server. -/
  | serverMessage {receipt : Receipt} {rest : List (Option Receipt)} (opened : Option O)
      (hmain : s.main = .loop []) (hqueue : s.pass.toMain = some receipt :: rest)
      {done : Player O} (hdone : done = s.player.handleServerMessage s.now opened receipt.msg) :
      MainStep cfg s (s.finish { s.pass with toMain := rest } done)
        [.handled s.now receipt done.sends done.spawns]
  /-- Message from the decoder / audio backend. -/
  | playerMessage {msg : PlayerMsg} {rest : List PlayerMsg} (hmain : s.main = .loop [])
      (hqueue : s.pass.stream = msg :: rest)
      {done : Player O} (hdone : done = s.player.handlePlayerMessage s.now msg) :
      MainStep cfg s (s.finish { s.pass with stream := rest } done)
        [.handledPlayer s.now s.current msg done.sends done.enqueued]
  /-- Timeout: send a periodic status update to the server. -/
  | timeout (hmain : s.main = .loop []) (hserver : s.pass.toMain = [])
      (hstream : s.pass.stream = []) {done : Player O} (hdone : done = s.player.onTimeout s.now) :
      MainStep cfg s (s.finish s.pass done) [.timeout s.now s.current done.sends]
  | sendToServer {msg : ClientMessage} {pending : List Send} {queue : List Outgoing}
      (hmain : s.main = .loop (.toServer msg :: pending))
      (hsend : Sends s.pass.ServerConnected SLIM_CAPACITY s.pass.toServer ⟨msg, s.current⟩ queue) :
      MainStep cfg s
        { s.setPass s.current { s.pass with toServer := queue } with main := .loop pending } []
  | sendToSelf {msg : PlayerMsg} {pending : List Send} {queue : List PlayerMsg}
      (hmain : s.main = .loop (.toSelf msg :: pending))
      (hsend : Sends (s.pass.attached = true) STREAM_CAPACITY s.pass.stream msg queue) :
      MainStep cfg s
        { s.setPass s.current { s.pass with stream := queue } with main := .loop pending } []
  /-- Lost contact with server, resetting. -/
  | lost {rest : List (Option Receipt)} (hmain : s.main = .loop [])
      (hqueue : s.pass.toMain = none :: rest) :
      MainStep cfg s
        { s.setPass s.current { s.pass with toMain := rest } with main := .resetting }
        [.lost s.current]
  /-- Nothing can come from the slim-proto thread any more, so that `op.recv(&slim_rx)?` fails. -/
  | disconnected (hmain : s.main = .loop []) (hqueue : s.pass.toMain = [])
      (hended : ¬s.pass.ProtoAlive) :
      MainStep cfg s { s with main := .exited } []
  | bye {queue : List Outgoing} (hmain : s.main = .resetting)
      (hsend :
        Sends s.pass.ServerConnected SLIM_CAPACITY s.pass.toServer ⟨.bye 1, s.current⟩ queue) :
      MainStep cfg s
        { s.setPass s.current
            { s.pass with
              toServer := queue
              ctx := { s.pass.ctx with output := s.pass.ctx.output.map AudioOutput.stop } } with
          main := .leaving
          reconnect := true }
        []
  /-- The next pass of the reconnect loop. -/
  | restart (hostname : Option String) (hmain : s.main = .leaving) :
      MainStep cfg s
        { (s.setPass s.current s.pass.detach).setPass (s.current + 1)
            (Pass.start cfg s.now (cfg.playerName hostname) s.reconnect) with
          current := s.current + 1
          main := .loop [] }
        []

/-! ## The system -/

inductive Step (cfg : Config) (s : Process O) : Process O → Prop where
  | main {t : Process O} {entries : List LogEntry} (h : MainStep cfg s t entries) :
      Step cfg s (t.record entries)
  | thread {k : Nat} {g' : Globals} {p' : Pass O} {entries : List LogEntry}
      (hrun : s.main ≠ .exited) (hk : k ≤ s.current)
      (h : ThreadStep cfg k s.now s.globals (s.passes k) g' p' entries) :
      Step cfg s ({ s.setPass k p' with globals := g' }.record entries)
  | tick (d : Duration) : Step cfg s { s with now := s.now + d }

/-- The program, scheduled in any way. -/
def system (O : Type) [AudioOutput O] (cfg : Config) : System (Process O) :=
  { init := fun s => ∃ now hostname, s = Process.start cfg now hostname
    step := Step cfg }

/-! ## Frames -/

variable {cfg : Config} {s t : Process O} {entries : List LogEntry}

/-- `main` touches the pass it is in, and may start another one. -/
theorem MainStep.passes_of_ne (h : MainStep cfg s t entries) {k : Nat} (hk : k ≠ s.current) :
    t.passes k = s.passes k ∨
      ∃ now name reconnect, t.passes k = Pass.start cfg now name reconnect := by
  cases h with
  | disconnected hmain hqueue hended => exact Or.inl rfl
  | restart hostname hmain =>
      by_cases hnext : k = s.current + 1
      · subst hnext
        exact Or.inr ⟨_, _, _, setPass_passes_self ..⟩
      · refine Or.inl ?_
        calc
          ((s.setPass s.current s.pass.detach).setPass (s.current + 1) _).passes k
              = (s.setPass s.current s.pass.detach).passes k := setPass_passes_of_ne _ _ hnext
          _ = s.passes k := setPass_passes_of_ne _ _ hk
  | _ => exact Or.inl (setPass_passes_of_ne _ _ hk)

theorem MainStep.log_eq (h : MainStep cfg s t entries) : t.log = s.log := by
  cases h <;> rfl

theorem MainStep.current_le (h : MainStep cfg s t entries) : s.current ≤ t.current := by
  cases h with
  | restart hostname hmain => exact Nat.le_succ _
  | _ => exact le_rfl

/-- The entries that only `main` makes. -/
def LogEntry.ByMain : LogEntry → Prop
  | handled .. => True
  | handledPlayer .. => True
  | timeout .. => True
  | lost _ => True
  | _ => False

theorem byMain_of_mainStep (h : MainStep cfg s t entries) : ∀ e ∈ entries, e.ByMain := by
  intro e he
  cases h with
  | serverMessage | playerMessage | timeout | lost =>
      cases List.mem_singleton.1 he
      trivial
  | _ => exact absurd he List.not_mem_nil

omit [AudioOutput O] in
theorem not_byMain_of_threadStep {k : Nat} {now : Instant} {g g' : Globals} {p p' : Pass O}
    (h : ThreadStep cfg k now g p g' p' entries) : ∀ e ∈ entries, ¬e.ByMain := by
  intro e he hmain
  cases h with
  | proto h => cases h <;> simp_all [LogEntry.ByMain]
  | writer h => cases h <;> simp_all [LogEntry.ByMain]
  | connect h => cases h <;> simp_all [LogEntry.ByMain]
  | timer h => exact absurd he List.not_mem_nil
  | backend h => exact absurd he List.not_mem_nil

/-- What is known when `main` has handled a message of the server. -/
structure HandledReceipt (s : Process O) (now : Instant) (receipt : Receipt) (sends : List Send)
    (spawns : List Spawn) : Prop where
  now : now = s.now
  main : s.main = .loop []
  queue : ∃ rest, s.pass.toMain = some receipt :: rest
  done : ∃ opened, sends = (s.player.handleServerMessage s.now opened receipt.msg).sends ∧
    spawns = (s.player.handleServerMessage s.now opened receipt.msg).spawns

theorem handled_of_mainStep (h : MainStep cfg s t entries) {now : Instant} {receipt : Receipt}
    {sends : List Send} {spawns : List Spawn} (he : .handled now receipt sends spawns ∈ entries) :
    HandledReceipt s now receipt sends spawns := by
  cases h with
  | serverMessage opened hmain hqueue hdone =>
      cases List.mem_singleton.1 he
      subst hdone
      exact ⟨rfl, hmain, ⟨_, hqueue⟩, opened, rfl, rfl⟩
  | playerMessage hmain hqueue hdone => cases List.mem_singleton.1 he
  | timeout hmain hserver hstream hdone => cases List.mem_singleton.1 he
  | lost hmain hqueue => cases List.mem_singleton.1 he
  | _ => exact absurd he List.not_mem_nil

/-- What holds of a new pass and goes on to hold as the record grows, and is kept by the threads of
a pass and by what `main` does to the pass it is in, holds of every pass. -/
theorem forall_pass_log {P : Nat → List LogEntry → Pass O → Prop} (h : (system O cfg).Reachable s)
    (hstart : ∀ k log now name reconnect, P k log (Pass.start cfg now name reconnect))
    (happend : ∀ k log entries p, P k log p → P k (log ++ entries) p)
    (hthread : ∀ (s : Process O) k g' p' entries, (system O cfg).Reachable s →
      P k s.log (s.passes k) →
      ThreadStep cfg k s.now s.globals (s.passes k) g' p' entries → P k (s.log ++ entries) p')
    (hmain : ∀ (s t : Process O) entries, (system O cfg).Reachable s → P s.current s.log s.pass →
      MainStep cfg s t entries → P s.current (s.log ++ entries) (t.passes s.current)) :
    ∀ k, P k s.log (s.passes k) := by
  refine System.Reachable.invariant (fun s => ∀ k, P k s.log (s.passes k)) ?_ ?_ h
  · rintro s ⟨now, hostname, rfl⟩ k
    exact hstart k _ _ _ _
  · intro s t hs ih hstep k
    cases hstep with
    | @main t entries hmoved =>
        show P k (t.log ++ entries) (t.passes k)
        rw [hmoved.log_eq]
        by_cases hk : k = s.current
        · subst hk
          exact hmain s t entries hs (ih _) hmoved
        · rcases hmoved.passes_of_ne hk with hsame | ⟨now, name, reconnect, hnew⟩
          · rw [hsame]
            exact happend k _ _ _ (ih k)
          · rw [hnew]
            exact hstart k _ now name reconnect
    | @thread j g' p' entries hrun hj hmoved =>
        show P k (s.log ++ entries) ((s.setPass j p').passes k)
        by_cases hk : k = j
        · subst hk
          rw [setPass_passes_self]
          exact hthread s k g' p' entries hs (ih k) hmoved
        · rw [setPass_passes_of_ne _ _ hk]
          exact happend k _ _ _ (ih k)
    | tick d => exact ih k

/-- The same for what has nothing to do with the record. -/
theorem forall_pass {P : Nat → Pass O → Prop} (h : (system O cfg).Reachable s)
    (hstart : ∀ k now name reconnect, P k (Pass.start cfg now name reconnect))
    (hthread : ∀ (s : Process O) k g' p' entries, (system O cfg).Reachable s → P k (s.passes k) →
      ThreadStep cfg k s.now s.globals (s.passes k) g' p' entries → P k p')
    (hmain : ∀ (s t : Process O) entries, (system O cfg).Reachable s → P s.current s.pass →
      MainStep cfg s t entries → P s.current (t.passes s.current)) :
    ∀ k, P k (s.passes k) := by
  refine forall_pass_log (P := fun k _ p => P k p) h ?_ ?_ hthread hmain
  · intro k _ now name reconnect
    exact hstart k now name reconnect
  · intro k _ _ p hp
    exact hp

/-- The threads of one pass take some steps at one instant. -/
inductive ThreadRun (cfg : Config) (k : Nat) (now : Instant) :
    Globals → Pass O → Globals → Pass O → List LogEntry → Prop where
  | nil {g : Globals} {p : Pass O} : ThreadRun cfg k now g p g p []
  | cons {g g' g'' : Globals} {p p' p'' : Pass O} {entries entries' : List LogEntry}
      (h : ThreadStep cfg k now g p g' p' entries)
      (hrun : ThreadRun cfg k now g' p' g'' p'' entries') :
      ThreadRun cfg k now g p g'' p'' (entries ++ entries')

omit [AudioOutput O] in
theorem not_byMain_of_threadRun {k : Nat} {now : Instant} {g g' : Globals} {p p' : Pass O}
    (h : ThreadRun cfg k now g p g' p' entries) : ∀ e ∈ entries, ¬e.ByMain := by
  induction h with
  | nil => exact fun e he => absurd he List.not_mem_nil
  | cons hstep _ ih =>
      intro e he
      rcases List.mem_append.1 he with hfirst | hrest
      · exact not_byMain_of_threadStep hstep e hfirst
      · exact ih e hrest

omit [AudioOutput O] in
/-- While they do, nobody else need move.  `S` is the program, or the program under a condition that
the steps of the threads meet. -/
theorem reachable_of_threadRun {S : System (Process O)} (h : S.Reachable s)
    (hS : ∀ {s : Process O} {k : Nat} {g' : Globals} {p' : Pass O} {entries : List LogEntry},
      s.main ≠ .exited → k ≤ s.current →
      ThreadStep cfg k s.now s.globals (s.passes k) g' p' entries →
      S.step s ({ s.setPass k p' with globals := g' }.record entries))
    {k : Nat} {g' : Globals} {p' : Pass O} (hmain : s.main ≠ .exited) (hk : k ≤ s.current)
    (hrun : ThreadRun cfg k s.now s.globals (s.passes k) g' p' entries) :
    S.Reachable ({ s.setPass k p' with globals := g' }.record entries) := by
  generalize hg : s.globals = g at hrun
  generalize hp : s.passes k = p at hrun
  generalize hnow : s.now = now at hrun
  induction hrun generalizing s with
  | nil =>
      subst hg hp
      have hsame : ({ s.setPass k (s.passes k) with globals := s.globals } : Process O).record [] =
          s := by
        rw [setPass_passes]
        simp [record]
      exact hsame.symm ▸ h
  | @cons g g' g'' p p' p'' entries entries' hstep _ ih =>
      subst hg hp hnow
      have hmoved := ih (h.step (hS hmain hk hstep)) hmain hk rfl (setPass_passes_self ..) rfl
      have hpasses : ∀ j, (if j = k then p'' else if j = k then p' else s.passes j) =
          if j = k then p'' else s.passes j := by
        intro j
        split_ifs <;> rfl
      simpa [setPass, record, hpasses] using hmoved

omit [AudioOutput O] in
/-- A thread takes a step while `main` is in its first pass. -/
theorem setPass_eq_firstPass {now : Instant} {g g' : Globals} {p p' blank : Pass O}
    {main : MainPhase} {log : List LogEntry} :
    ({ (firstPass now g p blank main log).setPass 0 p' with globals := g' } : Process O).record
        entries = firstPass now g' p' blank main (log ++ entries) := by
  have hpasses : (fun j => if j = 0 then p' else if j = 0 then p else blank) =
      fun j => if j = 0 then p' else blank := by
    funext j
    split_ifs <;> rfl
  unfold firstPass setPass record
  dsimp only
  rw [hpasses]

omit [AudioOutput O] in
/-- The same for a process that has not left its first pass. -/
theorem reachable_firstPass_of_threadRun {S : System (Process O)} {now : Instant} {g g' : Globals}
    {p p' blank : Pass O} {main : MainPhase} {log : List LogEntry}
    (h : S.Reachable (firstPass now g p blank main log))
    (hS : ∀ {s : Process O} {k : Nat} {g' : Globals} {p' : Pass O} {entries : List LogEntry},
      s.main ≠ .exited → k ≤ s.current →
      ThreadStep cfg k s.now s.globals (s.passes k) g' p' entries →
      S.step s ({ s.setPass k p' with globals := g' }.record entries))
    (hmain : main ≠ .exited) (hrun : ThreadRun cfg 0 now g p g' p' entries) :
    S.Reachable (firstPass now g' p' blank main (log ++ entries)) := by
  rw [← setPass_eq_firstPass]
  exact reachable_of_threadRun h hS hmain (le_refl 0) hrun

/-- `main` takes a step without leaving the pass. -/
theorem record_eq_firstPass {now : Instant} {g : Globals} {p blank : Pass O} {main : MainPhase}
    {log : List LogEntry} (h : MainStep cfg (firstPass now g p blank main log) t entries)
    (hreconnect : t.reconnect = false) (hcurrent : t.current = 0) :
    t.record entries =
      firstPass t.now t.globals (t.passes 0) blank t.main (log ++ entries) := by
  have hpasses : ∀ p' : Pass O, (fun j => if j = 0 then p' else if j = 0 then p else blank) =
      fun j => if j = 0 then p' else blank := by
    intro p'
    funext j
    split_ifs <;> rfl
  cases h with
  | restart hostname hmain => cases hcurrent
  | bye hmain hsend => cases hreconnect
  | disconnected hmain hqueue hended => rfl
  | _ =>
      unfold firstPass Process.record
      simp only [Process.finish, Process.setPass, hpasses]
      rfl

theorem reachable_firstPass_of_mainStep {S : System (Process O)} {now : Instant} {g : Globals}
    {p blank : Pass O} {main : MainPhase} {log : List LogEntry}
    (h : S.Reachable (firstPass now g p blank main log))
    (hmoved : MainStep cfg (firstPass now g p blank main log) t entries)
    (hS : S.step (firstPass now g p blank main log) (t.record entries))
    (hreconnect : t.reconnect = false) (hcurrent : t.current = 0) :
    S.Reachable (firstPass t.now t.globals (t.passes 0) blank t.main (log ++ entries)) := by
  rw [← record_eq_firstPass hmoved hreconnect hcurrent]
  exact h.step hS

omit [AudioOutput O] in
theorem start_eq_firstPass (cfg : Config) (now : Instant) (hostname : Option String) :
    (Process.start cfg now hostname : Process O) =
      firstPass now Globals.new (Pass.start cfg now (cfg.playerName hostname) false)
        (Pass.start cfg now (cfg.playerName hostname) false) (.loop []) [] := by
  unfold Process.start firstPass
  simp only [ite_self]

omit [AudioOutput O] in
/-- What is true of none of the entries of a step is not true of the one entry it has made. -/
theorem not_of_record_log {Q : LogEntry → Prop} (hlog : t.log = s.log)
    (hentries : ∀ e ∈ entries, ¬Q e)
    {e : LogEntry} (he : (t.record entries).log = s.log ++ [e]) : ¬Q e := by
  have hnew : t.log ++ entries = s.log ++ [e] := he
  rw [hlog] at hnew
  have hsingle : entries = [e] := List.append_cancel_left hnew
  refine hentries e ?_
  rw [hsingle]
  exact List.mem_cons_self ..

/-- An entry that only `main` makes is an old one, or `main` has just made it. -/
theorem Step.mem_log (h : Step cfg s t) {e : LogEntry} (he : e ∈ t.log) (hbyMain : e.ByMain) :
    e ∈ s.log ∨ ∃ u entries, MainStep cfg s u entries ∧ t = u.record entries ∧ e ∈ entries := by
  cases h with
  | main hmoved =>
      rcases List.mem_append.1 he with hold | hnew
      · exact Or.inl (hmoved.log_eq ▸ hold)
      · exact Or.inr ⟨_, _, hmoved, rfl, hnew⟩
  | thread hrun hk hmoved =>
      rcases List.mem_append.1 he with hold | hnew
      · exact Or.inl hold
      · exact absurd hbyMain (not_byMain_of_threadStep hmoved e hnew)
  | tick d => exact Or.inl he

/-- What holds of every entry that some step makes holds of the whole record. -/
theorem forall_log {Q : LogEntry → Prop} (h : (system O cfg).Reachable s)
    (hthread : ∀ (s : Process O) k g' p' entries, (system O cfg).Reachable s →
      ThreadStep cfg k s.now s.globals (s.passes k) g' p' entries → ∀ e ∈ entries, Q e)
    (hmain : ∀ (s t : Process O) entries, (system O cfg).Reachable s →
      MainStep cfg s t entries → ∀ e ∈ entries, Q e) :
    ∀ e ∈ s.log, Q e := by
  refine System.Reachable.invariant (fun s => ∀ e ∈ s.log, Q e) ?_ ?_ h
  · rintro s ⟨now, hostname, rfl⟩ e he
    exact absurd he List.not_mem_nil
  · intro s t hs ih hstep e he
    cases hstep with
    | main hmoved =>
        rcases List.mem_append.1 he with hold | hnew
        · exact ih e (hmoved.log_eq ▸ hold)
        · exact hmain s _ _ hs hmoved e hnew
    | thread hrun hk hmoved =>
        rcases List.mem_append.1 he with hold | hnew
        · exact ih e hold
        · exact hthread s _ _ _ _ hs hmoved e hnew
    | tick d => exact ih e he

end Main

end Vibe
end LmsPlayer
