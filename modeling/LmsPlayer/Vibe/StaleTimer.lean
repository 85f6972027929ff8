import LmsPlayer.Vibe.TrackStarted

/-!
# Vibe.StaleTimer — timers that outlive a pause

A Pause with no interval and a Stop are to hold the output until the server resumes it, or the
playing stream drains.  The timers of earlier timed commands know nothing of this and post their
`Unpause` all the same, as does a stream-connect thread with a decoder that is to start at once.

Such a message is on its way as long as the pass is not `Silent`.  When every hold finds the pass
silent, and no timed Pause comes before the output is released (`HoldsQuietly`), the output stays
held (`StaysHeld`).
-/

namespace LmsPlayer
namespace Vibe

open LmsProto
open Channel (Sends)
open ThreadPool (Replace)
open TransitionSystem (System)

/-! ## The record -/

namespace LogEntry

/-- A Pause with no interval, or a Stop, has been handled. -/
def Holds : LogEntry → Prop
  | handled _ receipt _ _ => receipt.msg = .pause 0 ∨ receipt.msg = .stop
  | _ => False

/-- The server resumes the output, or has a stream start at once, or the playing stream has
drained. -/
def Releases : LogEntry → Prop
  | handled _ receipt _ _ =>
      (∃ interval, receipt.msg = .unpause interval) ∨
        ∃ fields, receipt.msg = .stream fields ∧ fields.autostart = .auto
  | handledPlayer _ _ msg _ _ => msg = .drained
  | _ => False

/-- The player has resumed the output on its own, or has had a stream start. -/
def Resumes : LogEntry → Prop
  | handledPlayer _ _ msg sends enqueued =>
      (msg = .unpause ∧ sends ≠ []) ∨
        ∃ d params, msg = .decoder d params ∧ params.autostart = .auto ∧ enqueued ≠ []
  | _ => False

theorem not_holds_of_not_byMain {e : LogEntry} (h : ¬e.ByMain) : ¬e.Holds := by
  cases e with
  | handled now receipt sends spawns => exact absurd trivial h
  | _ => exact id

theorem not_resumes_of_not_byMain {e : LogEntry} (h : ¬e.ByMain) : ¬e.Resumes := by
  cases e with
  | handledPlayer now pass msg sends enqueued => exact absurd trivial h
  | _ => exact id

end LogEntry

/-- The output is on hold: it has been paused or stopped, and has not been released since. -/
def Held (log : List LogEntry) : Prop :=
  ∃ before e after, log = before ++ e :: after ∧ e.Holds ∧ ∀ e' ∈ after, ¬e'.Releases

/-- The output has not been resumed while on hold. -/
def StaysHeld (log : List LogEntry) : Prop :=
  ∀ before e after, log = before ++ e :: after → e.Resumes → ¬Held before

/-- The output is put on hold, or stays on hold. -/
theorem held_concat {log : List LogEntry} {e : LogEntry} (h : Held (log ++ [e])) :
    e.Holds ∨ Held log ∧ ¬e.Releases := by
  rcases h with ⟨before, e', after, hlog, hholds, hkept⟩
  rcases concat_eq_append_cons hlog with ⟨rfl, rfl, rfl⟩ | ⟨rest, rfl, hbefore⟩
  · exact Or.inl hholds
  · refine Or.inr ⟨⟨before, e', rest, hbefore, hholds, ?_⟩, ?_⟩
    · exact fun e'' he'' => hkept e'' (List.mem_append_left _ he'')
    · exact hkept e (List.mem_append_right _ (List.mem_singleton_self e))

theorem held_of_holds (log : List LogEntry) {e : LogEntry} (h : e.Holds) : Held (log ++ [e]) :=
  ⟨log, e, [], rfl, h, fun _ he => absurd he List.not_mem_nil⟩

/-- Entries that have nothing to do with a hold. -/
theorem held_of_append {log entries : List LogEntry} (h : Held (log ++ entries))
    (hentries : ∀ e ∈ entries, ¬e.Holds) : Held log := by
  induction entries generalizing log with
  | nil => rwa [List.append_nil] at h
  | cons e entries ih =>
      have hfirst : Held (log ++ [e]) := by
        refine ih ?_ fun e' he' => hentries e' (List.mem_cons_of_mem _ he')
        rwa [List.append_assoc]
      rcases held_concat hfirst with hholds | ⟨hheld, _⟩
      · exact absurd hholds (hentries e (List.mem_cons_self ..))
      · exact hheld

theorem StaysHeld.concat {log : List LogEntry} (h : StaysHeld log) {e : LogEntry}
    (he : e.Resumes → ¬Held log) : StaysHeld (log ++ [e]) := by
  intro before e' after hlog hresumes
  rcases concat_eq_append_cons hlog with ⟨rfl, rfl, rfl⟩ | ⟨rest, rfl, hbefore⟩
  · exact he hresumes
  · exact h before e' rest hbefore hresumes

theorem StaysHeld.append {log entries : List LogEntry} (h : StaysHeld log)
    (hentries : ∀ e ∈ entries, ¬e.Resumes) : StaysHeld (log ++ entries) := by
  induction entries generalizing log with
  | nil => rwa [List.append_nil]
  | cons e entries ih =>
      have hfirst : StaysHeld (log ++ [e]) :=
        h.concat fun hresumes => absurd hresumes (hentries e (List.mem_cons_self ..))
      have hrest := ih hfirst fun e' he' => hentries e' (List.mem_cons_of_mem _ he')
      rwa [List.append_assoc] at hrest

/-! ## What may still resume the output -/

/-- Handling the message resumes the output, or has a stream start. -/
def PlayerMsg.Starts : PlayerMsg → Prop
  | unpause => True
  | decoder _ params => params.autostart = .auto
  | _ => False

theorem PlayerMsg.not_starts_of_fromEnqueue {msg : PlayerMsg} (h : msg.FromEnqueue) :
    ¬msg.Starts := by
  cases msg with
  | unpause => exact h.elim
  | decoder d params => exact h.elim
  | _ => exact id

theorem PlayerMsg.not_starts_of_fromCallback {msg : PlayerMsg} (h : msg.FromCallback) :
    ¬msg.Starts := by
  cases msg with
  | unpause => exact h.elim
  | decoder d params => exact h.elim
  | _ => exact id

/-- The thread may still post a decoder that is to start at once. -/
def ConnectThread.MayStart (t : ConnectThread) : Prop :=
  match t.phase with
  | .posting msg => msg.Starts
  | _ => t.request.autostart = .auto

/-- Until it posts something, the thread may still post such a decoder, if it has been asked to. -/
theorem ConnectThread.mayStart_of_autostart {t : ConnectThread}
    (h : ∀ msg, t.phase ≠ .posting msg) (hauto : t.request.autostart = .auto) : t.MayStart := by
  unfold ConnectThread.MayStart
  cases hphase : t.phase with
  | posting msg => exact absurd hphase (h msg)
  | _ => exact hauto

/-- The timer is to post its `Unpause`. -/
def TimerThread.Armed : TimerThread → Prop
  | pausing _ => True
  | resuming _ _ => True
  | _ => False

namespace Pass

variable {O : Type} {cfg : Config} {k : Nat} {now : Instant} {g g' : Globals} {p p' : Pass O}
  {entries : List LogEntry}

/-- Nothing that would resume the output is on its way. -/
structure Silent (p : Pass O) : Prop where
  connects : ∀ t ∈ p.connects, ¬t.MayStart
  timers : ∀ t ∈ p.timers, ¬t.Armed
  stream : ∀ msg ∈ p.stream, ¬msg.Starts

theorem Silent.start (cfg : Config) (now : Instant) (name : String) (reconnect : Bool) :
    (start cfg now name reconnect : Pass O).Silent :=
  { connects := fun _ ht => absurd ht List.not_mem_nil
    timers := fun _ ht => absurd ht List.not_mem_nil
    stream := fun _ hmsg => absurd hmsg List.not_mem_nil }

/-- A handler that starts nothing that would resume the output. -/
theorem Silent.absorb (hp : p.Silent) {origin : Nat} {done : Player O}
    (hconnects : ∀ request, Spawn.streamConnect request ∈ done.spawns → request.autostart ≠ .auto)
    (htimers : ∀ thread ∈ done.spawns, ∃ request, thread = .streamConnect request) :
    (p.absorb origin now done).Silent := by
  refine ⟨?_, ?_, hp.stream⟩
  · intro t ht
    rcases mem_connects_absorb ht with hold | ⟨_, hphase, hspawn⟩
    · exact hp.connects t hold
    · unfold ConnectThread.MayStart
      rw [hphase]
      exact hconnects t.request hspawn
  · intro t ht
    rcases List.mem_append.1 ht with hold | hnew
    · exact hp.timers t hold
    · rcases List.mem_filterMap.1 hnew with ⟨thread, hspawn, hthread⟩
      rcases htimers thread hspawn with ⟨request, rfl⟩
      cases hthread

/-- A thread that has not posted anything yet goes on. -/
theorem Silent.replace (hp : p.Silent) {t t' : ConnectThread} {connects : List ConnectThread}
    (hphase : ∀ msg, t.phase ≠ .posting msg) (hthread : Replace t (some t') p.connects connects)
    (hstart : t'.MayStart → t.request.autostart = .auto) : ∀ y ∈ connects, ¬y.MayStart := by
  refine hthread.forall_mem hp.connects ?_
  rintro y hy hmay
  cases hy
  exact hp.connects t hthread.mem (ConnectThread.mayStart_of_autostart hphase (hstart hmay))

theorem Silent.connectStep (hp : p.Silent) (h : ConnectStep now g p g' p' entries) :
    p'.Silent := by
  cases h with
  | dial hpc hthread => exact { hp with connects := hp.replace (by simp [hpc]) hthread id }
  | dialFailed hpc hthread =>
      exact { hp with connects := hp.replace (by simp [hpc]) hthread False.elim }
  | postConnected hpc hsend hthread =>
      exact ⟨hp.replace (by simp [hpc]) hthread id, hp.timers, hsend.forall_mem hp.stream id⟩
  | createBuffer hpc hthread =>
      exact { hp with connects := hp.replace (by simp [hpc]) hthread id }
  | postBufferThreshold hpc hsend hthread =>
      exact ⟨hp.replace (by simp [hpc]) hthread id, hp.timers, hsend.forall_mem hp.stream id⟩
  | prepared hpc hthread => exact { hp with connects := hp.replace (by simp [hpc]) hthread id }
  | notPrepared hpc hthread =>
      exact { hp with connects := hp.replace (by simp [hpc]) hthread False.elim }
  | post hpc hsend hthread =>
      refine ⟨hthread.forall_mem hp.connects (fun y hy => by cases hy), hp.timers, ?_⟩
      have hself := hp.connects _ hthread.mem
      unfold ConnectThread.MayStart at hself
      rw [hpc] at hself
      exact hsend.forall_mem hp.stream hself

theorem Silent.timerStep (hp : p.Silent) (h : TimerStep k now g p g' p') : p'.Silent := by
  cases h with
  | unpause hwake hsend hthread => exact absurd trivial (hp.timers _ hthread.mem)
  | resume hwake hsend hthread => exact absurd trivial (hp.timers _ hthread.mem)
  | report hthread =>
      refine { hp with timers := hthread.forall_mem hp.timers ?_ }
      rintro t ht
      cases ht
      exact id
  | send hsend hthread =>
      exact { hp with timers := hthread.forall_mem hp.timers fun t ht => by cases ht }

/-- The threads of a pass make nothing that would resume the output. -/
theorem Silent.threadStep (hp : p.Silent) (h : ThreadStep cfg k now g p g' p' entries) :
    p'.Silent := by
  cases h with
  | proto h => cases h <;> exact { hp with }
  | writer h => cases h <;> exact { hp with }
  | connect h => exact hp.connectStep h
  | timer h => exact hp.timerStep h
  | backend h =>
      cases h with
      | trackStarted hsend hstream => exact { hp with stream := hsend.forall_mem hp.stream id }
      | post hmsg hother hsend =>
          have hnot := PlayerMsg.not_starts_of_fromCallback hmsg
          exact { hp with stream := hsend.forall_mem hp.stream hnot }
      | _ => exact { hp with }

end Pass

/-! ## Runs -/

namespace PlayerContext

variable {O : Type} [AudioOutput O]

/-- There is an output, and it has something to pause. -/
def Pauses (ctx : PlayerContext O) : Prop :=
  ∃ output, ctx.output = some output ∧ (AudioOutput.pause output).2 = true

end PlayerContext

namespace LogEntry

/-- A timed Pause has been handled. -/
def IsTimedPause : LogEntry → Prop
  | handled _ receipt _ _ => ∃ interval, receipt.msg = .pause interval ∧ interval ≠ 0
  | _ => False

end LogEntry

/-- Every hold is handled while nothing is on its way that would resume the output, and while the
output is on hold, no timed Pause finds something to pause. -/
def HoldsQuietly {O : Type} [AudioOutput O] (s t : Process O) : Prop :=
  ∀ e, t.log = s.log ++ [e] →
    (e.Holds → s.pass.Silent) ∧ (Held s.log → e.IsTimedPause → ¬s.pass.ctx.Pauses)

namespace Player

variable {O : Type} [AudioOutput O] {now : Instant} {ctx : PlayerContext O} {g : Globals}

/-- A Pause that has nothing to pause, or no interval, starts no timer. -/
theorem spawns_onPause_eq_nil {interval : Duration} (h : interval ≠ 0 → ¬ctx.Pauses) :
    ((Player.start ctx g).onPause now interval).spawns = [] := by
  unfold onPause
  cases houtput : (Player.start ctx g).ctx.output with
  | none => rfl
  | some output =>
      dsimp only
      split_ifs with hzero heffect hpaused
      · rfl
      · rfl
      · exact absurd ⟨output, houtput, hpaused⟩ (h hzero)
      · rfl

end Player

namespace Process

variable {O : Type} {s : Process O}

/-- While the output is on hold, nothing is on its way that would resume it, and so it has never
been resumed while on hold. -/
structure Obedient (s : Process O) : Prop where
  silent : Held s.log → s.pass.Silent
  stays : StaysHeld s.log

/-- Any step in which nothing is handled that matters for a hold. -/
theorem Obedient.move (hs : s.Obedient) {t : Process O} {p : Pass O} {entries : List LogEntry}
    (hlog : t.log = s.log) (hpass : t.pass = p)
    (hentries : ∀ e ∈ entries, ¬e.Holds ∧ ¬e.Resumes) (hsilent : s.pass.Silent → p.Silent) :
    (t.record entries).Obedient := by
  subst hpass
  refine ⟨?_, ?_⟩
  · intro hheld
    have hbefore : Held s.log := by
      have hentire : Held (s.log ++ entries) := hlog ▸ hheld
      exact held_of_append hentire fun e he => (hentries e he).1
    exact hsilent (hs.silent hbefore)
  · show StaysHeld (t.log ++ entries)
    rw [hlog]
    exact hs.stays.append fun e he => (hentries e he).2

end Process

section Main

variable {O : Type} [AudioOutput O] {cfg : Config} {s t : Process O} {entries : List LogEntry}

/-- What a message of the server starts while the output is on hold. -/
theorem silent_absorb_of_serverMessage (hsilent : s.pass.Silent) {msg : ServerMessage}
    {rest : List (Option Receipt)} (opened : Option O)
    (hunpause : ∀ interval, msg ≠ .unpause interval)
    (hstream : ∀ fields, msg = .stream fields → fields.autostart ≠ .auto)
    (hpause : ∀ interval, msg = .pause interval → interval ≠ 0 → ¬s.pass.ctx.Pauses) :
    (({ s.pass with toMain := rest } : Pass O).absorb s.log.length s.now
      (s.player.handleServerMessage s.now opened msg)).Silent := by
  have hrest : ({ s.pass with toMain := rest } : Pass O).Silent := { hsilent with }
  refine hrest.absorb ?_ ?_
  · intro request hspawn
    rcases Player.asked_of_mem_spawns opened hspawn with ⟨fields, hmsg, hfor, _⟩
    rw [hfor.autostart]
    exact hstream fields hmsg
  · intro thread hthread
    have hasked := Player.asked_of_mem_spawns opened hthread
    cases thread with
    | streamConnect request => exact ⟨request, rfl⟩
    | resumeTimer dur playTime =>
        rcases hasked with ⟨interval, hmsg, _⟩
        exact absurd hmsg (hunpause interval)
    | pauseTimer interval =>
        have hmsg : msg = .pause interval := hasked
        subst hmsg
        have hnone : ((Player.start s.pass.ctx s.globals).onPause s.now interval).spawns = [] :=
          Player.spawns_onPause_eq_nil (hpause interval rfl)
        have hmem : Spawn.pauseTimer interval ∈
            ((Player.start s.pass.ctx s.globals).onPause s.now interval).spawns := hthread
        rw [hnone] at hmem
        exact absurd hmem List.not_mem_nil

theorem obedient_of_serverMessage (hs : s.Obedient) {receipt : Receipt}
    {rest : List (Option Receipt)} (opened : Option O) {done : Player O}
    (hdone : done = s.player.handleServerMessage s.now opened receipt.msg)
    (hok : HoldsQuietly s ((s.finish { s.pass with toMain := rest } done).record
      [.handled s.now receipt done.sends done.spawns])) :
    ((s.finish { s.pass with toMain := rest } done).record
      [.handled s.now receipt done.sends done.spawns]).Obedient := by
  rcases hok _ rfl with ⟨hquiet, hpause⟩
  refine ⟨?_, hs.stays.concat nofun⟩
  intro hheld
  show ((s.finish { s.pass with toMain := rest } done).passes s.current).Silent
  rw [Process.finish_passes_self]
  subst hdone
  rcases held_concat hheld with hholds | ⟨hbefore, hkept⟩
  · refine silent_absorb_of_serverMessage (hquiet hholds) opened ?_ ?_ ?_
    · rintro interval hmsg
      rcases hholds with hzero | hstop
      · cases hmsg.symm.trans hzero
      · cases hmsg.symm.trans hstop
    · rintro fields hmsg
      rcases hholds with hzero | hstop
      · cases hmsg.symm.trans hzero
      · cases hmsg.symm.trans hstop
    · rintro interval hmsg hne
      rcases hholds with hzero | hstop
      · cases hmsg.symm.trans hzero
        exact absurd rfl hne
      · cases hmsg.symm.trans hstop
  · refine silent_absorb_of_serverMessage (hs.silent hbefore) opened ?_ ?_ ?_
    · exact fun interval hmsg => hkept (Or.inl ⟨interval, hmsg⟩)
    · exact fun fields hmsg hauto => hkept (Or.inr ⟨fields, hmsg, hauto⟩)
    · exact fun interval hmsg hne => hpause hbefore ⟨interval, hmsg, hne⟩

theorem obedient_of_playerMessage (hs : s.Obedient) {msg : PlayerMsg} {rest : List PlayerMsg}
    (hqueue : s.pass.stream = msg :: rest) {done : Player O}
    (hdone : done = s.player.handlePlayerMessage s.now msg) :
    ((s.finish { s.pass with stream := rest } done).record
      [.handledPlayer s.now s.current msg done.sends done.enqueued]).Obedient := by
  have hmem := mem_stream_of_cons hqueue
  refine ⟨?_, ?_⟩
  · intro hheld
    show ((s.finish { s.pass with stream := rest } done).passes s.current).Silent
    rw [Process.finish_passes_self]
    rcases held_concat hheld with hholds | ⟨hbefore, _⟩
    · exact hholds.elim
    · have hsilent := hs.silent hbefore
      have hleft : ({ s.pass with stream := rest } : Pass O).Silent :=
        { hsilent with stream := fun m hm => hsilent.stream m (hmem.2 m hm) }
      have hnone : done.spawns = [] := by
        rw [hdone]
        exact Player.spawns_handlePlayerMessage msg
      refine hleft.absorb ?_ ?_
      · rw [hnone]
        exact fun request hspawn => absurd hspawn List.not_mem_nil
      · rw [hnone]
        exact fun thread hspawn => absurd hspawn List.not_mem_nil
  · refine hs.stays.concat ?_
    subst hdone
    intro hresumes hheld
    -- What has been handled was on its way.
    have hnot := (hs.silent hheld).stream msg hmem.1
    rcases hresumes with ⟨rfl, _⟩ | ⟨d, params, rfl, hauto, _⟩
    · exact hnot trivial
    · exact hnot hauto

theorem obedient_of_mainStep (hreach : (system O cfg).Reachable s) (hs : s.Obedient)
    (h : MainStep cfg s t entries) (hok : HoldsQuietly s (t.record entries)) :
    (t.record entries).Obedient := by
  cases h with
  | serverMessage opened hmain hqueue hdone => exact obedient_of_serverMessage hs opened hdone hok
  | playerMessage hmain hqueue hdone => exact obedient_of_playerMessage hs hqueue hdone
  | timeout hmain hserver hstream hdone =>
      subst hdone
      refine ⟨?_, hs.stays.concat nofun⟩
      intro hheld
      show ((s.finish s.pass _).passes s.current).Silent
      rw [Process.finish_passes_self]
      rcases held_concat hheld with hholds | ⟨hbefore, _⟩
      · exact hholds.elim
      · refine (hs.silent hbefore).absorb ?_ ?_
        · exact fun request hspawn => absurd hspawn List.not_mem_nil
        · exact fun thread hspawn => absurd hspawn List.not_mem_nil
  | sendToServer hmain hsend =>
      refine hs.move rfl (s.setPass_passes_self _ _) (fun e he => absurd he List.not_mem_nil) ?_
      exact fun hsilent => { hsilent with }
  | sendToSelf hmain hsend =>
      rename_i msg pending queue
      have hnot : ¬msg.Starts := PlayerMsg.not_starts_of_fromEnqueue
        (fromEnqueue_of_pending hreach hmain (List.mem_cons_self ..))
      refine hs.move rfl (s.setPass_passes_self _ _) (fun e he => absurd he List.not_mem_nil) ?_
      exact fun hsilent => { hsilent with stream := hsend.forall_mem hsilent.stream hnot }
  | lost hmain hqueue =>
      refine hs.move rfl (s.setPass_passes_self _ _) ?_ fun hsilent => { hsilent with }
      intro e he
      rw [List.mem_singleton.1 he]
      exact ⟨id, id⟩
  | disconnected hmain hqueue hended =>
      exact hs.move rfl rfl (fun e he => absurd he List.not_mem_nil) id
  | bye hmain hsend =>
      refine hs.move rfl (s.setPass_passes_self _ _) (fun e he => absurd he List.not_mem_nil) ?_
      exact fun hsilent => { hsilent with }
  | restart hostname hmain =>
      refine hs.move rfl (Process.setPass_passes_self ..)
        (fun e he => absurd he List.not_mem_nil) ?_
      exact fun _ => .start _ _ _ _

omit [AudioOutput O] in
theorem obedient_of_threadStep (hs : s.Obedient) {k : Nat} {g' : Globals} {p' : Pass O}
    (h : ThreadStep cfg k s.now s.globals (s.passes k) g' p' entries) :
    (({ s.setPass k p' with globals := g' } : Process O).record entries).Obedient := by
  have hsilent := not_byMain_of_threadStep h
  refine hs.move rfl rfl ?_ ?_
  · intro e he
    exact ⟨LogEntry.not_holds_of_not_byMain (hsilent e he),
      LogEntry.not_resumes_of_not_byMain (hsilent e he)⟩
  · exact Process.setPass_induction (P := fun p => s.pass.Silent → p.Silent)
      (fun hk hs => (hk hs).threadStep h) id

/-- **The output stays on hold**, in every run in which each Pause with no interval and each Stop is
handled while no timer is armed and nothing else is on its way that would resume the output, and in
which no timed Pause comes while the output is on hold: the player resumes nothing on its own before
the server does, has a stream start at once, or the playing stream has drained. -/
theorem staysHeld (h : ((system O cfg).restrict HoldsQuietly).Reachable s) : StaysHeld s.log := by
  have hobedient : s.Obedient := by
    refine System.Reachable.invariant Process.Obedient ?_ ?_ h
    · rintro s ⟨now, hostname, rfl⟩
      refine ⟨fun _ => .start _ _ _ _, ?_⟩
      intro before e after hnil
      exact absurd hnil (by simp [Process.start])
    · intro s t hs ih hstep
      rcases hstep with ⟨hstep, hok⟩
      cases hstep with
      | main hmoved => exact obedient_of_mainStep hs.of_restrict ih hmoved hok
      | thread hrun hk hmoved => exact obedient_of_threadStep ih hmoved
      | tick d => exact ⟨ih.silent, ih.stays⟩
  exact hobedient.stays

end Main

/-! ## Two runs -/

section Runs

variable {O : Type} [AudioOutput O] {s t : Process O} {entries : List LogEntry}

theorem holdsQuietly_record (hlog : t.log = s.log)
    (hentries : ∀ e ∈ entries, ¬(e.Holds ∨ e.IsTimedPause)) :
    HoldsQuietly s (t.record entries) := by
  intro e he
  have hnot := not_of_record_log hlog hentries he
  exact ⟨fun hholds => absurd (Or.inl hholds) hnot, fun _ hpause => absurd (Or.inr hpause) hnot⟩

end Runs

theorem allows_holdsQuietly : Allows ((system PulseOutput cliConfig).restrict HoldsQuietly) :=
  { init := ⟨0, none, rfl⟩
    thread := by
      intro s k g' p' entries hrun hk h
      refine ⟨.thread hrun hk h, holdsQuietly_record rfl ?_⟩
      intro e he hmatters
      have hsilent := not_byMain_of_threadStep h e he
      cases e with
      | handled now receipt sends spawns => exact hsilent trivial
      | _ => exact hmatters.elim id id
    main := by
      intro s t entries h hsetsUp
      refine ⟨.main h, holdsQuietly_record h.log_eq ?_⟩
      intro e he hmatters
      cases e with
      | handled now receipt sends spawns =>
          have hplain := hsetsUp _ he
          rcases receipt with ⟨msg, conn⟩
          rcases hmatters with (hmsg | hmsg) | ⟨interval, hmsg, _⟩
          · cases hmsg
            exact hplain
          · cases hmsg
            exact hplain
          · cases hmsg
            exact hplain
      | _ => exact hmatters.elim id id }

/-- A stream that is playing is paused. -/
theorem staysHeld_paused : ∃ s : Process PulseOutput,
    ((system PulseOutput cliConfig).restrict HoldsQuietly).Reachable s ∧ Held s.log ∧
      StaysHeld s.log := by
  have hslim : 0 < SLIM_CAPACITY := by decide
  have hwire : ∀ msg ∈ [ServerMessage.pause 0], msg.OnWire :=
    forall_onWire _ (List.forall_mem_singleton.2 ⟨0, by decide, rfl⟩)
  rcases allows_holdsQuietly.exists_playing hwire with ⟨g, log, h0, _⟩
  have h1 := reachable_firstPass_of_threadRun h0 allows_holdsQuietly.thread nofun
    (.cons (.proto (.forward rfl id (.queued rfl hslim))) .nil)
  have h2 := h1.step ⟨.main (.serverMessage none rfl rfl rfl), by
    intro e he
    refine ⟨fun _ => ⟨?_, ?_, ?_⟩, ?_⟩
    · exact fun t ht => absurd ht List.not_mem_nil
    · exact fun t ht => absurd ht List.not_mem_nil
    · exact fun msg hmsg => absurd hmsg List.not_mem_nil
    · rintro _ htimed
      cases List.append_cancel_left he
      rcases htimed with ⟨interval, hmsg, hne⟩
      cases hmsg
      exact absurd rfl hne⟩
  exact ⟨_, h2, held_of_holds _ (Or.inl rfl), staysHeld h2⟩

/-- The stream is paused for five seconds, and then for good; the timer resumes it all the same. -/
theorem not_staysHeld_paused : ∃ s : Process PulseOutput,
    (system PulseOutput cliConfig).Reachable s ∧ ¬StaysHeld s.log := by
  have hslim : 0 < SLIM_CAPACITY := by decide
  have hstream : 0 < STREAM_CAPACITY := by decide
  have hwire : ∀ msg ∈ [ServerMessage.pause (Duration.fromSecs 5), .pause 0], msg.OnWire := by
    refine forall_onWire _ (List.forall_mem_cons.2 ⟨⟨5000, by decide, rfl⟩, ?_⟩)
    exact List.forall_mem_singleton.2 ⟨0, by decide, rfl⟩
  rcases allows_system.exists_playing hwire with ⟨g, log, h0, _⟩
  have h1 := reachable_firstPass_of_threadRun h0 Step.thread nofun
    (.cons (.proto (.forward rfl id (.queued rfl hslim))) .nil)
  have h2 := h1.step (.main (.serverMessage none rfl rfl rfl))
  have h3 := reachable_of_threadRun h2 Step.thread nofun (le_refl 0)
    (.cons (.proto (.forward rfl id (.queued rfl hslim))) .nil)
  have h4 := h3.step (.main (.serverMessage none rfl rfl rfl))
  have h5 := h4.step (.main (.sendToServer rfl (.queued (Or.inl nofun) hslim)))
  have h6 := h5.step (.tick (Duration.fromSecs 5))
  have h7 := reachable_of_threadRun h6 Step.thread nofun (le_refl 0)
    (.cons (.timer (.unpause le_rfl (.queued rfl hstream) (.mk [] []))) .nil)
  have h8 := h7.step (.main (.playerMessage rfl rfl rfl))
  refine ⟨_, h8, ?_⟩
  intro hstays
  refine hstays _ _ [] rfl (Or.inl ⟨rfl, nofun⟩) ?_
  show Held (_ ++ [_] ++ [] ++ [])
  rw [List.append_nil, List.append_nil]
  exact held_of_holds _ (Or.inl rfl)

end Vibe
end LmsPlayer
