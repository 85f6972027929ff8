import LmsPlayer.Vibe.StaleDecoder
import LmsPlayer.Vibe.TimedUnpause

/-!
# Vibe.TrackStarted — how often the start of a track is reported

A stream posts `TrackStarted` once, and the event loop reports it to the server (STMs).  It also
reports the start of a track when the timer of a timed pause or a timed unpause has expired and the
output resumes, whatever has been reported before.

As long as no such timer finds anything to resume (`UnpausesNothing`), there are no more reports
than streams: each stream is still to post its `TrackStarted`, or has it in the channel, or has been
reported (`Process.Accounted`).
-/

namespace LmsPlayer
namespace Vibe

open LmsProto
open Channel (Sends)
open ThreadPool (Replace)
open TransitionSystem (System)

/-! ## Counting -/

/-- The message is a status report with the code STMs. -/
def Send.isTrackStarted : Send → Bool
  | toServer (.stat code _) => code == StatusCode.trackStarted.toString
  | _ => false

/-- The number of tracks reported as started. -/
def starts (sends : List Send) : Nat := sends.countP Send.isTrackStarted

namespace LogEntry

/-- What the event loop sends. -/
def sends : LogEntry → List Send
  | handled _ _ sends _ => sends
  | handledPlayer _ _ _ sends _ => sends
  | timeout _ _ sends => sends
  | _ => []

theorem sends_of_not_byMain {e : LogEntry} (h : ¬e.ByMain) : e.sends = [] := by
  cases e with
  | handled now receipt sends spawns => exact absurd trivial h
  | handledPlayer now pass msg sends enqueued => exact absurd trivial h
  | timeout now pass sends => exact absurd trivial h
  | _ => rfl

end LogEntry

/-- The number of tracks reported as started so far. -/
def startsIn (log : List LogEntry) : Nat := starts (log.flatMap LogEntry.sends)

/-- The number of streams enqueued on the output so far. -/
def enqueuedIn (log : List LogEntry) : Nat := (log.flatMap LogEntry.enqueued).length

theorem startsIn_append (log entries : List LogEntry) :
    startsIn (log ++ entries) = startsIn log + startsIn entries := by
  simp [startsIn, starts]

theorem enqueuedIn_append (log entries : List LogEntry) :
    enqueuedIn (log ++ entries) = enqueuedIn log + enqueuedIn entries := by
  simp [enqueuedIn]

theorem startsIn_singleton (e : LogEntry) : startsIn [e] = starts e.sends := by
  simp [startsIn]

theorem enqueuedIn_singleton (e : LogEntry) : enqueuedIn [e] = e.enqueued.length := by
  simp [enqueuedIn]

theorem startsIn_eq_zero {entries : List LogEntry} (h : ∀ e ∈ entries, e.sends = []) :
    startsIn entries = 0 := by
  have hnone : entries.flatMap LogEntry.sends = [] := List.flatMap_eq_nil_iff.2 h
  rw [startsIn, hnone]
  rfl

theorem enqueuedIn_eq_zero {entries : List LogEntry} (h : ∀ e ∈ entries, e.enqueued = []) :
    enqueuedIn entries = 0 := by
  have hnone : entries.flatMap LogEntry.enqueued = [] := List.flatMap_eq_nil_iff.2 h
  rw [enqueuedIn, hnone]
  rfl

/-! ## What the handlers report -/

namespace Player

variable {O : Type} {now : Instant} {ctx : PlayerContext O} {g : Globals}

/-- Only a report with this very code counts. -/
theorem starts_sendStatus (p : Player O) (code : StatusCode) :
    starts (p.sendStatus now code).sends =
      starts p.sends + if code = .trackStarted then 1 else 0 := by
  have hcode : ∀ status, Send.isTrackStarted (.toServer (.stat code.toString status)) =
      decide (code = .trackStarted) := by
    intro status
    cases code <;> rfl
  have hsends : (p.sendStatus now code).sends =
      p.sends ++ [.toServer (.stat code.toString
        ((p.globals.lockStatus now).makeStatusMessage now code).2)] := rfl
  rw [hsends, starts, List.countP_append, List.countP_singleton, hcode]
  simp [starts]

/-- A handler that has sent nothing yet reports something else. -/
theorem starts_sendStatus_eq_zero {p : Player O} {code : StatusCode} (hp : p.sends = [])
    (hcode : code ≠ .trackStarted) : starts (p.sendStatus now code).sends = 0 := by
  rw [starts_sendStatus, if_neg hcode, hp]
  rfl

theorem starts_onStream (fields : StreamFields) :
    starts ((Player.start ctx g).onStream now fields).sends = 0 := by
  unfold onStream
  cases fields.httpHeaders with
  | none => rfl
  | some httpHeaders =>
      dsimp only
      split_ifs <;> rfl

variable [AudioOutput O]

theorem starts_onPause (interval : Duration) :
    starts ((Player.start ctx g).onPause now interval).sends = 0 := by
  unfold onPause
  cases (Player.start ctx g).ctx.output with
  | none => rfl
  | some output =>
      dsimp only
      split_ifs
      · exact starts_sendStatus_eq_zero rfl nofun
      · rfl
      · rfl
      · rfl

theorem starts_onUnpause (interval : Duration) :
    starts ((Player.start ctx g).onUnpause now interval).sends = 0 := by
  unfold onUnpause
  by_cases hnow : interval = 0
  · rw [if_pos hnow]
    cases (Player.start ctx g).ctx.output with
    | none => rfl
    | some output =>
        dsimp only
        split_ifs
        · exact starts_sendStatus_eq_zero rfl nofun
        · rfl
  · rw [if_neg hnow]
    rfl

/-- No message of the server makes the event loop report the start of a track. -/
theorem starts_handleServerMessage (opened : Option O) (msg : ServerMessage) :
    starts ((Player.start ctx g).handleServerMessage now opened msg).sends = 0 := by
  cases msg with
  | status ts => exact starts_sendStatus_eq_zero rfl nofun
  | stop => exact starts_sendStatus_eq_zero rfl nofun
  | flush => exact starts_sendStatus_eq_zero rfl nofun
  | pause interval => exact starts_onPause interval
  | unpause interval => exact starts_onUnpause interval
  | stream fields => exact starts_onStream fields
  | enable spdif dac =>
      show starts ((Player.start ctx g).onEnable opened spdif dac).sends = 0
      unfold onEnable
      split_ifs <;> rfl
  | _ => rfl

/-- Streams are enqueued when their decoder is handled, and only then. -/
theorem enqueued_handleServerMessage (opened : Option O) (msg : ServerMessage) :
    ((Player.start ctx g).handleServerMessage now opened msg).enqueued = [] := by
  cases msg with
  | pause interval => exact aside_enqueued.onPause (fun _ _ => rfl) _ interval
  | unpause interval => exact aside_enqueued.onUnpause (fun _ _ => rfl) _ interval
  | stream fields => exact aside_enqueued.onStream (fun _ _ => rfl) _ fields
  | enable spdif dac => exact aside_enqueued.onEnable _ opened spdif dac
  | _ => rfl

theorem starts_onTimeout : starts ((Player.start ctx g).onTimeout now).sends = 0 :=
  starts_sendStatus_eq_zero rfl nofun

/-- An `Unpause` that finds nothing to resume is not reported. -/
theorem sends_onPlayerUnpause (h : ¬ctx.Resumes) :
    ((Player.start ctx g).onPlayerUnpause now).sends = [] := by
  unfold onPlayerUnpause
  cases houtput : (Player.start ctx g).ctx.output with
  | none => rfl
  | some output =>
      have hctx : ctx.output = some output := houtput
      have hidle : (AudioOutput.unpause output).2 = false :=
        Bool.eq_false_iff.2 (mt (PlayerContext.resumes_iff hctx).2 h)
      dsimp only
      rw [hidle]
      rfl

/-- The start of a track is reported when a stream has posted it. -/
theorem starts_handlePlayerMessage {msg : PlayerMsg} (h : msg = .unpause → ¬ctx.Resumes) :
    starts ((Player.start ctx g).handlePlayerMessage now msg).sends =
      if msg = .trackStarted then 1 else 0 := by
  cases msg with
  | trackStarted => exact starts_sendStatus _ _
  | unpause =>
      have hnone : ((Player.start ctx g).onPlayerUnpause now).sends = [] :=
        sends_onPlayerUnpause (h rfl)
      show starts ((Player.start ctx g).onPlayerUnpause now).sends = 0
      rw [hnone]
      rfl
  | drained =>
      show starts ((Player.start ctx g).onDrained now).sends = 0
      unfold onDrained
      cases (Player.start ctx g).ctx.output <;> rfl
  | decoder decoder params =>
      show starts ((Player.start ctx g).onDecoder decoder params).sends = 0
      unfold onDecoder
      cases (Player.start ctx g).ctx.output with
      | none => rfl
      | some output =>
          -- All it sends goes to the event loop.
          refine List.countP_eq_zero.2 ?_
          intro send hsend
          rcases List.mem_append.1 hsend with hold | hposted
          · exact absurd hold List.not_mem_nil
          · rcases List.mem_map.1 hposted with ⟨m, _, rfl⟩
            exact Bool.false_ne_true
  | pause => rfl
  | _ => exact starts_sendStatus_eq_zero rfl nofun

end Player

/-! ## Streams that are still to be reported -/

namespace Pass

variable {O : Type} {cfg : Config} {k : Nat} {now : Instant} {g g' : Globals} {p p' : Pass O}
  {entries : List LogEntry}

/-- The number of streams that have still to post their `TrackStarted`, or have it in the
channel. -/
def unreported (p : Pass O) : Nat := p.stream.count .trackStarted + p.starting.length

/-- Another message is posted. -/
theorem count_stream_le {queue : List PlayerMsg} {msg : PlayerMsg}
    (hsend : Sends (p.attached = true) STREAM_CAPACITY p.stream msg queue)
    (hmsg : msg ≠ .trackStarted) :
    queue.count .trackStarted ≤ p.stream.count .trackStarted := by
  have hcount := hsend.count_le .trackStarted
  rwa [if_neg hmsg, Nat.add_zero] at hcount

theorem unreported_le_of_connectStep (h : ConnectStep now g p g' p' entries)
    (hposting : ∀ t ∈ p.connects, ∀ msg, t.phase = .posting msg →
      msg = .notSupported ∨ msg = t.decoderMsg) : p'.unreported ≤ p.unreported := by
  cases h with
  | postConnected hpc hsend hthread =>
      exact Nat.add_le_add_right (count_stream_le hsend nofun) _
  | postBufferThreshold hpc hsend hthread =>
      exact Nat.add_le_add_right (count_stream_le hsend nofun) _
  | post hpc hsend hthread =>
      refine Nat.add_le_add_right (count_stream_le hsend ?_) _
      rcases hposting _ hthread.mem _ hpc with rfl | rfl
      · nofun
      · nofun
  | _ => exact le_rfl

/-- The threads of a pass bring the `TrackStarted` of a stream into the channel, and make no
other. -/
theorem unreported_le_of_threadStep (h : ThreadStep cfg k now g p g' p' entries)
    (hposting : ∀ t ∈ p.connects, ∀ msg, t.phase = .posting msg →
      msg = .notSupported ∨ msg = t.decoderMsg) : p'.unreported ≤ p.unreported := by
  cases h with
  | proto h => cases h <;> exact le_rfl
  | writer h => cases h <;> exact le_rfl
  | connect h => exact unreported_le_of_connectStep h hposting
  | timer h =>
      cases h with
      | unpause hwake hsend hthread => exact Nat.add_le_add_right (count_stream_le hsend nofun) _
      | resume hwake hsend hthread => exact Nat.add_le_add_right (count_stream_le hsend nofun) _
      | _ => exact le_rfl
  | backend h =>
      cases h with
      | trackStarted hsend hstream =>
          rename_i d starting queue
          have hcount := hsend.count_le .trackStarted
          rw [if_pos rfl] at hcount
          calc
            queue.count .trackStarted + starting.length
                ≤ p.stream.count .trackStarted + 1 + starting.length :=
              Nat.add_le_add_right hcount _
            _ = p.stream.count .trackStarted + (starting.length + 1) := by omega
            _ = p.unreported := by rw [unreported, hstream.length_eq]
      | post hmsg hother hsend => exact Nat.add_le_add_right (count_stream_le hsend hother) _
      | _ => exact le_rfl

end Pass

/-! ## Runs -/

namespace LogEntry

/-- The entry is about an `Unpause` that a timer has posted. -/
def IsTimedUnpause : LogEntry → Prop
  | handledPlayer _ _ msg _ _ => msg = .unpause
  | _ => False

theorem not_isTimedUnpause_of_not_byMain {e : LogEntry} (h : ¬e.ByMain) : ¬e.IsTimedUnpause := by
  cases e with
  | handledPlayer now pass msg sends enqueued => exact absurd trivial h
  | _ => exact id

end LogEntry

/-- No `Unpause` that a timer has posted finds something to resume. -/
def UnpausesNothing {O : Type} [AudioOutput O] (s t : Process O) : Prop :=
  ∀ e, t.log = s.log ++ [e] → e.IsTimedUnpause → ¬s.pass.ctx.Resumes

namespace Process

variable {O : Type} {s : Process O}

/-- Every stream that has been enqueued has been reported once at most, or is still to be. -/
structure Accounted (s : Process O) : Prop where
  counted : startsIn s.log + s.pass.unreported ≤ enqueuedIn s.log
  silent : ∀ e ∈ s.log, e.IsTimedUnpause → starts e.sends = 0

/-- A handler has run, and has found the pass as `p`. -/
theorem Accounted.finish (hs : s.Accounted) {p : Pass O} {done : Player O} {e : LogEntry}
    (hsends : e.sends = done.sends) (henqueued : e.enqueued = done.enqueued)
    (hcount : starts done.sends + p.unreported ≤ s.pass.unreported)
    (hsilent : e.IsTimedUnpause → starts e.sends = 0) :
    ((s.finish p done).record [e]).Accounted := by
  refine ⟨?_, ?_⟩
  · have hpass : ((s.finish p done).record [e]).pass.unreported =
        p.unreported + done.enqueued.length := by
      have hsame : ((s.finish p done).record [e]).pass = p.absorb s.log.length s.now done :=
        s.finish_passes_self p done
      rw [hsame]
      simp only [Pass.unreported, Pass.absorb, List.length_append, Nat.add_assoc]
    have hlog : ((s.finish p done).record [e]).log = s.log ++ [e] := rfl
    have hcounted := hs.counted
    rw [hpass, hlog, startsIn_append, enqueuedIn_append, startsIn_singleton, enqueuedIn_singleton,
      hsends, henqueued]
    omega
  · intro e' he' hunpause
    rcases List.mem_append.1 he' with hold | hnew
    · exact hs.silent e' hold hunpause
    · cases List.mem_singleton.1 hnew
      exact hsilent hunpause

/-- Any other step, of `main` or of a thread. -/
theorem Accounted.move (hs : s.Accounted) {t : Process O} {p : Pass O} {entries : List LogEntry}
    (hlog : t.log = s.log) (hpass : t.pass = p)
    (hentries : ∀ e ∈ entries, e.sends = [] ∧ e.enqueued = [] ∧ ¬e.IsTimedUnpause)
    (hcount : p.unreported ≤ s.pass.unreported) : (t.record entries).Accounted := by
  subst hpass
  refine ⟨?_, ?_⟩
  · show startsIn (t.log ++ entries) + t.pass.unreported ≤ enqueuedIn (t.log ++ entries)
    have hcounted := hs.counted
    have hstarts : startsIn entries = 0 := startsIn_eq_zero fun e he => (hentries e he).1
    rw [hlog, startsIn_append, enqueuedIn_append, hstarts]
    omega
  · intro e he hunpause
    rcases List.mem_append.1 he with hold | hnew
    · exact hs.silent e (hlog ▸ hold) hunpause
    · exact absurd hunpause (hentries e hnew).2.2

end Process

section Main

variable {O : Type} [AudioOutput O] {cfg : Config} {s t : Process O} {entries : List LogEntry}

theorem accounted_of_mainStep (hreach : (system O cfg).Reachable s) (hs : s.Accounted)
    (h : MainStep cfg s t entries) (hok : UnpausesNothing s (t.record entries)) :
    (t.record entries).Accounted := by
  have hplayer : s.player = Player.start s.pass.ctx s.globals := rfl
  cases h with
  | serverMessage opened hmain hqueue hdone =>
      rw [hplayer] at hdone
      subst hdone
      refine hs.finish rfl (Player.enqueued_handleServerMessage opened _).symm ?_ nofun
      rw [Player.starts_handleServerMessage, Nat.zero_add]
      exact le_rfl
  | playerMessage hmain hqueue hdone =>
      rename_i msg rest done
      rw [hplayer] at hdone
      subst hdone
      have hidle : msg = .unpause → ¬s.pass.ctx.Resumes := hok _ rfl
      refine hs.finish rfl rfl ?_ ?_
      · -- What is reported has been taken from the channel.
        have hcount : s.pass.stream.count .trackStarted =
            rest.count .trackStarted + if msg = .trackStarted then 1 else 0 := by
          rw [hqueue, List.count_cons]
          simp
        rw [Player.starts_handlePlayerMessage hidle, Pass.unreported, Pass.unreported, hcount]
        dsimp only
        omega
      · intro hunpause
        have hmsg : msg = .unpause := hunpause
        subst hmsg
        exact Player.starts_handlePlayerMessage hidle
  | timeout hmain hserver hstream hdone =>
      rw [hplayer] at hdone
      subst hdone
      refine hs.finish rfl rfl ?_ nofun
      rw [Player.starts_onTimeout, Nat.zero_add]
  | sendToServer hmain hsend =>
      exact hs.move rfl (s.setPass_passes_self _ _) (fun e he => absurd he List.not_mem_nil) le_rfl
  | sendToSelf hmain hsend =>
      rename_i msg pending queue
      refine hs.move rfl (s.setPass_passes_self _ _) (fun e he => absurd he List.not_mem_nil) ?_
      have hmsg : msg ≠ .trackStarted := by
        rintro rfl
        exact fromEnqueue_of_pending hreach hmain (List.mem_cons_self ..)
      exact Nat.add_le_add_right (Pass.count_stream_le hsend hmsg) _
  | lost hmain hqueue =>
      refine hs.move rfl (s.setPass_passes_self _ _) ?_ le_rfl
      intro e he
      rw [List.mem_singleton.1 he]
      exact ⟨rfl, rfl, id⟩
  | disconnected hmain hqueue hended =>
      exact hs.move rfl rfl (fun e he => absurd he List.not_mem_nil) le_rfl
  | bye hmain hsend =>
      exact hs.move rfl (s.setPass_passes_self _ _) (fun e he => absurd he List.not_mem_nil) le_rfl
  | restart hostname hmain =>
      exact hs.move rfl (Process.setPass_passes_self ..) (fun e he => absurd he List.not_mem_nil)
        (Nat.zero_le _)

theorem accounted_of_threadStep (hreach : (system O cfg).Reachable s) (hs : s.Accounted) {k : Nat}
    {g' : Globals} {p' : Pass O}
    (h : ThreadStep cfg k s.now s.globals (s.passes k) g' p' entries) :
    (({ s.setPass k p' with globals := g' } : Process O).record entries).Accounted := by
  have hsilent := not_byMain_of_threadStep h
  refine hs.move rfl rfl ?_ ?_
  · intro e he
    exact ⟨LogEntry.sends_of_not_byMain (hsilent e he),
      LogEntry.enqueued_of_not_byMain (hsilent e he),
      LogEntry.not_isTimedUnpause_of_not_byMain (hsilent e he)⟩
  · show ((s.setPass k p').passes s.current).unreported ≤ (s.passes s.current).unreported
    by_cases hk : s.current = k
    · subst hk
      rw [Process.setPass_passes_self]
      exact Pass.unreported_le_of_threadStep h (posting hreach s.current)
    · rw [Process.setPass_passes_of_ne _ _ hk]

/-- A timer that sends a report of its own reports something else. -/
theorem not_isTrackStarted_of_timer (h : (system O cfg).Reachable s) (k : Nat) :
    ∀ msg, TimerThread.sending msg ∈ (s.passes k).timers →
      (Send.toServer msg).isTrackStarted = false := by
  have hall : ∀ t ∈ (s.passes k).timers, ∀ msg, t = .sending msg →
      (Send.toServer msg).isTrackStarted = false := by
    refine forall_pass (P := fun _ p => ∀ t ∈ p.timers, ∀ msg, t = .sending msg →
      (Send.toServer msg).isTrackStarted = false) h ?_ ?_ ?_ k
    · exact fun _ _ _ _ t ht => absurd ht List.not_mem_nil
    · intro s k g' p' entries _ hp hmoved
      cases hmoved with
      | proto hmoved => cases hmoved <;> exact hp
      | writer hmoved => cases hmoved <;> exact hp
      | connect hmoved => cases hmoved <;> exact hp
      | backend hmoved => cases hmoved <;> exact hp
      | timer hmoved =>
          cases hmoved with
          | unpause hwake hsend hthread => exact hthread.forall_mem hp (fun t ht => by cases ht)
          | resume hwake hsend hthread =>
              refine hthread.forall_mem hp ?_
              rintro t ht msg hmsg
              cases ht
              cases hmsg
          | report hthread =>
              refine hthread.forall_mem hp ?_
              rintro t ht msg hmsg
              cases ht
              cases hmsg
              rfl
          | send hsend hthread => exact hthread.forall_mem hp (fun t ht => by cases ht)
    · intro s t entries _ hp hmoved
      -- A timer is asleep when it is started.
      have hstarted : ∀ spawns : List Spawn,
          ∀ t ∈ s.pass.timers ++ spawns.filterMap (Spawn.timer? s.now), ∀ msg,
            t = .sending msg → (Send.toServer msg).isTrackStarted = false := by
        rintro spawns t ht msg rfl
        rcases List.mem_append.1 ht with hold | hnew
        · exact hp _ hold msg rfl
        · rcases List.mem_filterMap.1 hnew with ⟨thread, _, hthread⟩
          cases thread <;> cases hthread
      cases hmoved with
      | serverMessage | playerMessage | timeout =>
          rw [Process.finish_passes_self]
          exact hstarted _
      | disconnected => exact hp
      | restart =>
          dsimp only
          rw [Process.setPass_passes_of_ne _ _ (Nat.succ_ne_self _).symm,
            Process.setPass_passes_self]
          exact hp
      | _ =>
          dsimp only
          rw [Process.setPass_passes_self]
          exact hp
  exact fun msg hmem => hall _ hmem msg rfl

/-- **No track is reported as started twice**, in every run in which no `Unpause` of a timer finds
something to resume: there are no more reports of the start of a track than streams enqueued on the
output, and no timer makes one. -/
theorem startsIn_le (h : ((system O cfg).restrict UnpausesNothing).Reachable s) :
    startsIn s.log ≤ enqueuedIn s.log ∧
      (∀ e ∈ s.log, e.IsTimedUnpause → starts e.sends = 0) ∧
      ∀ k msg, TimerThread.sending msg ∈ (s.passes k).timers →
        (Send.toServer msg).isTrackStarted = false := by
  have haccounted : s.Accounted := by
    refine System.Reachable.invariant Process.Accounted ?_ ?_ h
    · rintro s ⟨now, hostname, rfl⟩
      exact ⟨le_rfl, fun e he => absurd he List.not_mem_nil⟩
    · intro s t hs ih hstep
      rcases hstep with ⟨hstep, hok⟩
      cases hstep with
      | main hmoved => exact accounted_of_mainStep hs.of_restrict ih hmoved hok
      | thread hrun hk hmoved => exact accounted_of_threadStep hs.of_restrict ih hmoved
      | tick d => exact ⟨ih.counted, ih.silent⟩
  exact ⟨le_trans (Nat.le_add_right _ _) haccounted.counted, haccounted.silent,
    not_isTrackStarted_of_timer h.of_restrict⟩

end Main

/-! ## A stream that is playing -/

/-- The entry is about the output being connected, or about a stream on its way to being played. -/
def LogEntry.SetsUp : LogEntry → Prop
  | handled _ receipt _ _ =>
      match receipt.msg with
      | .enable .. | .stream .. => True
      | _ => False
  | handledPlayer _ _ msg _ _ =>
      match msg with
      | .connected | .bufferThreshold | .decoder .. | .streamEstablished | .trackStarted => True
      | _ => False
  | _ => True

/-- The connection to the server of the command line. -/
def cliConnection : Connection :=
  { pass := 0
    hops := 0
    sock := { ip := .new 10 0 0 1, port := SLIM_PORT } }

/-- A handler that only sends something leaves the pass as it is. -/
theorem Pass.absorb_eq {O : Type} {p : Pass O} {done : Player O} (origin : Nat) (now : Instant)
    (hctx : done.ctx = p.ctx) (hspawns : done.spawns = []) (henqueued : done.enqueued = []) :
    p.absorb origin now done = p := by
  unfold Pass.absorb
  rw [hctx, hspawns, henqueued]
  simp

/-- A stream is being set up for the output `output`: the messages in the channel, the
stream-connect threads, the buffers they have made, and the streams that have been enqueued.  The
server has been told everything there is to tell, and the messages `msgs` have been received from
it. -/
def setUpPass (msgs : List ServerMessage) (output : PulseOutput) (stream : List PlayerMsg)
    (connects : List ConnectThread) (buffers : List BufferConfig) (starting : List VibeDecoder) :
    Pass PulseOutput :=
  { (Pass.start cliConfig 0 "Vibe" false : Pass PulseOutput) with
    ctx :=
      { output := some output
        serverDefaultIp := cliConfig.serverDefaultIp
        name := "Vibe"
        startTime := 0 }
    proto :=
      { newServerSock := none
        syncGroupId := none
        reconnect := false
        hops := 0
        phase := .forwarding cliConnection msgs }
    stream := stream
    writers := [⟨cliConnection, .receiving⟩]
    connects := connects
    buffers := buffers
    starting := starting }

/-- The thread that makes the decoder of the stream. -/
def lateThread (phase : ConnectPhase) : ConnectThread :=
  { origin := 3
    request :=
      { serverIp := ownStream.serverIp
        defaultIp := cliConfig.serverDefaultIp
        serverPort := ownStream.serverPort
        httpHeaders := "GET /stream.mp3 HTTP/1.0\r\n"
        threshold := ownStream.threshold
        format := ownStream.format
        pcmsamplesize := ownStream.pcmsamplesize
        pcmsamplerate := ownStream.pcmsamplerate
        pcmchannels := ownStream.pcmchannels
        autostart := ownStream.autostart
        outputThreshold := ownStream.outputThreshold }
    phase := phase }

/-- The stream is playing, and the start of its track has been reported. -/
def playingPass (msgs : List ServerMessage) : Pass PulseOutput :=
  setUpPass msgs { PulseOutput.new with playing := some lateDecoder, corked := false } [] []
    [(lateThread .dialing).request.buffer] []

/-- In its first pass, in the event loop, the program has this left to send. -/
def inLoop (g : Globals) (p : Pass PulseOutput) (pending : List Send) (log : List LogEntry) :
    Process PulseOutput :=
  .firstPass 0 g p (Pass.start cliConfig 0 "Vibe" false) (.loop pending) log

/-- The condition of `S` allows the threads everything, and `main` the setting up of a stream. -/
structure Allows (S : System (Process PulseOutput)) : Prop where
  init : S.init (Process.start cliConfig 0 none)
  thread : ∀ {s : Process PulseOutput} {k : Nat} {g' : Globals} {p' : Pass PulseOutput}
    {entries : List LogEntry}, s.main ≠ .exited → k ≤ s.current →
    ThreadStep cliConfig k s.now s.globals (s.passes k) g' p' entries →
    S.step s ({ s.setPass k p' with globals := g' }.record entries)
  main : ∀ {s t : Process PulseOutput} {entries : List LogEntry},
    MainStep cliConfig s t entries → (∀ e ∈ entries, e.SetsUp) → S.step s (t.record entries)

/-- `main` takes a step. -/
theorem Allows.loop {S : System (Process PulseOutput)} (hS : Allows S) {now : Instant} {g : Globals}
    {p blank : Pass PulseOutput} {main : MainPhase} {log entries : List LogEntry}
    {t : Process PulseOutput} (h : S.Reachable (Process.firstPass now g p blank main log))
    (hmoved : MainStep cliConfig (.firstPass now g p blank main log) t entries)
    (hsetsUp : ∀ e ∈ entries, e.SetsUp) (hreconnect : t.reconnect = false)
    (hcurrent : t.current = 0) :
    S.Reachable (.firstPass t.now t.globals (t.passes 0) blank t.main (log ++ entries)) :=
  reachable_firstPass_of_mainStep h hmoved (hS.main hmoved hsetsUp) hreconnect hcurrent

/-- The threads of the pass move. -/
theorem Allows.exists_threads {S : System (Process PulseOutput)} (hS : Allows S) {g g' : Globals}
    {p : Pass PulseOutput} (p' : Pass PulseOutput) {pending : List Send}
    {log entries : List LogEntry} (h : S.Reachable (inLoop g p pending log))
    (hrun : ThreadRun cliConfig 0 0 g p g' p' entries) :
    ∃ log', S.Reachable (inLoop g' p' pending log') ∧ startsIn log' = startsIn log ∧
      enqueuedIn log' = enqueuedIn log := by
  have hsilent := not_byMain_of_threadRun hrun
  have hstarts : startsIn entries = 0 :=
    startsIn_eq_zero fun e he => LogEntry.sends_of_not_byMain (hsilent e he)
  have henqueued : enqueuedIn entries = 0 :=
    enqueuedIn_eq_zero fun e he => LogEntry.enqueued_of_not_byMain (hsilent e he)
  refine ⟨_, reachable_firstPass_of_threadRun h hS.thread nofun hrun, ?_, ?_⟩
  · rw [startsIn_append, hstarts, Nat.add_zero]
  · rw [enqueuedIn_append, henqueued, Nat.add_zero]

/-- The stream-connect thread has been started. -/
theorem Allows.exists_dialing {S : System (Process PulseOutput)} (hS : Allows S)
    {msgs : List ServerMessage} (hmsgs : ∀ msg ∈ msgs, msg.OnWire) :
    ∃ g log, S.Reachable (inLoop g (setUpPass msgs .new [] [lateThread .dialing] [] []) [] log) ∧
      startsIn log = 0 ∧ enqueuedIn log = 0 := by
  have hslim : 0 < SLIM_CAPACITY := by decide
  have hwire : ∀ msg ∈ ServerMessage.enable true true :: .stream ownStream :: msgs, msg.OnWire := by
    refine List.forall_mem_cons.2 ⟨ServerMessage.onWire_of_representable trivial, ?_⟩
    exact List.forall_mem_cons.2
      ⟨ServerMessage.onWire_of_representable representable_ownStream, hmsgs⟩
  have h0 : S.Reachable (Process.start cliConfig 0 none) := .init hS.init
  rw [start_eq_firstPass] at h0
  -- The server connects the output, and starts a stream.
  have h1 := reachable_firstPass_of_threadRun h0 hS.thread nofun
    (.cons (.proto (.hello rfl)) <|
      .cons (.proto (.takeCli rfl rfl rfl)) <|
      .cons (.proto (.connect rfl)) <|
      .cons (.proto (.received (.enable true true :: .stream ownStream :: msgs) rfl hwire)) <|
      .cons (.proto (.forward rfl id (.queued rfl hslim))) .nil)
  have h2 := hS.loop h1 (.serverMessage (some .new) rfl rfl rfl) (by simp [LogEntry.SetsUp]) rfl rfl
  have h3 := reachable_firstPass_of_threadRun h2 hS.thread nofun
    (.cons (.proto (.forward rfl id (.queued rfl hslim))) .nil)
  have h4 := hS.loop h3 (.serverMessage none rfl rfl rfl) (by simp [LogEntry.SetsUp]) rfl rfl
  exact ⟨_, _, h4, rfl, rfl⟩

/-- The event loop handles a message by a report to the server, which is written. -/
theorem Allows.exists_reported {S : System (Process PulseOutput)} (hS : Allows S) {g : Globals}
    {log : List LogEntry} {msgs : List ServerMessage} {output : PulseOutput} {msg : PlayerMsg}
    {stream : List PlayerMsg} {connects : List ConnectThread} {buffers : List BufferConfig}
    {starting : List VibeDecoder}
    (h : S.Reachable
      (inLoop g (setUpPass msgs output (msg :: stream) connects buffers starting) [] log))
    (code : StatusCode)
    (hsetsUp : ∀ now pass sends enqueued,
      (LogEntry.handledPlayer now pass msg sends enqueued).SetsUp)
    (hdone : ∀ (ctx : PlayerContext PulseOutput) (g : Globals), ∃ g',
      (Player.start ctx g).handlePlayerMessage 0 msg = (Player.start ctx g').sendStatus 0 code) :
    ∃ g' log', S.Reachable
        (inLoop g' (setUpPass msgs output stream connects buffers starting) [] log') ∧
      startsIn log' = startsIn log + (if code = .trackStarted then 1 else 0) ∧
      enqueuedIn log' = enqueuedIn log := by
  have hslim : 0 < SLIM_CAPACITY := by decide
  rcases hdone (setUpPass msgs output [] [] [] []).ctx g with ⟨g₁, hdone⟩
  have hentry : ∀ now pass sends enqueued,
      ∀ e ∈ [LogEntry.handledPlayer now pass msg sends enqueued], e.SetsUp := by
    intro now pass sends enqueued e he
    rw [List.mem_singleton.1 he]
    exact hsetsUp now pass sends enqueued
  have h1 : S.Reachable (inLoop _ ((setUpPass msgs output stream connects buffers starting).absorb
      log.length 0 _) [.toServer _] _) :=
    hS.loop h (.playerMessage rfl rfl hdone.symm) (hentry _ _ _ _) rfl rfl
  rw [Pass.absorb_eq (p := setUpPass msgs output stream connects buffers starting)] at h1
  · have h2 := hS.loop h1 (.sendToServer rfl (.queued (Or.inl nofun) hslim))
      (fun e he => absurd he List.not_mem_nil) rfl rfl
    have h3 := reachable_firstPass_of_threadRun h2 hS.thread nofun
      (.cons (.writer (.take rfl (.mk [] []))) <| .cons (.writer (.written (.mk [] []))) .nil)
    refine ⟨_, _, h3, ?_, ?_⟩
    · rw [startsIn_append, startsIn_append, startsIn_append, startsIn_singleton]
      exact congrArg (startsIn log + ·) ((Player.starts_sendStatus _ code).trans (Nat.zero_add _))
    · rw [enqueuedIn_append, enqueuedIn_append, enqueuedIn_append]
      rfl
  · rfl
  · rfl
  · rfl

/-- Under every such condition a stream comes to play, and the start of its track is reported. -/
theorem Allows.exists_playing {S : System (Process PulseOutput)} (hS : Allows S)
    {msgs : List ServerMessage} (hmsgs : ∀ msg ∈ msgs, msg.OnWire) :
    ∃ g log, S.Reachable (inLoop g (playingPass msgs) [] log) ∧ startsIn log = 1 ∧
      enqueuedIn log = 1 := by
  have hstream : 0 < STREAM_CAPACITY := by decide
  have hentry : ∀ now pass params sends enqueued, ∀ e ∈ [LogEntry.handledPlayer now pass
      (.decoder lateDecoder params) sends enqueued], e.SetsUp := by
    intro now pass params sends enqueued e he
    rw [List.mem_singleton.1 he]
    trivial
  rcases hS.exists_dialing hmsgs with ⟨g0, log0, h0, hstarts0, henqueued0⟩
  rcases hS.exists_threads (setUpPass msgs .new [.connected] [lateThread .buffering] [] []) h0
      (.cons (.connect (.dial rfl (.mk [] []))) <|
        .cons (.connect (.postConnected rfl (.queued rfl hstream) (.mk [] []))) .nil) with
    ⟨log1, h1, hstarts1, henqueued1⟩
  rcases hS.exists_reported h1 .connect (fun _ _ _ _ => trivial) (fun _ g => ⟨g, rfl⟩) with
    ⟨g2, log2, h2, hstarts2, henqueued2⟩
  rcases hS.exists_threads
      (setUpPass msgs .new [.bufferThreshold] [lateThread .preparing]
        [(lateThread .dialing).request.buffer] []) h2
      (.cons (.connect (.createBuffer rfl (.mk [] []))) <|
        .cons (.connect (.postBufferThreshold rfl (.queued rfl hstream) (.mk [] []))) .nil) with
    ⟨log3, h3, hstarts3, henqueued3⟩
  rcases hS.exists_reported h3 .bufferThreshold (fun _ _ _ _ => trivial) (fun _ g => ⟨g, rfl⟩) with
    ⟨g4, log4, h4, hstarts4, henqueued4⟩
  rcases hS.exists_threads
      (setUpPass msgs .new [(lateThread .preparing).decoderMsg] []
        [(lateThread .dialing).request.buffer] []) h4
      (.cons (.connect (.prepared rfl (.mk [] []))) <|
        .cons (.connect (.post rfl (.queued rfl hstream) (.mk [] []))) .nil) with
    ⟨log5, h5, hstarts5, henqueued5⟩
  -- The decoder is passed to the output.
  have h6 := hS.loop h5 (.playerMessage rfl rfl rfl) (hentry _ _ _ _ _) rfl rfl
  have h7 : S.Reachable (inLoop _ (setUpPass msgs
      { PulseOutput.new with playing := some lateDecoder, corked := false } [.streamEstablished] []
      [(lateThread .dialing).request.buffer] [lateDecoder]) [] _) :=
    hS.loop h6 (.sendToSelf rfl (.queued rfl hstream)) (fun e he => absurd he List.not_mem_nil)
      rfl rfl
  rcases hS.exists_reported h7 .streamEstablished (fun _ _ _ _ => trivial)
      (fun _ g => ⟨g, rfl⟩) with ⟨g8, log8, h8, hstarts8, henqueued8⟩
  rcases hS.exists_threads
      (setUpPass msgs { PulseOutput.new with playing := some lateDecoder, corked := false }
        [.trackStarted] [] [(lateThread .dialing).request.buffer] []) h8
      (.cons (.backend (.trackStarted (.queued rfl hstream) (.mk [] []))) .nil) with
    ⟨log9, h9, hstarts9, henqueued9⟩
  rcases hS.exists_reported h9 .trackStarted (fun _ _ _ _ => trivial) (fun _ _ => ⟨_, rfl⟩) with
    ⟨g10, log10, h10, hstarts10, henqueued10⟩
  refine ⟨g10, log10, h10, ?_, ?_⟩
  · rw [hstarts10, hstarts9, hstarts8, startsIn_append, startsIn_append, hstarts5, hstarts4,
      hstarts3, hstarts2, hstarts1, hstarts0]
    rfl
  · rw [henqueued10, henqueued9, henqueued8, enqueuedIn_append, enqueuedIn_append, henqueued5,
      henqueued4, henqueued3, henqueued2, henqueued1, henqueued0]
    rfl

/-! ## Two runs -/

section Runs

variable {O : Type} [AudioOutput O] {cfg : Config} {s t : Process O} {entries : List LogEntry}

theorem unpausesNothing_record (hlog : t.log = s.log)
    (hentries : ∀ e ∈ entries, ¬e.IsTimedUnpause) :
    UnpausesNothing s (t.record entries) := by
  intro e he hunpause
  exact absurd hunpause (not_of_record_log hlog hentries he)

end Runs

theorem allows_unpausesNothing : Allows ((system PulseOutput cliConfig).restrict UnpausesNothing) :=
  { init := ⟨0, none, rfl⟩
    thread := by
      intro s k g' p' entries hrun hk h
      refine ⟨.thread hrun hk h, unpausesNothing_record rfl ?_⟩
      exact fun e he => LogEntry.not_isTimedUnpause_of_not_byMain (not_byMain_of_threadStep h e he)
    main := by
      intro s t entries h hsetsUp
      refine ⟨.main h, unpausesNothing_record h.log_eq ?_⟩
      intro e he hunpause
      cases e with
      | handledPlayer now pass msg sends enqueued =>
          have hmsg : msg = .unpause := hunpause
          subst hmsg
          exact hsetsUp _ he
      | _ => exact hunpause }

/-- A stream plays, and the start of its track has been reported. -/
theorem startsIn_le_playing : ∃ s : Process PulseOutput,
    ((system PulseOutput cliConfig).restrict UnpausesNothing).Reachable s ∧ startsIn s.log = 1 ∧
      startsIn s.log ≤ enqueuedIn s.log := by
  rcases allows_unpausesNothing.exists_playing
      (List.forall_mem_nil fun msg : ServerMessage => msg.OnWire) with ⟨g, log, hs, hstarts, _⟩
  exact ⟨_, hs, hstarts, (startsIn_le hs).1⟩

theorem allows_system : Allows (system PulseOutput cliConfig) :=
  { init := ⟨0, none, rfl⟩
    thread := Step.thread
    main := fun h _ => .main h }

/-- The stream is paused for five seconds, and the start of its track is reported again. -/
theorem exists_startsTwice : ∃ s : Process PulseOutput,
    (system PulseOutput cliConfig).Reachable s ∧ enqueuedIn s.log < startsIn s.log := by
  have hslim : 0 < SLIM_CAPACITY := by decide
  have hstream : 0 < STREAM_CAPACITY := by decide
  have hwire : ∀ msg ∈ [ServerMessage.pause (Duration.fromSecs 5)], msg.OnWire :=
    forall_onWire _ (List.forall_mem_singleton.2 ⟨5000, by decide, rfl⟩)
  rcases allows_system.exists_playing hwire with ⟨g, log, h0, hstarts, henqueued⟩
  have h1 := reachable_firstPass_of_threadRun h0 Step.thread nofun
    (.cons (.proto (.forward rfl id (.queued rfl hslim))) .nil)
  have h2 := h1.step (.main (.serverMessage none rfl rfl rfl))
  have h3 := h2.step (.tick (Duration.fromSecs 5))
  have h4 := reachable_of_threadRun h3 Step.thread nofun (le_refl 0)
    (.cons (.timer (.unpause le_rfl (.queued rfl hstream) (.mk [] []))) .nil)
  have h5 := h4.step (.main (.playerMessage rfl rfl rfl))
  refine ⟨_, h5, ?_⟩
  show enqueuedIn (log ++ [] ++ [_] ++ [] ++ [_]) < startsIn (log ++ [] ++ [_] ++ [] ++ [_])
  simp only [enqueuedIn_append, startsIn_append, henqueued, hstarts]
  exact Nat.lt_succ_self 1

end Vibe
end LmsPlayer
