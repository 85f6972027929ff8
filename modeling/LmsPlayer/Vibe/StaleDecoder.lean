import LmsPlayer.Vibe.Fallback

/-!
# Vibe.StaleDecoder — decoders that outlive their stream

Stop and Flush act on the output at once: they drop the stream that is playing and the one that is
up next.  A decoder that is still being made, or whose message has not been handled yet, is not
among these, and is passed to the output later.

`Unstopped` says that no Stop or Flush has been handled since a Stream command.  It holds of every
decoder that is on its way to the event loop, and hence of every decoder passed to the output, as
long as every Stop and Flush is handled while no decoder is on its way (`StopsQuietly`).
-/

namespace LmsPlayer
namespace Vibe

open LmsProto
open ThreadPool (Replace)
open TransitionSystem (System)

/-! ## The record -/

namespace LogEntry

/-- A Stop or a Flush has been handled. -/
def IsStop : LogEntry → Prop
  | handled _ receipt _ _ => receipt.msg = .stop ∨ receipt.msg = .flush
  | _ => False

/-- The decoders that have been passed to the output. -/
def enqueued : LogEntry → List VibeDecoder
  | handledPlayer _ _ _ _ enqueued => enqueued
  | _ => []

theorem not_isStop_of_not_byMain {e : LogEntry} (h : ¬e.ByMain) : ¬e.IsStop := by
  cases e with
  | handled now receipt sends spawns => exact absurd trivial h
  | _ => exact id

theorem enqueued_of_not_byMain {e : LogEntry} (h : ¬e.ByMain) : e.enqueued = [] := by
  cases e with
  | handledPlayer now pass msg sends enqueued => exact absurd trivial h
  | _ => rfl

end LogEntry

/-- The entry at `origin` is about a Stream command, and no Stop or Flush has been handled since. -/
def Unstopped (log : List LogEntry) (origin : Nat) : Prop :=
  (∃ fields conn, StreamAt log origin fields conn) ∧ ∀ e ∈ log.drop origin, ¬e.IsStop

theorem Unstopped.append {log : List LogEntry} {origin : Nat} (h : Unstopped log origin)
    {entries : List LogEntry} (hentries : ∀ e ∈ entries, ¬e.IsStop) :
    Unstopped (log ++ entries) origin := by
  rcases h with ⟨⟨fields, conn, hstream⟩, hclean⟩
  refine ⟨⟨fields, conn, hstream.append entries⟩, ?_⟩
  rcases hstream with ⟨now, sends, spawns, hentry⟩
  rcases List.getElem?_eq_some_iff.1 hentry with ⟨hlt, _⟩
  intro e he
  rw [List.drop_append_of_le_length (Nat.le_of_lt hlt)] at he
  rcases List.mem_append.1 he with hold | hnew
  · exact hclean e hold
  · exact hentries e hnew

/-- A Stream command that has just been handled. -/
theorem unstopped_length (log : List LogEntry) {now : Instant} {fields : StreamFields}
    {conn : Connection} {sends : List Send} {spawns : List Spawn} :
    Unstopped (log ++ [.handled now ⟨.stream fields, conn⟩ sends spawns]) log.length := by
  refine ⟨⟨fields, conn, streamAt_length log⟩, ?_⟩
  intro e he
  rw [List.drop_left] at he
  rw [List.mem_singleton.1 he]
  rintro (hstop | hflush)
  · cases hstop
  · cases hflush

/-- Every decoder has been passed to the output before a Stop or Flush for its stream. -/
def Timely (log : List LogEntry) : Prop :=
  ∀ before entry after d, log = before ++ entry :: after → d ∈ entry.enqueued →
    Unstopped before d.origin

/-- The last entry of a list is the one that is looked for, or that one comes before. -/
theorem concat_eq_append_cons {α : Type} {xs before after : List α} {x e : α}
    (h : xs ++ [x] = before ++ e :: after) :
    (after = [] ∧ x = e ∧ xs = before) ∨
    ∃ rest, after = rest ++ [x] ∧ xs = before ++ e :: rest := by
  rcases List.eq_nil_or_concat after with rfl | ⟨rest, y, rfl⟩
  · rcases List.append_inj' h rfl with ⟨hxs, hx⟩
    exact Or.inl ⟨rfl, (List.cons.inj hx).1, hxs⟩
  · have hsplit : xs ++ [x] = (before ++ e :: rest) ++ [y] := by
      rw [h]
      simp
    rcases List.append_inj' hsplit rfl with ⟨hxs, hx⟩
    exact Or.inr ⟨rest, by rw [(List.cons.inj hx).1, List.concat_eq_append], hxs⟩

theorem Timely.concat {log : List LogEntry} (h : Timely log) {entry : LogEntry}
    (hentry : ∀ d ∈ entry.enqueued, Unstopped log d.origin) : Timely (log ++ [entry]) := by
  intro before e after d heq hd
  rcases concat_eq_append_cons heq with ⟨rfl, rfl, rfl⟩ | ⟨rest, rfl, hbefore⟩
  · exact hentry d hd
  · exact h before e rest d hbefore hd

theorem Timely.append {log entries : List LogEntry} (h : Timely log)
    (hentries : ∀ e ∈ entries, e.enqueued = []) : Timely (log ++ entries) := by
  induction entries generalizing log with
  | nil =>
      rw [List.append_nil]
      exact h
  | cons e entries ih =>
      have hfirst : Timely (log ++ [e]) := by
        refine h.concat ?_
        intro d hd
        rw [hentries e (List.mem_cons_self ..)] at hd
        exact absurd hd List.not_mem_nil
      have hrest := ih hfirst fun e' he' => hentries e' (List.mem_cons_of_mem _ he')
      rwa [List.append_assoc] at hrest

/-! ## Decoders on their way -/

/-- The origin of the decoder the thread may still post. -/
def ConnectThread.MayPost (t : ConnectThread) (origin : Nat) : Prop :=
  match t.phase with
  | .posting msg => ∃ d, msg.decoder? = some d ∧ d.origin = origin
  | _ => t.origin = origin

/-- Until it posts something, the thread may still post a decoder. -/
theorem ConnectThread.mayPost_origin {t : ConnectThread} (h : ∀ msg, t.phase ≠ .posting msg) :
    t.MayPost t.origin := by
  unfold MayPost
  cases hphase : t.phase with
  | posting msg => exact absurd hphase (h msg)
  | _ => rfl

namespace Pass

variable {O : Type} {cfg : Config} {k : Nat} {now : Instant} {g g' : Globals} {p p' : Pass O}
  {entries : List LogEntry} {R R' : Nat → Prop}

/-- `R` holds of the origins of all decoders on their way to the event loop. -/
structure AllPending (R : Nat → Prop) (p : Pass O) : Prop where
  connects : ∀ t ∈ p.connects, ∀ origin, t.MayPost origin → R origin
  stream : ∀ msg ∈ p.stream, ∀ d, msg.decoder? = some d → R d.origin

/-- No decoder is on its way to the event loop. -/
def Quiet (p : Pass O) : Prop := p.AllPending fun _ => False

theorem AllPending.mono (hp : p.AllPending R) (h : ∀ origin, R origin → R' origin) :
    p.AllPending R' :=
  { connects := fun t ht origin hpost => h origin (hp.connects t ht origin hpost)
    stream := fun msg hmsg d hd => h d.origin (hp.stream msg hmsg d hd) }

theorem AllPending.start (cfg : Config) (now : Instant) (name : String) (reconnect : Bool) :
    (start cfg now name reconnect : Pass O).AllPending R :=
  { connects := fun _ ht => absurd ht List.not_mem_nil
    stream := fun _ hmsg => absurd hmsg List.not_mem_nil }

theorem AllPending.absorb (hp : p.AllPending R) {origin : Nat} {done : Player O}
    (hnew : ∀ request, Spawn.streamConnect request ∈ done.spawns → R origin) :
    (p.absorb origin now done).AllPending R := by
  refine ⟨?_, hp.stream⟩
  intro t ht o hpost
  rcases mem_connects_absorb ht with hold | ⟨horigin, hphase, hspawn⟩
  · exact hp.connects t hold o hpost
  · unfold ConnectThread.MayPost at hpost
    rw [hphase] at hpost
    have ho : o = origin := (show t.origin = o from hpost).symm.trans horigin
    rw [ho]
    exact hnew t.request hspawn

/-- The thread of a decoder that is on its way goes on. -/
theorem AllPending.replace (hp : p.AllPending R) {t t' : ConnectThread}
    {connects : List ConnectThread} (hphase : ∀ msg, t.phase ≠ .posting msg)
    (hthread : Replace t (some t') p.connects connects)
    (hpost : ∀ origin, t'.MayPost origin → origin = t.origin) :
    ∀ y ∈ connects, ∀ origin, y.MayPost origin → R origin := by
  have hself := hp.connects t hthread.mem t.origin (ConnectThread.mayPost_origin hphase)
  refine hthread.forall_mem hp.connects ?_
  rintro y hy origin hmay
  cases hy
  rw [hpost origin hmay]
  exact hself

theorem AllPending.connectStep (hp : p.AllPending R) (h : ConnectStep now g p g' p' entries) :
    p'.AllPending R := by
  cases h with
  | dial hpc hthread =>
      exact { hp with connects := hp.replace (by simp [hpc]) hthread fun _ ho => Eq.symm ho }
  | dialFailed hpc hthread =>
      refine { hp with connects := hp.replace (by simp [hpc]) hthread ?_ }
      rintro origin ⟨d, hd, _⟩
      cases hd
  | postConnected hpc hsend hthread =>
      refine ⟨hp.replace (by simp [hpc]) hthread fun _ ho => Eq.symm ho, ?_⟩
      exact hsend.forall_mem hp.stream fun d hd => by cases hd
  | createBuffer hpc hthread =>
      exact { hp with connects := hp.replace (by simp [hpc]) hthread fun _ ho => Eq.symm ho }
  | postBufferThreshold hpc hsend hthread =>
      refine ⟨hp.replace (by simp [hpc]) hthread fun _ ho => Eq.symm ho, ?_⟩
      exact hsend.forall_mem hp.stream fun d hd => by cases hd
  | prepared hpc hthread =>
      refine { hp with connects := hp.replace (by simp [hpc]) hthread ?_ }
      rintro origin ⟨d, hd, rfl⟩
      cases hd
      rfl
  | notPrepared hpc hthread =>
      refine { hp with connects := hp.replace (by simp [hpc]) hthread ?_ }
      rintro origin ⟨d, hd, _⟩
      cases hd
  | post hpc hsend hthread =>
      refine ⟨hthread.forall_mem hp.connects (fun y hy => by cases hy), ?_⟩
      refine hsend.forall_mem hp.stream ?_
      intro d hd
      refine hp.connects _ hthread.mem d.origin ?_
      unfold ConnectThread.MayPost
      rw [hpc]
      exact ⟨d, hd, rfl⟩

/-- The threads of a pass only bring decoders further that are on their way already. -/
theorem AllPending.threadStep (hp : p.AllPending R)
    (h : ThreadStep cfg k now g p g' p' entries) : p'.AllPending R := by
  cases h with
  | proto h => cases h <;> exact { hp with }
  | writer h => cases h <;> exact { hp with }
  | connect h => exact hp.connectStep h
  | timer h =>
      cases h with
      | unpause hwake hsend hthread =>
          exact { hp with stream := hsend.forall_mem hp.stream fun d hd => by cases hd }
      | resume hwake hsend hthread =>
          exact { hp with stream := hsend.forall_mem hp.stream fun d hd => by cases hd }
      | _ => exact { hp with }
  | backend h =>
      cases h with
      | trackStarted hsend hstream =>
          exact { hp with stream := hsend.forall_mem hp.stream fun d hd => by cases hd }
      | post hmsg hother hsend =>
          refine { hp with stream := hsend.forall_mem hp.stream ?_ }
          intro d hd
          rw [PlayerMsg.decoder?_of_fromCallback hmsg] at hd
          cases hd
      | _ => exact { hp with }

end Pass

/-! ## Runs -/

/-- Every Stop or Flush is handled while no decoder is on its way to the event loop. -/
def StopsQuietly {O : Type} (s t : Process O) : Prop :=
  ∀ e, t.log = s.log ++ [e] → e.IsStop → s.pass.Quiet

namespace Process

variable {O : Type} {s : Process O}

structure Punctual (s : Process O) : Prop where
  pending : s.pass.AllPending (Unstopped s.log)
  notices : ∀ sends, s.main = .loop sends → ∀ msg, Send.toSelf msg ∈ sends → msg.decoder? = none
  timely : Timely s.log

/-- An entry is made, and if it is about a Stop or a Flush, no decoder is on its way. -/
theorem Punctual.pending_concat (hs : s.Punctual) {e : LogEntry}
    (hquiet : e.IsStop → s.pass.Quiet) : s.pass.AllPending (Unstopped (s.log ++ [e])) := by
  by_cases hstop : e.IsStop
  · exact (hquiet hstop).mono fun _ hnone => hnone.elim
  · refine hs.pending.mono ?_
    intro origin horigin
    refine horigin.append ?_
    intro e' he'
    rw [List.mem_singleton.1 he']
    exact hstop

/-- A handler has run, and has found the pass as `p`. -/
theorem Punctual.finish (hs : s.Punctual) {p : Pass O} {done : Player O} {e : LogEntry}
    (hpending : p.AllPending (Unstopped (s.log ++ [e])))
    (hspawns : ∀ request, Spawn.streamConnect request ∈ done.spawns →
      Unstopped (s.log ++ [e]) s.log.length)
    (hnotices : ∀ msg, Send.toSelf msg ∈ done.sends → msg.decoder? = none)
    (henqueued : ∀ d ∈ e.enqueued, Unstopped s.log d.origin) :
    ((s.finish p done).record [e]).Punctual := by
  refine ⟨?_, ?_, hs.timely.concat henqueued⟩
  · show ((s.finish p done).passes s.current).AllPending _
    rw [finish_passes_self]
    exact hpending.absorb hspawns
  · rintro sends hsends
    cases hsends
    exact hnotices

/-- Anything else that `main` does leaves the decoders alone. -/
theorem Punctual.move (hs : s.Punctual) {p : Pass O} {main : MainPhase} {reconnect : Bool}
    {entries : List LogEntry} (hentries : ∀ e ∈ entries, ¬e.IsStop ∧ e.enqueued = [])
    (hpending : p.AllPending (Unstopped s.log))
    (hnotices : ∀ sends, main = .loop sends → ∀ msg, Send.toSelf msg ∈ sends →
      msg.decoder? = none) :
    (({ s.setPass s.current p with
        main := main
        reconnect := reconnect } : Process O).record entries).Punctual := by
  refine ⟨?_, hnotices, ?_⟩
  · show ((s.setPass s.current p).passes s.current).AllPending _
    rw [setPass_passes_self]
    exact hpending.mono fun origin horigin => horigin.append fun e he => (hentries e he).1
  · exact hs.timely.append fun e he => (hentries e he).2

end Process

section Main

variable {O : Type} [AudioOutput O] {cfg : Config} {s t : Process O} {entries : List LogEntry}

theorem punctual_of_serverMessage (hwired : s.pass.Wired cfg s.current) (hs : s.Punctual)
    {receipt : Receipt} {rest : List (Option Receipt)} (opened : Option O)
    (hqueue : s.pass.toMain = some receipt :: rest) {done : Player O}
    (hdone : done = s.player.handleServerMessage s.now opened receipt.msg)
    (hquiet : (LogEntry.handled s.now receipt done.sends done.spawns).IsStop → s.pass.Quiet) :
    ((s.finish { s.pass with toMain := rest } done).record
      [.handled s.now receipt done.sends done.spawns]).Punctual := by
  have hhandled := handled_of_serverMessage hwired opened hqueue
  subst hdone
  refine hs.finish ?_ ?_ ?_ (fun d hd => absurd hd List.not_mem_nil)
  · exact { hs.pending_concat hquiet with }
  · intro request hspawn
    rcases receipt with ⟨msg, conn⟩
    rcases Player.asked_of_mem_spawns opened hspawn with ⟨fields, hmsg, _⟩
    cases hmsg
    exact unstopped_length s.log
  · exact fun msg hmsg => PlayerMsg.decoder?_of_fromEnqueue (hhandled.notices msg hmsg)

theorem punctual_of_playerMessage (hs : s.Punctual) {msg : PlayerMsg} {rest : List PlayerMsg}
    (hqueue : s.pass.stream = msg :: rest) {done : Player O}
    (hdone : done = s.player.handlePlayerMessage s.now msg) :
    ((s.finish { s.pass with stream := rest } done).record
      [.handledPlayer s.now s.current msg done.sends done.enqueued]).Punctual := by
  have hpending := hs.pending_concat
    (e := .handledPlayer s.now s.current msg done.sends done.enqueued) (fun hstop => hstop.elim)
  have hmem := mem_stream_of_cons hqueue
  subst hdone
  refine hs.finish ?_ ?_ ?_ ?_
  · exact
      { hpending with
        stream := fun m hm => hpending.stream m (hmem.2 m hm) }
  · intro request hspawn
    rw [show s.player = Player.start s.pass.ctx s.globals from rfl,
      Player.spawns_handlePlayerMessage] at hspawn
    exact absurd hspawn List.not_mem_nil
  · intro m hm
    exact PlayerMsg.decoder?_of_fromEnqueue
      ((s.handled_player.handlePlayerMessage msg).notices m hm)
  · -- The decoder has just been taken from the channel.
    intro d hd
    have hmsg := Player.decoder?_of_mem_enqueued hd
    exact hs.pending.stream msg hmem.1 d hmsg

theorem punctual_of_mainStep (hwired : s.pass.Wired cfg s.current) (hs : s.Punctual)
    (h : MainStep cfg s t entries) (hok : StopsQuietly s (t.record entries)) :
    (t.record entries).Punctual := by
  cases h with
  | serverMessage opened hmain hqueue hdone =>
      exact punctual_of_serverMessage hwired hs opened hqueue hdone (hok _ rfl)
  | playerMessage hmain hqueue hdone =>
      exact punctual_of_playerMessage hs hqueue hdone
  | timeout hmain hserver hstream hdone =>
      rename_i done
      subst hdone
      refine hs.finish (hs.pending_concat fun hstop => hstop.elim) ?_ ?_ ?_
      · exact fun request hspawn => absurd hspawn List.not_mem_nil
      · intro m hm
        exact PlayerMsg.decoder?_of_fromEnqueue (s.handled_player.onTimeout.notices m hm)
      · exact fun d hd => absurd hd List.not_mem_nil
  | sendToServer hmain hsend =>
      refine hs.move (fun e he => absurd he List.not_mem_nil) { hs.pending with } ?_
      rintro sends hsends msg hmsg
      cases hsends
      exact hs.notices _ hmain msg (List.mem_cons_of_mem _ hmsg)
  | sendToSelf hmain hsend =>
      rename_i msg pending queue
      have hnotice := hs.notices _ hmain msg (List.mem_cons_self ..)
      refine hs.move (fun e he => absurd he List.not_mem_nil) ?_ ?_
      · refine { hs.pending with stream := hsend.forall_mem hs.pending.stream ?_ }
        intro d hd
        rw [hnotice] at hd
        cases hd
      · rintro sends hsends m hm
        cases hsends
        exact hs.notices _ hmain m (List.mem_cons_of_mem _ hm)
  | lost hmain hqueue =>
      refine hs.move ?_ { hs.pending with } ?_
      · intro e he
        rw [List.mem_singleton.1 he]
        exact ⟨id, rfl⟩
      · intro sends hsends
        cases hsends
  | disconnected hmain hqueue hended =>
      refine ⟨hs.pending.mono fun origin horigin => ?_, ?_, hs.timely.append ?_⟩
      · exact horigin.append fun e he => absurd he List.not_mem_nil
      · intro sends hsends
        cases hsends
      · exact fun e he => absurd he List.not_mem_nil
  | bye hmain hsend =>
      refine hs.move (fun e he => absurd he List.not_mem_nil) { hs.pending with } ?_
      intro sends hsends
      cases hsends
  | restart hostname hmain =>
      refine ⟨?_, ?_, hs.timely.append fun e he => absurd he List.not_mem_nil⟩
      · show (((s.setPass _ _).setPass (s.current + 1) _).passes (s.current + 1)).AllPending _
        rw [Process.setPass_passes_self]
        exact .start _ _ _ _
      · rintro sends hsends
        cases hsends
        exact fun msg hmsg => absurd hmsg List.not_mem_nil

omit [AudioOutput O] in
theorem punctual_of_threadStep {k : Nat} {g' : Globals} {p' : Pass O} (hs : s.Punctual)
    (h : ThreadStep cfg k s.now s.globals (s.passes k) g' p' entries) :
    (({ s.setPass k p' with globals := g' } : Process O).record entries).Punctual := by
  have hsilent := not_byMain_of_threadStep h
  have hkept : s.pass.AllPending (Unstopped (s.log ++ entries)) := by
    refine hs.pending.mono ?_
    intro origin horigin
    exact horigin.append fun e he => LogEntry.not_isStop_of_not_byMain (hsilent e he)
  refine ⟨?_, hs.notices, ?_⟩
  · show ((s.setPass k p').passes s.current).AllPending (Unstopped (s.log ++ entries))
    by_cases hk : s.current = k
    · subst hk
      rw [Process.setPass_passes_self]
      exact hkept.threadStep h
    · rw [Process.setPass_passes_of_ne _ _ hk]
      exact hkept
  · exact hs.timely.append fun e he => LogEntry.enqueued_of_not_byMain (hsilent e he)

/-- **No stopped stream starts to play**, in every run in which each Stop and Flush is handled while
no decoder is on its way to the event loop: when a decoder is passed to the output, the Stream
command it was made for has been handled before, and no Stop or Flush has been handled since. -/
theorem enqueued_unstopped (h : ((system O cfg).restrict StopsQuietly).Reachable s)
    {before after : List LogEntry} {entry : LogEntry} {d : VibeDecoder}
    (hlog : s.log = before ++ entry :: after) (hd : d ∈ entry.enqueued) :
    Unstopped before d.origin := by
  have hpunctual : s.Punctual := by
    refine System.Reachable.invariant Process.Punctual ?_ ?_ h
    · rintro s ⟨now, hostname, rfl⟩
      refine ⟨.start _ _ _ _, ?_, ?_⟩
      · rintro sends hsends
        cases hsends
        exact fun msg hmsg => absurd hmsg List.not_mem_nil
      · intro before entry after d hnil
        exact absurd hnil (by simp [Process.start])
    · intro s t hs ih hstep
      rcases hstep with ⟨hstep, hok⟩
      cases hstep with
      | main hmoved => exact punctual_of_mainStep (wired hs.of_restrict _) ih hmoved hok
      | thread hrun hk hmoved => exact punctual_of_threadStep ih hmoved
      | tick d => exact ⟨ih.pending, ih.notices, ih.timely⟩
  exact hpunctual.timely before entry after d hlog hd

end Main

/-! ## Two runs -/

section Runs

variable {O : Type} {cfg : Config} {s t : Process O} {entries : List LogEntry}

theorem stopsQuietly_record (hlog : t.log = s.log) (hentries : ∀ e ∈ entries, ¬e.IsStop) :
    StopsQuietly s (t.record entries) := by
  intro e he hstop
  exact absurd hstop (not_of_record_log hlog hentries he)

variable [AudioOutput O]

/-- What the threads do, and what `main` does apart from handling a Stop or a Flush, is allowed. -/
theorem restrict_thread {k : Nat} {g' : Globals} {p' : Pass O} (hrun : s.main ≠ .exited)
    (hk : k ≤ s.current) (h : ThreadStep cfg k s.now s.globals (s.passes k) g' p' entries) :
    ((system O cfg).restrict StopsQuietly).step s
      (({ s.setPass k p' with globals := g' } : Process O).record entries) := by
  refine ⟨.thread hrun hk h, stopsQuietly_record rfl ?_⟩
  exact fun e he => LogEntry.not_isStop_of_not_byMain (not_byMain_of_threadStep h e he)

theorem restrict_main (h : MainStep cfg s t entries) (hentries : ∀ e ∈ entries, ¬e.IsStop) :
    ((system O cfg).restrict StopsQuietly).step s (t.record entries) :=
  ⟨.main h, stopsQuietly_record h.log_eq hentries⟩

end Runs

/-- The decoder made for the Stream command, which is number three in the record. -/
def lateDecoder : VibeDecoder :=
  { format := .mp3
    pcmsamplesize := .selfDescribing
    pcmsamplerate := .selfDescribing
    pcmchannels := .selfDescribing
    origin := 3 }

theorem exists_decoder_runs :
    (∃ s : Process PulseOutput,
      ((system PulseOutput cliConfig).restrict StopsQuietly).Reachable s ∧
        ∃ before entry, s.log = before ++ [entry] ∧ lateDecoder ∈ entry.enqueued) ∧
    ∃ s : Process PulseOutput, (system PulseOutput cliConfig).Reachable s ∧
      ∃ before entry now conn sends spawns, s.log = before ++ [entry] ∧
        lateDecoder ∈ entry.enqueued ∧
        before[8]? = some (.handled now ⟨.stop, conn⟩ sends spawns) := by
  have hwire : ∀ msg ∈ [ServerMessage.enable true true, .stream ownStream, .stop], msg.OnWire := by
    refine forall_onWire _ (List.forall_mem_cons.2 ⟨trivial, ?_⟩)
    exact List.forall_mem_cons.2 ⟨representable_ownStream, List.forall_mem_singleton.2 trivial⟩
  have h0 : ((system PulseOutput cliConfig).restrict StopsQuietly).Reachable
      (Process.start cliConfig 0 none) := .init ⟨0, none, rfl⟩
  -- The server connects the output, and starts and stops a stream.
  have h1 := reachable_of_threadRun h0 restrict_thread nofun (le_refl 0)
    (.cons (.proto (.hello rfl)) <|
      .cons (.proto (.takeCli rfl rfl rfl)) <|
      .cons (.proto (.connect rfl)) <|
      .cons (.proto (.received [.enable true true, .stream ownStream, .stop] rfl hwire)) <|
      .cons (.proto (.forward rfl id (.queued rfl (by decide)))) .nil)
  have h2 := h1.step
    (restrict_main (.serverMessage (some .new) rfl rfl rfl) (by simp [LogEntry.IsStop]))
  have h3 := reachable_of_threadRun h2 restrict_thread nofun (le_refl 0)
    (.cons (.proto (.forward rfl id (.queued rfl (by decide)))) .nil)
  have h4 := h3.step (restrict_main (.serverMessage none rfl rfl rfl) (by simp [LogEntry.IsStop]))
  -- The stream-connect thread gets as far as posting its decoder.
  have h5 := reachable_of_threadRun h4 restrict_thread nofun (le_refl 0)
    (.cons (.connect (.dial rfl (.mk [] []))) <|
      .cons (.connect (.postConnected rfl (.queued rfl (by decide)) (.mk [] []))) .nil)
  have h6 := h5.step (restrict_main (.playerMessage rfl rfl rfl) (by simp [LogEntry.IsStop]))
  have h7 := h6.step
    (restrict_main (.sendToServer rfl (.queued (Or.inl nofun) (by decide)))
      (fun e he => absurd he List.not_mem_nil))
  have h8 := reachable_of_threadRun h7 restrict_thread nofun (le_refl 0)
    (.cons (.writer (.take rfl (.mk [] []))) <|
      .cons (.connect (.createBuffer rfl (.mk [] []))) <|
      .cons (.connect (.postBufferThreshold rfl (.queued rfl (by decide)) (.mk [] []))) <|
      .cons (.connect (.prepared rfl (.mk [] []))) <|
      .cons (.connect (.post rfl (.queued rfl (by decide)) (.mk [] []))) .nil)
  have h9 := h8.step (restrict_main (.playerMessage rfl rfl rfl) (by simp [LogEntry.IsStop]))
  have h10 := h9.step
    (restrict_main (.sendToServer rfl (.queued (Or.inl nofun) (by decide)))
      (fun e he => absurd he List.not_mem_nil))
  refine ⟨?_, ?_⟩
  · -- The decoder is passed to the output.
    have h11 := h10.step (restrict_main (.playerMessage rfl rfl rfl) (by simp [LogEntry.IsStop]))
    exact ⟨_, h11, _, _, rfl, List.mem_cons_self ..⟩
  · -- The Stop is handled before that.
    have k11 := reachable_of_threadRun h10.of_restrict Step.thread nofun (le_refl 0)
      (.cons (.proto (.forward rfl id (.queued rfl (by decide)))) <|
        .cons (.writer (.written (.mk [] []))) <|
        .cons (.writer (.take rfl (.mk [] []))) .nil)
    have k12 := k11.step (.main (.serverMessage none rfl rfl rfl))
    have k13 := k12.step (.main (.sendToServer rfl (.queued (Or.inl nofun) (by decide))))
    have k14 := k13.step (.main (.playerMessage rfl rfl rfl))
    exact ⟨_, k14, _, _, _, _, _, _, rfl, List.mem_cons_self .., rfl⟩

/-- In the first run there is no Stop at all. -/
theorem enqueued_unstopped_lateDecoder : ∃ s : Process PulseOutput,
    ((system PulseOutput cliConfig).restrict StopsQuietly).Reachable s ∧
      ∃ before entry, s.log = before ++ [entry] ∧ lateDecoder ∈ entry.enqueued ∧
        Unstopped before lateDecoder.origin := by
  rcases exists_decoder_runs.1 with ⟨s, hs, before, entry, hlog, hd⟩
  exact ⟨s, hs, before, entry, hlog, hd, enqueued_unstopped hs hlog hd⟩

/-- In the second run the Stop comes while the decoder is on its way. -/
theorem not_timely_lateDecoder : ∃ s : Process PulseOutput,
    (system PulseOutput cliConfig).Reachable s ∧ ¬Timely s.log := by
  rcases exists_decoder_runs.2 with
    ⟨s, hs, before, entry, now, conn, sends, spawns, hlog, hd, hstop⟩
  refine ⟨s, hs, ?_⟩
  intro htimely
  have hclean := (htimely before entry [] lateDecoder hlog hd).2
  have hdrop : (before.drop 3)[5]? = some (.handled now ⟨.stop, conn⟩ sends spawns) := by
    rw [List.getElem?_drop]
    exact hstop
  exact hclean _ (List.mem_of_getElem? hdrop) (Or.inl rfl)

end Vibe
end LmsPlayer
