import LmsPlayer.Vibe.Clocks

/-!
# Vibe.Echo — what the reports echo of the commands

Two fields of `STATUS` come from the server: the number of CRLFs in the headers of its Stream
commands, and the timestamp of its last Status query.  `STATUS` outlives every connection, so that
they are not reset when the player comes to another server.

`Echo` is what there is to echo after the commands that have been handled.  Whatever the other
threads write to `STATUS` in between, the reports of the event loop agree with it.
-/

namespace LmsPlayer
namespace Vibe

open LmsProto
open TransitionSystem (System)

/-! ## What there is to echo -/

structure Echo where
  /-- All the CRLFs so far. -/
  crlfs : Nat
  timestamp : Duration
  deriving DecidableEq

namespace Echo

def empty : Echo :=
  { crlfs := 0
    timestamp := 0 }

/-- The CRLFs of a Stream command. -/
def headerCrlfs (fields : StreamFields) : Nat :=
  (fields.httpHeaders.map fun httpHeaders => Player.crlfCount httpHeaders.toList).getD 0

/-- What a command adds. -/
def hear (e : Echo) : ServerMessage → Echo
  | .stream fields => { e with crlfs := e.crlfs + headerCrlfs fields }
  | .status ts => { e with timestamp := ts }
  | _ => e

/-- What an entry of the record adds. -/
def record (e : Echo) : LogEntry → Echo
  | .handled _ receipt _ _ => e.hear receipt.msg
  | _ => e

/-- What there is to echo after all that has been handled so far, on whatever connection. -/
def after (log : List LogEntry) : Echo := log.foldl record empty

/-- The status block agrees with it. -/
def In (e : Echo) (s : StatusData) : Prop :=
  s.crlf = UInt8.ofNat e.crlfs ∧ s.timestamp = e.timestamp

/-- The message is a report that agrees with it, or gives the name of the player. -/
def Agrees (e : Echo) : ClientMessage → Prop
  | .stat code s => (∃ code' : StatusCode, code = code'.toString) ∧ e.In s
  | .name _ => True
  | _ => False

theorem after_concat (log : List LogEntry) (entry : LogEntry) :
    after (log ++ [entry]) = (after log).record entry :=
  List.foldl_concat ..

theorem record_of_not_byMain (e : Echo) {entry : LogEntry} (h : ¬entry.ByMain) :
    e.record entry = e := by
  cases entry with
  | handled now receipt sends spawns => exact absurd trivial h
  | _ => rfl

theorem after_append_of_quiet (log : List LogEntry) {entries : List LogEntry}
    (h : ∀ entry ∈ entries, ∀ e : Echo, e.record entry = e) :
    after (log ++ entries) = after log := by
  unfold after
  rw [List.foldl_append]
  generalize log.foldl record empty = e
  induction entries with
  | nil => rfl
  | cons entry entries ih =>
      have hentry : e.record entry = e := h entry (List.mem_cons_self ..) e
      rw [List.foldl_cons, hentry]
      exact ih fun entry hmem => h entry (List.mem_cons_of_mem _ hmem)

theorem In.addCrlf {e : Echo} {s : StatusData} (h : e.In s) (n : Nat) :
    ({ e with crlfs := e.crlfs + n } : Echo).In (s.addCrlf (UInt8.ofNat n)) := by
  refine ⟨?_, h.2⟩
  show s.crlf + UInt8.ofNat n = UInt8.ofNat (e.crlfs + n)
  rw [h.1, UInt8.ofNat_add]

theorem in_default (now : Instant) : empty.In (StatusData.default now) := ⟨rfl, rfl⟩

end Echo

/-! ## The handlers -/

/-- The status block agrees, or there is none yet and nothing to echo. -/
def Globals.Echoes (e : Echo) (g : Globals) : Prop := ∀ now, e.In (g.lockStatus now)

theorem Globals.echoes_of_some {e : Echo} {g : Globals} {s : StatusData} (hg : g.status = some s)
    (hs : e.In s) : g.Echoes e := by
  intro now
  unfold Globals.lockStatus
  rw [hg]
  exact hs

namespace Player

variable {O : Type} {now : Instant} {ctx : PlayerContext O} {g : Globals} {e : Echo} {p : Player O}

/-- `STATUS` agrees after the handler, and the messages to the server agree too. -/
structure Tells (e : Echo) (p : Player O) : Prop where
  status : p.globals.Echoes e
  agree : ∀ msg, Send.toServer msg ∈ p.sends → e.Agrees msg

namespace Tells

theorem start (h : g.Echoes e) : (Player.start ctx g).Tells e :=
  ⟨h, fun _ hmem => absurd hmem List.not_mem_nil⟩

theorem setOutput (h : p.Tells e) (output : Option O) : (p.setOutput output).Tells e :=
  ⟨h.status, h.agree⟩

theorem spawn (h : p.Tells e) (thread : Spawn) : (p.spawn thread).Tells e :=
  ⟨h.status, h.agree⟩

/-- A handler that has sent nothing may change what there is to echo. -/
theorem updateStatus {e' : Echo} (h : p.Tells e) (hsends : e' = e ∨ p.sends = [])
    {f : StatusData → StatusData} (hf : ∀ s, e.In s → e'.In (f s)) :
    (p.updateStatus now f).Tells e' := by
  refine ⟨Globals.echoes_of_some rfl (hf _ (h.status now)), ?_⟩
  intro msg hmem
  rcases hsends with rfl | hnone
  · exact h.agree msg hmem
  · have hnil : Send.toServer msg ∈ p.sends := hmem
    rw [hnone] at hnil
    exact absurd hnil List.not_mem_nil

theorem setElapsed (h : p.Tells e) (playTime : Duration) :
    (p.updateStatus now (Player.setElapsed playTime)).Tells e :=
  h.updateStatus (Or.inl rfl) fun _ hs => hs

theorem sendStatus (h : p.Tells e) (code : StatusCode) : (p.sendStatus now code).Tells e := by
  refine ⟨Globals.echoes_of_some rfl (h.status now), ?_⟩
  intro msg hmem
  rcases List.mem_append.1 hmem with hold | hnew
  · exact h.agree msg hold
  · cases List.mem_singleton.1 hnew
    exact ⟨⟨code, rfl⟩, h.status now⟩

theorem updateElapsedAndSend (h : p.Tells e) (playTime : Duration) (code : StatusCode) :
    (p.updateElapsedAndSend now playTime code).Tells e :=
  (h.setElapsed playTime).sendStatus code

theorem clear (h : p.Tells e) : (p.updateStatus now clearOutputBuffer).Tells e :=
  h.updateStatus (Or.inl rfl) fun _ hs => hs

/-- The CRLFs of a Stream command are added, whether or not there are any. -/
theorem onStream (h : (Player.start ctx g).Tells e) (fields : StreamFields) :
    ((Player.start ctx g).onStream now fields).Tells (e.hear (.stream fields)) := by
  show Tells { e with crlfs := e.crlfs + Echo.headerCrlfs fields } _
  unfold Player.onStream Echo.headerCrlfs
  cases fields.httpHeaders with
  | none => exact h
  | some httpHeaders =>
      dsimp only [Option.map_some, Option.getD_some]
      split_ifs with hnone
      · -- Headers without a CRLF are dropped, and there is nothing to add.
        rw [hnone]
        exact h
      · exact (h.updateStatus (Or.inr rfl) fun s hs => hs.addCrlf _).spawn _

theorem onEnable (h : p.Tells e) (opened : Option O) (spdif dac : Bool) :
    (p.onEnable opened spdif dac).Tells e := by
  unfold Player.onEnable
  split_ifs
  · exact h.setOutput opened
  · exact h.setOutput none

variable [AudioOutput O]

theorem onStatus (h : (Player.start ctx g).Tells e) (ts : Duration) :
    ((Player.start ctx g).onStatus now ts).Tells (e.hear (.status ts)) := by
  refine sendStatus ?_ .timer
  exact h.updateStatus (Or.inr rfl) fun s hs => ⟨hs.1, rfl⟩

theorem onPause (h : p.Tells e) (interval : Duration) : (p.onPause now interval).Tells e := by
  unfold Player.onPause
  cases p.ctx.output with
  | none => exact h
  | some output =>
      dsimp only
      split_ifs
      · exact (h.setOutput _).updateElapsedAndSend _ _
      · exact h.setOutput _
      · exact (h.setOutput _).spawn _
      · exact h.setOutput _

theorem onUnpause (h : p.Tells e) (interval : Duration) : (p.onUnpause now interval).Tells e := by
  unfold Player.onUnpause
  dsimp only
  split_ifs with hnow
  · cases p.ctx.output with
    | none => exact h
    | some output =>
        dsimp only
        split_ifs
        · exact (h.setOutput _).updateElapsedAndSend _ _
        · exact h.setOutput _
  · exact h.spawn _

theorem onDrained (h : p.Tells e) : (p.onDrained now).Tells e := by
  unfold Player.onDrained
  cases p.ctx.output with
  | none => exact h
  | some output => exact (h.setOutput _).setElapsed 0

theorem onPlayerUnpause (h : p.Tells e) : (p.onPlayerUnpause now).Tells e := by
  unfold Player.onPlayerUnpause
  cases p.ctx.output with
  | none => exact h
  | some output =>
      dsimp only
      split_ifs
      · exact (h.setOutput _).sendStatus _
      · exact h.setOutput _

/-- What goes to the event loop itself is no report. -/
theorem onDecoder (h : p.Tells e) (decoder : VibeDecoder) (params : StreamParams) :
    (p.onDecoder decoder params).Tells e := by
  unfold Player.onDecoder
  cases p.ctx.output with
  | none => exact h
  | some output =>
      refine ⟨h.status, ?_⟩
      intro msg hmem
      rcases List.mem_append.1 hmem with hold | hposted
      · exact h.agree msg hold
      · rcases List.mem_map.1 hposted with ⟨posted, _, hmsg⟩
        cases hmsg

/-- After a command there is to echo what it adds. -/
theorem handleServerMessage (h : (Player.start ctx g).Tells e) (opened : Option O)
    (msg : ServerMessage) :
    ((Player.start ctx g).handleServerMessage now opened msg).Tells (e.hear msg) := by
  cases msg with
  | queryname =>
      refine ⟨h.status, ?_⟩
      intro msg hmem
      cases List.mem_singleton.1 hmem
      trivial
  | status ts => exact h.onStatus ts
  | stop => exact ((h.setOutput _).clear).sendStatus _
  | flush => exact ((h.setOutput _).clear).sendStatus _
  | pause interval => exact h.onPause interval
  | unpause interval => exact h.onUnpause interval
  | stream fields => exact h.onStream fields
  | enable spdif dac => exact h.onEnable opened spdif dac
  | disableDac => exact h.setOutput none
  | _ => exact ⟨h.status, h.agree⟩

theorem handlePlayerMessage (h : p.Tells e) (msg : PlayerMsg) :
    (p.handlePlayerMessage now msg).Tells e := by
  cases msg with
  | drained => exact h.onDrained
  | pause => exact h.setOutput _
  | unpause => exact h.onPlayerUnpause
  | trackStarted => exact (h.setElapsed 0).sendStatus _
  | decoder decoder params => exact h.onDecoder decoder params
  | _ => exact h.sendStatus _

end Tells

end Player

/-! ## The threads -/

/-- Whatever the other threads write to `STATUS`, there is the same to echo. -/
theorem echoes_of_threadStep {O : Type} {cfg : Config} {k : Nat} {now : Instant} {g g' : Globals}
    {p p' : Pass O} {entries : List LogEntry} {e : Echo}
    (h : ThreadStep cfg k now g p g' p' entries) (hg : g.Echoes e) : g'.Echoes e := by
  have hnow : e.In (g.lockStatus now) := hg now
  cases h with
  | proto h =>
      cases h with
      | hello hpc => exact Globals.echoes_of_some rfl hnow
      | _ => exact hg
  | writer h => exact hg
  | connect h =>
      cases h with
      | createBuffer hpc hthread => exact Globals.echoes_of_some rfl hnow
      | _ => exact hg
  | timer h =>
      cases h with
      | report hthread => exact Globals.echoes_of_some rfl hnow
      | _ => exact hg
  | backend h =>
      cases h with
      | fullness | received | report => exact Globals.echoes_of_some rfl hnow
      | _ => exact hg

/-! ## Runs -/

/-- `STATUS` agrees with the commands so far, and so has every message to the server. -/
structure Process.Echoes {O : Type} (s : Process O) : Prop where
  status : s.globals.Echoes (Echo.after s.log)
  agree : ∀ n entry, s.log[n]? = some entry → ∀ now msg,
    entry.Sent now (.toServer msg) → (Echo.after (s.log.take (n + 1))).Agrees msg

section Main

variable {O : Type} [AudioOutput O] {cfg : Config} {s t : Process O} {entries : List LogEntry}

omit [AudioOutput O] in
/-- The record grows, and what has been said stays. -/
theorem Process.Echoes.agree_append (hs : s.Echoes)
    (hnew : ∀ n entry, entries[n]? = some entry → ∀ now msg, entry.Sent now (.toServer msg) →
      (Echo.after (s.log ++ entries.take (n + 1))).Agrees msg)
    (n : Nat) (entry : LogEntry) (hentry : (s.log ++ entries)[n]? = some entry) (now : Instant)
    (msg : ClientMessage) (hsent : entry.Sent now (.toServer msg)) :
    (Echo.after ((s.log ++ entries).take (n + 1))).Agrees msg := by
  rcases Nat.lt_or_ge n s.log.length with hlt | hge
  · rw [List.getElem?_append_left hlt] at hentry
    rw [List.take_append_of_le_length hlt]
    exact hs.agree n entry hentry now msg hsent
  · rw [List.getElem?_append_right hge] at hentry
    rw [List.take_append, List.take_of_length_le (Nat.le_succ_of_le hge), Nat.succ_sub hge]
    exact hnew _ entry hentry now msg hsent

omit [AudioOutput O] in
/-- A handler has run. -/
theorem Process.Echoes.finish (hs : s.Echoes) {p : Pass O} {done : Player O} {entry : LogEntry}
    (hdone : done.Tells ((Echo.after s.log).record entry))
    (hsends : ∀ now msg, entry.Sent now msg → msg ∈ done.sends) :
    ((s.finish p done).record [entry]).Echoes := by
  have hlog : ((s.finish p done).record [entry]).log = s.log ++ [entry] := rfl
  refine ⟨?_, ?_⟩
  · rw [hlog, Echo.after_concat]
    exact hdone.status
  · rw [hlog]
    refine hs.agree_append ?_
    intro n entry' hentry now msg hsent
    cases n with
    | zero =>
        -- The report is made after the command has been heard.
        cases hentry
        rw [List.take_succ_cons, List.take_zero, Echo.after_concat]
        exact hdone.agree msg (hsends now _ hsent)
    | succ n => cases hentry

omit [AudioOutput O] in
/-- Nothing is sent, and nothing has been handled. -/
theorem Process.Echoes.still (hs : s.Echoes) (hlog : t.log = s.log ++ entries)
    (hstatus : t.globals.Echoes (Echo.after s.log))
    (hquiet : ∀ entry ∈ entries, ∀ e : Echo, e.record entry = e)
    (hsilent : ∀ entry ∈ entries, ∀ now msg, ¬entry.Sent now msg) : t.Echoes := by
  refine ⟨?_, ?_⟩
  · rw [hlog, Echo.after_append_of_quiet _ hquiet]
    exact hstatus
  · rw [hlog]
    refine hs.agree_append ?_
    intro n entry hentry now msg hsent
    exact absurd hsent (hsilent entry (List.mem_of_getElem? hentry) now _)

theorem echoes_of_mainStep (hs : s.Echoes) (h : MainStep cfg s t entries) :
    (t.record entries).Echoes := by
  have hlog : (t.record entries).log = s.log ++ entries := by
    rw [← h.log_eq]
    rfl
  have hstart : (Player.start s.pass.ctx s.globals).Tells (Echo.after s.log) :=
    .start hs.status
  cases h with
  | serverMessage opened hmain hqueue hdone =>
      subst hdone
      exact hs.finish (hstart.handleServerMessage opened _) fun now msg hsent => hsent.2
  | playerMessage hmain hqueue hdone =>
      subst hdone
      exact hs.finish (hstart.handlePlayerMessage _) fun now msg hsent => hsent.2
  | timeout hmain hserver hstream hdone =>
      subst hdone
      exact hs.finish (hstart.updateElapsedAndSend _ _) fun now msg hsent => hsent.2
  | lost hmain hqueue =>
      refine hs.still hlog hs.status ?_ ?_
      · intro entry hentry e
        cases List.mem_singleton.1 hentry
        rfl
      · intro entry hentry now msg hsent
        cases List.mem_singleton.1 hentry
        exact hsent
  | _ =>
      exact hs.still hlog hs.status (fun entry hentry => absurd hentry List.not_mem_nil)
        (fun entry hentry => absurd hentry List.not_mem_nil)

theorem echoes (h : (system O cfg).Reachable s) : s.Echoes := by
  refine System.Reachable.invariant Process.Echoes ?_ ?_ h
  · rintro s ⟨now, hostname, rfl⟩
    exact ⟨Echo.in_default, fun n entry hentry => by cases hentry⟩
  · intro s t hs ih hstep
    cases hstep with
    | main hmoved => exact echoes_of_mainStep ih hmoved
    | thread hrun hk hmoved =>
        have hother := not_byMain_of_threadStep hmoved
        exact ih.still rfl (echoes_of_threadStep hmoved ih.status)
          (fun entry hentry e => e.record_of_not_byMain (hother entry hentry))
          (fun entry hentry now msg hsent => hother entry hentry hsent.byMain)
    | tick d => exact ⟨ih.status, ih.agree⟩

/-- **The reports echo the commands**, in every reachable state: a report that the event loop has
sent carries the number of CRLFs in the headers of all Stream commands handled until then, modulo
256, and the timestamp of the last Status query handled until then, whatever connections they have
come on. -/
theorem reports_echo (h : (system O cfg).Reachable s) {n : Nat} {entry : LogEntry}
    (hentry : s.log[n]? = some entry) {now : Instant} {code : String} {status : StatusData}
    (hsent : entry.Sent now (.toServer (.stat code status))) :
    status.crlf = UInt8.ofNat (Echo.after (s.log.take (n + 1))).crlfs ∧
      status.timestamp = (Echo.after (s.log.take (n + 1))).timestamp :=
  ((echoes h).agree n entry hentry now _ hsent).2

end Main

/-! ## A run -/

theorem onWire_status : ∀ msg ∈ [ServerMessage.status (Duration.fromMillis 7)], msg.OnWire :=
  forall_onWire _ (List.forall_mem_singleton.2 ⟨7, by decide, rfl⟩)

/-- The server asks for a report, and the connection is lost.  The first report to the next server,
which has not asked for anything, has the timestamp of the query. -/
theorem reports_echo_status : ∃ (s : Process PulseOutput) (now : Instant) (code : String)
    (status : StatusData), (system PulseOutput cliConfig).Reachable s ∧
      s.log[5]? = some (.timeout now 1 [.toServer (.stat code status)]) ∧ status.crlf = 0 ∧
      status.timestamp = Duration.fromMillis 7 := by
  have h0 : (system PulseOutput cliConfig).Reachable (Process.start cliConfig 0 none) :=
    .init ⟨0, none, rfl⟩
  have h1 := reachable_of_threadRun h0 Step.thread nofun (le_refl 0)
    (.cons (.proto (.hello rfl)) <|
      .cons (.proto (.takeCli rfl rfl rfl)) <|
      .cons (.proto (.connect rfl)) <|
      .cons (.proto (.received [.status (Duration.fromMillis 7)] rfl onWire_status)) <|
      .cons (.proto (.forward rfl id (.queued rfl (by decide)))) .nil)
  have h2 := h1.step (.main (.serverMessage none rfl rfl rfl))
  have h3 := h2.step (.main (.sendToServer rfl (.queued (Or.inl nofun) (by decide))))
  have h4 := reachable_of_threadRun h3 Step.thread nofun (le_refl 0)
    (.cons (.writer (.take rfl (.mk [] []))) <|
      .cons (.proto (.batchDone rfl)) <|
      .cons (.proto (.lost rfl)) <|
      .cons (.proto (.lose rfl (.queued rfl (by decide)))) .nil)
  have h5 := h4.step (.main (.lost rfl rfl))
  have h6 := h5.step (.main (.bye rfl (.queued (Or.inr nofun) (by decide))))
  have h7 := h6.step (.main (.restart none rfl))
  have h8 := reachable_of_threadRun h7 Step.thread nofun (le_refl 1)
    (.cons (.proto (.hello rfl)) <|
      .cons (.proto (.takeCli rfl rfl rfl)) <|
      .cons (.proto (.connect rfl)) .nil)
  have h9 := h8.step (.main (.timeout rfl rfl rfl rfl))
  have hechoed := reports_echo h9 (n := 5) rfl ⟨rfl, List.mem_cons_self ..⟩
  exact ⟨_, _, _, _, h9, rfl, hechoed.1, hechoed.2⟩

end Vibe
end LmsPlayer
