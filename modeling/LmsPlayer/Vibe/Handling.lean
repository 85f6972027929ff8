import LmsPlayer.Vibe.Message
import Mathlib.Data.List.Basic
import Mathlib.Logic.Relation

/-!
# Vibe.Handling — what the handlers may do

One lemma says what any handler leaves alone and what may be among the messages it sends
(`Handled`); three more say where the threads it starts and the decoders it enqueues come from.  The
proofs about the event loop use these, and do not look into the handlers.
-/

namespace LmsPlayer
namespace Vibe

open LmsProto

namespace Globals

/-- The instant `STATUS` was created, if it has been. -/
def createdAt (g : Globals) : Option Instant := g.status.map StatusData.start

/-- What happens to `STATUS` at the instant `now`: the instant of its creation stays as it is,
unless it is created now. -/
def Keeps (now : Instant) (g g' : Globals) : Prop :=
  g'.createdAt = g.createdAt ∨ g.createdAt = none ∧ g'.createdAt = some now

theorem Keeps.refl (now : Instant) (g : Globals) : g.Keeps now g := Or.inl rfl

theorem Keeps.createdAt_eq_some {now created : Instant} {g g' : Globals} (h : g.Keeps now g')
    (hg : g.createdAt = some created) : g'.createdAt = some created := by
  rcases h with hsame | ⟨hnone, _⟩
  · exact hsame.trans hg
  · rw [hnone] at hg
    cases hg

theorem Keeps.trans {now : Instant} {g g' g'' : Globals} (h : g.Keeps now g')
    (h' : g'.Keeps now g'') : g.Keeps now g'' := by
  rcases h with hsame | ⟨hnone, hnow⟩
  · unfold Keeps
    rw [← hsame]
    exact h'
  · exact Or.inr ⟨hnone, h'.createdAt_eq_some hnow⟩

/-- Whoever writes `STATUS` without touching `start` keeps the instant of its creation. -/
theorem keeps_of_start_eq {g g' : Globals} {now : Instant} {s : StatusData}
    (hstatus : g'.status = some s) (hstart : s.start = (g.lockStatus now).start) :
    g.Keeps now g' := by
  have hcreated : g'.createdAt = some (g.lockStatus now).start := by
    rw [← hstart]
    exact congrArg (Option.map StatusData.start) hstatus
  cases hold : g.status with
  | some old =>
      refine Or.inl (hcreated.trans ?_)
      simp [createdAt, lockStatus, hold]
  | none =>
      refine Or.inr ⟨?_, hcreated.trans ?_⟩
      · simp [createdAt, hold]
      · simp [lockStatus, hold, StatusData.default]

end Globals

namespace Player

variable {O : Type} {now : Instant} {ctx : PlayerContext O} {g : Globals} {p : Player O}

/-- One write of a handler to `STATUS`. -/
inductive Written (s : StatusData) : StatusData → Prop where
  | elapsed (playTime : Duration) : Written s (setElapsed playTime s)
  | timestamp (ts : Duration) : Written s (s.setTimestamp ts)
  | jiffies (jiffies : Duration) : Written s (s.setJiffies jiffies)
  | crlf (numCrlf : UInt8) : Written s (s.addCrlf numCrlf)
  | clear : Written s (clearOutputBuffer s)

/-- Any number of writes. -/
def Writes : StatusData → StatusData → Prop := Relation.ReflTransGen Written

/-- What every write keeps is kept by any number of them. -/
theorem Writes.keep {Q : StatusData → Prop} (hQ : ∀ s t, Written s t → Q s → Q t) {s t : StatusData}
    (h : Writes s t) (hs : Q s) : Q t := by
  induction h with
  | refl => exact hs
  | tail _ hlast ih => exact hQ _ _ hlast ih

theorem Written.start_eq {s t : StatusData} (h : Written s t) : t.start = s.start := by
  cases h <;> rfl

theorem Writes.start_eq {s t : StatusData} (h : Writes s t) : t.start = s.start :=
  h.keep (Q := fun u => u.start = s.start) (fun _ _ hwritten hu => hwritten.start_eq.trans hu) rfl

/-- What is true of a `Player` whatever handler has run at the instant `now`, in the context `ctx`
and the global state `g`. -/
structure Handled (now : Instant) (ctx : PlayerContext O) (g : Globals) (p : Player O) : Prop where
  startTime : p.ctx.startTime = ctx.startTime
  serverDefaultIp : p.ctx.serverDefaultIp = ctx.serverDefaultIp
  keeps : g.Keeps now p.globals
  /-- A status report carries the time since `STATUS` was created. -/
  reports : ∀ code status, Send.toServer (.stat code status) ∈ p.sends →
    status.jiffies = now - status.start ∧ p.globals.createdAt = some status.start
  writes : Writes (g.lockStatus now) (p.globals.lockStatus now)
  /-- A status report is what `STATUS` was at some point of the handler. -/
  reported : ∀ code status, Send.toServer (.stat code status) ∈ p.sends →
    Writes (g.lockStatus now) status
  /-- No handler says goodbye. -/
  stays : ∀ val, Send.toServer (.bye val) ∉ p.sends
  /-- What a handler posts comes from the output. -/
  notices : ∀ msg, Send.toSelf msg ∈ p.sends → msg.FromEnqueue

namespace Handled

theorem start : Handled now ctx g (Player.start ctx g) :=
  { startTime := rfl
    serverDefaultIp := rfl
    keeps := .refl now g
    reports := fun _ _ h => absurd h List.not_mem_nil
    writes := .refl
    reported := fun _ _ h => absurd h List.not_mem_nil
    stays := fun _ => List.not_mem_nil
    notices := fun _ h => absurd h List.not_mem_nil }

theorem setOutput (h : Handled now ctx g p) (output : Option O) :
    Handled now ctx g (p.setOutput output) :=
  { h with }

theorem spawn (h : Handled now ctx g p) (thread : Spawn) : Handled now ctx g (p.spawn thread) :=
  { h with }

theorem onSetName (h : Handled now ctx g p) (name : String) :
    Handled now ctx g (p.onSetName name) :=
  { h with }

theorem onGain (h : Handled now ctx g p) (left right : ℚ) :
    Handled now ctx g (p.onGain left right) :=
  { h with }

theorem onSkip (h : Handled now ctx g p) (interval : Duration) :
    Handled now ctx g (p.onSkip interval) :=
  { h with }

theorem updateStatus (h : Handled now ctx g p) {f : StatusData → StatusData}
    (hf : Writes (p.globals.lockStatus now) (f (p.globals.lockStatus now))) :
    Handled now ctx g (p.updateStatus now f) := by
  have hkeeps : p.globals.Keeps now (p.updateStatus now f).globals :=
    Globals.keeps_of_start_eq rfl hf.start_eq
  refine { h with keeps := h.keeps.trans hkeeps, reports := ?_, writes := h.writes.trans hf }
  intro code status hmem
  rcases h.reports code status hmem with ⟨hjiffies, hcreated⟩
  exact ⟨hjiffies, hkeeps.createdAt_eq_some hcreated⟩

theorem setElapsed (h : Handled now ctx g p) (playTime : Duration) :
    Handled now ctx g (p.updateStatus now (Player.setElapsed playTime)) :=
  h.updateStatus (.single (.elapsed playTime))

theorem clearOutputBuffer (h : Handled now ctx g p) :
    Handled now ctx g (p.updateStatus now Player.clearOutputBuffer) :=
  h.updateStatus (.single .clear)

/-- Another message is sent to the server. -/
theorem sendToServer (h : Handled now ctx g p) {msg : ClientMessage}
    (hreport : ∀ code status, msg = .stat code status →
      (status.jiffies = now - status.start ∧ p.globals.createdAt = some status.start) ∧
        Writes (g.lockStatus now) status)
    (hstays : ∀ val, msg ≠ .bye val) : Handled now ctx g (p.send (.toServer msg)) := by
  refine { h with reports := ?_, reported := ?_, stays := ?_, notices := ?_ }
  · intro code status hmem
    rcases List.mem_append.1 hmem with hold | hnew
    · exact h.reports code status hold
    · cases List.mem_singleton.1 hnew
      exact (hreport code status rfl).1
  · intro code status hmem
    rcases List.mem_append.1 hmem with hold | hnew
    · exact h.reported code status hold
    · cases List.mem_singleton.1 hnew
      exact (hreport code status rfl).2
  · intro val hmem
    rcases List.mem_append.1 hmem with hold | hnew
    · exact h.stays val hold
    · cases List.mem_singleton.1 hnew
      exact hstays val rfl
  · intro m hmem
    rcases List.mem_append.1 hmem with hold | hnew
    · exact h.notices m hold
    · cases List.mem_singleton.1 hnew

theorem sendStatus (h : Handled now ctx g p) (code : StatusCode) :
    Handled now ctx g (p.sendStatus now code) := by
  have hmade := h.updateStatus
    (f := fun _ => ((p.globals.lockStatus now).makeStatusMessage now code).2)
    (.single (.jiffies _))
  refine hmade.sendToServer ?_ (fun val hmsg => by cases hmsg)
  -- The report is made from the very block that is stored.
  rintro code' status hmsg
  cases hmsg
  exact ⟨⟨rfl, rfl⟩, hmade.writes⟩

theorem updateElapsedAndSend (h : Handled now ctx g p) (playTime : Duration) (code : StatusCode) :
    Handled now ctx g (p.updateElapsedAndSend now playTime code) :=
  (h.setElapsed playTime).sendStatus code

theorem onQueryName (h : Handled now ctx g p) : Handled now ctx g p.onQueryName := by
  refine h.sendToServer ?_ ?_
  · intro code status hmsg
    cases hmsg
  · intro val hmsg
    cases hmsg

theorem onStream (h : Handled now ctx g p) (fields : StreamFields) :
    Handled now ctx g (p.onStream now fields) := by
  unfold Player.onStream
  cases fields.httpHeaders with
  | none => exact h
  | some httpHeaders =>
      dsimp only
      split_ifs
      · exact h
      · exact (h.updateStatus (.single (.crlf _))).spawn _

theorem onEnable (h : Handled now ctx g p) (opened : Option O) (spdif dac : Bool) :
    Handled now ctx g (p.onEnable opened spdif dac) := by
  unfold Player.onEnable
  split_ifs
  · exact h.setOutput _
  · exact h.setOutput _

theorem onTrackStarted (h : Handled now ctx g p) : Handled now ctx g (p.onTrackStarted now) :=
  (h.setElapsed 0).sendStatus .trackStarted

variable [AudioOutput O]

theorem onStatus (h : Handled now ctx g p) (ts : Duration) :
    Handled now ctx g (p.onStatus now ts) := by
  refine (h.updateStatus ?_).sendStatus .timer
  exact .tail (.single (.elapsed _)) (.timestamp ts)

theorem onStop (h : Handled now ctx g p) : Handled now ctx g (p.onStop now) :=
  (h.setOutput _).clearOutputBuffer.sendStatus .flushed

theorem onFlush (h : Handled now ctx g p) : Handled now ctx g (p.onFlush now) :=
  (h.setOutput _).clearOutputBuffer.sendStatus .flushed

theorem onPause (h : Handled now ctx g p) (interval : Duration) :
    Handled now ctx g (p.onPause now interval) := by
  unfold Player.onPause
  cases p.ctx.output with
  | none => exact h
  | some output =>
      dsimp only
      split_ifs
      · exact (h.setOutput _).updateElapsedAndSend _ .pause
      · exact h.setOutput _
      · exact (h.setOutput _).spawn _
      · exact h.setOutput _

theorem onUnpause (h : Handled now ctx g p) (interval : Duration) :
    Handled now ctx g (p.onUnpause now interval) := by
  unfold Player.onUnpause
  by_cases hnow : interval = 0
  · rw [if_pos hnow]
    cases p.ctx.output with
    | none => exact h
    | some output =>
        dsimp only
        split_ifs
        · exact (h.setOutput _).updateElapsedAndSend _ .resume
        · exact h.setOutput _
  · rw [if_neg hnow]
    exact h.spawn _

theorem onDrained (h : Handled now ctx g p) : Handled now ctx g (p.onDrained now) := by
  unfold Player.onDrained
  cases p.ctx.output with
  | none => exact h
  | some output => exact (h.setOutput _).setElapsed 0

theorem onPlayerUnpause (h : Handled now ctx g p) : Handled now ctx g (p.onPlayerUnpause now) := by
  unfold Player.onPlayerUnpause
  cases p.ctx.output with
  | none => exact h
  | some output =>
      dsimp only
      split_ifs
      · exact (h.setOutput _).sendStatus .trackStarted
      · exact h.setOutput _

theorem onDecoder (h : Handled now ctx g p) (decoder : VibeDecoder) (params : StreamParams) :
    Handled now ctx g (p.onDecoder decoder params) := by
  unfold Player.onDecoder
  cases p.ctx.output with
  | none => exact h
  | some output =>
      -- What is sent besides goes to the event loop.
      have hnew : ∀ msg, Send.toServer msg ∈
          p.sends ++ (AudioOutput.enqueueNewStream output decoder params).2.map .toSelf →
            Send.toServer msg ∈ p.sends := by
        intro msg hmem
        rcases List.mem_append.1 hmem with hold | hposted
        · exact hold
        · rcases List.mem_map.1 hposted with ⟨m, _, hm⟩
          cases hm
      refine { h with reports := ?_, reported := ?_, stays := ?_, notices := ?_ }
      · exact fun code status hmem => h.reports code status (hnew _ hmem)
      · exact fun code status hmem => h.reported code status (hnew _ hmem)
      · exact fun val hmem => h.stays val (hnew _ hmem)
      · intro m hmem
        rcases List.mem_append.1 hmem with hold | hposted
        · exact h.notices m hold
        · rcases List.mem_map.1 hposted with ⟨m', hm', hm⟩
          cases hm
          exact AudioOutput.fromEnqueue_of_mem_enqueueNewStream output decoder params m hm'

theorem onTimeout (h : Handled now ctx g p) : Handled now ctx g (p.onTimeout now) :=
  h.updateElapsedAndSend _ .timer

/-- The slim-proto thread keeps Serv messages for itself; any other message is handled like this. -/
theorem handleServerMessage (h : Handled now ctx g p) (opened : Option O) {msg : ServerMessage}
    (hmsg : ¬IsServ msg) : Handled now ctx g (p.handleServerMessage now opened msg) := by
  cases msg with
  | serv ipAddress syncGroupId => exact absurd trivial hmsg
  | status ts => exact h.onStatus ts
  | stream fields => exact h.onStream fields
  | gain left right => exact h.onGain left right
  | enable spdif dac => exact h.onEnable opened spdif dac
  | flush => exact h.onFlush
  | stop => exact h.onStop
  | pause interval => exact h.onPause interval
  | unpause interval => exact h.onUnpause interval
  | queryname => exact h.onQueryName
  | setname newName => exact h.onSetName newName
  | disableDac => exact h.setOutput none
  | skip interval => exact h.onSkip interval
  | unrecognised what => exact h
  | error => exact h

theorem handlePlayerMessage (h : Handled now ctx g p) (msg : PlayerMsg) :
    Handled now ctx g (p.handlePlayerMessage now msg) := by
  cases msg with
  | drained => exact h.onDrained
  | pause => exact h.setOutput _
  | unpause => exact h.onPlayerUnpause
  | trackStarted => exact h.onTrackStarted
  | decoder decoder params => exact h.onDecoder decoder params
  | _ => exact h.sendStatus _

end Handled

/-! ## Reports -/

/-- Nothing is sent but reports to the server. -/
def OnlyReports (p : Player O) : Prop :=
  ∃ reports : List ClientMessage, p.sends = reports.map .toServer

namespace OnlyReports

theorem start (ctx : PlayerContext O) (g : Globals) : (Player.start ctx g).OnlyReports := ⟨[], rfl⟩

theorem send (h : p.OnlyReports) (msg : ClientMessage) : (p.send (.toServer msg)).OnlyReports := by
  obtain ⟨reports, hsends⟩ := h
  refine ⟨reports ++ [msg], ?_⟩
  simp [Player.send, hsends]

theorem sendStatus (h : p.OnlyReports) (code : StatusCode) : (p.sendStatus now code).OnlyReports :=
  send (p := p.updateStatus now _) h _

theorem updateElapsedAndSend (h : p.OnlyReports) (playTime : Duration) (code : StatusCode) :
    (p.updateElapsedAndSend now playTime code).OnlyReports :=
  sendStatus (p := p.updateStatus now _) h code

theorem onStream (h : p.OnlyReports) (fields : StreamFields) :
    (p.onStream now fields).OnlyReports := by
  unfold Player.onStream
  cases fields.httpHeaders with
  | none => exact h
  | some httpHeaders =>
      dsimp only
      split_ifs
      · exact h
      · exact h

theorem onEnable (h : p.OnlyReports) (opened : Option O) (spdif dac : Bool) :
    (p.onEnable opened spdif dac).OnlyReports := by
  unfold Player.onEnable
  split_ifs
  · exact h
  · exact h

variable [AudioOutput O]

theorem onPause (h : p.OnlyReports) (interval : Duration) :
    (p.onPause now interval).OnlyReports := by
  unfold Player.onPause
  cases p.ctx.output with
  | none => exact h
  | some output =>
      have hset : (p.setOutput (some (AudioOutput.pause output).1)).OnlyReports := h
      dsimp only
      split_ifs
      · exact hset.updateElapsedAndSend _ .pause
      · exact h
      · exact h
      · exact h

theorem onUnpause (h : p.OnlyReports) (interval : Duration) :
    (p.onUnpause now interval).OnlyReports := by
  unfold Player.onUnpause
  dsimp only
  split_ifs
  · cases p.ctx.output with
    | none => exact h
    | some output =>
        have hset : (p.setOutput (some (AudioOutput.unpause output).1)).OnlyReports := h
        dsimp only
        split_ifs
        · exact hset.updateElapsedAndSend _ .resume
        · exact h
  · exact h

theorem onPlayerUnpause (h : p.OnlyReports) : (p.onPlayerUnpause now).OnlyReports := by
  unfold Player.onPlayerUnpause
  cases p.ctx.output with
  | none => exact h
  | some output =>
      have hset : (p.setOutput (some (AudioOutput.unpause output).1)).OnlyReports := h
      dsimp only
      split_ifs
      · exact hset.sendStatus .trackStarted
      · exact h

theorem onDrained (h : p.OnlyReports) : (p.onDrained now).OnlyReports := by
  unfold Player.onDrained
  cases p.ctx.output with
  | none => exact h
  | some output => exact h

theorem handleServerMessage (h : p.OnlyReports) (opened : Option O) (msg : ServerMessage) :
    (p.handleServerMessage now opened msg).OnlyReports := by
  cases msg with
  | status ts => exact sendStatus (p := p.updateStatus now _) h .timer
  | stop => exact sendStatus (p := (p.setOutput _).updateStatus now _) h .flushed
  | flush => exact sendStatus (p := (p.setOutput _).updateStatus now _) h .flushed
  | queryname => exact h.send _
  | pause interval => exact h.onPause interval
  | unpause interval => exact h.onUnpause interval
  | stream fields => exact h.onStream fields
  | enable spdif dac => exact h.onEnable opened spdif dac
  | _ => exact h

/-- Only a decoder makes the event loop post something. -/
theorem handlePlayerMessage (h : p.OnlyReports) {msg : PlayerMsg} (hmsg : msg.decoder? = none) :
    (p.handlePlayerMessage now msg).OnlyReports := by
  cases msg with
  | decoder decoder params => cases hmsg
  | drained => exact h.onDrained
  | pause => exact h
  | unpause => exact h.onPlayerUnpause
  | trackStarted => exact sendStatus (p := p.updateStatus now _) h .trackStarted
  | _ => exact h.sendStatus _

end OnlyReports

/-! ## What the handlers leave alone -/

/-- A part of a `Player` in which neither the output nor `STATUS` nor the messages are. -/
structure Aside {β : Type} (f : Player O → β) : Prop where
  setOutput : ∀ (p : Player O) (output : Option O), f (p.setOutput output) = f p
  updateStatus : ∀ (p : Player O) (now : Instant) (write : StatusData → StatusData),
    f (p.updateStatus now write) = f p
  send : ∀ (p : Player O) (msg : Send), f (p.send msg) = f p

theorem aside_name : Aside (O := O) (·.ctx.name) :=
  { setOutput := fun _ _ => rfl
    updateStatus := fun _ _ _ => rfl
    send := fun _ _ => rfl }

theorem aside_spawns : Aside (O := O) (·.spawns) :=
  { setOutput := fun _ _ => rfl
    updateStatus := fun _ _ _ => rfl
    send := fun _ _ => rfl }

theorem aside_enqueued : Aside (O := O) (·.enqueued) :=
  { setOutput := fun _ _ => rfl
    updateStatus := fun _ _ _ => rfl
    send := fun _ _ => rfl }

namespace Aside

variable {β : Type} {f : Player O → β}

theorem sendStatus (h : Aside f) (p : Player O) (code : StatusCode) :
    f (p.sendStatus now code) = f p :=
  (h.send _ _).trans (h.updateStatus _ _ _)

theorem updateElapsedAndSend (h : Aside f) (p : Player O) (playTime : Duration)
    (code : StatusCode) :
    f (p.updateElapsedAndSend now playTime code) = f p :=
  (h.sendStatus _ _).trans (h.updateStatus _ _ _)

theorem onEnable (h : Aside f) (p : Player O) (opened : Option O) (spdif dac : Bool) :
    f (p.onEnable opened spdif dac) = f p := by
  unfold Player.onEnable
  split_ifs
  · exact h.setOutput _ _
  · exact h.setOutput _ _

section Spawning

variable (hspawn : ∀ (p : Player O) (thread : Spawn), f (p.spawn thread) = f p)

include hspawn

theorem onStream (h : Aside f) (p : Player O) (fields : StreamFields) :
    f (p.onStream now fields) = f p := by
  unfold Player.onStream
  cases fields.httpHeaders with
  | none => rfl
  | some httpHeaders =>
      dsimp only
      split_ifs
      · rfl
      · exact (hspawn _ _).trans (h.updateStatus _ _ _)

variable [AudioOutput O]

theorem onPause (h : Aside f) (p : Player O) (interval : Duration) :
    f (p.onPause now interval) = f p := by
  unfold Player.onPause
  cases p.ctx.output with
  | none => rfl
  | some output =>
      have hset := h.setOutput p (some (AudioOutput.pause output).1)
      dsimp only
      split_ifs
      · exact (h.updateElapsedAndSend _ _ _).trans hset
      · exact hset
      · exact (hspawn _ _).trans hset
      · exact hset

theorem onUnpause (h : Aside f) (p : Player O) (interval : Duration) :
    f (p.onUnpause now interval) = f p := by
  unfold Player.onUnpause
  by_cases hnow : interval = 0
  · rw [if_pos hnow]
    cases p.ctx.output with
    | none => rfl
    | some output =>
        have hset := h.setOutput p (some (AudioOutput.unpause output).1)
        dsimp only
        split_ifs
        · exact (h.updateElapsedAndSend _ _ _).trans hset
        · exact hset
  · rw [if_neg hnow]
    exact hspawn _ _

end Spawning

variable [AudioOutput O]

theorem onDrained (h : Aside f) (p : Player O) : f (p.onDrained now) = f p := by
  unfold Player.onDrained
  cases p.ctx.output with
  | none => rfl
  | some output => exact (h.updateStatus _ _ _).trans (h.setOutput _ _)

theorem onPlayerUnpause (h : Aside f) (p : Player O) : f (p.onPlayerUnpause now) = f p := by
  unfold Player.onPlayerUnpause
  cases p.ctx.output with
  | none => rfl
  | some output =>
      have hset := h.setOutput p (some (AudioOutput.unpause output).1)
      dsimp only
      split_ifs
      · exact (h.sendStatus _ _).trans hset
      · exact hset

end Aside

/-! ## Threads and decoders -/

/-- The request is for the stream of a Stream command with these fields. -/
structure For (request : DecoderRequest) (fields : StreamFields) : Prop where
  serverIp : request.serverIp = fields.serverIp
  threshold : request.threshold = fields.threshold
  autostart : request.autostart = fields.autostart

/-- What a message must be to make the event loop start a thread. -/
def Asked (ctx : PlayerContext O) (now : Instant) (msg : ServerMessage) : Spawn → Prop
  | .pauseTimer interval => msg = .pause interval
  | .resumeTimer dur _ =>
      ∃ interval, msg = .unpause interval ∧ interval ≠ 0 ∧ dur = interval - (now - ctx.startTime)
  | .streamConnect request =>
      ∃ fields, msg = .stream fields ∧ For request fields ∧
        request.defaultIp = ctx.serverDefaultIp

theorem mem_spawns_onStream {fields : StreamFields} {thread : Spawn}
    (h : thread ∈ ((Player.start ctx g).onStream now fields).spawns) :
    ∃ request, thread = .streamConnect request ∧ For request fields ∧
      request.defaultIp = ctx.serverDefaultIp := by
  unfold onStream at h
  cases hheaders : fields.httpHeaders with
  | none =>
      rw [hheaders] at h
      exact absurd h List.not_mem_nil
  | some httpHeaders =>
      rw [hheaders] at h
      dsimp only at h
      split_ifs at h
      · exact absurd h List.not_mem_nil
      · exact ⟨_, List.mem_singleton.1 h, ⟨rfl, rfl, rfl⟩, rfl⟩

variable [AudioOutput O]

theorem mem_spawns_onPause {interval : Duration} {thread : Spawn}
    (h : thread ∈ ((Player.start ctx g).onPause now interval).spawns) :
    thread = .pauseTimer interval := by
  unfold onPause at h
  cases houtput : (Player.start ctx g).ctx.output with
  | none =>
      rw [houtput] at h
      exact absurd h List.not_mem_nil
  | some output =>
      rw [houtput] at h
      dsimp only at h
      split_ifs at h
      · exact absurd h List.not_mem_nil
      · exact absurd h List.not_mem_nil
      · exact List.mem_singleton.1 h
      · exact absurd h List.not_mem_nil

theorem spawns_onUnpause_zero : ((Player.start ctx g).onUnpause now 0).spawns = [] := by
  unfold onUnpause
  rw [if_pos rfl]
  cases (Player.start ctx g).ctx.output with
  | none => rfl
  | some output =>
      dsimp only
      split_ifs <;> rfl

/-- A timed unpause starts one thread, which sleeps for what remains of the interval. -/
theorem spawns_onUnpause {interval : Duration} (h : interval ≠ 0) :
    ((Player.start ctx g).onUnpause now interval).spawns =
      [.resumeTimer (interval - (now - ctx.startTime)) (Player.start ctx g).currentPlayTime] := by
  unfold onUnpause
  rw [if_neg h]
  rfl

theorem asked_of_mem_spawns (opened : Option O) {msg : ServerMessage} {thread : Spawn}
    (h : thread ∈ ((Player.start ctx g).handleServerMessage now opened msg).spawns) :
    Asked ctx now msg thread := by
  cases msg with
  | stream fields =>
      rcases mem_spawns_onStream h with ⟨request, rfl, hfor, hdefault⟩
      exact ⟨fields, rfl, hfor, hdefault⟩
  | pause interval =>
      rw [mem_spawns_onPause h]
      exact rfl
  | unpause interval =>
      by_cases hnow : interval = 0
      · subst hnow
        have hnone : thread ∈ ((Player.start ctx g).onUnpause now 0).spawns := h
        rw [spawns_onUnpause_zero] at hnone
        exact absurd hnone List.not_mem_nil
      · have hone : thread ∈ ((Player.start ctx g).onUnpause now interval).spawns := h
        rw [spawns_onUnpause hnow] at hone
        rw [List.mem_singleton.1 hone]
        exact ⟨interval, rfl, hnow, rfl⟩
  | enable spdif dac =>
      have hnone : ((Player.start ctx g).onEnable opened spdif dac).spawns = [] :=
        aside_spawns.onEnable _ opened spdif dac
      have henable : thread ∈ ((Player.start ctx g).onEnable opened spdif dac).spawns := h
      rw [hnone] at henable
      exact absurd henable List.not_mem_nil
  | _ => exact absurd h List.not_mem_nil

theorem spawns_handlePlayerMessage (msg : PlayerMsg) :
    ((Player.start ctx g).handlePlayerMessage now msg).spawns = [] := by
  cases msg with
  | drained => exact aside_spawns.onDrained _
  | unpause => exact aside_spawns.onPlayerUnpause _
  | decoder decoder params =>
      show ((Player.start ctx g).onDecoder decoder params).spawns = []
      unfold onDecoder
      cases (Player.start ctx g).ctx.output <;> rfl
  | _ => rfl

/-- Only a decoder that has been posted is passed to the output. -/
theorem decoder?_of_mem_enqueued {msg : PlayerMsg} {d : VibeDecoder}
    (h : d ∈ ((Player.start ctx g).handlePlayerMessage now msg).enqueued) :
    msg.decoder? = some d := by
  cases msg with
  | drained =>
      have hnone : ((Player.start ctx g).onDrained now).enqueued = [] := aside_enqueued.onDrained _
      have hdrained : d ∈ ((Player.start ctx g).onDrained now).enqueued := h
      rw [hnone] at hdrained
      exact absurd hdrained List.not_mem_nil
  | unpause =>
      have hnone : ((Player.start ctx g).onPlayerUnpause now).enqueued = [] :=
        aside_enqueued.onPlayerUnpause _
      have hunpause : d ∈ ((Player.start ctx g).onPlayerUnpause now).enqueued := h
      rw [hnone] at hunpause
      exact absurd hunpause List.not_mem_nil
  | decoder decoder params =>
      have hdecoder : d ∈ ((Player.start ctx g).onDecoder decoder params).enqueued := h
      unfold onDecoder at hdecoder
      cases houtput : (Player.start ctx g).ctx.output with
      | none =>
          rw [houtput] at hdecoder
          exact absurd hdecoder List.not_mem_nil
      | some output =>
          rw [houtput] at hdecoder
          exact congrArg some (List.mem_singleton.1 hdecoder).symm
  | _ => exact absurd h List.not_mem_nil

end Player

end Vibe
end LmsPlayer
