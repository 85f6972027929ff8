import LmsPlayer.Vibe.Wiring
import LmsPlayer.Vibe.PulseOutput
import LmsPlayer.Vibe.PipewireOutput

/-!
# Vibe.AudioLoop — the lock of the audio main loop

The sound servers call the callbacks of a stream in a thread of their own, the audio main loop, with
its lock held, and the calls of the output take the same lock.  A `Process` makes such a call in one
step.  An `AudioLoop` takes the calls apart: `calls` is what the event loop has still to do in them,
and `lock` tells who holds the lock.

Whatever an `AudioLoop` does, its `Process` does too (`simulation`), and what it has still to post
is what the `Process` has still to send to itself (`sent`).
-/

namespace LmsPlayer
namespace Vibe

open LmsProto
open Channel (Sends)
open TransitionSystem (System Simulation)

/-! ## The calls of the output -/

inductive OutputCall where
  | enqueue (decoder : VibeDecoder) (params : StreamParams)
  | unpause
  | pause
  | stop
  | flush
  | shift
  /-- The output is dropped. -/
  | drop

/-- One step of a call, as far as others can be in its way. -/
inductive CallStep where
  /-- `mainloop.lock()` -/
  | lock
  /-- `mainloop.wait()`, as often as it takes; meanwhile the lock is given back. -/
  | wait
  | unlock
  /-- `stream_in.send(msg)` -/
  | post (msg : PlayerMsg)
  deriving DecidableEq

namespace CallStep

def post? : CallStep → Option PlayerMsg
  | post msg => some msg
  | _ => none

/-- The lock is taken when the event loop does not have it, waited with and given back when it has
it, and not kept. -/
def Balanced : Bool → List CallStep → Prop
  | held, [] => held = false
  | held, lock :: rest => held = false ∧ Balanced true rest
  | held, wait :: rest => held = true ∧ Balanced held rest
  | held, unlock :: rest => held = true ∧ Balanced false rest
  | held, post _ :: rest => Balanced held rest

theorem Balanced.append {held : Bool} {steps rest : List CallStep} (h : Balanced held steps)
    (hrest : Balanced false rest) : Balanced held (steps ++ rest) := by
  induction steps generalizing held with
  | nil =>
      have hfree : held = false := h
      exact hfree ▸ hrest
  | cons step steps ih =>
      cases step with
      | lock => exact ⟨h.1, ih h.2⟩
      | wait => exact ⟨h.1, ih h.2⟩
      | unlock => exact ⟨h.1, ih h.2⟩
      | post msg => exact ih h

end CallStep

/-- What is still to be sent. -/
def MainPhase.sends : MainPhase → List Send
  | loop pending => pending
  | _ => []

/-- What a call posts to the event loop. -/
def OutputCall.posts {O : Type} [AudioOutput O] (o : O) : OutputCall → List PlayerMsg
  | enqueue decoder params => (AudioOutput.enqueueNewStream o decoder params).2
  | _ => []

/-- An output, and what its calls do with the lock of its main loop. -/
class LockingOutput (O : Type) [AudioOutput O] where
  steps : O → OutputCall → List CallStep
  posts_steps : ∀ (o : O) (call : OutputCall),
    (steps o call).filterMap CallStep.post? = call.posts o
  balanced_steps : ∀ (o : O) (call : OutputCall), CallStep.Balanced false (steps o call)

namespace PulseOutput

/-- `set_cork_state` -/
def corkSteps (o : PulseOutput) : List CallStep :=
  if o.playing.isSome then [.lock, .wait, .unlock] else []

def stopSteps (o : PulseOutput) : List CallStep :=
  if o.playing.isSome then [.lock, .unlock] else []

def enqueueSteps (o : PulseOutput) (params : StreamParams) : List CallStep :=
  -- The stream is made, it is given its callbacks, and `connect_stream` waits for it.
  [.lock, .unlock, .lock, .unlock, .lock, .wait, .unlock, .post .streamEstablished] ++
    if o.playing.isNone ∧ params.autostart = .auto then [.lock, .wait, .unlock] else []

instance : LockingOutput PulseOutput where
  steps o
    | .enqueue _ params => o.enqueueSteps params
    | .unpause => o.corkSteps
    | .pause => o.corkSteps
    | .stop => o.stopSteps
    | .flush => o.stopSteps
    | .shift => []
    | .drop => []
  posts_steps := by
    intro o call
    cases call with
    | enqueue decoder params =>
        show (o.enqueueSteps params).filterMap CallStep.post? = [.streamEstablished]
        unfold enqueueSteps
        split_ifs <;> rfl
    | unpause | pause =>
        show o.corkSteps.filterMap CallStep.post? = []
        unfold corkSteps
        split_ifs <;> rfl
    | stop | flush =>
        show o.stopSteps.filterMap CallStep.post? = []
        unfold stopSteps
        split_ifs <;> rfl
    | shift | drop => rfl
  balanced_steps := by
    intro o call
    cases call with
    | enqueue decoder params =>
        show CallStep.Balanced false (o.enqueueSteps params)
        unfold enqueueSteps
        split_ifs <;> simp [CallStep.Balanced]
    | unpause | pause =>
        show CallStep.Balanced false o.corkSteps
        unfold corkSteps
        split_ifs <;> simp [CallStep.Balanced]
    | stop | flush =>
        show CallStep.Balanced false o.stopSteps
        unfold stopSteps
        split_ifs <;> simp [CallStep.Balanced]
    | shift | drop => rfl

end PulseOutput

namespace PipewireOutput

def playSteps (o : PipewireOutput) : List CallStep :=
  if o.playing.isSome then [.lock, .unlock] else []

def enqueueSteps (o : PipewireOutput) (params : StreamParams) : List CallStep :=
  [.lock, .unlock, .post .streamEstablished] ++
    if o.playing.isNone ∧ params.autostart = .auto then [.lock, .unlock] else []

instance : LockingOutput PipewireOutput where
  steps o
    | .enqueue _ params => o.enqueueSteps params
    | .unpause => o.playSteps
    | .pause => o.playSteps
    | .stop => [.lock, .unlock]
    | .flush => [.lock, .unlock]
    | .shift => [.lock, .unlock]
    -- It is stopped first.
    | .drop => [.lock, .unlock]
  posts_steps := by
    intro o call
    cases call with
    | enqueue decoder params =>
        show (o.enqueueSteps params).filterMap CallStep.post? = [.streamEstablished]
        unfold enqueueSteps
        split_ifs <;> rfl
    | unpause | pause =>
        show o.playSteps.filterMap CallStep.post? = []
        unfold playSteps
        split_ifs <;> rfl
    | stop | flush | shift | drop => rfl
  balanced_steps := by
    intro o call
    cases call with
    | enqueue decoder params =>
        show CallStep.Balanced false (o.enqueueSteps params)
        unfold enqueueSteps
        split_ifs <;> simp [CallStep.Balanced]
    | unpause | pause =>
        show CallStep.Balanced false o.playSteps
        unfold playSteps
        split_ifs <;> simp [CallStep.Balanced]
    | stop | flush | shift | drop => simp [CallStep.Balanced]

end PipewireOutput

/-! ## What the handlers call -/

section Calls

variable {O : Type} [AudioOutput O] [LockingOutput O]

namespace PlayerContext

/-- A call of the output, if there is one. -/
def callSteps (ctx : PlayerContext O) (call : OutputCall) : List CallStep :=
  match ctx.output with
  | none => []
  | some output => LockingOutput.steps output call

/-- What a message of the server makes the event loop do with the output. -/
def serverSteps (ctx : PlayerContext O) : ServerMessage → List CallStep
  | .stop => ctx.callSteps .stop
  | .flush => ctx.callSteps .flush
  | .pause _ => ctx.callSteps .pause
  -- With an interval a timer unpauses, through a message of the player.
  | .unpause interval => if interval = 0 then ctx.callSteps .unpause else []
  -- Another output takes the place of this one, or none does.
  | .enable _ _ => ctx.callSteps .drop
  | .disableDac => ctx.callSteps .drop
  | _ => []

/-- What a message of the player itself makes it do. -/
def playerSteps (ctx : PlayerContext O) : PlayerMsg → List CallStep
  | .drained =>
      match ctx.output with
      | none => []
      | some output =>
          -- The stream that was up next is started.
          LockingOutput.steps output .shift ++
            LockingOutput.steps (AudioOutput.shift output) .unpause
  | .pause => ctx.callSteps .pause
  | .unpause => ctx.callSteps .unpause
  | .decoder decoder params => ctx.callSteps (.enqueue decoder params)
  | _ => []

/-- The output is stopped after the loss of the connection, and dropped when the event loop is
left. -/
def resetSteps (ctx : PlayerContext O) : List CallStep :=
  match ctx.output with
  | none => []
  | some output =>
      LockingOutput.steps output .stop ++ LockingOutput.steps (AudioOutput.stop output) .drop

end PlayerContext

/-- What the event loop does with the output when this is what it does next. -/
def LogEntry.callSteps (ctx : PlayerContext O) : LogEntry → List CallStep
  | handled _ receipt _ _ => ctx.serverSteps receipt.msg
  | handledPlayer _ _ msg _ _ => ctx.playerSteps msg
  | _ => []

/-! ## What the calls post -/

variable (ctx : PlayerContext O)

namespace PlayerContext

theorem posts_callSteps {call : OutputCall} (hcall : ∀ o : O, call.posts o = []) :
    (ctx.callSteps call).filterMap CallStep.post? = [] := by
  unfold callSteps
  cases ctx.output with
  | none => rfl
  | some output => exact (LockingOutput.posts_steps output call).trans (hcall output)

theorem posts_serverSteps (msg : ServerMessage) :
    (ctx.serverSteps msg).filterMap CallStep.post? = [] := by
  cases msg with
  | stop | flush | pause | enable | disableDac => exact ctx.posts_callSteps fun _ => rfl
  | unpause interval =>
      simp only [serverSteps]
      split_ifs
      · exact ctx.posts_callSteps fun _ => rfl
      · rfl
  | _ => rfl

theorem posts_playerSteps {msg : PlayerMsg} (hmsg : msg.decoder? = none) :
    (ctx.playerSteps msg).filterMap CallStep.post? = [] := by
  cases msg with
  | decoder decoder params => cases hmsg
  | drained =>
      simp only [playerSteps]
      cases ctx.output with
      | none => rfl
      | some output => simp [LockingOutput.posts_steps, OutputCall.posts]
  | pause | unpause => exact ctx.posts_callSteps fun _ => rfl
  | _ => rfl

theorem posts_resetSteps : ctx.resetSteps.filterMap CallStep.post? = [] := by
  unfold resetSteps
  cases ctx.output with
  | none => rfl
  | some output => simp [LockingOutput.posts_steps, OutputCall.posts]

theorem balanced_callSteps (call : OutputCall) : CallStep.Balanced false (ctx.callSteps call) := by
  unfold callSteps
  cases ctx.output with
  | none => rfl
  | some output => exact LockingOutput.balanced_steps output call

theorem balanced_serverSteps (msg : ServerMessage) :
    CallStep.Balanced false (ctx.serverSteps msg) := by
  cases msg with
  | stop | flush | pause | enable | disableDac => exact ctx.balanced_callSteps _
  | unpause interval =>
      simp only [serverSteps]
      split_ifs
      · exact ctx.balanced_callSteps _
      · rfl
  | _ => rfl

theorem balanced_playerSteps (msg : PlayerMsg) : CallStep.Balanced false (ctx.playerSteps msg) := by
  cases msg with
  | drained =>
      simp only [playerSteps]
      cases ctx.output with
      | none => rfl
      | some output =>
          exact (LockingOutput.balanced_steps output _).append (LockingOutput.balanced_steps _ _)
  | pause | unpause | decoder => exact ctx.balanced_callSteps _
  | _ => rfl

theorem balanced_resetSteps : CallStep.Balanced false ctx.resetSteps := by
  unfold resetSteps
  cases ctx.output with
  | none => rfl
  | some output =>
      exact (LockingOutput.balanced_steps output _).append (LockingOutput.balanced_steps _ _)

end PlayerContext

theorem LogEntry.balanced_callSteps (entry : LogEntry) :
    CallStep.Balanced false (entry.callSteps ctx) := by
  cases entry with
  | handled now receipt sends spawns => exact ctx.balanced_serverSteps _
  | handledPlayer now pass msg sends enqueued => exact ctx.balanced_playerSteps _
  | _ => rfl

/-- A handler sends what its calls post, and reports to the server. -/
def Sent (steps : List CallStep) (sends : List Send) : Prop :=
  ∃ reports : List ClientMessage,
    sends = (steps.filterMap CallStep.post?).map .toSelf ++ reports.map .toServer

omit [AudioOutput O] [LockingOutput O] in
theorem sent_nil {steps : List CallStep} (h : steps.filterMap CallStep.post? = []) :
    Sent steps [] :=
  ⟨[], by rw [h]; rfl⟩

/-- The first message has been posted. -/
theorem Sent.post {msg msg' : PlayerMsg} {rest : List CallStep} {pending : List Send}
    (h : Sent (.post msg :: rest) (.toSelf msg' :: pending)) : Sent rest pending := by
  obtain ⟨reports, hsends⟩ := h
  exact ⟨reports, (List.cons.inj hsends).2⟩

/-- Without calls there are only reports to send. -/
theorem Sent.report {msg : Send} {pending : List Send} (h : Sent [] (msg :: pending)) :
    (∃ report, msg = .toServer report) ∧ Sent [] pending := by
  obtain ⟨reports, hsends⟩ := h
  cases reports with
  | nil => cases hsends
  | cons report reports =>
      obtain ⟨hmsg, hpending⟩ := List.cons.inj hsends
      exact ⟨⟨report, hmsg⟩, reports, hpending⟩

omit [AudioOutput O] [LockingOutput O] in
theorem sent_of_onlyReports {steps : List CallStep} {done : Player O} (h : done.OnlyReports)
    (hsteps : steps.filterMap CallStep.post? = []) : Sent steps done.sends := by
  obtain ⟨reports, hsends⟩ := h
  exact ⟨reports, by rw [hsteps, hsends]; rfl⟩

theorem sent_handleServerMessage (g : Globals) (now : Instant) (opened : Option O)
    (msg : ServerMessage) :
    Sent (ctx.serverSteps msg) ((Player.start ctx g).handleServerMessage now opened msg).sends :=
  sent_of_onlyReports ((Player.OnlyReports.start ctx g).handleServerMessage opened msg)
    (ctx.posts_serverSteps msg)

theorem sent_handlePlayerMessage (g : Globals) (now : Instant) (msg : PlayerMsg) :
    Sent (ctx.playerSteps msg) ((Player.start ctx g).handlePlayerMessage now msg).sends := by
  cases hmsg : msg.decoder? with
  | none =>
      exact sent_of_onlyReports ((Player.OnlyReports.start ctx g).handlePlayerMessage hmsg)
        (ctx.posts_playerSteps hmsg)
  | some d =>
      cases msg with
      | decoder decoder params =>
          -- This is the message whose handler posts something.
          refine ⟨[], ?_⟩
          cases houtput : ctx.output with
          | none =>
              simp [Player.handlePlayerMessage, Player.onDecoder, Player.start,
                PlayerContext.playerSteps, PlayerContext.callSteps, houtput]
          | some output =>
              simp [Player.handlePlayerMessage, Player.onDecoder, Player.start, Player.setOutput,
                PlayerContext.playerSteps, PlayerContext.callSteps, houtput,
                LockingOutput.posts_steps, OutputCall.posts]
      | _ => cases hmsg

end Calls

/-! ## The system -/

section Main

variable {O : Type} [AudioOutput O] {cfg : Config} {s t : Process O} {entries : List LogEntry}

theorem MainStep.main_of_resetting (h : MainStep cfg s t entries) (hmain : s.main = .resetting) :
    t.main = .leaving := by
  cases h with
  | bye => rfl
  | serverMessage _ hloop | playerMessage hloop | timeout hloop | sendToServer hloop
    | sendToSelf hloop | lost hloop | disconnected hloop => cases hmain.symm.trans hloop
  | restart _ hleaving => cases hmain.symm.trans hleaving

theorem MainStep.main_of_exits (h : MainStep cfg s t entries) (hexits : t.main = .exited) :
    s.main = .loop [] := by
  cases h with
  | disconnected hmain => exact hmain
  | _ => cases hexits

end Main

/-- Who holds the lock of the audio main loop. -/
inductive LockHolder where
  | nobody
  | eventLoop
  /-- A callback, and the message it is posting. -/
  | callback (posting : Option PlayerMsg)
  deriving DecidableEq

def LockHolder.byEventLoop : LockHolder → Bool
  | eventLoop => true
  | _ => false

structure AudioLoop (O : Type) where
  process : Process O
  calls : List CallStep
  lock : LockHolder
  /-- The event loop cannot receive from the slim-proto thread any more and `main` is about to
  return. -/
  quitting : Bool

namespace AudioLoop

variable {O : Type}

def start (process : Process O) : AudioLoop O :=
  { process := process
    calls := []
    lock := .nobody
    quitting := false }

/-- The messages waiting for the event loop. -/
def stream (s : AudioLoop O) : List PlayerMsg := s.process.pass.stream

/-- The process after somebody else than `main` has moved. -/
def moved (s : AudioLoop O) (k : Nat) (g' : Globals) (p' : Pass O) (entries : List LogEntry) :
    Process O :=
  ({ s.process.setPass k p' with globals := g' } : Process O).record entries

/-- The threads of a pass without the callbacks that post to the event loop. -/
inductive OtherStep (cfg : Config) (k : Nat) (isCurrent : Prop) (now : Instant) (g : Globals)
    (p : Pass O) : Globals → Pass O → List LogEntry → Prop where
  | proto {g' : Globals} {p' : Pass O} {entries : List LogEntry}
      (h : ProtoStep cfg k now g p g' p' entries) : OtherStep cfg k isCurrent now g p g' p' entries
  | writer {p' : Pass O} {entries : List LogEntry} (h : WriterStep p p' entries) :
      OtherStep cfg k isCurrent now g p g p' entries
  | connect {g' : Globals} {p' : Pass O} {entries : List LogEntry}
      (h : ConnectStep now g p g' p' entries) : OtherStep cfg k isCurrent now g p g' p' entries
  | timer {g' : Globals} {p' : Pass O} (h : TimerStep k now g p g' p') :
      OtherStep cfg k isCurrent now g p g' p' []
  | backend {g' : Globals} {p' : Pass O} (h : BackendStep now g p g' p')
      (hquiet : isCurrent → p'.stream = p.stream) : OtherStep cfg k isCurrent now g p g' p' []

theorem OtherStep.threadStep {cfg : Config} {k : Nat} {isCurrent : Prop} {now : Instant}
    {g g' : Globals} {p p' : Pass O} {entries : List LogEntry}
    (h : OtherStep cfg k isCurrent now g p g' p' entries) :
    ThreadStep cfg k now g p g' p' entries := by
  cases h with
  | proto h => exact .proto h
  | writer h => exact .writer h
  | connect h => exact .connect h
  | timer h => exact .timer h
  | backend h hquiet => exact .backend h

variable [AudioOutput O] [LockingOutput O]

inductive Step (cfg : Config) (s : AudioLoop O) : AudioLoop O → Prop where
  /-- The event loop takes up a message or a timeout. -/
  | takeUp {t : Process O} {entry : LogEntry} (hcalls : s.calls = []) (hstays : s.quitting = false)
      (h : MainStep cfg s.process t [entry]) :
      Step cfg s
        { s with
          process := t.record [entry]
          calls := entry.callSteps s.process.pass.ctx }
  /-- It says goodbye to the server, stops the output and leaves. -/
  | reset {t : Process O} (hcalls : s.calls = []) (hmain : s.process.main = .resetting)
      (h : MainStep cfg s.process t []) :
      Step cfg s
        { s with
          process := t.record []
          calls := s.process.pass.ctx.resetSteps }
  /-- It sends a report to the server, or starts the next pass. -/
  | goOn {t : Process O} (hcalls : s.calls = []) (hstays : s.quitting = false)
      (hmain : s.process.main ≠ .resetting) (hgoesOn : t.main ≠ .exited)
      (h : MainStep cfg s.process t []) :
      Step cfg s { s with process := t.record [] }
  /-- `main` is going to return, and drops the output. -/
  | quit (hcalls : s.calls = []) (hstays : s.quitting = false)
      (h : MainStep cfg s.process { s.process with main := .exited } []) :
      Step cfg s
        { s with
          calls := s.process.pass.ctx.callSteps .drop
          quitting := true }
  | exit (hcalls : s.calls = []) (hquits : s.quitting = true)
      (h : MainStep cfg s.process { s.process with main := .exited } []) :
      Step cfg s { s with process := ({ s.process with main := .exited } : Process O).record [] }
  | post {t : Process O} {msg : PlayerMsg} {rest : List CallStep} {pending : List Send}
      (hcalls : s.calls = .post msg :: rest)
      (hmain : s.process.main = .loop (.toSelf msg :: pending))
      (h : MainStep cfg s.process t []) :
      Step cfg s
        { s with
          process := t.record []
          calls := rest }
  | lock {rest : List CallStep} (hcalls : s.calls = .lock :: rest) (hlock : s.lock = .nobody) :
      Step cfg s
        { s with
          calls := rest
          lock := .eventLoop }
  | unlock {rest : List CallStep} (hcalls : s.calls = .unlock :: rest) :
      Step cfg s
        { s with
          calls := rest
          lock := .nobody }
  /-- Not yet: the lock is given back, and taken again before the next look. -/
  | wait {rest : List CallStep} (hcalls : s.calls = .wait :: rest) :
      Step cfg s
        { s with
          calls := .lock :: .wait :: rest
          lock := .nobody }
  | waited {rest : List CallStep} (hcalls : s.calls = .wait :: rest) :
      Step cfg s { s with calls := rest }
  /-- The audio main loop calls a callback. -/
  | enter (hlock : s.lock = .nobody) : Step cfg s { s with lock := .callback none }
  | leave (hlock : s.lock = .callback none) : Step cfg s { s with lock := .nobody }
  /-- The callback comes to a message. -/
  | prepare {msg : PlayerMsg} (hlock : s.lock = .callback none) (hmsg : msg.FromCallback) :
      Step cfg s { s with lock := .callback (some msg) }
  | posted {msg : PlayerMsg} {g' : Globals} {p' : Pass O} (hlock : s.lock = .callback (some msg))
      (hruns : s.process.main ≠ .exited)
      (h : BackendStep s.process.now s.process.globals s.process.pass g' p')
      (hsend : Sends (s.process.pass.attached = true) STREAM_CAPACITY s.stream msg p'.stream) :
      Step cfg s
        { s with
          process := s.moved s.process.current g' p' []
          lock := .callback none }
  | thread {k : Nat} {g' : Globals} {p' : Pass O} {entries : List LogEntry}
      (hruns : s.process.main ≠ .exited) (hk : k ≤ s.process.current)
      (h : OtherStep cfg k (k = s.process.current) s.process.now s.process.globals
        (s.process.passes k) g' p' entries) :
      Step cfg s { s with process := s.moved k g' p' entries }
  | tick (d : Duration) :
      Step cfg s { s with process := { s.process with now := s.process.now + d } }

/-- The program with an audio main loop, scheduled in any way. -/
def system (O : Type) [AudioOutput O] [LockingOutput O] (cfg : Config) : System (AudioLoop O) :=
  { init := fun s => ∃ now hostname, s = start (Process.start cfg now hostname)
    step := Step cfg }

variable {cfg : Config} {s t : AudioLoop O}

/-- It does nothing that the program could not do. -/
def simulation (cfg : Config) : Simulation (system O cfg) (Vibe.system O cfg) where
  abs := process
  init := by
    rintro s ⟨now, hostname, rfl⟩
    exact ⟨now, hostname, rfl⟩
  step := by
    intro s t _ h
    cases h with
    | takeUp hcalls hstays h => exact .inr (.main h)
    | reset hcalls hmain h => exact .inr (.main h)
    | goOn hcalls hstays hmain hgoesOn h => exact .inr (.main h)
    | exit hcalls hquits h => exact .inr (.main h)
    | post hcalls hmain h => exact .inr (.main h)
    | posted hlock hruns h hsend => exact .inr (.thread hruns le_rfl (.backend h))
    | thread hruns hk h => exact .inr (.thread hruns hk h.threadStep)
    | tick d => exact .inr (.tick d)
    | quit | lock | unlock | wait | waited | enter | leave | prepare => exact .inl rfl

/-! ## The calls and the process -/

theorem sent_of_takeUp {s t : Process O} {entry : LogEntry} (h : MainStep cfg s t [entry]) :
    Sent (entry.callSteps s.pass.ctx) t.main.sends := by
  cases h with
  | serverMessage opened hmain hqueue hdone =>
      subst hdone
      exact sent_handleServerMessage s.pass.ctx _ _ _ _
  | playerMessage hmain hqueue hdone =>
      subst hdone
      exact sent_handlePlayerMessage s.pass.ctx _ _ _
  | timeout hmain hserver hstream hdone =>
      subst hdone
      exact sent_of_onlyReports ((Player.OnlyReports.start _ _).updateElapsedAndSend _ _) rfl
  | lost hmain hqueue => exact ⟨[], rfl⟩

omit [LockingOutput O] in
/-- With no calls left only reports are sent. -/
theorem sent_of_goOn {s t : Process O} (h : MainStep cfg s t []) (hs : Sent [] s.main.sends)
    (hmain : s.main ≠ .resetting) (hgoesOn : t.main ≠ .exited) : Sent [] t.main.sends := by
  cases h with
  | sendToServer hloop hsend =>
      rw [hloop] at hs
      exact hs.report.2
  | sendToSelf hloop hsend =>
      rw [hloop] at hs
      obtain ⟨report, hreport⟩ := hs.report.1
      cases hreport
  | disconnected => exact absurd rfl hgoesOn
  | bye hresetting hsend => exact absurd hresetting hmain
  | restart => exact ⟨[], rfl⟩

omit [LockingOutput O] in
theorem sent_of_post {s t : Process O} {msg : PlayerMsg} {rest : List CallStep}
    {pending : List Send} (h : MainStep cfg s t [])
    (hmain : s.main = .loop (.toSelf msg :: pending))
    (hs : Sent (.post msg :: rest) s.main.sends) : Sent rest t.main.sends := by
  rw [hmain] at hs
  cases h with
  | sendToSelf hloop hsend =>
      cases hmain.symm.trans hloop
      exact hs.post
  | sendToServer hloop | disconnected hloop => cases hmain.symm.trans hloop
  | bye hresetting => cases hmain.symm.trans hresetting
  | restart hostname hleaving => cases hmain.symm.trans hleaving

/-- What the process has still to send is what the calls have still to post, and reports. -/
theorem sent (h : (system O cfg).Reachable s) : Sent s.calls s.process.main.sends := by
  refine System.Reachable.invariant (fun s => Sent s.calls s.process.main.sends) ?_ ?_ h
  · rintro s ⟨now, hostname, rfl⟩
    exact ⟨[], rfl⟩
  · intro s t _ ih hstep
    cases hstep with
    | @takeUp t entry hcalls hstays h => exact sent_of_takeUp (t := t) h
    | @reset t hcalls hmain h =>
        show Sent _ t.main.sends
        rw [h.main_of_resetting hmain]
        exact sent_nil (PlayerContext.posts_resetSteps _)
    | @goOn t hcalls hstays hmain hgoesOn h =>
        show Sent s.calls t.main.sends
        rw [hcalls] at ih ⊢
        exact sent_of_goOn h ih hmain hgoesOn
    | quit hcalls hstays h =>
        show Sent _ s.process.main.sends
        rw [h.main_of_exits rfl]
        exact sent_nil (PlayerContext.posts_callSteps _ fun _ => rfl)
    | exit hcalls hquits h =>
        show Sent s.calls _
        rw [hcalls]
        exact ⟨[], rfl⟩
    | @post t msg rest pending hcalls hmain h =>
        rw [hcalls] at ih
        exact sent_of_post (t := t) h hmain ih
    | lock hcalls | unlock hcalls | wait hcalls | waited hcalls =>
        -- What has to do with the lock posts nothing.
        rw [hcalls] at ih
        exact ih
    | _ => exact ih

/-- The event loop goes through its calls with the lock as they need it. -/
theorem balanced_calls (h : (system O cfg).Reachable s) :
    CallStep.Balanced s.lock.byEventLoop s.calls := by
  refine System.Reachable.invariant (fun s => CallStep.Balanced s.lock.byEventLoop s.calls) ?_ ?_ h
  · rintro s ⟨now, hostname, rfl⟩
    rfl
  · intro s t _ ih hstep
    -- At the end of its calls the event loop has given the lock back.
    have hfree : s.calls = [] → s.lock.byEventLoop = false := fun hcalls => by
      rw [hcalls] at ih
      exact ih
    cases hstep with
    | takeUp hcalls hstays h =>
        rw [hfree hcalls]
        exact LogEntry.balanced_callSteps _ _
    | reset hcalls hmain h =>
        rw [hfree hcalls]
        exact PlayerContext.balanced_resetSteps _
    | quit hcalls hstays h =>
        rw [hfree hcalls]
        exact PlayerContext.balanced_callSteps _ _
    | post hcalls hmain h =>
        rw [hcalls] at ih
        exact ih
    | lock hcalls | unlock hcalls | waited hcalls =>
        rw [hcalls] at ih
        exact ih.2
    | wait hcalls =>
        rw [hcalls] at ih
        obtain ⟨hheld, hrest⟩ := ih
        rw [hheld] at hrest
        exact ⟨rfl, rfl, hrest⟩
    | enter hlock | leave hlock | prepare hlock | posted hlock =>
        -- The callback has the lock, so the event loop does not.
        rw [hlock] at ih
        exact ih
    | _ => exact ih

end AudioLoop

end Vibe
end LmsPlayer
