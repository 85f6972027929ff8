import LmsPlayer.Vibe.Handling
import LmsPlayer.Vibe.Pass
import LmsPlayer.Vibe.PulseOutput

/-!
# Vibe.TimedUnpause — a timed unpause is no delayed unpause

An immediate unpause tells the server whether the output has resumed, and when (`Announced`).  A
timed one is split in two when its timer expires: the event loop handles the `Unpause` that the
timer has posted, and the timer thread reports by itself (`resumeReport`).  Neither knows of the
other, so the report comes whether the output has resumed or not, with the play time of the request;
and the event loop reports the start of a track.
-/

namespace LmsPlayer
namespace Vibe

open LmsProto
open ThreadPool (Replace)

/-! ## What there is to tell the server -/

def Send.toServer? : Send → Option ClientMessage
  | toServer msg => some msg
  | toSelf _ => none

namespace PlayerContext

variable {O : Type} [AudioOutput O]

/-- There is an output, and it has something to resume. -/
def Resumes (ctx : PlayerContext O) : Prop :=
  ∃ output, ctx.output = some output ∧ (AudioOutput.unpause output).2 = true

theorem not_resumes_of_none {ctx : PlayerContext O} (h : ctx.output = none) : ¬ctx.Resumes := by
  rintro ⟨output, hsome, _⟩
  rw [h] at hsome
  cases hsome

theorem resumes_iff {ctx : PlayerContext O} {output : O} (h : ctx.output = some output) :
    ctx.Resumes ↔ (AudioOutput.unpause output).2 = true := by
  constructor
  · rintro ⟨output', hsome, heffect⟩
    rw [h] at hsome
    cases hsome
    exact heffect
  · intro heffect
    exact ⟨output, h, heffect⟩

end PlayerContext

def Carries (playTime : Duration) (status : StatusData) : Prop :=
  status.elapsedMilliseconds = UInt32.ofNat playTime.asMillis ∧
    status.elapsedSeconds = UInt32.ofNat playTime.asSecs

section Messages

variable {O : Type} [AudioOutput O] {now now₀ : Instant} {ctx ctx₀ : PlayerContext O}
  {g g₀ : Globals} {playTime : Duration} {msgs : List ClientMessage}

/-- The server is told of an unpause: exactly one `Resume` with the current play time if the output
resumes, and nothing otherwise. -/
def Announced (ctx : PlayerContext O) (g : Globals) (msgs : List ClientMessage) : Prop :=
  (ctx.Resumes → ∃ status, msgs = [.stat StatusCode.resume.toString status] ∧
    Carries (Player.start ctx g).currentPlayTime status) ∧
  (¬ctx.Resumes → msgs = [])

/-- What an `Unpause(0)` that is handled at the instant `now` tells the server. -/
def immediate (now : Instant) (ctx : PlayerContext O) (g : Globals) (opened : Option O) :
    List ClientMessage :=
  ((Player.start ctx g).handleServerMessage now opened (.unpause 0)).sends.filterMap Send.toServer?

theorem announced_immediate (opened : Option O) :
    Announced ctx g (immediate now ctx g opened) := by
  have hunfold : immediate now ctx g opened =
      ((Player.start ctx g).onUnpause now 0).sends.filterMap Send.toServer? := rfl
  rw [hunfold]
  unfold Player.onUnpause
  rw [if_pos rfl]
  unfold Announced
  cases houtput : (Player.start ctx g).ctx.output with
  | none =>
      have hidle := PlayerContext.not_resumes_of_none houtput
      exact ⟨fun hresumes => absurd hresumes hidle, fun _ => rfl⟩
  | some output =>
      have hctx : ctx.output = some output := houtput
      rw [PlayerContext.resumes_iff hctx]
      dsimp only
      cases (AudioOutput.unpause output).2 with
      | true => exact ⟨fun _ => ⟨_, rfl, rfl, rfl⟩, fun hnot => absurd rfl hnot⟩
      | false => exact ⟨nofun, fun _ => rfl⟩

/-! ## When the timer expires -/

/-- What a resume-timer writes to `STATUS` at the instant `now`, and the message it makes of it. -/
def resumeReport (now : Instant) (g : Globals) (playTime : Duration) : ClientMessage × Globals :=
  let made := (Player.setElapsed playTime (g.lockStatus now)).makeStatusMessage now .resume
  (made.1, { g with status := some made.2 })

omit [AudioOutput O] in
/-- This is the only thing by which a timer thread changes the global state. -/
theorem resumeReport_of_timerStep {k : Nat} {g' : Globals} {p p' : Pass O}
    (h : TimerStep k now g p g' p') : g' = g ∧ p'.ctx = p.ctx ∨
      ∃ playTime, g' = (resumeReport now g playTime).2 ∧
        Replace (.reporting playTime) (some (.sending (resumeReport now g playTime).1))
          p.timers p'.timers := by
  cases h with
  | report hthread => exact Or.inr ⟨_, rfl, hthread⟩
  | _ => exact Or.inl ⟨rfl, rfl⟩

/-- What the two messages of a resume-timer that was given the play time `playTime` tell the server
at the instant `now`.  The event loop may handle the `Unpause` before the thread reports, or
after. -/
inductive Expiry (now : Instant) (ctx : PlayerContext O) (g : Globals) (playTime : Duration) :
    List ClientMessage → Prop where
  | handledFirst {done : Player O}
      (hdone : done = (Player.start ctx g).handlePlayerMessage now .unpause) :
      Expiry now ctx g playTime
        (done.sends.filterMap Send.toServer? ++ [(resumeReport now done.globals playTime).1])
  | reportedFirst {done : Player O}
      (hdone : done =
        (Player.start ctx (resumeReport now g playTime).2).handlePlayerMessage now .unpause) :
      Expiry now ctx g playTime
        ((resumeReport now g playTime).1 :: done.sends.filterMap Send.toServer?)

/-- The event loop reports the start of a track if the output resumes. -/
theorem sends_unpause (now : Instant) (ctx : PlayerContext O) (g : Globals) :
    (ctx.Resumes → ∃ status,
      ((Player.start ctx g).handlePlayerMessage now .unpause).sends.filterMap Send.toServer? =
        [.stat StatusCode.trackStarted.toString status]) ∧
    (¬ctx.Resumes →
      ((Player.start ctx g).handlePlayerMessage now .unpause).sends.filterMap Send.toServer? =
        []) := by
  have hunfold : (Player.start ctx g).handlePlayerMessage now .unpause =
      (Player.start ctx g).onPlayerUnpause now := rfl
  rw [hunfold]
  unfold Player.onPlayerUnpause
  cases houtput : (Player.start ctx g).ctx.output with
  | none =>
      have hidle := PlayerContext.not_resumes_of_none houtput
      exact ⟨fun hresumes => absurd hresumes hidle, fun _ => rfl⟩
  | some output =>
      have hctx : ctx.output = some output := houtput
      rw [PlayerContext.resumes_iff hctx]
      dsimp only
      cases (AudioOutput.unpause output).2 with
      | true => exact ⟨fun _ => ⟨_, rfl⟩, fun hnot => absurd rfl hnot⟩
      | false => exact ⟨nofun, fun _ => rfl⟩

/-- The report of the timer comes in any case, with the play time the timer was given; and when the
output resumes, so does the start of a track. -/
structure Misreported (ctx : PlayerContext O) (playTime : Duration) (msgs : List ClientMessage) :
    Prop where
  resumed : ctx.Resumes → ∃ report status, Carries playTime report ∧
    (msgs = [.stat StatusCode.trackStarted.toString status,
        .stat StatusCode.resume.toString report] ∨
      msgs = [.stat StatusCode.resume.toString report,
        .stat StatusCode.trackStarted.toString status])
  idle : ¬ctx.Resumes → ∃ report, Carries playTime report ∧
    msgs = [.stat StatusCode.resume.toString report]

theorem Expiry.misreported (h : Expiry now ctx g playTime msgs) :
    Misreported ctx playTime msgs := by
  cases h with
  | handledFirst hdone =>
      rename_i done
      subst hdone
      rcases sends_unpause now ctx g with ⟨hresumed, hidle⟩
      refine ⟨?_, ?_⟩
      · intro hresumes
        rcases hresumed hresumes with ⟨status, hsends⟩
        rw [hsends]
        exact ⟨_, status, ⟨rfl, rfl⟩, Or.inl rfl⟩
      · intro hnot
        rw [hidle hnot]
        exact ⟨_, ⟨rfl, rfl⟩, rfl⟩
  | reportedFirst hdone =>
      rename_i done
      subst hdone
      rcases sends_unpause now ctx (resumeReport now g playTime).2 with ⟨hresumed, hidle⟩
      refine ⟨?_, ?_⟩
      · intro hresumes
        rcases hresumed hresumes with ⟨status, hsends⟩
        rw [hsends]
        exact ⟨_, status, ⟨rfl, rfl⟩, Or.inr rfl⟩
      · intro hnot
        rw [hidle hnot]
        exact ⟨_, ⟨rfl, rfl⟩, rfl⟩

/-- Either there is one message too many, or there is one where there should be none. -/
theorem Misreported.not_announced (h : Misreported ctx playTime msgs) : ¬Announced ctx g msgs := by
  rintro ⟨hresumed, hidle⟩
  by_cases hresumes : ctx.Resumes
  · rcases hresumed hresumes with ⟨_, hone, _⟩
    rcases h.resumed hresumes with ⟨_, _, _, htwo | htwo⟩
    · rw [hone] at htwo
      cases htwo
    · rw [hone] at htwo
      cases htwo
  · rcases h.idle hresumes with ⟨_, _, hone⟩
    rw [hidle hresumes] at hone
    cases hone

/-- **A timed unpause never has the effect of an immediate one.**  Let a timed unpause be handled in
any state, and let its timer expire in any other one.  Then what its two messages tell the server is
not what is to be announced, and not what an `Unpause(0)` would tell it: the `Resume` comes in any
case, and carries the play time of the request, and when the output resumes, there is a
`TrackStarted` beside it. -/
theorem not_announced_of_expiry {opened opened₀ : Option O} {interval dur : Duration}
    (hspawn : .resumeTimer dur playTime ∈
      ((Player.start ctx₀ g₀).handleServerMessage now₀ opened₀ (.unpause interval)).spawns)
    (h : Expiry now ctx g playTime msgs) :
    ¬Announced ctx g msgs ∧ msgs ≠ immediate now ctx g opened ∧
      Misreported ctx (Player.start ctx₀ g₀).currentPlayTime msgs := by
  have hnot : ¬Announced ctx g msgs := h.misreported.not_announced
  have hplayTime : playTime = (Player.start ctx₀ g₀).currentPlayTime := by
    by_cases hzero : interval = 0
    · -- An immediate unpause starts no timer.
      subst hzero
      have hnone : .resumeTimer dur playTime ∈ ((Player.start ctx₀ g₀).onUnpause now₀ 0).spawns :=
        hspawn
      rw [Player.spawns_onUnpause_zero] at hnone
      exact absurd hnone List.not_mem_nil
    · have hone : .resumeTimer dur playTime ∈
          ((Player.start ctx₀ g₀).onUnpause now₀ interval).spawns := hspawn
      rw [Player.spawns_onUnpause hzero] at hone
      cases List.mem_singleton.1 hone
      rfl
  refine ⟨hnot, ?_, hplayTime ▸ h.misreported⟩
  intro hsame
  rw [hsame] at hnot
  exact hnot (announced_immediate opened)

end Messages

/-! ## An example -/

/-- A stream that has been paused one second after its start. -/
def pausedAtOne : PlayerContext PulseOutput :=
  { output :=
      some
        { playing :=
            some
              { format := .mp3
                pcmsamplesize := .selfDescribing
                pcmsamplerate := .selfDescribing
                pcmchannels := .selfDescribing
                origin := 0 }
          nextUp := none
          corked := true
          time := Duration.fromSecs 1 }
    serverDefaultIp := .new 10 0 0 1
    name := "vibe"
    startTime := 0 }

/-- What the server is told when the timer of an unpause in five seconds expires. -/
def toldAtFive : List ClientMessage :=
  let done := (Player.start pausedAtOne .new).handlePlayerMessage (Duration.fromSecs 5) .unpause
  done.sends.filterMap Send.toServer? ++
    [(resumeReport (Duration.fromSecs 5) done.globals (Duration.fromSecs 1)).1]

theorem not_announced_of_expiry_pausedAtOne :
    ¬Announced pausedAtOne .new toldAtFive ∧
      toldAtFive ≠ immediate (Duration.fromSecs 5) pausedAtOne .new none ∧
      Misreported pausedAtOne (Duration.fromSecs 1) toldAtFive := by
  have hspawn : .resumeTimer (Duration.fromSecs 5) (Duration.fromSecs 1) ∈
      ((Player.start pausedAtOne .new).handleServerMessage 0 none
        (.unpause (Duration.fromSecs 5))).spawns := List.mem_singleton_self _
  have hexpiry : Expiry (Duration.fromSecs 5) pausedAtOne .new (Duration.fromSecs 1) toldAtFive :=
    .handledFirst rfl
  exact not_announced_of_expiry hspawn hexpiry

theorem not_announced_pausedAtOne :
    Expiry (Duration.fromSecs 5) pausedAtOne .new (Duration.fromSecs 1) toldAtFive ∧
      ¬Announced pausedAtOne .new toldAtFive := by
  refine ⟨.handledFirst rfl, ?_⟩
  rintro ⟨hresumed, _⟩
  rcases hresumed ⟨_, rfl, rfl⟩ with ⟨status, hone, _⟩
  have htwo : toldAtFive.length = 2 := rfl
  rw [hone] at htwo
  cases htwo

end Vibe
end LmsPlayer
