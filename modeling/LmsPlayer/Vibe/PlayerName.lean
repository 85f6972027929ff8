import LmsPlayer.Vibe.Redirect
import LmsPlayer.Vibe.PulseOutput

/-!
# Vibe.PlayerName — what a Queryname is answered with

The name of the player is in the context of a pass.  A Setname changes it there; the next pass of
the reconnect loop begins with the name of the command line and the host name again.

As long as these two make the name that the player has by then (`KeepsName`), a Queryname is
answered with the name of the last Setname of the run.
-/

namespace LmsPlayer
namespace Vibe

open LmsProto
open TransitionSystem (System)

def newNameOf : ServerMessage → Option String
  | .setname newName => some newName
  | _ => none

namespace LogEntry

def newName? : LogEntry → Option String
  | handled _ receipt _ _ => newNameOf receipt.msg
  | _ => none

/-- If the entry is about a Queryname, that has been answered with `name`. -/
def AnsweredWith (name : String) : LogEntry → Prop
  | handled _ receipt sends _ =>
      receipt.msg = .queryname → sends = [.toServer (.name name)]
  | _ => True

theorem newName?_of_not_byMain {e : LogEntry} (h : ¬e.ByMain) : e.newName? = none := by
  cases e with
  | handled now receipt sends spawns => exact absurd trivial h
  | _ => rfl

theorem answeredWith_of_not_byMain {e : LogEntry} (h : ¬e.ByMain) (name : String) :
    e.AnsweredWith name := by
  cases e with
  | handled now receipt sends spawns => exact absurd trivial h
  | _ => trivial

end LogEntry

/-- The name of the last Setname, or `name` if there was none. -/
def lastName (name : String) (log : List LogEntry) : String :=
  log.foldl (fun name e => e.newName?.getD name) name

/-- Every Queryname has been answered with the name of the last Setname before it, or with
`name`. -/
def NamesAnswered : String → List LogEntry → Prop
  | _, [] => True
  | name, e :: log => e.AnsweredWith name ∧ NamesAnswered (e.newName?.getD name) log

theorem lastName_append (name : String) (log entries : List LogEntry) :
    lastName name (log ++ entries) = lastName (lastName name log) entries :=
  List.foldl_append

theorem namesAnswered_append {name : String} {log entries : List LogEntry} :
    NamesAnswered name (log ++ entries) ↔
      NamesAnswered name log ∧ NamesAnswered (lastName name log) entries := by
  induction log generalizing name with
  | nil => exact (and_iff_right trivial).symm
  | cons e log ih =>
      calc
        e.AnsweredWith name ∧ NamesAnswered (e.newName?.getD name) (log ++ entries)
            ↔ e.AnsweredWith name ∧ NamesAnswered (e.newName?.getD name) log ∧
                NamesAnswered (lastName (e.newName?.getD name) log) entries := by rw [ih]
        _ ↔ (e.AnsweredWith name ∧ NamesAnswered (e.newName?.getD name) log) ∧
              NamesAnswered (lastName (e.newName?.getD name) log) entries := and_assoc.symm

theorem namesAnswered_of_not_byMain {entries : List LogEntry} (h : ∀ e ∈ entries, ¬e.ByMain)
    (name : String) : NamesAnswered name entries ∧ lastName name entries = name := by
  induction entries with
  | nil => exact ⟨trivial, rfl⟩
  | cons e entries ih =>
      have hrest := ih fun e' he' => h e' (List.mem_cons_of_mem _ he')
      have hsame : e.newName?.getD name = name := by
        rw [LogEntry.newName?_of_not_byMain (h e (List.mem_cons_self ..))]
        rfl
      have hanswered := LogEntry.answeredWith_of_not_byMain (h e (List.mem_cons_self ..)) name
      constructor
      · refine ⟨hanswered, ?_⟩
        rw [hsame]
        exact hrest.1
      · calc
          lastName name (e :: entries) = lastName (e.newName?.getD name) entries := rfl
          _ = lastName name entries := by rw [hsame]
          _ = name := hrest.2

/-! ## The handlers -/

namespace Player

variable {O : Type} [AudioOutput O] {now : Instant} {ctx : PlayerContext O} {g : Globals}

/-- Only a Setname changes the name. -/
theorem name_handleServerMessage (opened : Option O) (msg : ServerMessage) :
    ((Player.start ctx g).handleServerMessage now opened msg).ctx.name =
      (newNameOf msg).getD ctx.name := by
  cases msg with
  | pause interval => exact aside_name.onPause (fun _ _ => rfl) _ interval
  | unpause interval => exact aside_name.onUnpause (fun _ _ => rfl) _ interval
  | stream fields => exact aside_name.onStream (fun _ _ => rfl) _ fields
  | enable spdif dac => exact aside_name.onEnable _ opened spdif dac
  | _ => rfl

theorem name_handlePlayerMessage (msg : PlayerMsg) :
    ((Player.start ctx g).handlePlayerMessage now msg).ctx.name = ctx.name := by
  cases msg with
  | drained => exact aside_name.onDrained _
  | unpause => exact aside_name.onPlayerUnpause _
  | decoder decoder params =>
      show ((Player.start ctx g).onDecoder decoder params).ctx.name = ctx.name
      unfold onDecoder
      cases (Player.start ctx g).ctx.output <;> rfl
  | _ => rfl

end Player

/-! ## Runs -/

/-- The program, started at the instant `now` on the host `hostname`. -/
def systemFrom (O : Type) [AudioOutput O] (cfg : Config) (now : Instant)
    (hostname : Option String) :
    System (Process O) :=
  { init := fun s => s = Process.start cfg now hostname
    step := Step cfg }

/-- If the step begins a pass with the host name that has been looked up, `--name` and that host
name make the name the player has. -/
def KeepsName {O : Type} (cfg : Config) (s t : Process O) : Prop :=
  ∀ hostname, s.current < t.current →
    t.pass = Pass.start cfg s.now (cfg.playerName hostname) s.reconnect →
    cfg.playerName hostname = s.pass.ctx.name

namespace Process

variable {O : Type} {s : Process O} {name : String}

/-- The player, started with `name`, has the name of the last Setname. -/
structure Named (name : String) (s : Process O) : Prop where
  name_eq : s.pass.ctx.name = lastName name s.log
  answered : NamesAnswered name s.log

/-- The step has made an entry. -/
theorem Named.record_singleton (hs : s.Named name) {t : Process O} {e : LogEntry}
    (hlog : t.log = s.log) (hname : t.pass.ctx.name = e.newName?.getD s.pass.ctx.name)
    (hanswered : e.AnsweredWith s.pass.ctx.name) : (t.record [e]).Named name := by
  refine ⟨?_, ?_⟩
  · show t.pass.ctx.name = lastName name (t.log ++ [e])
    rw [hlog, lastName_append, ← hs.name_eq, hname]
    rfl
  · show NamesAnswered name (t.log ++ [e])
    rw [hlog, namesAnswered_append, ← hs.name_eq]
    exact ⟨hs.answered, hanswered, trivial⟩

/-- The step has made no entry about a Setname or a Queryname. -/
theorem Named.record_other (hs : s.Named name) {t : Process O} {entries : List LogEntry}
    (hlog : t.log = s.log) (hname : t.pass.ctx.name = s.pass.ctx.name)
    (hentries : ∀ name, NamesAnswered name entries ∧ lastName name entries = name) :
    (t.record entries).Named name := by
  refine ⟨?_, ?_⟩
  · show t.pass.ctx.name = lastName name (t.log ++ entries)
    rw [hlog, lastName_append, (hentries _).2, hname]
    exact hs.name_eq
  · show NamesAnswered name (t.log ++ entries)
    rw [hlog, namesAnswered_append]
    exact ⟨hs.answered, (hentries _).1⟩

end Process

section Main

variable {O : Type} [AudioOutput O] {cfg : Config} {s t : Process O} {entries : List LogEntry}
  {name : String}

theorem named_of_mainStep (hs : s.Named name) (h : MainStep cfg s t entries)
    (hok : KeepsName cfg s (t.record entries)) : (t.record entries).Named name := by
  have hplayer : s.player = Player.start s.pass.ctx s.globals := rfl
  have hnone : ∀ name, NamesAnswered name [] ∧ lastName name [] = name := fun _ => ⟨trivial, rfl⟩
  have hsame : ∀ p : Pass O, (s.setPass s.current p).pass.ctx.name = p.ctx.name :=
    fun p => congrArg (fun q : Pass O => q.ctx.name) (Process.setPass_passes_self ..)
  cases h with
  | serverMessage opened hmain hqueue hdone =>
      rename_i receipt rest done
      rw [hplayer] at hdone
      subst hdone
      refine hs.record_singleton rfl ?_ ?_
      · exact (hsame _).trans (Player.name_handleServerMessage opened receipt.msg)
      · intro hmsg
        rw [hmsg]
        rfl
  | playerMessage hmain hqueue hdone =>
      rw [hplayer] at hdone
      subst hdone
      refine hs.record_singleton rfl ?_ trivial
      exact (hsame _).trans (Player.name_handlePlayerMessage _)
  | timeout hmain hserver hstream hdone =>
      subst hdone
      exact hs.record_singleton rfl (hsame _) trivial
  | sendToServer hmain hsend => exact hs.record_other rfl (hsame _) hnone
  | sendToSelf hmain hsend => exact hs.record_other rfl (hsame _) hnone
  | lost hmain hqueue => exact hs.record_singleton rfl (hsame _) trivial
  | disconnected hmain hqueue hended => exact hs.record_other rfl rfl hnone
  | bye hmain hsend => exact hs.record_other rfl (hsame _) hnone
  | restart hostname hmain =>
      -- This is where the name is made anew.
      have hstart := Process.setPass_passes_self (s.setPass s.current s.pass.detach) (s.current + 1)
        (Pass.start cfg s.now (cfg.playerName hostname) s.reconnect)
      have hname := hok hostname (Nat.lt_succ_self _) hstart
      exact hs.record_other rfl ((congrArg (fun p => p.ctx.name) hstart).trans hname) hnone

/-- Only the restart goes on to another pass. -/
theorem keepsName_of_mainStep (h : MainStep cfg s t entries) (hmain : s.main ≠ .leaving) :
    KeepsName cfg s (t.record entries) := by
  intro hostname hnext
  cases h with
  | restart hostname hleaving => exact absurd hleaving hmain
  | _ => exact absurd hnext (Nat.lt_irrefl _)

omit [AudioOutput O] in
theorem Pass.name_of_threadStep {k : Nat} {now : Instant} {g g' : Globals} {p p' : Pass O}
    (h : ThreadStep cfg k now g p g' p' entries) : p'.ctx.name = p.ctx.name := by
  obtain ⟨output, hctx⟩ := ctx_of_threadStep h
  rw [hctx]

/-- **A Queryname is answered with the name of the last Setname**, or with the start-up name if
there was none, in every run in which `--name` and the host name, whenever a new pass looks it up,
make the name the player has. -/
theorem namesAnswered {now : Instant} {hostname : Option String}
    (h : ((systemFrom O cfg now hostname).restrict (KeepsName cfg)).Reachable s) :
    NamesAnswered (cfg.playerName hostname) s.log := by
  have hnamed : s.Named (cfg.playerName hostname) := by
    refine System.Reachable.invariant (Process.Named (cfg.playerName hostname)) ?_ ?_ h
    · rintro s rfl
      exact ⟨rfl, trivial⟩
    · rintro s t _ hs ⟨hstep, hok⟩
      cases hstep with
      | main hmoved => exact named_of_mainStep hs hmoved hok
      | @thread k g' p' entries hrun hk hmoved =>
          -- Neither the name nor the Setnames and Querynames in the record are a thread's.
          refine hs.record_other rfl ?_
            (namesAnswered_of_not_byMain (not_byMain_of_threadStep hmoved))
          refine Process.setPass_induction (P := fun q => q.ctx.name = s.pass.ctx.name) ?_ rfl
          intro hname
          exact (Pass.name_of_threadStep hmoved).trans hname
      | tick d => exact ⟨hs.name_eq, hs.answered⟩
  exact hnamed.answered

end Main

/-! ## Two runs -/

theorem forall_onWire_names {msgs : List ServerMessage}
    (h : ∀ msg ∈ msgs, (∃ newName, msg = .setname newName) ∨ msg = .queryname) :
    ∀ msg ∈ msgs, msg.OnWire := by
  refine forall_onWire msgs ?_
  intro msg hmsg
  rcases h msg hmsg with ⟨newName, rfl⟩ | rfl
  · exact trivial
  · exact trivial

/-- The connection is lost and made again; then the player is given a name and asked for it. -/
theorem namesAnswered_kitchen : ∃ s : Process PulseOutput,
    ((systemFrom PulseOutput cliConfig 0 none).restrict (KeepsName cliConfig)).Reachable s ∧
      s.current = 1 ∧
      s.main = .loop [.toServer (.name "Kitchen")] ∧ NamesAnswered "Vibe" s.log := by
  have hthread : ∀ {s : Process PulseOutput} {k : Nat} {g' : Globals} {p' : Pass PulseOutput}
      {entries : List LogEntry}, s.main ≠ .exited → k ≤ s.current →
      ThreadStep cliConfig k s.now s.globals (s.passes k) g' p' entries →
      ((systemFrom PulseOutput cliConfig 0 none).restrict (KeepsName cliConfig)).step s
        ({ s.setPass k p' with globals := g' }.record entries) :=
    fun hrun hk h => ⟨.thread hrun hk h, fun _ hnext => absurd hnext (Nat.lt_irrefl _)⟩
  have hloop : ∀ {s t : Process PulseOutput} {entries : List LogEntry},
      MainStep cliConfig s t entries → s.main ≠ .leaving →
      ((systemFrom PulseOutput cliConfig 0 none).restrict (KeepsName cliConfig)).step s
        (t.record entries) :=
    fun h hmain => ⟨.main h, keepsName_of_mainStep h hmain⟩
  have h0 : ((systemFrom PulseOutput cliConfig 0 none).restrict (KeepsName cliConfig)).Reachable
      (Process.start cliConfig 0 none) := .init rfl
  have h1 := reachable_of_threadRun h0 hthread nofun (le_refl 0)
    (.cons (.proto (.hello rfl)) <|
      .cons (.proto (.takeCli rfl rfl rfl)) <|
      .cons (.proto (.connect rfl)) <|
      .cons (.proto (.lost rfl)) <|
      .cons (.proto (.lose rfl (.queued rfl (by decide)))) .nil)
  have h2 := h1.step (hloop (.lost rfl rfl) nofun)
  have h3 := h2.step (hloop (.bye rfl (.queued (Or.inr nofun) (by decide))) nofun)
  -- The host name is what it was.
  have h4 := h3.step ⟨.main (.restart none rfl), fun _ _ hstart =>
    (congrArg (fun p : Pass PulseOutput => p.ctx.name) hstart).symm⟩
  have h5 := reachable_of_threadRun h4 hthread nofun (le_refl 1)
    (.cons (.proto (.hello rfl)) <|
      .cons (.proto (.takeCli rfl rfl rfl)) <|
      .cons (.proto (.connect rfl)) <|
      .cons (.proto (.received [.setname "Kitchen", .queryname] rfl
        (forall_onWire_names (by simp)))) <|
      .cons (.proto (.forward rfl id (.queued rfl (by decide)))) .nil)
  have h6 := h5.step (hloop (.serverMessage none rfl rfl rfl) nofun)
  have h7 := reachable_of_threadRun h6 hthread nofun (le_refl 1)
    (.cons (.proto (.forward rfl id (.queued rfl (by decide)))) .nil)
  have h8 := h7.step (hloop (.serverMessage none rfl rfl rfl) nofun)
  exact ⟨_, h8, rfl, rfl, namesAnswered h8⟩

/-- The player is given a name, and answers with its old one when the connection has been made
again. -/
theorem not_namesAnswered_kitchen : ∃ s : Process PulseOutput,
    (systemFrom PulseOutput cliConfig 0 none).Reachable s ∧ ¬NamesAnswered "Vibe" s.log := by
  have h0 : (systemFrom PulseOutput cliConfig 0 none).Reachable (Process.start cliConfig 0 none) :=
    .init rfl
  have h1 := reachable_of_threadRun h0 Step.thread nofun (le_refl 0)
    (.cons (.proto (.hello rfl)) <|
      .cons (.proto (.takeCli rfl rfl rfl)) <|
      .cons (.proto (.connect rfl)) <|
      .cons (.proto (.received [.setname "Kitchen"] rfl (forall_onWire_names (by simp)))) <|
      .cons (.proto (.forward rfl id (.queued rfl (by decide)))) .nil)
  -- The Setname has been handled; now the connection is lost.
  have h2 := h1.step (.main (.serverMessage none rfl rfl rfl))
  have h3 := reachable_of_threadRun h2 Step.thread nofun (le_refl 0)
    (.cons (.proto (.batchDone rfl)) <|
      .cons (.proto (.lost rfl)) <|
      .cons (.proto (.lose rfl (.queued rfl (by decide)))) .nil)
  have h4 := h3.step (.main (.lost rfl rfl))
  have h5 := h4.step (.main (.bye rfl (.queued (Or.inr nofun) (by decide))))
  have h6 := h5.step (.main (.restart none rfl))
  have h7 := reachable_of_threadRun h6 Step.thread nofun (le_refl 1)
    (.cons (.proto (.hello rfl)) <|
      .cons (.proto (.takeCli rfl rfl rfl)) <|
      .cons (.proto (.connect rfl)) <|
      .cons (.proto (.received [.queryname] rfl (forall_onWire_names (by simp)))) <|
      .cons (.proto (.forward rfl id (.queued rfl (by decide)))) .nil)
  have h8 := h7.step (.main (.serverMessage none rfl rfl rfl))
  refine ⟨_, h8, ?_⟩
  intro hanswered
  have hlast := (namesAnswered_append.1 hanswered).2.1 rfl
  exact absurd hlast (by decide)

end Vibe
end LmsPlayer
