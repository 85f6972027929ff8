import LmsPlayer.Vibe.Redirect

/-!
# Vibe.Clocks — the clock of the reports and the clock of the timed unpauses

The jiffies of a status report count from the creation of `STATUS`, which happens once.  A timed
unpause goes by the time since `start_time`, which every pass of the reconnect loop sets anew.  So
the two clocks differ by an offset (`Process.offset`) that is fixed within a pass, and is another
one after each reconnect.
-/

namespace LmsPlayer
namespace Vibe

open LmsProto
open Channel (Sends)
open TransitionSystem (System)

/-! ## What moves the clocks -/

namespace Pass

variable {O : Type} {cfg : Config} {k : Nat} {now : Instant} {g g' : Globals} {p p' : Pass O}
  {entries : List LogEntry}

theorem keeps_of_threadStep (h : ThreadStep cfg k now g p g' p' entries) : g.Keeps now g' := by
  cases h with
  | proto h =>
      cases h with
      | hello hpc => exact Globals.keeps_of_start_eq rfl rfl
      | _ => exact .refl now g
  | writer h => exact .refl now g
  | connect h =>
      cases h with
      | createBuffer hpc hthread => exact Globals.keeps_of_start_eq rfl rfl
      | _ => exact .refl now g
  | timer h =>
      cases h with
      | report hthread => exact Globals.keeps_of_start_eq rfl rfl
      | _ => exact .refl now g
  | backend h =>
      cases h with
      | fullness | received | report => exact Globals.keeps_of_start_eq rfl rfl
      | takeSkip => exact Or.inl rfl
      | _ => exact .refl now g

theorem startTime_of_threadStep (h : ThreadStep cfg k now g p g' p' entries) :
    p'.ctx.startTime = p.ctx.startTime := by
  obtain ⟨output, hctx⟩ := ctx_of_threadStep h
  rw [hctx]

/-- The slim-proto thread has not looked at `STATUS` yet, and has nothing for the event loop. -/
def Dormant (p : Pass O) : Prop := p.proto.phase = .top ∧ p.toMain = []

/-- The first thing the slim-proto thread does is to look at `STATUS`. -/
theorem dormant_of_threadStep (h : ThreadStep cfg k now g p g' p' entries)
    (hnone : g'.createdAt = none) (hp : p.Dormant) : p'.Dormant := by
  rcases hp with ⟨hphase, htoMain⟩
  rcases protoStep_or_frame h with hproto | ⟨hproto, hsame⟩
  · cases hproto with
    | hello hpc => cases hnone
    | _ => simp_all only [reduceCtorEq]
  · exact ⟨by rw [hproto]; exact hphase, hsame.trans htoMain⟩

end Pass

section Main

variable {O : Type} {cfg : Config} {s t : Process O} {entries : List LogEntry}

/-- Nobody moves `start_time` of a pass, once it is made. -/
theorem startTime_of_setPass {j : Nat} {p : Pass O}
    (hp : p.ctx.startTime = (s.passes j).ctx.startTime) (k : Nat) :
    ((s.setPass j p).passes k).ctx.startTime = (s.passes k).ctx.startTime := by
  refine Process.setPass_induction
    (P := fun q => q.ctx.startTime = (s.passes k).ctx.startTime) ?_ rfl
  intro hk
  exact hp.trans hk

variable [AudioOutput O]

theorem keeps_of_mainStep (hwired : s.pass.Wired cfg s.current) (h : MainStep cfg s t entries) :
    s.globals.Keeps s.now t.globals := by
  cases h with
  | serverMessage opened hmain hqueue hdone =>
      subst hdone
      exact (handled_of_serverMessage hwired opened hqueue).keeps
  | playerMessage hmain hqueue hdone =>
      subst hdone
      exact (s.handled_player.handlePlayerMessage _).keeps
  | timeout hmain hserver hstream hdone =>
      subst hdone
      exact s.handled_player.onTimeout.keeps
  | _ => exact .refl s.now s.globals

theorem startTime_of_mainStep (hwired : s.pass.Wired cfg s.current)
    (h : MainStep cfg s t entries) {k : Nat} (hk : k ≤ s.current) :
    (t.passes k).ctx.startTime = (s.passes k).ctx.startTime := by
  cases h with
  | serverMessage opened hmain hqueue hdone =>
      subst hdone
      exact startTime_of_setPass (handled_of_serverMessage hwired opened hqueue).startTime k
  | playerMessage hmain hqueue hdone =>
      subst hdone
      exact startTime_of_setPass (s.handled_player.handlePlayerMessage _).startTime k
  | timeout hmain hserver hstream hdone =>
      subst hdone
      refine startTime_of_setPass ?_ k
      exact s.handled_player.onTimeout.startTime
  | disconnected hmain hqueue hended => rfl
  | restart hostname hmain =>
      have hne : k ≠ s.current + 1 := Nat.ne_of_lt (Nat.lt_succ_of_le hk)
      dsimp only
      rw [Process.setPass_passes_of_ne _ _ hne]
      refine startTime_of_setPass ?_ k
      rfl
  | _ =>
      refine startTime_of_setPass ?_ k
      rfl

/-- While the slim-proto thread of the pass is dormant, so is `main` as far as that thread is
concerned. -/
theorem dormant_of_mainStep (h : MainStep cfg s t entries)
    (hs : ∀ k ≤ s.current, (s.passes k).Dormant) : ∀ k ≤ t.current, (t.passes k).Dormant := by
  have hcurrent : s.pass.Dormant := hs s.current le_rfl
  have hmoved : ∀ p : Pass O, p.Dormant →
      ∀ k ≤ s.current, ((s.setPass s.current p).passes k).Dormant := by
    intro p hp k hk
    exact Process.setPass_induction (fun _ => hp) (hs k hk)
  cases h with
  | serverMessage opened hmain hqueue hdone =>
      rw [hcurrent.2] at hqueue
      cases hqueue
  | lost hmain hqueue =>
      rw [hcurrent.2] at hqueue
      cases hqueue
  | disconnected hmain hqueue hended => exact hs
  | restart hostname hmain =>
      intro k hk
      by_cases hnext : k = s.current + 1
      · subst hnext
        dsimp only
        rw [Process.setPass_passes_self]
        exact ⟨rfl, rfl⟩
      · have hold : k ≤ s.current := Nat.le_of_lt_succ (lt_of_le_of_ne hk hnext)
        dsimp only
        rw [Process.setPass_passes_of_ne _ _ hnext]
        exact hmoved s.pass.detach ⟨hcurrent.1, rfl⟩ k hold
  | _ => exact hmoved _ hcurrent

theorem current_le_of_step (h : Step cfg s t) : s.current ≤ t.current := by
  cases h with
  | main hmoved =>
      cases hmoved with
      | restart hostname hmain => exact Nat.le_succ _
      | _ => exact le_rfl
  | thread hrun hk hmoved => exact le_rfl
  | tick d => exact le_rfl

theorem keeps_of_step (hs : (system O cfg).Reachable s) (h : Step cfg s t) :
    s.globals.Keeps s.now t.globals := by
  cases h with
  | main hmoved =>
      have hkept := keeps_of_mainStep (wired hs _) hmoved
      exact hkept
  | thread hrun hk hmoved => exact Pass.keeps_of_threadStep hmoved
  | tick d => exact .refl s.now s.globals

theorem startTime_of_step (hs : (system O cfg).Reachable s) (h : Step cfg s t) {k : Nat}
    (hk : k ≤ s.current) : (t.passes k).ctx.startTime = (s.passes k).ctx.startTime := by
  cases h with
  | main hmoved =>
      have hkept := startTime_of_mainStep (wired hs _) hmoved hk
      exact hkept
  | thread hrun hj hmoved => exact startTime_of_setPass (Pass.startTime_of_threadStep hmoved) k
  | tick d => rfl

/-! ## The clocks of a state -/

/-- Until `STATUS` is created, nothing has come from a server, and no clock is ahead of the time. -/
structure Process.Clocked (s : Process O) : Prop where
  dormant : s.globals.createdAt = none → ∀ k ≤ s.current, (s.passes k).Dormant
  created : ∀ created, s.globals.createdAt = some created → created ≤ s.now
  started : ∀ k ≤ s.current, (s.passes k).ctx.startTime ≤ s.now

theorem now_le_of_step (h : Step cfg s t) : s.now ≤ t.now := by
  cases h with
  | main hmoved => cases hmoved <;> exact le_rfl
  | thread hrun hk hmoved => exact le_rfl
  | tick d => exact Nat.le_add_right s.now d

theorem dormant_of_step (h : Step cfg s t) (hnone : t.globals.createdAt = none)
    (hs : ∀ k ≤ s.current, (s.passes k).Dormant) : ∀ k ≤ t.current, (t.passes k).Dormant := by
  cases h with
  | main hmoved =>
      have hkept := dormant_of_mainStep hmoved hs
      exact hkept
  | thread hrun hj hmoved =>
      intro k hk
      exact Process.setPass_induction (Pass.dormant_of_threadStep hmoved hnone) (hs k hk)
  | tick d => exact hs

/-- A new pass starts its clock. -/
theorem startTime_of_new (h : Step cfg s t) {k : Nat} (hold : s.current < k) (hk : k ≤ t.current) :
    (t.passes k).ctx.startTime = s.now := by
  cases h with
  | main hmoved =>
      cases hmoved with
      | restart hostname hmain =>
          have hnext : k = s.current + 1 := le_antisymm hk hold
          subst hnext
          show (((s.setPass _ _).setPass (s.current + 1) _).passes (s.current + 1)).ctx.startTime =
              _
          rw [Process.setPass_passes_self]
          rfl
      | _ => exact absurd hk (not_le_of_gt hold)
  | thread hrun hj hmoved => exact absurd hk (not_le_of_gt hold)
  | tick d => exact absurd hk (not_le_of_gt hold)

theorem clocked (h : (system O cfg).Reachable s) : s.Clocked := by
  refine System.Reachable.invariant Process.Clocked ?_ ?_ h
  · rintro s ⟨now, hostname, rfl⟩
    refine ⟨fun _ k _ => ⟨rfl, rfl⟩, ?_, fun k _ => le_rfl⟩
    intro created hcreated
    cases hcreated
  · intro s t hs ih hstep
    have hkeeps := keeps_of_step hs hstep
    have hnow := now_le_of_step hstep
    refine ⟨?_, ?_, ?_⟩
    · intro hnone
      refine dormant_of_step hstep hnone (ih.dormant ?_)
      -- `STATUS` does not go away again.
      cases hold : s.globals.createdAt with
      | none => rfl
      | some created =>
          have hkept := hkeeps.createdAt_eq_some hold
          rw [hnone] at hkept
          cases hkept
    · intro created hcreated
      rcases hkeeps with hsame | ⟨_, hnew⟩
      · exact le_trans (ih.created created (hsame.symm.trans hcreated)) hnow
      · rw [hnew] at hcreated
        cases hcreated
        exact hnow
    · intro k hk
      by_cases hold : k ≤ s.current
      · rw [startTime_of_step hs hstep hold]
        exact le_trans (ih.started k hold) hnow
      · rw [startTime_of_new hstep (not_le.1 hold) hk]
        exact hnow

/-! ## The record -/

/-- The message has been sent by a handler that has run at the instant `now`. -/
def LogEntry.Sent (now : Instant) (msg : Send) : LogEntry → Prop
  | handled now' _ sends _ => now' = now ∧ msg ∈ sends
  | handledPlayer now' _ _ sends _ => now' = now ∧ msg ∈ sends
  | timeout now' _ sends => now' = now ∧ msg ∈ sends
  | _ => False

/-- A timed unpause has started its timer at the instant `now`, by the clock of a pass that was
started at `startTime`. -/
def Scheduled (now startTime : Instant) (interval : Duration) (spawns : List Spawn) : Prop :=
  ∃ playTime, spawns = [.resumeTimer (interval - (now - startTime)) playTime]

/-- What the record says about the clocks. -/
structure Process.Timed (s : Process O) : Prop where
  reports : ∀ entry ∈ s.log, ∀ now code status, entry.Sent now (.toServer (.stat code status)) →
    s.globals.createdAt = some status.start ∧ status.jiffies = now - status.start
  unpauses : ∀ now receipt sends spawns, LogEntry.handled now receipt sends spawns ∈ s.log →
    ∀ interval, receipt.msg = .unpause interval → 0 < interval →
      receipt.conn.pass ≤ s.current ∧ (s.passes receipt.conn.pass).ctx.startTime ≤ now ∧
        Scheduled now (s.passes receipt.conn.pass).ctx.startTime interval spawns ∧
        ∃ created ≤ now, s.globals.createdAt = some created

theorem LogEntry.Sent.byMain {e : LogEntry} {now : Instant} {msg : Send} (h : e.Sent now msg) :
    e.ByMain := by
  cases e with
  | handled now' receipt sends spawns => exact trivial
  | handledPlayer now' pass msg sends enqueued => exact trivial
  | timeout now' pass sends => exact trivial
  | _ => exact h.elim

/-- The reports of a handler go by the clock of `STATUS`. -/
theorem reports_of_mainStep (hwired : s.pass.Wired cfg s.current) (h : MainStep cfg s t entries)
    {e : LogEntry} (he : e ∈ entries) {now : Instant} {code : String} {status : StatusData}
    (hsent : e.Sent now (.toServer (.stat code status))) :
    t.globals.createdAt = some status.start ∧ status.jiffies = now - status.start := by
  cases h with
  | serverMessage opened hmain hqueue hdone =>
      cases List.mem_singleton.1 he
      subst hdone
      rcases hsent with ⟨rfl, hmem⟩
      exact ((handled_of_serverMessage hwired opened hqueue).reports code status hmem).symm
  | playerMessage hmain hqueue hdone =>
      cases List.mem_singleton.1 he
      subst hdone
      rcases hsent with ⟨rfl, hmem⟩
      exact ((s.handled_player.handlePlayerMessage _).reports code status hmem).symm
  | timeout hmain hserver hstream hdone =>
      cases List.mem_singleton.1 he
      subst hdone
      rcases hsent with ⟨rfl, hmem⟩
      exact (s.handled_player.onTimeout.reports code status hmem).symm
  | lost hmain hqueue =>
      cases List.mem_singleton.1 he
      exact hsent.elim
  | _ => exact absurd he List.not_mem_nil

/-- A timed unpause goes by the clock of the pass that handles it. -/
theorem scheduled_of_handledReceipt {now : Instant} {receipt : Receipt} {sends : List Send}
    {spawns : List Spawn} (h : HandledReceipt s now receipt sends spawns) {interval : Duration}
    (hmsg : receipt.msg = .unpause interval) (hpos : 0 < interval) :
    Scheduled now s.pass.ctx.startTime interval spawns := by
  rcases h.done with ⟨opened, _, hspawns⟩
  rw [hmsg] at hspawns
  rw [h.now]
  exact ⟨_, hspawns.trans (Player.spawns_onUnpause (Nat.ne_of_gt hpos))⟩

theorem timed (h : (system O cfg).Reachable s) : s.Timed := by
  refine System.Reachable.invariant Process.Timed ?_ ?_ h
  · rintro s ⟨now, hostname, rfl⟩
    exact ⟨fun _ hentry => absurd hentry List.not_mem_nil,
      fun _ _ _ _ hmem => absurd hmem List.not_mem_nil⟩
  · intro s t hs ih hstep
    have hkeeps := keeps_of_step hs hstep
    have hcurrent := current_le_of_step hstep
    refine ⟨?_, ?_⟩
    · intro e he now code status hsent
      rcases hstep.mem_log he hsent.byMain with hold | ⟨u, entries, hmoved, rfl, hnew⟩
      · rcases ih.reports e hold now code status hsent with ⟨hcreated, hjiffies⟩
        exact ⟨hkeeps.createdAt_eq_some hcreated, hjiffies⟩
      · exact reports_of_mainStep (wired hs _) hmoved hnew hsent
    · intro now receipt sends spawns hmem interval hmsg hpos
      rcases hstep.mem_log hmem trivial with hold | ⟨u, entries, hmoved, rfl, hnew⟩
      · rcases ih.unpauses now receipt sends spawns hold interval hmsg hpos with
          ⟨hpass, hstart, hscheduled, created, hle, hcreated⟩
        rw [startTime_of_step hs hstep hpass]
        exact ⟨le_trans hpass hcurrent, hstart, hscheduled, created, hle,
          hkeeps.createdAt_eq_some hcreated⟩
      · have hhandled := handled_of_mainStep hmoved hnew
        have hclocked := clocked hs
        rcases hhandled.queue with ⟨rest, hqueue⟩
        have hreceipt := (wired hs _).receipts _ (mem_toMain_of_cons hqueue).1 receipt rfl
        rw [hreceipt.1, startTime_of_step hs hstep le_rfl, hhandled.now]
        refine ⟨hcurrent, hclocked.started _ le_rfl, ?_, ?_⟩
        · have hscheduled := scheduled_of_handledReceipt hhandled hmsg hpos
          rw [hhandled.now] at hscheduled
          exact hscheduled
        · -- A message has come, so `STATUS` is there.
          cases hcreated : s.globals.createdAt with
          | none =>
              have hempty : s.pass.toMain = [] := (hclocked.dormant hcreated _ le_rfl).2
              rw [hempty] at hqueue
              cases hqueue
          | some created =>
              exact ⟨created, hclocked.created created hcreated, hkeeps.createdAt_eq_some hcreated⟩

/-! ## The offset -/

/-- By how much the clock of the timed unpauses of the pass `k` is ahead of the jiffies, when
`STATUS` was created at the instant `created`. -/
def Process.offset (s : Process O) (created : Instant) (k : Nat) : ℤ :=
  (created : ℤ) - (s.passes k).ctx.startTime

/-- The clocks of the passes made so far run on as they do. -/
theorem offset_of_steps (h : (system O cfg).Reachable s) (hrun : (system O cfg).Steps s t)
    {created : Instant} (hcreated : s.globals.createdAt = some created) :
    t.globals.createdAt = some created ∧
      ∀ k ≤ s.current, t.offset created k = s.offset created k := by
  have hkept : (system O cfg).Reachable t ∧ s.current ≤ t.current ∧
      t.globals.createdAt = some created ∧
      ∀ k ≤ s.current, t.offset created k = s.offset created k := by
    refine System.Steps.invariant (fun t => (system O cfg).Reachable t ∧ s.current ≤ t.current ∧
      t.globals.createdAt = some created ∧
      ∀ k ≤ s.current, t.offset created k = s.offset created k) hrun ?_ ?_
    · exact ⟨h, le_rfl, hcreated, fun k _ => rfl⟩
    · rintro a b ⟨ha, hcurrent, hcreated', hoffset⟩ hstep
      refine ⟨.step ha hstep, le_trans hcurrent (current_le_of_step hstep),
        (keeps_of_step ha hstep).createdAt_eq_some hcreated', ?_⟩
      intro k hk
      have hstart := startTime_of_step ha hstep (le_trans hk hcurrent)
      calc
        b.offset created k = a.offset created k := by
          unfold Process.offset
          rw [hstart]
        _ = s.offset created k := hoffset k hk
  exact hkept.2.2

/-- Every timed unpause has started one timer, whose delay is what remained of the interval by the
jiffies and the offset of the pass whose connection has brought the command. -/
def Process.DelayedBy (s : Process O) (offset : Instant → Nat → ℤ) : Prop :=
  ∀ now receipt sends spawns, LogEntry.handled now receipt sends spawns ∈ s.log →
    ∀ interval, receipt.msg = .unpause interval → 0 < interval →
      ∃ created dur playTime, s.globals.createdAt = some created ∧
        spawns = [.resumeTimer dur playTime] ∧
        (dur : ℤ) = max 0
          ((interval : ℤ) - (((now - created : ℕ) : ℤ) + offset created receipt.conn.pass))

/-- The delay in terms of the jiffies. -/
theorem delay_eq_max {now created startTime interval : ℕ} (hcreated : created ≤ now)
    (hstart : startTime ≤ now) :
    ((interval - (now - startTime) : ℕ) : ℤ) =
      max 0 ((interval : ℤ) - (((now - created : ℕ) : ℤ) + ((created : ℤ) - startTime))) := by
  have helapsed : ((now - startTime : ℕ) : ℤ) =
      ((now - created : ℕ) : ℤ) + ((created : ℤ) - startTime) := by
    rw [Nat.cast_sub hstart, Nat.cast_sub hcreated]
    ring
  rw [← helapsed]
  omega

/-- **The clocks of reports and timed unpauses**, in every reachable state.

* Once `STATUS` has been created, the instant of its creation and the offset of every pass made so
  far stay what they are, however the program goes on.
* The jiffies of a status report of the event loop are the time since the creation of `STATUS`.
* The delay of every timed unpause is what remains of its interval by the jiffies and the offset of
  the pass. -/
theorem delay_of_unpause (h : (system O cfg).Reachable s) :
    (∀ created, s.globals.createdAt = some created → ∀ t, (system O cfg).Steps s t →
      t.globals.createdAt = some created ∧
        ∀ k ≤ s.current, t.offset created k = s.offset created k) ∧
    (∀ entry ∈ s.log, ∀ now code status, entry.Sent now (.toServer (.stat code status)) →
      ∃ created, s.globals.createdAt = some created ∧ status.jiffies = now - created) ∧
    s.DelayedBy s.offset := by
  refine ⟨?_, ?_, ?_⟩
  · intro created hcreated t hrun
    exact offset_of_steps h hrun hcreated
  · intro entry hentry now code status hsent
    rcases (timed h).reports entry hentry now code status hsent with ⟨hcreated, hjiffies⟩
    exact ⟨status.start, hcreated, hjiffies⟩
  · intro now receipt sends spawns hmem interval hmsg hpos
    rcases (timed h).unpauses now receipt sends spawns hmem interval hmsg hpos with
      ⟨_, hstart, ⟨playTime, hspawns⟩, created, hle, hcreated⟩
    exact ⟨created, _, playTime, hcreated, hspawns, delay_eq_max hle hstart⟩

end Main

/-! ## A run -/

/-- A pass handles a request to resume five seconds after the creation of `STATUS`. -/
def resumeAtFive (now : Instant) (pass : Nat) : LogEntry :=
  .handled now
    { msg := .unpause (Duration.fromSecs 5)
      conn :=
        { pass := pass
          hops := 0
          sock := { ip := .new 10 0 0 1, port := SLIM_PORT } } }
    []
    [.resumeTimer (Duration.fromSecs 5) 0]

theorem onWire_resumeAtFive :
    ∀ msg ∈ [ServerMessage.unpause (Duration.fromSecs 5)], msg.OnWire :=
  forall_onWire _ (List.forall_mem_singleton.2 ⟨5000, by decide, rfl⟩)

/-- The server asks for it twice: at once, and again when it has the player back three seconds
later. -/
theorem exists_resumeAtFive : ∃ s : Process PulseOutput,
    (system PulseOutput cliConfig).Reachable s ∧ s.globals.createdAt = some 0 ∧ s.current = 1 ∧
      s.offset 0 0 = 0 ∧ s.offset 0 1 = -Duration.fromSecs 3 ∧
      resumeAtFive 0 0 ∈ s.log ∧ resumeAtFive (Duration.fromSecs 3) 1 ∈ s.log := by
  have h0 : (system PulseOutput cliConfig).Reachable (Process.start cliConfig 0 none) :=
    .init ⟨0, none, rfl⟩
  have h1 := reachable_of_threadRun h0 Step.thread nofun (le_refl 0)
    (.cons (.proto (.hello rfl)) <|
      .cons (.proto (.takeCli rfl rfl rfl)) <|
      .cons (.proto (.connect rfl)) <|
      .cons (.proto (.received [.unpause (Duration.fromSecs 5)] rfl onWire_resumeAtFive)) <|
      .cons (.proto (.forward rfl id (.queued rfl (by decide)))) .nil)
  have h2 := h1.step (.main (.serverMessage none rfl rfl rfl))
  -- The connection is lost, and the next pass begins three seconds later.
  have h3 := reachable_of_threadRun h2 Step.thread nofun (le_refl 0)
    (.cons (.proto (.batchDone rfl)) <|
      .cons (.proto (.lost rfl)) <|
      .cons (.proto (.lose rfl (.queued rfl (by decide)))) .nil)
  have h4 := h3.step (.main (.lost rfl rfl))
  have h5 := h4.step (.main (.bye rfl (.queued (Or.inr nofun) (by decide))))
  have h6 := h5.step (.tick (Duration.fromSecs 3))
  have h7 := h6.step (.main (.restart none rfl))
  have h8 := reachable_of_threadRun h7 Step.thread nofun (le_refl 1)
    (.cons (.proto (.hello rfl)) <|
      .cons (.proto (.takeCli rfl rfl rfl)) <|
      .cons (.proto (.connect rfl)) <|
      .cons (.proto (.received [.unpause (Duration.fromSecs 5)] rfl onWire_resumeAtFive)) <|
      .cons (.proto (.forward rfl id (.queued rfl (by decide)))) .nil)
  have h9 := h8.step (.main (.serverMessage none rfl rfl rfl))
  refine ⟨_, h9, rfl, rfl, rfl, rfl, ?_, ?_⟩
  · exact List.mem_of_getElem? (show _[2]? = _ from rfl)
  · exact List.mem_of_getElem? (show _[6]? = _ from rfl)

/-- In this run the offset changes with the pass. -/
theorem delay_of_unpause_resumeAtFive : ∃ s : Process PulseOutput,
    (system PulseOutput cliConfig).Reachable s ∧ s.offset 0 0 = 0 ∧
      s.offset 0 1 = -Duration.fromSecs 3 ∧ s.DelayedBy s.offset := by
  rcases exists_resumeAtFive with ⟨s, hs, _, _, hfirst, hsecond, _⟩
  exact ⟨s, hs, hfirst, hsecond, (delay_of_unpause hs).2.2⟩

/-- No offset is right for both passes, and none explains both delays. -/
theorem not_delayedBy_const : ∃ s : Process PulseOutput,
    (system PulseOutput cliConfig).Reachable s ∧
      (¬∃ c, ∀ created, s.globals.createdAt = some created → ∀ k ≤ s.current,
        s.offset created k = c) ∧
      ¬∃ c, s.DelayedBy fun _ _ => c := by
  rcases exists_resumeAtFive with ⟨s, hs, hcreated, hcurrent, hfirst, hsecond, hearly, hlate⟩
  refine ⟨s, hs, ?_, ?_⟩
  · rintro ⟨c, hc⟩
    have hzero := hc 0 hcreated 0 (Nat.zero_le _)
    have hone := hc 0 hcreated 1 (le_of_eq hcurrent.symm)
    rw [hfirst] at hzero
    rw [hsecond, ← hzero] at hone
    exact absurd hone (by decide)
  · rintro ⟨c, hc⟩
    rcases hc _ _ _ _ hearly _ rfl (by decide) with ⟨created, dur, playTime, hstatus, hspawns, hdur⟩
    rcases hc _ _ _ _ hlate _ rfl (by decide)
      with ⟨created', dur', playTime', hstatus', hspawns', hdur'⟩
    rw [hcreated] at hstatus hstatus'
    cases hstatus
    cases hstatus'
    cases hspawns
    cases hspawns'
    simp only [Duration.fromSecs] at hdur hdur'
    omega

end Vibe
end LmsPlayer
