import LmsPlayer.Vibe.AudioLoop
import LmsPlayer.Vibe.TrackStarted

/-!
# Vibe.FullChannel — the event loop and the channel it receives from

Only the event loop receives player messages.  In a handler it does not, and there it may post one
itself, or wait for a callback that has the lock and posts one.  When the channel is full by then
nobody moves on (`Blocked`).

This is avoided exactly if a place of the channel is left free as long as the event loop has still
to post or to take the lock (`LeavesRoom`).  The code does nothing to leave one.
-/

namespace LmsPlayer
namespace Vibe

open LmsProto
open Channel (Sends)
open TransitionSystem (System)

namespace AudioLoop

variable {O : Type}

/-- A player message that is sent now has to wait. -/
def ChannelFull (s : AudioLoop O) : Prop :=
  Channel.Blocked (s.process.pass.attached = true) STREAM_CAPACITY s.stream

/-- The event loop is posting to the channel that only it receives from. -/
structure BlockedOnChannel (s : AudioLoop O) : Prop where
  posting : ∃ msg rest, s.calls = .post msg :: rest
  full : s.ChannelFull

/-- The event loop waits for the lock, and the callback that has the lock is posting. -/
structure BlockedOnLock (s : AudioLoop O) : Prop where
  locking : ∃ rest, s.calls = .lock :: rest
  held : ∃ msg, s.lock = .callback (some msg)
  full : s.ChannelFull

def Blocked (s : AudioLoop O) : Prop := s.BlockedOnChannel ∨ s.BlockedOnLock

/-- The event loop has still to post something or to take the lock. -/
def Busy (s : AudioLoop O) : Prop := ∃ step ∈ s.calls, step ≠ .unlock

/-- A place is left free for the event loop: by whoever posts something while it is busy, and by the
event loop itself when it gets busy without having received a player message. -/
structure LeavesRoom (s t : AudioLoop O) : Prop where
  posting : ∀ msg, t.stream = s.stream ++ [msg] → t.Busy → s.stream.length + 1 < STREAM_CAPACITY
  calling : s.calls = [] → t.stream = s.stream → t.Busy → s.stream.length < STREAM_CAPACITY

variable {cfg : Config} {s t : AudioLoop O}

theorem busy_of_blocked (h : s.Blocked) : s.Busy ∧ s.ChannelFull := by
  rcases h with ⟨⟨msg, rest, hcalls⟩, hfull⟩ | ⟨⟨rest, hcalls⟩, -, hfull⟩
  · exact ⟨⟨.post msg, by simp [hcalls], nofun⟩, hfull⟩
  · exact ⟨⟨.lock, by simp [hcalls], nofun⟩, hfull⟩

theorem Busy.of_cons {step : CallStep} {rest : List CallStep} (h : t.Busy)
    (hcalls : s.calls = step :: rest) (hrest : t.calls = rest) : s.Busy := by
  obtain ⟨later, hmem, hne⟩ := h
  rw [hrest] at hmem
  exact ⟨later, by simp [hcalls, hmem], hne⟩

theorem not_busy_of_nil (hcalls : s.calls = []) : ¬s.Busy := by
  rintro ⟨step, hmem, -⟩
  rw [hcalls] at hmem
  exact absurd hmem List.not_mem_nil

variable [AudioOutput O] [LockingOutput O]

/-! ## What a step does to the channel -/

inductive ChannelStep (s t : AudioLoop O) : Prop where
  | keeps (hstream : t.stream = s.stream) (hbusy : t.Busy → s.Busy ∨ s.calls = [])
  | posts {msg : PlayerMsg}
      (hsend : Sends (s.process.pass.attached = true) STREAM_CAPACITY s.stream msg t.stream)
      (hbusy : t.Busy → s.Busy)
  | receives {msg : PlayerMsg} (hstream : s.stream = msg :: t.stream)
  | idles (hcalls : t.calls = [])

omit [LockingOutput O] in
/-- Only a player message is taken from the channel. -/
theorem stream_of_takeUp {s t : Process O} {entry : LogEntry} (h : MainStep cfg s t [entry]) :
    t.pass.stream = s.pass.stream ∨ ∃ msg, s.pass.stream = msg :: t.pass.stream := by
  cases h with
  | serverMessage opened hmain hqueue hdone =>
      refine .inl ?_
      show (Process.passes _ s.current).stream = _
      rw [Process.finish_passes_self]
      rfl
  | playerMessage hmain hqueue hdone =>
      rename_i msg rest done
      refine .inr ⟨msg, ?_⟩
      show _ = msg :: (Process.passes _ s.current).stream
      rw [Process.finish_passes_self]
      exact hqueue
  | timeout hmain hserver hstream hdone =>
      refine .inl ?_
      show (Process.passes _ s.current).stream = _
      rw [Process.finish_passes_self]
      rfl
  | lost hmain hqueue =>
      refine .inl ?_
      show ((s.setPass s.current _).passes s.current).stream = _
      rw [Process.setPass_passes_self]

omit [LockingOutput O] in
theorem stream_of_reset {s t : Process O} (h : MainStep cfg s t []) (hmain : s.main = .resetting) :
    t.pass.stream = s.pass.stream := by
  cases h with
  | bye hresetting hsend =>
      show ((s.setPass s.current _).passes s.current).stream = _
      rw [Process.setPass_passes_self]
  | sendToServer hloop | sendToSelf hloop | disconnected hloop => cases hmain.symm.trans hloop
  | restart _ hleaving => cases hmain.symm.trans hleaving

omit [LockingOutput O] in
theorem stream_of_posts {s t : Process O} {entries : List LogEntry} (h : MainStep cfg s t entries)
    {msg : PlayerMsg} {pending : List Send} (hmain : s.main = .loop (.toSelf msg :: pending)) :
    Sends (s.pass.attached = true) STREAM_CAPACITY s.pass.stream msg t.pass.stream := by
  cases h with
  | sendToSelf hloop hsend =>
      cases hmain.symm.trans hloop
      show Sends _ _ _ _ ((s.setPass s.current _).passes s.current).stream
      rw [Process.setPass_passes_self]
      exact hsend
  | serverMessage _ hloop | playerMessage hloop | timeout hloop | sendToServer hloop | lost hloop
    | disconnected hloop => cases hmain.symm.trans hloop
  | bye hresetting => cases hmain.symm.trans hresetting
  | restart _ hleaving => cases hmain.symm.trans hleaving

omit [AudioOutput O] [LockingOutput O] in
theorem stream_of_otherStep {k : Nat} {g' : Globals} {p' : Pass O} {entries : List LogEntry}
    (h : OtherStep cfg k (k = s.process.current) s.process.now s.process.globals
      (s.process.passes k) g' p' entries) :
    (s.process.setPass k p').pass.stream = s.stream ∨
      ∃ msg, Sends (s.process.pass.attached = true) STREAM_CAPACITY s.stream msg
        (s.process.setPass k p').pass.stream := by
  -- The threads of a former pass post to the channel of that pass.
  by_cases hk : s.process.current = k
  · subst hk
    show ((s.process.setPass s.process.current p').passes s.process.current).stream = _ ∨
      ∃ _, Sends _ _ _ _ ((s.process.setPass s.process.current p').passes s.process.current).stream
    rw [Process.setPass_passes_self]
    exact Pass.stream_of_threadStep h.threadStep
  · refine .inl ?_
    exact congrArg Pass.stream (Process.setPass_passes_of_ne _ _ hk)

theorem Step.channelStep (h : Step cfg s t) : ChannelStep s t := by
  cases h with
  | takeUp hcalls hstays h =>
      rcases stream_of_takeUp h with hsame | ⟨msg, hstream⟩
      · exact .keeps hsame fun _ => .inr hcalls
      · exact .receives hstream
  | reset hcalls hmain h =>
      have hsame := stream_of_reset h hmain
      exact .keeps hsame fun _ => .inr hcalls
  | goOn hcalls hstays hmain hgoesOn h => exact .idles hcalls
  | quit hcalls hstays h => exact .keeps rfl fun _ => .inr hcalls
  | exit hcalls hquits h => exact .idles hcalls
  | post hcalls hmain h =>
      exact .posts (stream_of_posts h hmain) fun hbusy => hbusy.of_cons hcalls rfl
  | lock hcalls hlock => exact .keeps rfl fun hbusy => .inl (hbusy.of_cons hcalls rfl)
  | unlock hcalls => exact .keeps rfl fun hbusy => .inl (hbusy.of_cons hcalls rfl)
  | wait hcalls => exact .keeps rfl fun _ => .inl ⟨.wait, by simp [hcalls], nofun⟩
  | waited hcalls => exact .keeps rfl fun hbusy => .inl (hbusy.of_cons hcalls rfl)
  | posted hlock hruns h hsend =>
      rename_i msg g' p'
      have hposts : Sends (s.process.pass.attached = true) STREAM_CAPACITY s.stream msg
          ((s.process.setPass s.process.current p').passes s.process.current).stream := by
        rw [Process.setPass_passes_self]
        exact hsend
      exact .posts hposts id
  | thread hruns hk h =>
      rcases stream_of_otherStep h with hsame | ⟨msg, hsend⟩
      · exact .keeps hsame .inl
      · exact .posts hsend id
  | enter | leave | prepare | tick => exact .keeps rfl .inl

/-! ## Room in the channel -/

/-- There is room in the channel as long as the event loop is busy. -/
theorem room (h : ((system O cfg).restrict LeavesRoom).Reachable s) :
    s.Busy → s.stream.length < STREAM_CAPACITY := by
  refine System.Reachable.invariant
    (fun s => s.Busy → s.stream.length < STREAM_CAPACITY) ?_ ?_ h
  · rintro s ⟨now, hostname, rfl⟩ hbusy
    exact absurd hbusy (not_busy_of_nil rfl)
  · intro s t hs ih ⟨hstep, hleaves⟩ hbusy
    cases hstep.channelStep with
    | keeps hstream hkept =>
        rw [hstream]
        rcases hkept hbusy with hbefore | hcalls
        · exact ih hbefore
        · exact hleaves.calling hcalls hstream hbusy
    | posts hsend hkept =>
        -- The condition leaves one place more than the message takes.
        generalize hqueue : t.stream = queue at hsend
        cases hsend with
        | queued hattached hroom =>
            have hleft := hleaves.posting _ hqueue hbusy
            rw [List.length_append]
            exact hleft
        | dropped hdetached => exact ih (hkept hbusy)
    | receives hstream =>
        -- The message that has been received has made a place free.
        have hfits := stream_le ((simulation cfg).reachable hs.of_restrict) s.process.current
        have hlength : s.stream.length = t.stream.length + 1 := by
          rw [hstream]
          rfl
        exact Nat.lt_of_lt_of_le (Nat.lt_of_succ_le hlength.ge) hfits
    | idles hcalls => exact absurd hbusy (not_busy_of_nil hcalls)

/-! ## Blocked for ever -/

omit [AudioOutput O] [LockingOutput O] in
theorem ChannelFull.thread (hfull : s.ChannelFull) {k : Nat} {g' : Globals} {p' : Pass O}
    {entries : List LogEntry}
    (h : ThreadStep cfg k s.process.now s.process.globals (s.process.passes k) g' p' entries) :
    Channel.Blocked ((s.moved k g' p' entries).pass.attached = true) STREAM_CAPACITY
      (s.moved k g' p' entries).pass.stream := by
  refine Process.setPass_induction
    (P := fun p : Pass O => Channel.Blocked (p.attached = true) STREAM_CAPACITY p.stream) ?_ hfull
  rintro ⟨hattached, hlength⟩
  refine ⟨(Pass.attached_of_threadStep h).trans hattached, ?_⟩
  rcases Pass.stream_of_threadStep h with hsame | ⟨msg, hsend⟩
  · exact hsame ▸ hlength
  · exact absurd (hsend.not_full hattached) (Nat.not_lt.2 hlength)

theorem BlockedOnChannel.step (h : s.BlockedOnChannel) (hstep : Step cfg s t) :
    t.BlockedOnChannel := by
  obtain ⟨⟨msg, rest, hposting⟩, hfull⟩ := h
  -- The event loop can only post, and nobody else receives.
  cases hstep with
  | takeUp hcalls | reset hcalls | goOn hcalls | quit hcalls | exit hcalls | lock hcalls
    | unlock hcalls | wait hcalls | waited hcalls => cases hcalls.symm.trans hposting
  | post hcalls hmain h =>
      exact absurd ((stream_of_posts h hmain).not_full hfull.1) (Nat.not_lt.2 hfull.2)
  | posted hlock hruns h hsend => exact absurd (hsend.not_full hfull.1) (Nat.not_lt.2 hfull.2)
  | thread hruns hk h => exact ⟨⟨msg, rest, hposting⟩, hfull.thread h.threadStep⟩
  | enter | leave | prepare | tick => exact ⟨⟨msg, rest, hposting⟩, hfull⟩

theorem BlockedOnLock.step (h : s.BlockedOnLock) (hstep : Step cfg s t) : t.BlockedOnLock := by
  obtain ⟨⟨rest, hlocking⟩, ⟨msg, hheld⟩, hfull⟩ := h
  -- The event loop can only take the lock, and the callback can only post.
  cases hstep with
  | takeUp hcalls | reset hcalls | goOn hcalls | quit hcalls | exit hcalls | post hcalls
    | unlock hcalls | wait hcalls | waited hcalls => cases hcalls.symm.trans hlocking
  | lock hcalls hlock | enter hlock | leave hlock | prepare hlock => cases hlock.symm.trans hheld
  | posted hlock hruns h hsend => exact absurd (hsend.not_full hfull.1) (Nat.not_lt.2 hfull.2)
  | thread hruns hk h => exact ⟨⟨rest, hlocking⟩, ⟨msg, hheld⟩, hfull.thread h.threadStep⟩
  | tick d => exact ⟨⟨rest, hlocking⟩, ⟨msg, hheld⟩, hfull⟩

theorem Blocked.steps (h : s.Blocked) (hrun : (system O cfg).Steps s t) : t.Blocked := by
  refine System.Steps.invariant Blocked hrun h ?_
  rintro a b (hchannel | hlock) hstep
  · exact .inl (hchannel.step hstep)
  · exact .inr (hlock.step hstep)

/-! ## Without room -/

/-- A callback gets in the way of an event loop that is about to take the lock. -/
theorem exists_blockedOnLock (cfg : Config) {rest : List CallStep}
    (hcalls : s.calls = .lock :: rest)
    (hlock : s.lock.byEventLoop = false) (hfull : s.ChannelFull) :
    ∃ t, (system O cfg).Steps s t ∧ t.BlockedOnLock := by
  have hposting : ∀ s : AudioLoop O, s.calls = .lock :: rest → s.lock = .callback none →
      s.ChannelFull → ∃ t, (system O cfg).Steps s t ∧ t.BlockedOnLock := by
    intro s hcalls hlock hfull
    have hmsg : PlayerMsg.endOfDecode.FromCallback := trivial
    refine ⟨_, .head (.prepare hlock hmsg) (.refl _), ?_⟩
    exact ⟨⟨rest, hcalls⟩, ⟨_, rfl⟩, hfull⟩
  -- Whoever has the lock, a callback can get to the point where it posts.
  cases hholder : s.lock with
  | nobody =>
      obtain ⟨t, hrun, hblocked⟩ :=
        hposting { s with lock := .callback none } hcalls rfl hfull
      exact ⟨t, .head (.enter hholder) hrun, hblocked⟩
  | eventLoop =>
      rw [hholder] at hlock
      cases hlock
  | callback posting =>
      cases posting with
      | none => exact hposting s hcalls hholder hfull
      | some msg => exact ⟨s, .refl _, ⟨rest, hcalls⟩, ⟨msg, hholder⟩, hfull⟩

/-- An event loop that is busy while the channel is full can be blocked by its own callback. -/
theorem exists_blocked (cfg : Config) (hbusy : s.Busy) (hfull : s.ChannelFull)
    (hbalanced : CallStep.Balanced s.lock.byEventLoop s.calls) :
    ∃ t, (system O cfg).Steps s t ∧ t.Blocked := by
  -- The event loop goes through its calls as long as they give the lock back.
  induction hcalls : s.calls generalizing s with
  | nil => exact absurd hbusy (not_busy_of_nil hcalls)
  | cons step rest ih =>
      rw [hcalls] at hbalanced
      cases step with
      | lock =>
          obtain ⟨t, hrun, hblocked⟩ := exists_blockedOnLock cfg hcalls hbalanced.1 hfull
          exact ⟨t, hrun, .inr hblocked⟩
      | wait =>
          -- While it waits the lock is free for the callback.
          obtain ⟨t, hrun, hblocked⟩ := exists_blockedOnLock cfg
            (s := { s with calls := .lock :: .wait :: rest, lock := .nobody }) rfl rfl hfull
          exact ⟨t, .head (.wait hcalls) hrun, .inr hblocked⟩
      | unlock =>
          have hlater : ({ s with calls := rest, lock := .nobody } : AudioLoop O).Busy := by
            obtain ⟨later, hmem, hne⟩ := hbusy
            rw [hcalls] at hmem
            exact ⟨later, (List.mem_cons.1 hmem).resolve_left hne, hne⟩
          obtain ⟨t, hrun, hblocked⟩ := ih hlater hfull hbalanced.2 rfl
          exact ⟨t, .head (.unlock hcalls) hrun, hblocked⟩
      | post msg => exact ⟨s, .refl _, .inl ⟨⟨msg, rest, hcalls⟩, hfull⟩⟩

/-- Where no room is left the event loop is busy and the channel is full. -/
theorem full_of_not_leavesRoom (h : (system O cfg).Reachable s) (hstep : Step cfg s t)
    (hleaves : ¬LeavesRoom s t) : t.Busy ∧ t.ChannelFull := by
  have hattached : t.process.pass.attached = true :=
    attached ((simulation cfg).reachable (h.step hstep))
  by_contra hroom
  have hroom : t.Busy → t.stream.length < STREAM_CAPACITY := by
    intro hbusy
    by_contra hfull
    exact hroom ⟨hbusy, hattached, Nat.le_of_not_lt hfull⟩
  refine hleaves ⟨?_, ?_⟩
  · intro msg hstream hbusy
    have hlength := hroom hbusy
    rw [hstream, List.length_append] at hlength
    exact hlength
  · intro _ hstream hbusy
    exact hstream ▸ hroom hbusy

/-- **The event loop is never blocked by the channel that it receives from**, in every run in which
a place of that channel is left free for it; as soon as none is left the event loop can be blocked,
and then it is blocked for ever. -/
theorem not_blocked (cfg : Config) :
    (∀ s : AudioLoop O, ((system O cfg).restrict LeavesRoom).Reachable s → ¬s.Blocked) ∧
    (∀ s t : AudioLoop O, (system O cfg).Reachable s → (system O cfg).step s t → ¬LeavesRoom s t →
      ∃ u, (system O cfg).Steps t u ∧ u.Blocked) ∧
    ∀ s t : AudioLoop O, s.Blocked → (system O cfg).Steps s t → t.Blocked := by
  refine ⟨?_, ?_, fun s t h hrun => h.steps hrun⟩
  · intro s h hblocked
    obtain ⟨hbusy, -, hfull⟩ := busy_of_blocked hblocked
    exact absurd (room h hbusy) (Nat.not_lt.2 hfull)
  · intro s t h hstep hleaves
    obtain ⟨hbusy, hfull⟩ := full_of_not_leavesRoom h hstep hleaves
    exact exists_blocked cfg hbusy hfull (balanced_calls (h.step hstep))

/-! ## Runs in the first pass -/

/-- In its first pass, `main` in the event loop, the program is in these calls. -/
def inCalls (g : Globals) (p blank : Pass O) (pending : List Send) (log : List LogEntry)
    (calls : List CallStep) (lock : LockHolder) : AudioLoop O :=
  { process := .firstPass 0 g p blank (.loop pending) log
    calls := calls
    lock := lock
    quitting := false }

/-- The condition of `S` allows all that leaves the event loop idle, and the receiving of a player
message. -/
structure Permits (cfg : Config) (S : System (AudioLoop O)) : Prop where
  init : S.init (start (Process.start cfg 0 none))
  idle : ∀ {s t : AudioLoop O}, Step cfg s t → t.calls = [] → S.step s t
  receive : ∀ {s t : AudioLoop O} {msg : PlayerMsg}, Step cfg s t → s.stream = msg :: t.stream →
    S.step s t

theorem permits_system (cfg : Config) : Permits cfg (system O cfg) :=
  { init := ⟨0, none, rfl⟩
    idle := fun h _ => h
    receive := fun h _ => h }

theorem permits_leavesRoom (cfg : Config) : Permits cfg ((system O cfg).restrict LeavesRoom) :=
  { init := ⟨0, none, rfl⟩
    idle := by
      intro s t h hcalls
      refine ⟨h, ?_, ?_⟩
      · exact fun _ _ hbusy => absurd hbusy (not_busy_of_nil hcalls)
      · exact fun _ _ hbusy => absurd hbusy (not_busy_of_nil hcalls)
    receive := by
      intro s t msg h hstream
      refine ⟨h, ?_, ?_⟩
      · intro msg' hposted
        have hlength := congrArg List.length (hstream.trans (congrArg (msg :: ·) hposted))
        simp only [List.length_cons, List.length_append] at hlength
        omega
      · intro _ hsame
        have hlength := congrArg List.length (hstream.trans (congrArg (msg :: ·) hsame))
        simp only [List.length_cons] at hlength
        omega }

variable {S : System (AudioLoop O)} {g g' : Globals} {p p' blank : Pass O} {pending : List Send}
  {log entries : List LogEntry} {entry : LogEntry} {calls : List CallStep} {lock : LockHolder}

/-- Somebody else than `main` moves. -/
theorem reachable_of_otherStep (h : S.Reachable (inCalls g p blank pending log calls lock))
    (hS : ∀ {s t : AudioLoop O}, Step cfg s t → t.calls = calls → S.step s t)
    (hmoved : OtherStep cfg 0 (0 = 0) 0 g p g' p' entries) :
    S.Reachable (inCalls g' p' blank pending (log ++ entries) calls lock) := by
  have hstep : Step cfg (inCalls g p blank pending log calls lock)
      { inCalls g p blank pending log calls lock with
        process := (inCalls g p blank pending log calls lock).moved 0 g' p' entries } :=
    .thread nofun (le_refl 0) hmoved
  have hnext : (inCalls g p blank pending log calls lock).moved 0 g' p' entries =
      .firstPass 0 g' p' blank (.loop pending) (log ++ entries) := setPass_eq_firstPass
  rw [hnext] at hstep
  exact h.step (hS hstep rfl)

/-- The event loop takes something up. -/
theorem reachable_of_takeUp {t : Process O} (h : S.Reachable (inCalls g p blank [] log [] lock))
    (hmoved : MainStep cfg (.firstPass 0 g p blank (.loop []) log) t [entry])
    (hcalls : entry.callSteps p.ctx = calls)
    (hS : ∀ {u : AudioLoop O}, Step cfg (inCalls g p blank [] log [] lock) u → u.calls = calls →
      u.stream = (t.passes 0).stream → S.step (inCalls g p blank [] log [] lock) u)
    (hmain : t.main = .loop pending) (hnow : t.now = 0) (hreconnect : t.reconnect = false)
    (hcurrent : t.current = 0) :
    S.Reachable (inCalls t.globals (t.passes 0) blank pending (log ++ [entry]) calls lock) := by
  have hstep : Step cfg (inCalls g p blank [] log [] lock)
      { inCalls g p blank [] log [] lock with
        process := t.record [entry]
        calls := entry.callSteps p.ctx } :=
    .takeUp rfl rfl hmoved
  have hnext := record_eq_firstPass hmoved hreconnect hcurrent
  rw [hnow, hmain] at hnext
  rw [hnext, hcalls] at hstep
  exact h.step (hS hstep rfl rfl)

theorem Permits.takeUp (hS : Permits cfg S) {t : Process O}
    (h : S.Reachable (inCalls g p blank [] log [] lock))
    (hmoved : MainStep cfg (.firstPass 0 g p blank (.loop []) log) t [entry])
    (hcalls : entry.callSteps p.ctx = []) (hmain : t.main = .loop pending) (hnow : t.now = 0)
    (hreconnect : t.reconnect = false) (hcurrent : t.current = 0) :
    S.Reachable (inCalls t.globals (t.passes 0) blank pending (log ++ [entry]) [] lock) :=
  reachable_of_takeUp h hmoved hcalls (fun hstep hidle _ => hS.idle hstep hidle) hmain hnow
    hreconnect hcurrent

/-- It sends a report to the server. -/
theorem reachable_of_goOn {t : Process O} {before : List Send}
    (h : S.Reachable (inCalls g p blank before log [] lock))
    (hmoved : MainStep cfg (.firstPass 0 g p blank (.loop before) log) t [])
    (hS : ∀ {s t : AudioLoop O}, Step cfg s t → t.calls = [] → S.step s t)
    (hmain : t.main = .loop pending) (hnow : t.now = 0) (hreconnect : t.reconnect = false)
    (hcurrent : t.current = 0) :
    S.Reachable (inCalls t.globals (t.passes 0) blank pending (log ++ []) [] lock) := by
  have hgoesOn : t.main ≠ .exited := by
    rw [hmain]
    nofun
  have hstep : Step cfg (inCalls g p blank before log [] lock)
      { inCalls g p blank before log [] lock with process := t.record [] } :=
    .goOn rfl rfl nofun hgoesOn hmoved
  have hnext := record_eq_firstPass hmoved hreconnect hcurrent
  rw [hnow, hmain] at hnext
  rw [hnext] at hstep
  exact h.step (hS hstep rfl)

/-- It posts a message. -/
theorem reachable_of_post {t : Process O} {msg : PlayerMsg}
    (h : (system O cfg).Reachable
      (inCalls g p blank (.toSelf msg :: pending) log (.post msg :: calls) lock))
    (hmoved : MainStep cfg (.firstPass 0 g p blank (.loop (.toSelf msg :: pending)) log) t [])
    (hmain : t.main = .loop pending) (hnow : t.now = 0) (hreconnect : t.reconnect = false)
    (hcurrent : t.current = 0) :
    (system O cfg).Reachable
      (inCalls t.globals (t.passes 0) blank pending (log ++ []) calls lock) := by
  have hstep : Step cfg (inCalls g p blank (.toSelf msg :: pending) log (.post msg :: calls) lock)
      { inCalls g p blank (.toSelf msg :: pending) log (.post msg :: calls) lock with
        process := t.record []
        calls := calls } :=
    .post rfl rfl hmoved
  have hnext := record_eq_firstPass hmoved hreconnect hcurrent
  rw [hnow, hmain] at hnext
  rw [hnext] at hstep
  exact h.step hstep

/-! ## Two runs -/

def pipewireConfig : Config := { cliConfig with outputSystem := "pipewire" }

/-- The thread for the Stream command at `origin` of the record. -/
def streamThread (origin : Nat) (phase : ConnectPhase) : ConnectThread :=
  { lateThread phase with origin := origin }

/-- Streams are being set up, and the messages `msgs` have been received from the server. -/
def crowdedPass (msgs : List ServerMessage) (output : PipewireOutput) (stream : List PlayerMsg)
    (connects : List ConnectThread) (buffers : List BufferConfig) (starting : List VibeDecoder) :
    Pass PipewireOutput :=
  { (Pass.start pipewireConfig 0 "Vibe" false : Pass PipewireOutput) with
    ctx :=
      { output := some output
        serverDefaultIp := pipewireConfig.serverDefaultIp
        name := "Vibe"
        startTime := 0 }
    proto :=
      { newServerSock := none
        syncGroupId := none
        reconnect := false
        hops := 0
        phase := .forwarding cliConnection msgs }
    stream := stream
    writers := [⟨cliConnection, .receiving⟩]
    connects := connects
    buffers := buffers
    starting := starting }

section Crowd

variable {S : System (AudioLoop PipewireOutput)} {g : Globals} {blank : Pass PipewireOutput}
  {pending : List Send} {log : List LogEntry} {calls : List CallStep} {lock : LockHolder}
  {msgs : List ServerMessage} {output : PipewireOutput} {stream : List PlayerMsg}
  {connects : List ConnectThread} {buffers : List BufferConfig} {starting : List VibeDecoder}

/-- The server sends a Stream command, and a stream-connect thread is started. -/
theorem Permits.exists_arrived (hS : Permits pipewireConfig S)
    (h : S.Reachable (inCalls g
      (crowdedPass (.stream ownStream :: msgs) output stream connects buffers []) blank [] log
      [] lock)) :
    ∃ g' log' origin, S.Reachable (inCalls g'
      (crowdedPass msgs output stream (connects ++ [streamThread origin .dialing]) buffers [])
      blank [] log' [] lock) := by
  have hslim : 0 < SLIM_CAPACITY := by decide
  have h1 := reachable_of_otherStep h hS.idle (.proto (.forward rfl id (.queued rfl hslim)))
  have h2 := hS.takeUp h1 (.serverMessage none rfl rfl rfl) rfl rfl rfl rfl rfl
  exact ⟨_, _, _, h2⟩

/-- A stream-connect thread posts its three messages. -/
theorem exists_posted
    (hS : ∀ {s t : AudioLoop PipewireOutput}, Step pipewireConfig s t → t.calls = calls →
      S.step s t)
    {origin : Nat}
    (h : S.Reachable (inCalls g
      (crowdedPass msgs output stream (streamThread origin .dialing :: connects) buffers starting)
      blank pending log calls lock))
    (hroom : stream.length + 2 < STREAM_CAPACITY) :
    ∃ g' log' buffers', S.Reachable (inCalls g'
      (crowdedPass msgs output
        (stream ++ [.connected] ++ [.bufferThreshold] ++
          [(streamThread origin .dialing).decoderMsg])
        connects buffers' starting) blank pending log' calls lock) := by
  have hroom1 : stream.length < STREAM_CAPACITY := by omega
  have hroom2 : (stream ++ [PlayerMsg.connected]).length < STREAM_CAPACITY := by
    rw [List.length_append]
    exact Nat.lt_of_succ_lt hroom
  have hroom3 : (stream ++ [PlayerMsg.connected] ++ [PlayerMsg.bufferThreshold]).length <
      STREAM_CAPACITY := by
    rw [List.length_append, List.length_append]
    exact hroom
  have h1 := reachable_of_otherStep h hS (.connect (.dial rfl (.mk [] _)))
  have h2 := reachable_of_otherStep h1 hS
    (.connect (.postConnected rfl (.queued rfl hroom1) (.mk [] _)))
  have h3 := reachable_of_otherStep h2 hS (.connect (.createBuffer rfl (.mk [] _)))
  have h4 := reachable_of_otherStep h3 hS
    (.connect (.postBufferThreshold rfl (.queued rfl hroom2) (.mk [] _)))
  have h5 := reachable_of_otherStep h4 hS (.connect (.prepared rfl (.mk [] _)))
  have h6 := reachable_of_otherStep h5 hS
    (.connect (.post rfl (.queued rfl hroom3) (.mk [] _)))
  exact ⟨_, _, _, h6⟩

/-- The event loop handles a message by a report to the server, which is written. -/
theorem Permits.exists_reported (hS : Permits pipewireConfig S) {msg : PlayerMsg}
    (h : S.Reachable (inCalls g (crowdedPass msgs output (msg :: stream) connects buffers [])
      blank [] log [] lock))
    (code : StatusCode)
    (hsteps : ∀ ctx : PlayerContext PipewireOutput, ctx.playerSteps msg = [])
    (hdone : ∀ ctx g, (Player.start ctx g : Player PipewireOutput).handlePlayerMessage 0 msg =
      (Player.start ctx g).sendStatus 0 code) :
    ∃ g' log', S.Reachable (inCalls g'
      (crowdedPass msgs output stream connects buffers []) blank [] log' [] lock) := by
  have hslim : 0 < SLIM_CAPACITY := by decide
  let p := crowdedPass msgs output stream connects buffers []
  have h1 : S.Reachable (inCalls _ (p.absorb log.length 0 _) blank [.toServer _] _ [] lock) :=
    hS.takeUp h (.playerMessage rfl rfl (hdone p.ctx g).symm) (hsteps p.ctx) rfl rfl rfl rfl
  rw [Pass.absorb_eq (p := p) _ _ rfl rfl rfl] at h1
  have h2 := reachable_of_goOn h1 (.sendToServer rfl (.queued (Or.inl nofun) hslim)) hS.idle
    rfl rfl rfl rfl
  have h3 := reachable_of_otherStep h2 hS.idle (.writer (.take rfl (.mk [] [])))
  have h4 := reachable_of_otherStep h3 hS.idle (.writer (.written (.mk [] [])))
  exact ⟨_, _, h4⟩

/-- Five streams have been asked for.  The decoder of the first one is being passed to the output,
the other ones are about to be connected, and the server asks to stop. -/
theorem Permits.exists_enqueueing (hS : Permits pipewireConfig S) :
    ∃ g log blank d buffers o₁ o₂ o₃ o₄, S.Reachable (inCalls g
      (crowdedPass [.stop] { PipewireOutput.new with playing := some d, active := true } []
        [streamThread o₁ .dialing, streamThread o₂ .dialing, streamThread o₃ .dialing,
          streamThread o₄ .dialing] buffers [d]) blank [.toSelf .streamEstablished] log
      [.lock, .unlock, .post .streamEstablished, .lock, .unlock] .nobody) := by
  have hslim : 0 < SLIM_CAPACITY := by decide
  have hwire : ∀ msg ∈ ServerMessage.enable true true ::
      (List.replicate 5 (.stream ownStream) ++ [.stop]), msg.OnWire := by
    refine forall_onWire _ (List.forall_mem_cons.2 ⟨trivial, List.forall_mem_append.2 ⟨?_, ?_⟩⟩)
    · intro msg hmsg
      rw [List.eq_of_mem_replicate hmsg]
      exact representable_ownStream
    · exact List.forall_mem_singleton.2 trivial
  have hstart : S.Reachable (start (Process.start pipewireConfig 0 none)) := .init hS.init
  have h0 : S.Reachable (inCalls Globals.new (Pass.start pipewireConfig 0 "Vibe" false)
      (Pass.start pipewireConfig 0 "Vibe" false) [] [] [] .nobody) := by
    rw [start, start_eq_firstPass] at hstart
    exact hstart
  have h1 := reachable_of_otherStep h0 hS.idle (.proto (.hello rfl))
  have h2 := reachable_of_otherStep h1 hS.idle (.proto (.takeCli rfl rfl rfl))
  have h3 := reachable_of_otherStep h2 hS.idle (.proto (.connect rfl))
  have h4 := reachable_of_otherStep h3 hS.idle (.proto (.received _ rfl hwire))
  have h5 := reachable_of_otherStep h4 hS.idle (.proto (.forward rfl id (.queued rfl hslim)))
  have h6 := hS.takeUp h5 (.serverMessage (some .new) rfl rfl rfl) rfl rfl rfl rfl rfl
  obtain ⟨g7, log7, o₀, h7⟩ := hS.exists_arrived h6
  obtain ⟨g8, log8, o₁, h8⟩ := hS.exists_arrived h7
  obtain ⟨g9, log9, o₂, h9⟩ := hS.exists_arrived h8
  obtain ⟨g10, log10, o₃, h10⟩ := hS.exists_arrived h9
  obtain ⟨g11, log11, o₄, h11⟩ := hS.exists_arrived h10
  obtain ⟨g12, log12, buffers, h12⟩ := exists_posted hS.idle h11 (by decide)
  obtain ⟨g13, log13, h13⟩ := hS.exists_reported h12 .connect (fun _ => rfl) (fun _ _ => rfl)
  obtain ⟨g14, log14, h14⟩ :=
    hS.exists_reported h13 .bufferThreshold (fun _ => rfl) (fun _ _ => rfl)
  have h15 := reachable_of_takeUp h14 (.playerMessage rfl rfl rfl) rfl
    (fun hstep _ hstream => hS.receive hstep (congrArg (_ :: ·) hstream.symm)) rfl rfl rfl rfl
  exact ⟨_, _, _, _, _, o₁, o₂, o₃, o₄, h15⟩

end Crowd

/-- A decoder is being passed to the output. -/
theorem not_blocked_enqueueing : ∃ s : AudioLoop PipewireOutput,
    ((system PipewireOutput pipewireConfig).restrict LeavesRoom).Reachable s ∧ s.Busy ∧
      ¬s.Blocked := by
  obtain ⟨_, _, _, _, _, _, _, _, _, h⟩ := (permits_leavesRoom pipewireConfig).exists_enqueueing
  exact ⟨_, h, ⟨.lock, List.mem_cons_self .., nofun⟩, (not_blocked pipewireConfig).1 _ h⟩

/-- Meanwhile the threads of the other streams fill the channel. -/
theorem exists_blockedOnChannel : ∃ s : AudioLoop PipewireOutput,
    (system PipewireOutput pipewireConfig).Reachable s ∧ s.BlockedOnChannel := by
  obtain ⟨g, log, blank, d, buffers, o₁, o₂, o₃, o₄, h0⟩ :=
    (permits_system pipewireConfig).exists_enqueueing
  obtain ⟨g1, log1, buffers1, h1⟩ := exists_posted (fun h _ => h) h0 (by decide)
  obtain ⟨g2, log2, buffers2, h2⟩ :=
    exists_posted (fun h _ => h) h1 (by decide : 5 < STREAM_CAPACITY)
  obtain ⟨g3, log3, buffers3, h3⟩ :=
    exists_posted (fun h _ => h) h2 (by decide : 8 < STREAM_CAPACITY)
  have h4 := reachable_of_otherStep h3 (fun h _ => h) (.connect (.dial rfl (.mk [] [])))
  have h5 := reachable_of_otherStep h4 (fun h _ => h)
    (.connect (.postConnected rfl (.queued rfl (by decide : 9 < STREAM_CAPACITY)) (.mk [] [])))
  have h6 := (h5.step (.lock rfl rfl)).step (.unlock rfl)
  exact ⟨_, h6, ⟨_, _, rfl⟩, rfl, le_refl 10⟩

/-- The stream is established, the threads of three other ones fill the channel, and before the
callback of the stream can report the start of its track the server asks to stop. -/
theorem exists_blockedOnLock_stop : ∃ s : AudioLoop PipewireOutput,
    (system PipewireOutput pipewireConfig).Reachable s ∧ s.BlockedOnLock := by
  have hslim : 0 < SLIM_CAPACITY := by decide
  have hstream : 0 < STREAM_CAPACITY := by decide
  obtain ⟨g, log, blank, d, buffers, o₁, o₂, o₃, o₄, h0⟩ :=
    (permits_system pipewireConfig).exists_enqueueing
  -- The output has been given the decoder.
  have h1 := (h0.step (.lock rfl rfl)).step (.unlock rfl)
  have h2 := reachable_of_post h1 (.sendToSelf rfl (.queued rfl hstream)) rfl rfl rfl rfl
  have h3 := (h2.step (.lock rfl rfl)).step (.unlock rfl)
  obtain ⟨g4, log4, buffers4, h4⟩ :=
    exists_posted (fun h _ => h) h3 (by decide : 3 < STREAM_CAPACITY)
  obtain ⟨g5, log5, buffers5, h5⟩ :=
    exists_posted (fun h _ => h) h4 (by decide : 6 < STREAM_CAPACITY)
  obtain ⟨g6, log6, buffers6, h6⟩ :=
    exists_posted (fun h _ => h) h5 (by decide : 9 < STREAM_CAPACITY)
  -- The Stop arrives, and the callback gets the lock first.
  have h7 := reachable_of_otherStep h6 (fun h _ => h)
    (.proto (.forward rfl id (.queued rfl hslim)))
  have h8 := reachable_of_takeUp h7 (.serverMessage none rfl rfl rfl) rfl (fun h _ _ => h)
    rfl rfl rfl rfl
  have hmsg : PlayerMsg.trackStarted.FromCallback := trivial
  have h9 := (h8.step (.enter rfl)).step (.prepare rfl hmsg)
  exact ⟨_, h9, ⟨_, rfl⟩, ⟨_, rfl⟩, rfl, le_refl 10⟩

/-- Both happen. -/
theorem exists_blocked_fiveStreams :
    (∃ s : AudioLoop PipewireOutput,
      (system PipewireOutput pipewireConfig).Reachable s ∧ s.BlockedOnChannel) ∧
    ∃ s : AudioLoop PipewireOutput,
      (system PipewireOutput pipewireConfig).Reachable s ∧ s.BlockedOnLock :=
  ⟨exists_blockedOnChannel, exists_blockedOnLock_stop⟩

end AudioLoop

end Vibe
end LmsPlayer
