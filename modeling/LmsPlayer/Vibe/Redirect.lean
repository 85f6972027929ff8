import LmsPlayer.LmsProto.Messages.ServerWire
import LmsPlayer.Vibe.Wiring
import LmsPlayer.Vibe.PulseOutput

/-!
# Vibe.Redirect — what becomes of a redirect

The comment in `proto::run` says that its reconnect loop lets the player go to a different server
when a Serv message is received.  The thread does go there, but it has told `main` before that the
connection is lost, and `main` reacts as it does to any loss: it makes a new pass with a slim-proto
thread of its own.  The pass that follows the redirect keeps the channels nobody listens to.

* `FollowsRedirects` — what following a redirect would take;
* `Session` — while an event loop runs, either its slim-proto thread has never followed a redirect,
  or the `None` that ends the event loop is the one message in the channel;
* `Pass.Led` — a slim-proto thread that follows a redirect has been told to by a server.
-/

namespace LmsPlayer
namespace Vibe

open LmsProto
open Channel (Sends)
open TransitionSystem (System)

namespace Pass

variable {O : Type} {cfg : Config} {k : Nat} {now : Instant} {g g' : Globals} {p p' : Pass O}
  {entries : List LogEntry}

/-- The pass has had to do with one server only. -/
def Fresh (p : Pass O) : Prop :=
  p.proto.hops = 0 ∧ ∀ x ∈ p.toMain, ∀ receipt, x = some receipt → receipt.conn.hops = 0

/-- Nothing can be sent behind a `None` that has not been received yet. -/
theorem toMain_eq_of_protoStep (h : ProtoStep cfg k now g p g' p' entries)
    (hattached : p.attached = true) (hnone : p.toMain = [none]) : p'.toMain = [none] := by
  have hfull : ¬p.toMain.length < SLIM_CAPACITY := by
    rw [hnone]
    decide
  cases h with
  | forward hpc hmsg hsend => exact absurd (hsend.not_full hattached) hfull
  | redirect hpc hsend => exact absurd (hsend.not_full hattached) hfull
  | lose hpc hsend => exact absurd (hsend.not_full hattached) hfull
  | _ => exact hnone

theorem fresh_of_protoStep (h : ProtoStep cfg k now g p g' p' entries) (hp : p.Wired cfg k)
    (hattached : p.attached = true) (hfresh : p.Fresh) : p'.Fresh ∨ p'.toMain = [none] := by
  rcases hfresh with ⟨hhops, hreceipts⟩
  cases h with
  | forward hpc hmsg hsend =>
      rename_i conn msg rest queue
      have hconn := hp.proto.conn conn (by rw [hpc]; rfl)
      refine Or.inl ⟨hhops, hsend.forall_mem hreceipts ?_⟩
      rintro receipt hreceipt
      cases hreceipt
      exact hconn.2.1.trans hhops
  | redirect hpc hsend =>
      -- There is room for one message only, and it is the `None`.
      refine Or.inr ?_
      have hempty : p.toMain = [] :=
        List.length_eq_zero_iff.1 (Nat.lt_one_iff.1 (hsend.not_full hattached))
      cases hsend with
      | queued hconn hroom =>
          show p.toMain ++ [none] = [none]
          rw [hempty]
          rfl
      | dropped hdead => exact absurd hattached hdead
  | lose hpc hsend =>
      exact Or.inl ⟨hhops, hsend.forall_mem hreceipts fun receipt hreceipt => by cases hreceipt⟩
  | _ => exact Or.inl ⟨hhops, hreceipts⟩

theorem fresh_of_threadStep (h : ThreadStep cfg k now g p g' p' entries) (hp : p.Wired cfg k)
    (hattached : p.attached = true) (hfresh : p.Fresh ∨ p.toMain = [none]) :
    p'.Fresh ∨ p'.toMain = [none] := by
  rcases protoStep_or_frame h with hproto | ⟨hproto, htoMain⟩
  · rcases hfresh with hfresh | hnone
    · exact fresh_of_protoStep hproto hp hattached hfresh
    · exact Or.inr (toMain_eq_of_protoStep hproto hattached hnone)
  · unfold Fresh
    rw [hproto, htoMain]
    exact hfresh

end Pass

/-! ## What leads to a redirect -/

/-- A server has sent the player somewhere else. -/
def SentAway (log : List LogEntry) : Prop :=
  ∃ conn msgs ip sgid, LogEntry.received conn msgs ∈ log ∧ ServerMessage.serv ip sgid ∈ msgs ∧
    Acceptable ip

theorem SentAway.append {log : List LogEntry} (h : SentAway log) (entries : List LogEntry) :
    SentAway (log ++ entries) := by
  rcases h with ⟨conn, msgs, ip, sgid, hreceived, hserv⟩
  exact ⟨conn, msgs, ip, sgid, List.mem_append_left _ hreceived, hserv⟩

namespace Pass

variable {O : Type} {cfg : Config} {k : Nat} {now : Instant} {g g' : Globals} {p p' : Pass O}
  {entries : List LogEntry}

/-- The batch of the slim-proto thread is in the record, and a redirect has been asked for. -/
structure Led (log : List LogEntry) (p : Pass O) : Prop where
  batch : ∀ conn rest, p.proto.phase = .forwarding conn rest →
    ∃ msgs, LogEntry.received conn msgs ∈ log ∧ ∀ msg ∈ rest, msg ∈ msgs
  redirecting : ∀ ip sgid, p.proto.phase = .redirecting ip sgid → SentAway log
  followed : 0 < p.proto.hops → SentAway log

theorem Led.append {log : List LogEntry} (h : p.Led log) (entries : List LogEntry) :
    p.Led (log ++ entries) := by
  refine ⟨?_, ?_, fun hhops => (h.followed hhops).append entries⟩
  · intro conn rest hpc
    rcases h.batch conn rest hpc with ⟨msgs, hreceived, hrest⟩
    exact ⟨msgs, List.mem_append_left _ hreceived, hrest⟩
  · intro ip sgid hpc
    exact (h.redirecting ip sgid hpc).append entries

theorem Led.of_proto_eq {log : List LogEntry} (h : p.Led log) (hproto : p'.proto = p.proto) :
    p'.Led log := by
  refine ⟨?_, ?_, ?_⟩ <;> rw [hproto]
  · exact h.batch
  · exact h.redirecting
  · exact h.followed

theorem Led.start (log : List LogEntry) (cfg : Config) (now : Instant) (name : String)
    (reconnect : Bool) : (Pass.start cfg now name reconnect : Pass O).Led log :=
  { batch := fun conn rest hpc => by cases hpc
    redirecting := fun ip sgid hpc => by cases hpc
    followed := fun hhops => absurd hhops (lt_irrefl 0) }

/-- A phase in which neither a batch nor a redirect is under way. -/
theorem Led.of_idle {log : List LogEntry} {phase : ProtoPhase} (hpc : p'.proto.phase = phase)
    (hbatch : ∀ conn rest, phase ≠ .forwarding conn rest)
    (hredirecting : ∀ ip sgid, phase ≠ .redirecting ip sgid)
    (hfollowed : 0 < p'.proto.hops → SentAway log) : p'.Led log := by
  refine ⟨?_, ?_, hfollowed⟩
  · intro conn rest hforwarding
    exact absurd (hpc.symm.trans hforwarding) (hbatch conn rest)
  · intro ip sgid hphase
    exact absurd (hpc.symm.trans hphase) (hredirecting ip sgid)

/-- The rest of a batch is part of the batch. -/
theorem Led.of_tail {log : List LogEntry} {conn : Connection} {msg : ServerMessage}
    {rest : List ServerMessage} (hp : p.Led log)
    (hpc : p.proto.phase = .forwarding conn (msg :: rest))
    (hpc' : p'.proto.phase = .forwarding conn rest) (hhops : p'.proto.hops = p.proto.hops) :
    p'.Led log := by
  refine ⟨?_, ?_, fun hfollowed => hp.followed (hhops ▸ hfollowed)⟩
  · intro conn' rest' hforwarding
    rw [hpc'] at hforwarding
    cases hforwarding
    rcases hp.batch conn _ hpc with ⟨msgs, hreceived, hrest⟩
    exact ⟨msgs, hreceived, fun m hm => hrest m (List.mem_cons_of_mem _ hm)⟩
  · intro ip sgid hphase
    rw [hpc'] at hphase
    cases hphase

theorem led_of_protoStep {log : List LogEntry} (h : ProtoStep cfg k now g p g' p' entries)
    (hp : p.Led log) : p'.Led (log ++ entries) := by
  have hfollowed : 0 < p.proto.hops → SentAway (log ++ entries) :=
    fun hhops => (hp.followed hhops).append entries
  cases h with
  | received msgs hpc hwire =>
      rename_i conn
      refine ⟨?_, ?_, hfollowed⟩
      · intro conn' rest hforwarding
        cases hforwarding
        exact ⟨msgs, List.mem_append_right _ (List.mem_cons_self ..), fun msg hmsg => hmsg⟩
      · intro ip sgid hphase
        cases hphase
  | skipServ hpc hip => exact (hp.append _).of_tail hpc rfl rfl
  | forward hpc hmsg hsend => exact (hp.append _).of_tail hpc rfl rfl
  | acceptServ hpc hip =>
      rename_i conn ip sgid rest
      rcases hp.batch conn _ hpc with ⟨msgs, hreceived, hrest⟩
      have haway : SentAway log :=
        ⟨conn, msgs, ip, sgid, hreceived, hrest _ (List.mem_cons_self ..), hip⟩
      refine ⟨?_, fun _ _ _ => haway.append [], hfollowed⟩
      intro conn' rest' hforwarding
      cases hforwarding
  | redirect hpc hsend =>
      refine .of_idle rfl nofun nofun ?_
      intro _
      exact (hp.redirecting _ _ hpc).append []
  | _ => exact .of_idle rfl nofun nofun hfollowed

theorem led_of_threadStep {log : List LogEntry} (h : ThreadStep cfg k now g p g' p' entries)
    (hp : p.Led log) : p'.Led (log ++ entries) := by
  rcases protoStep_or_frame h with hproto | ⟨hproto, _⟩
  · exact led_of_protoStep hproto hp
  · exact (hp.append entries).of_proto_eq hproto

end Pass

/-! ## Sessions -/

section Sessions

variable {O : Type} {cfg : Config} {s t : Process O} {entries : List LogEntry}

/-- At most one slim-proto thread is in its reconnect loop. -/
def Process.OneProtoThread (s : Process O) : Prop :=
  ∀ j ≤ s.current, ∀ k ≤ s.current, (s.passes j).ProtoAlive → (s.passes k).ProtoAlive → j = k

/-- The messages that have been received on the connection, without those that the slim-proto thread
keeps for itself. -/
def LogEntry.receivedOn (conn : Connection) : LogEntry → List ServerMessage
  | received conn' msgs => if conn' = conn then msgs.filter fun msg => ¬IsServ msg else []
  | _ => []

/-- The messages of the connection that have been handled. -/
def LogEntry.handledOn (conn : Connection) : LogEntry → List ServerMessage
  | handled _ receipt _ _ => if receipt.conn = conn then [receipt.msg] else []
  | _ => []

/-- The messages of the connection that wait for the event loop. -/
def Pass.waitingOn (conn : Connection) (p : Pass O) : List ServerMessage :=
  p.toMain.flatMap fun x => (x.toList.filter fun receipt => receipt.conn = conn).map Receipt.msg

/-- What has come on a connection opened for a redirect, in batches that the slim-proto thread is
done with, has been handled in order, but for what waits for the event loop. -/
def Process.RedirectsDelivered (s : Process O) : Prop :=
  ∀ conn, 0 < conn.hops → (s.passes conn.pass).proto.phase = .receiving conn →
    s.log.flatMap (LogEntry.receivedOn conn) =
      s.log.flatMap (LogEntry.handledOn conn) ++ s.pass.waitingOn conn

/-- While a connection opened for a redirect is in use, the messages of the event loop are written
there. -/
def Process.RedirectsAnswered (s : Process O) : Prop :=
  ∀ before conn hello after, s.log = before ++ LogEntry.opened conn hello :: after →
    0 < conn.hops → (s.passes conn.pass).proto.phase.conn? = some conn →
      ∀ conn' msg, LogEntry.wrote conn' s.current msg ∈ after → conn' = conn

/-- The player goes where it is sent. -/
structure Process.FollowsRedirects (s : Process O) : Prop where
  delivered : s.RedirectsDelivered
  answered : s.RedirectsAnswered
  one : s.OneProtoThread

/-- What an event loop and the passes before it have in common with the servers. -/
structure Process.Session (s : Process O) : Prop where
  attached : ∀ pending, s.main = .loop pending → s.pass.attached = true
  fresh : ∀ pending, s.main = .loop pending → s.pass.Fresh ∨ s.pass.toMain = [none]
  leaving : s.main = .resetting ∨ s.main = .leaving → s.pass.HasLeft
  left : ∀ k < s.current, (s.passes k).HasLeft

/-- In `select_timeout`, with something other than a `None` to receive, the pass is fresh. -/
theorem Process.Session.fresh_of_some (hs : s.Session) {pending : List Send}
    (hmain : s.main = .loop pending) {receipt : Receipt} {rest : List (Option Receipt)}
    (hqueue : s.pass.toMain = some receipt :: rest) : s.pass.Fresh := by
  rcases hs.fresh pending hmain with hfresh | hnone
  · exact hfresh
  · rw [hqueue] at hnone
    cases hnone

theorem Process.Session.start (cfg : Config) (now : Instant) (hostname : Option String) :
    (Process.start cfg now hostname : Process O).Session :=
  { attached := fun _ _ => rfl
    fresh := fun _ _ => Or.inl ⟨rfl, fun x hx => absurd hx List.not_mem_nil⟩
    leaving := by
      rintro (hresetting | hleaving)
      · cases hresetting
      · cases hleaving
    left := fun k hk => absurd hk (Nat.not_lt_zero k) }

theorem session_of_threadStep {k : Nat} {g' : Globals} {p' : Pass O}
    (hwired : (s.passes k).Wired cfg k) (hs : s.Session)
    (h : ThreadStep cfg k s.now s.globals (s.passes k) g' p' entries) :
    (({ s.setPass k p' with globals := g' } : Process O).record entries).Session := by
  have hleft : ∀ j, (s.passes j).HasLeft → ((s.setPass k p').passes j).HasLeft := by
    intro j hj
    exact Process.setPass_induction (Pass.hasLeft_of_threadStep h) hj
  refine ⟨?_, ?_, fun hmain => hleft _ (hs.leaving hmain), fun j hj => hleft j (hs.left j hj)⟩
  · intro pending hmain
    show ((s.setPass k p').passes s.current).attached = true
    by_cases hk : s.current = k
    · subst hk
      rw [Process.setPass_passes_self, Pass.attached_of_threadStep h]
      exact hs.attached pending hmain
    · rw [Process.setPass_passes_of_ne _ _ hk]
      exact hs.attached pending hmain
  · intro pending hmain
    show ((s.setPass k p').passes s.current).Fresh ∨ ((s.setPass k p').passes s.current).toMain = _
    by_cases hk : s.current = k
    · subst hk
      rw [Process.setPass_passes_self]
      exact Pass.fresh_of_threadStep h hwired (hs.attached pending hmain) (hs.fresh pending hmain)
    · rw [Process.setPass_passes_of_ne _ _ hk]
      exact hs.fresh pending hmain

/-- `main` stays in its event loop, and what it does to the pass is no concern of the slim-proto
thread. -/
theorem Process.Session.stay (hs : s.Session) {p : Pass O} {g : Globals} {pending sends : List Send}
    (hmain : s.main = .loop pending) (hattached : p.attached = s.pass.attached)
    (hfresh : p.Fresh ∨ p.toMain = [none]) :
    ({ s.setPass s.current p with
        globals := g
        main := .loop sends } : Process O).Session := by
  refine ⟨?_, ?_, ?_, ?_⟩
  · intro _ _
    show ((s.setPass s.current p).passes s.current).attached = true
    rw [Process.setPass_passes_self, hattached]
    exact hs.attached pending hmain
  · intro _ _
    show ((s.setPass s.current p).passes s.current).Fresh ∨
      ((s.setPass s.current p).passes s.current).toMain = [none]
    rw [Process.setPass_passes_self]
    exact hfresh
  · rintro (hresetting | hleaving)
    · cases hresetting
    · cases hleaving
  · intro k hk
    have hne : k ≠ s.current := Nat.ne_of_lt hk
    show ((s.setPass s.current p).passes k).HasLeft
    rw [Process.setPass_passes_of_ne _ _ hne]
    exact hs.left k hk

/-- On the way out of an event loop only the slim-proto thread's leaving counts. -/
theorem Process.Session.leave (hs : s.Session) {p : Pass O} {main : MainPhase} {reconnect : Bool}
    (hmain : ∀ pending, main ≠ .loop pending) (hleft : p.HasLeft) :
    ({ s.setPass s.current p with
        main := main
        reconnect := reconnect } : Process O).Session := by
  refine ⟨?_, ?_, ?_, ?_⟩
  · intro pending hloop
    exact absurd hloop (hmain pending)
  · intro pending hloop
    exact absurd hloop (hmain pending)
  · intro _
    show ((s.setPass s.current p).passes s.current).HasLeft
    rw [Process.setPass_passes_self]
    exact hleft
  · intro k hk
    have hne : k ≠ s.current := Nat.ne_of_lt hk
    show ((s.setPass s.current p).passes k).HasLeft
    rw [Process.setPass_passes_of_ne _ _ hne]
    exact hs.left k hk

theorem Process.Session.restart (hs : s.Session) (hmain : s.main = .leaving) {now : Instant}
    {name : String} :
    ({ (s.setPass s.current s.pass.detach).setPass (s.current + 1)
          (Pass.start cfg now name s.reconnect) with
        current := s.current + 1
        main := .loop [] } : Process O).Session := by
  refine ⟨?_, ?_, ?_, ?_⟩
  · intro _ _
    show (((s.setPass _ _).setPass (s.current + 1) _).passes (s.current + 1)).attached = true
    rw [Process.setPass_passes_self]
    rfl
  · intro _ _
    show (((s.setPass _ _).setPass (s.current + 1) _).passes (s.current + 1)).Fresh ∨ _
    rw [Process.setPass_passes_self]
    exact Or.inl ⟨rfl, fun x hx => absurd hx List.not_mem_nil⟩
  · rintro (hresetting | hleaving)
    · cases hresetting
    · cases hleaving
  · intro k hk
    show (((s.setPass s.current s.pass.detach).setPass (s.current + 1) _).passes k).HasLeft
    rw [Process.setPass_passes_of_ne _ _ (Nat.ne_of_lt hk)]
    rcases Nat.lt_succ_iff_lt_or_eq.1 hk with hold | hlast
    · rw [Process.setPass_passes_of_ne _ _ (Nat.ne_of_lt hold)]
      exact hs.left k hold
    · subst hlast
      rw [Process.setPass_passes_self]
      exact hs.leaving (Or.inr hmain)

end Sessions

section Main

variable {O : Type} [AudioOutput O] {cfg : Config} {s t : Process O} {entries : List LogEntry}

theorem session_of_mainStep (hwired : s.pass.Wired cfg s.current) (hs : s.Session)
    (h : MainStep cfg s t entries) : t.Session := by
  cases h with
  | serverMessage opened hmain hqueue hdone =>
      rename_i receipt rest done
      have hfresh := hs.fresh_of_some hmain hqueue
      refine hs.stay hmain rfl (Or.inl ⟨hfresh.1, ?_⟩)
      intro x hx
      exact hfresh.2 x ((mem_toMain_of_cons hqueue).2 x hx)
  | playerMessage hmain hqueue hdone => exact hs.stay hmain rfl (hs.fresh _ hmain)
  | timeout hmain hserver hstream hdone => exact hs.stay hmain rfl (hs.fresh _ hmain)
  | sendToServer hmain hsend => exact hs.stay hmain rfl (hs.fresh _ hmain)
  | sendToSelf hmain hsend => exact hs.stay hmain rfl (hs.fresh _ hmain)
  | lost hmain hqueue =>
      rename_i rest
      have hleft : s.pass.HasLeft := hwired.notices none (mem_toMain_of_cons hqueue).1 rfl
      refine hs.leave ?_ hleft
      intro pending hloop
      cases hloop
  | disconnected hmain hqueue hended =>
      refine ⟨?_, ?_, ?_, hs.left⟩
      · intro pending hloop
        cases hloop
      · intro pending hloop
        cases hloop
      · rintro (hresetting | hleaving)
        · cases hresetting
        · cases hleaving
  | bye hmain hsend =>
      refine hs.leave ?_ (hs.leaving (Or.inl hmain))
      intro pending hloop
      cases hloop
  | restart hostname hmain => exact hs.restart hmain

theorem session (h : (system O cfg).Reachable s) : s.Session := by
  refine System.Reachable.invariant Process.Session ?_ ?_ h
  · rintro s ⟨now, hostname, rfl⟩
    exact .start cfg now hostname
  · intro s t hs ih hstep
    cases hstep with
    | main hmoved =>
        have hkept := session_of_mainStep (wired hs _) ih hmoved
        exact ⟨hkept.attached, hkept.fresh, hkept.leaving, hkept.left⟩
    | thread hrun hk hmoved => exact session_of_threadStep (wired hs _) ih hmoved
    | tick d => exact ⟨ih.attached, ih.fresh, ih.leaving, ih.left⟩

/-! ## The record -/

/-- Whatever an event loop handles has come on the connection its slim-proto thread has opened
without being told to by a server. -/
theorem handled_receipt (h : (system O cfg).Reachable s) {now : Instant} {receipt : Receipt}
    {sends : List Send} {spawns : List Spawn}
    (hmem : LogEntry.handled now receipt sends spawns ∈ s.log) :
    receipt.conn.hops = 0 ∧ receipt.conn.Chosen cfg ∧ ¬IsServ receipt.msg := by
  refine forall_log (Q := fun e => ∀ now receipt sends spawns,
    e = .handled now receipt sends spawns →
      receipt.conn.hops = 0 ∧ receipt.conn.Chosen cfg ∧ ¬IsServ receipt.msg) h ?_ ?_ _ hmem
    now receipt sends spawns rfl
  · rintro s k g' p' entries _ hstep e he now receipt sends spawns rfl
    exact absurd trivial (not_byMain_of_threadStep hstep _ he)
  · rintro s t entries hs hstep e he now receipt sends spawns rfl
    have hhandled := handled_of_mainStep hstep he
    rcases hhandled.queue with ⟨rest, hqueue⟩
    have hmem := (mem_toMain_of_cons hqueue).1
    have hfresh := (session hs).fresh_of_some hhandled.main hqueue
    have hreceipt := (wired hs _).receipts _ hmem receipt rfl
    exact ⟨hfresh.2 _ hmem receipt rfl, hreceipt.2⟩

/-- What is written on a connection comes from the event loop of its own pass. -/
theorem sender_eq_pass (h : (system O cfg).Reachable s) {conn : Connection} {sender : Nat}
    {msg : ClientMessage} (hmem : LogEntry.wrote conn sender msg ∈ s.log) : sender = conn.pass := by
  refine forall_log (Q := fun e => ∀ conn sender msg, e = .wrote conn sender msg →
    sender = conn.pass) h ?_ ?_ _ hmem conn sender msg rfl
  · rintro s k g' p' entries hs hstep e he conn sender msg rfl
    cases hstep with
    | proto hstep => cases hstep <;> simp_all only
        [List.mem_singleton, List.not_mem_nil, reduceCtorEq]
    | connect hstep => cases hstep <;> simp_all
    | timer hstep => exact absurd he List.not_mem_nil
    | backend hstep => exact absurd he List.not_mem_nil
    | writer hstep =>
        cases hstep with
        | written hthread =>
            cases List.mem_singleton.1 he
            have hwriter := (wired hs k).writers _ hthread.mem
            exact (hwriter.2 _ rfl).trans hwriter.1.symm
        | _ => exact absurd he List.not_mem_nil
  · rintro s t entries _ hstep e he conn sender msg rfl
    exact (byMain_of_mainStep hstep _ he).elim

/-- Starting the next event loop leaves the slim-proto thread of the last one to itself. -/
theorem protoAlive_of_restart (h : Step cfg s t) (hnext : s.current < t.current) :
    (t.passes t.current).ProtoAlive ∧
      ((t.passes s.current).ProtoAlive ↔ (s.passes s.current).ProtoAlive) := by
  cases h with
  | main hmoved =>
      cases hmoved with
      | restart hostname hmain =>
          refine ⟨?_, ?_⟩
          · show (((s.setPass _ _).setPass (s.current + 1) _).passes (s.current + 1)).ProtoAlive
            rw [Process.setPass_passes_self]
            intro hended
            cases hended
          · show (((s.setPass _ _).setPass (s.current + 1) _).passes s.current).ProtoAlive ↔ _
            rw [Process.setPass_passes_of_ne _ _ (Nat.succ_ne_self _).symm,
              Process.setPass_passes_self]
            exact Iff.rfl
      | _ => exact absurd hnext (lt_irrefl _)
  | thread hrun hk hmoved => exact absurd hnext (lt_irrefl _)
  | tick d => exact absurd hnext (lt_irrefl _)

theorem protoThread_of_mainStep (h : MainStep cfg s t entries) :
    (t.passes s.current).proto = s.pass.proto := by
  cases h with
  | serverMessage | playerMessage | timeout =>
      rw [Process.finish_passes_self]
      rfl
  | disconnected hmain hqueue hended => rfl
  | restart hostname hmain =>
      dsimp only
      rw [Process.setPass_passes_of_ne _ _ (Nat.succ_ne_self _).symm, Process.setPass_passes_self]
      rfl
  | _ =>
      dsimp only
      rw [Process.setPass_passes_self]

theorem led (h : (system O cfg).Reachable s) (k : Nat) : (s.passes k).Led s.log := by
  refine forall_pass_log (P := fun _ log p => p.Led log) h ?_ ?_ ?_ ?_ k
  · intro k log now name reconnect
    exact .start log cfg now name reconnect
  · intro k log entries p hp
    exact hp.append entries
  · intro s k g' p' entries _ hp hmoved
    exact Pass.led_of_threadStep hmoved hp
  · intro s t entries _ hp hmoved
    exact (hp.append entries).of_proto_eq (protoThread_of_mainStep hmoved)

/-- Without a redirect there is nothing to follow, and the thread of an event loop ends before the
next one is started. -/
theorem followsRedirects_of_not_sentAway (h : (system O cfg).Reachable s) (hlog : ¬SentAway s.log) :
    s.FollowsRedirects := by
  have hhops : ∀ k, ¬0 < (s.passes k).proto.hops := fun k hk => hlog ((led h k).followed hk)
  have hconn : ∀ conn, (s.passes conn.pass).proto.phase.conn? = some conn → ¬0 < conn.hops := by
    intro conn hphase
    rw [((wired h conn.pass).proto.conn conn hphase).2.1]
    exact hhops conn.pass
  have hended : ∀ k < s.current, ¬(s.passes k).ProtoAlive := by
    intro k hk
    rcases (session h).left k hk with hended | hfollowed
    · exact hended
    · exact absurd hfollowed (hhops k)
  refine ⟨?_, ?_, ?_⟩
  · intro conn hredirected hphase
    exact absurd hredirected (hconn conn (by rw [hphase]; rfl))
  · intro before conn hello after _ hredirected hphase
    exact absurd hredirected (hconn conn hphase)
  · intro j hj k hk hjalive hkalive
    -- Only the last thread can be alive.
    have hjlast : ¬j < s.current := fun hlt => hended j hlt hjalive
    have hklast : ¬k < s.current := fun hlt => hended k hlt hkalive
    omega

/-- **What becomes of redirects**, in every reachable state.

* As long as no server has sent the player away, redirects are followed as they should be.
* But no message that has come on a connection opened for a redirect is ever handled,
* and a message of an event loop has only been written to connections of its own pass, so that the
  messages of an event loop started after a redirect do not go to the server redirected to.
* Slim-proto threads of earlier passes are alive only when they have followed a redirect,
* and the one that has just done so goes on when `main` starts the next event loop, with a
  slim-proto thread of its own. -/
theorem redirect_never_followed (h : (system O cfg).Reachable s) :
    (¬SentAway s.log → s.FollowsRedirects) ∧
    (∀ now receipt sends spawns, LogEntry.handled now receipt sends spawns ∈ s.log →
      receipt.conn.hops = 0) ∧
    (∀ conn sender msg, LogEntry.wrote conn sender msg ∈ s.log → sender = conn.pass) ∧
    (∀ k < s.current, (s.passes k).ProtoAlive → 0 < (s.passes k).proto.hops) ∧
    ∀ t, Step cfg s t → s.current < t.current →
      (t.passes t.current).ProtoAlive ∧
        ((t.passes s.current).ProtoAlive ↔ (s.passes s.current).ProtoAlive) := by
  refine ⟨followsRedirects_of_not_sentAway h, ?_, ?_, ?_, ?_⟩
  · intro now receipt sends spawns hmem
    exact (handled_receipt h hmem).1
  · intro conn sender msg hmem
    exact sender_eq_pass h hmem
  · intro k hk halive
    rcases (session h).left k hk with hended | hhops
    · exact absurd halive hended
    · exact hhops
  · intro t hstep hnext
    exact protoAlive_of_restart hstep hnext

end Main

/-! ## A run -/

/-- The player is started with the address of its server. -/
def cliConfig : Config :=
  { cliServer := some { ip := .new 10 0 0 1, port := SLIM_PORT }
    name := "Vibe"
    outputSystem := "pulse"
    mac := Vector.replicate 6 0
    version := "1" }

/-- The messages of a batch are given by their encodings. -/
theorem forall_onWire (msgs : List ServerMessage)
    (h : ∀ msg ∈ msgs, ServerMessage.Representable msg) : ∀ msg ∈ msgs, msg.OnWire :=
  fun msg hmsg => ServerMessage.onWire_of_representable (h msg hmsg)

/-- The requests for the name. -/
theorem onWire_queryname (n : Nat) :
    ∀ msg ∈ List.replicate n .queryname, ServerMessage.OnWire msg := by
  refine forall_onWire _ ?_
  intro msg hmsg
  rw [List.eq_of_mem_replicate hmsg]
  exact trivial

theorem onWire_serv (ip : Ipv4Addr) : ∀ msg ∈ [.serv ip none], ServerMessage.OnWire msg := by
  refine forall_onWire _ ?_
  intro msg hmsg
  rw [List.mem_singleton.1 hmsg]
  intro group hgroup
  cases hgroup

def otherIp : Ipv4Addr := .new 10 0 0 2

/-- The connection opened for the redirect. -/
def redirected : Connection :=
  { pass := 0
    hops := 1
    sock := { ip := otherIp, port := SLIM_PORT } }

/-- The server sends the player to `otherIp`, the event loop starts anew, and the new slim-proto
thread is back at the first server when `otherIp` asks for the player's name. -/
theorem exists_redirected : ∃ s : Process PulseOutput,
    (system PulseOutput cliConfig).Reachable s ∧ s.current = 1 ∧ (s.passes 0).ProtoAlive ∧
      (s.passes 1).ProtoAlive ∧ ¬s.RedirectsDelivered ∧ ¬s.RedirectsAnswered := by
  have h0 : (system PulseOutput cliConfig).Reachable (Process.start cliConfig 0 none) :=
    .init ⟨0, none, rfl⟩
  -- The first thread follows the redirect.
  have h1 := reachable_of_threadRun h0 Step.thread nofun (le_refl 0)
    (.cons (.proto (.hello rfl)) <|
      .cons (.proto (.takeCli rfl rfl rfl)) <|
      .cons (.proto (.connect rfl)) <|
      .cons (.proto (.received [.serv otherIp none] rfl (onWire_serv otherIp))) <|
      .cons (.proto (.acceptServ rfl (by decide))) <|
      .cons (.proto (.redirect rfl (.queued rfl (by decide)))) <|
      .cons (.proto (.hello rfl)) <|
      .cons (.proto (.takeNew rfl rfl)) <|
      .cons (.proto (.connect rfl)) .nil)
  -- The event loop receives the `None`, and `main` starts over.
  have h2 := h1.step (.main (.lost rfl rfl))
  have h3 := h2.step (.main (.bye rfl (.queued (Or.inl nofun) (by decide))))
  have h4 := h3.step (.main (.restart none rfl))
  have h5 := reachable_of_threadRun h4 Step.thread nofun (le_refl 1)
    (.cons (.proto (.hello rfl)) <|
      .cons (.proto (.takeCli rfl rfl rfl)) <|
      .cons (.proto (.connect rfl)) .nil)
  -- What comes from the new server now is dropped.
  have h6 := reachable_of_threadRun h5 Step.thread nofun (Nat.zero_le 1)
    (.cons (.proto (.received [.queryname] rfl (onWire_queryname 1))) <|
      .cons (.proto (.forward rfl id (.dropped nofun))) <|
      .cons (.proto (.batchDone rfl)) .nil)
  -- And the first one gets the report of the event loop.
  have h7 := h6.step (.main (.timeout rfl rfl rfl rfl))
  have h8 := h7.step (.main (.sendToServer rfl (.queued (Or.inl nofun) (by decide))))
  have h9 := reachable_of_threadRun h8 Step.thread nofun (le_refl 1)
    (.cons (.writer (.take rfl (.mk [] []))) <| .cons (.writer (.written (.mk [] []))) .nil)
  refine ⟨_, h9, rfl, nofun, nofun, ?_, ?_⟩
  · intro hdelivered
    have hlost := hdelivered redirected Nat.zero_lt_one rfl
    have hlength := congrArg List.length hlost
    exact absurd hlength (by decide)
  · intro hanswered
    have hconn := hanswered [_, _] redirected _ _ rfl Nat.zero_lt_one rfl _ _
      (List.mem_of_getElem? (show _[4]? = _ from rfl))
    exact absurd hconn (by decide)

/-- After the redirect the first thread is alive next to the one of the running event loop. -/
theorem redirect_never_followed_redirected : ∃ s : Process PulseOutput,
    (system PulseOutput cliConfig).Reachable s ∧ s.current = 1 ∧ (s.passes 1).ProtoAlive ∧
      (s.passes 0).ProtoAlive ∧ 0 < (s.passes 0).proto.hops := by
  rcases exists_redirected with ⟨s, hs, hcurrent, hfirst, hsecond, _⟩
  have hfollowed := (redirect_never_followed hs).2.2.2.1 0 (by rw [hcurrent]; exact Nat.zero_lt_one)
  exact ⟨s, hs, hcurrent, hsecond, hfirst, hfollowed hfirst⟩

/-- The redirect leaves two slim-proto threads behind, what the new server sends is lost, and it is
not told anything. -/
theorem redirect_not_followed : ∃ s : Process PulseOutput,
    (system PulseOutput cliConfig).Reachable s ∧ ¬s.OneProtoThread ∧ ¬s.RedirectsDelivered ∧
      ¬s.RedirectsAnswered := by
  rcases exists_redirected with ⟨s, hs, hcurrent, hfirst, hsecond, hlost, hunanswered⟩
  refine ⟨s, hs, ?_, hlost, hunanswered⟩
  intro hone
  have hsame := hone 0 (Nat.zero_le _) 1 (le_of_eq hcurrent.symm) hfirst hsecond
  exact absurd hsame Nat.zero_ne_one

end Vibe
end LmsPlayer
