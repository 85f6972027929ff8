import LmsPlayer.Vibe.Delivery

/-!
# Vibe.Greeting — what the HELO of a connection says

The slim-proto thread makes the HELO at the top of its reconnect loop, before it knows the server it
is going to connect to.  When it has been redirected, the HELO asks for the sync group that the Serv
message has named, and the thread forgets about the group at once: a HELO for a second attempt at
the same server does not ask for it any more.

In every run, the HELO of a connection is one for a reconnect except on the very first connections
of the program, and the sync group it asks for is that of the Serv message that has led to its
server.
-/

namespace LmsPlayer
namespace Vibe

open LmsProto
open TransitionSystem (System)

/-! ## The Serv message that leads to a connection -/

/-- A server has been read that sends the slim-proto thread of the pass `k` on to `sock`, as its
redirect number `hops`, and into the sync group. -/
def LedTo (log : List LogEntry) (k hops : Nat) (sock : SocketAddrV4) (sgid : Option String) :
    Prop :=
  ∃ conn msgs ip, LogEntry.received conn msgs ∈ log ∧ conn.pass = k ∧ conn.hops + 1 = hops ∧
    ServerMessage.serv ip sgid ∈ msgs ∧ Acceptable ip ∧ sock = { ip := ip, port := SLIM_PORT }

theorem LedTo.append {log : List LogEntry} {k hops : Nat} {sock : SocketAddrV4}
    {sgid : Option String} (h : LedTo log k hops sock sgid) (entries : List LogEntry) :
    LedTo (log ++ entries) k hops sock sgid := by
  rcases h with ⟨conn, msgs, ip, hreceived, hrest⟩
  exact ⟨conn, msgs, ip, List.mem_append_left _ hreceived, hrest⟩

/-- The sync group to ask for on the way to `sock`: none, unless a Serv message has led there and
has named one. -/
def Asks (log : List LogEntry) (k hops : Nat) (sock : Option SocketAddrV4)
    (syncGroupId : Option String) : Prop :=
  hops = 0 ∧ syncGroupId = none ∨
    ∃ target sgid, sock = some target ∧ LedTo log k hops target sgid ∧
      (syncGroupId = none ∨ syncGroupId = sgid)

theorem Asks.append {log : List LogEntry} {k hops : Nat} {sock : Option SocketAddrV4}
    {syncGroupId : Option String} (h : Asks log k hops sock syncGroupId) (entries : List LogEntry) :
    Asks (log ++ entries) k hops sock syncGroupId := by
  rcases h with hfirst | ⟨target, sgid, hsock, hled, hgroup⟩
  · exact Or.inl hfirst
  · exact Or.inr ⟨target, sgid, hsock, hled.append entries, hgroup⟩

/-- The group is forgotten. -/
theorem Asks.forget {log : List LogEntry} {k hops : Nat} {sock : Option SocketAddrV4}
    {syncGroupId : Option String} (h : Asks log k hops sock syncGroupId) :
    Asks log k hops sock none := by
  rcases h with ⟨hhops, _⟩ | ⟨target, sgid, hsock, hled, _⟩
  · exact Or.inl ⟨hhops, rfl⟩
  · exact Or.inr ⟨target, sgid, hsock, hled, Or.inl rfl⟩

/-- Before the first redirect, the address does not matter. -/
theorem Asks.of_first {log : List LogEntry} {k hops : Nat} {sock sock' : Option SocketAddrV4}
    {syncGroupId : Option String} (h : Asks log k hops sock syncGroupId) (hsock : sock = none) :
    Asks log k hops sock' syncGroupId := by
  rcases h with hfirst | ⟨target, sgid, htarget, _⟩
  · exact Or.inl hfirst
  · rw [hsock] at htarget
    cases htarget

/-- The HELO of a slim-proto thread that asks for this sync group. -/
structure Hello.For (cfg : Config) (reconnect : Bool) (syncGroupId : Option String)
    (hello : Hello) : Prop where
  deviceId : hello.deviceId = SQUEEZEPLAY_ID
  mac : hello.mac = cfg.mac
  reconnect : hello.reconnect = reconnect
  caps : hello.caps = capabilities cfg syncGroupId
  /-- What is not set is as `Hello::new` has it. -/
  unset : hello.revision = Hello.new.revision ∧ hello.uuid = Hello.new.uuid ∧
    hello.wlanChannelList = Hello.new.wlanChannelList ∧ hello.language = Hello.new.language

/-! ## The slim-proto thread -/

/-- What the thread of the pass `k` is about to say to the server it is about to connect to. -/
structure ProtoThread.Heads (cfg : Config) (k : Nat) (log : List LogEntry) (t : ProtoThread) :
    Prop where
  reconnect : t.reconnect = true ↔ 0 < k ∨ 0 < t.hops
  top : t.phase = .top → Asks log k t.hops t.newServerSock t.syncGroupId
  choosing : ∀ hello, t.phase = .choosing hello → t.syncGroupId = none ∧
    ∃ sg, Hello.For cfg t.reconnect sg hello ∧ Asks log k t.hops t.newServerSock sg
  connecting : ∀ hello sock, t.phase = .connecting hello sock → t.syncGroupId = none ∧
    ∃ sg, Hello.For cfg t.reconnect sg hello ∧ Asks log k t.hops (some sock) sg
  redirecting : ∀ ip sgid, t.phase = .redirecting ip sgid →
    LedTo log k (t.hops + 1) { ip := ip, port := SLIM_PORT } sgid

namespace ProtoThread

variable {cfg : Config} {k : Nat} {log : List LogEntry} {t t' : ProtoThread}

theorem Heads.append (h : t.Heads cfg k log) (entries : List LogEntry) :
    t.Heads cfg k (log ++ entries) := by
  refine ⟨h.reconnect, fun hpc => (h.top hpc).append entries, ?_, ?_, ?_⟩
  · intro hello hpc
    rcases h.choosing hello hpc with ⟨hnone, sg, hfor, hasks⟩
    exact ⟨hnone, sg, hfor, hasks.append entries⟩
  · intro hello sock hpc
    rcases h.connecting hello sock hpc with ⟨hnone, sg, hfor, hasks⟩
    exact ⟨hnone, sg, hfor, hasks.append entries⟩
  · intro ip sgid hpc
    exact (h.redirecting ip sgid hpc).append entries

/-- On a connection, or behind it, the thread is about to say nothing. -/
theorem Heads.setPhase (h : t.Heads cfg k log) {phase : ProtoPhase} (htop : phase ≠ .top)
    (hchoosing : ∀ hello, phase ≠ .choosing hello)
    (hconnecting : ∀ hello sock, phase ≠ .connecting hello sock)
    (hredirecting : ∀ ip sgid, phase = .redirecting ip sgid →
      LedTo log k (t.hops + 1) { ip := ip, port := SLIM_PORT } sgid) :
    ({ t with phase := phase } : ProtoThread).Heads cfg k log :=
  { reconnect := h.reconnect
    top := fun hpc => absurd hpc htop
    choosing := fun hello hpc => absurd hpc (hchoosing hello)
    connecting := fun hello sock hpc => absurd hpc (hconnecting hello sock)
    redirecting := hredirecting }

/-- The thread is back at the top of its loop. -/
theorem Heads.of_top (hreconnect : t.reconnect = true ↔ 0 < k ∨ 0 < t.hops) (hpc : t.phase = .top)
    (htop : Asks log k t.hops t.newServerSock t.syncGroupId) : t.Heads cfg k log := by
  refine ⟨hreconnect, fun _ => htop, ?_, ?_, ?_⟩
  · intro hello hchoosing
    cases hpc.symm.trans hchoosing
  · intro hello sock hconnecting
    cases hpc.symm.trans hconnecting
  · intro ip sgid hredirecting
    cases hpc.symm.trans hredirecting

/-- The thread knows the server it is going to connect to. -/
theorem Heads.connect (h : t.Heads cfg k log) {hello : Hello} (hpc : t.phase = .choosing hello)
    {sock : SocketAddrV4} {newServerSock : Option SocketAddrV4}
    (hsock : t.newServerSock = none ∨ t.newServerSock = some sock) :
    ({ t with
        newServerSock := newServerSock
        phase := .connecting hello sock } : ProtoThread).Heads cfg k log := by
  rcases h.choosing hello hpc with ⟨hnone, sg, hfor, hasks⟩
  refine ⟨h.reconnect, nofun, nofun, ?_, nofun⟩
  intro hello' sock' hconnecting
  cases hconnecting
  refine ⟨hnone, sg, hfor, ?_⟩
  rcases hsock with hfirst | hnext
  · exact hasks.of_first hfirst
  · rw [← hnext]
    exact hasks

end ProtoThread

/-- The HELO on the connection says whether the player is coming back, and asks for the sync group
that it has been sent into. -/
def Greeted (cfg : Config) (log : List LogEntry) (conn : Connection) (hello : Hello) : Prop :=
  (hello.reconnect = true ↔ 0 < conn.pass ∨ 0 < conn.hops) ∧
    ∃ sg, Hello.For cfg hello.reconnect sg hello ∧ Asks log conn.pass conn.hops (some conn.sock) sg

theorem Greeted.append {cfg : Config} {log : List LogEntry} {conn : Connection} {hello : Hello}
    (h : Greeted cfg log conn hello) (entries : List LogEntry) :
    Greeted cfg (log ++ entries) conn hello := by
  rcases h with ⟨hreconnect, sg, hfor, hasks⟩
  exact ⟨hreconnect, sg, hfor, hasks.append entries⟩

namespace Pass

variable {O : Type} {cfg : Config} {k : Nat} {now : Instant} {g g' : Globals} {p p' : Pass O}
  {entries log : List LogEntry}

theorem heads_of_protoStep (h : ProtoStep cfg k now g p g' p' entries) (hwired : p.Wired cfg k)
    (hled : p.Led log) (hp : p.proto.Heads cfg k log) : p'.proto.Heads cfg k (log ++ entries) := by
  have hkept := hp.append entries
  cases h with
  | hello hpc =>
      refine ⟨hkept.reconnect, nofun, ?_, nofun, nofun⟩
      intro hello hchoosing
      cases hchoosing
      exact ⟨rfl, p.proto.syncGroupId, ⟨rfl, rfl, rfl, rfl, rfl, rfl, rfl, rfl⟩, hkept.top hpc⟩
  | takeNew hpc hnew => exact hkept.connect hpc (Or.inr hnew)
  | takeCli hpc hnew hcli => exact hkept.connect hpc (Or.inl hnew)
  | discover ip hpc hnew hcli => exact hkept.connect hpc (Or.inl hnew)
  | notDiscovered hpc hnew hcli =>
      -- The group has been taken for the HELO that is thrown away here.
      rcases hkept.choosing _ hpc with ⟨hnone, sg, _, hasks⟩
      refine .of_top hkept.reconnect rfl ?_
      show Asks _ k p.proto.hops p.proto.newServerSock p.proto.syncGroupId
      rw [hnone]
      exact hasks.forget
  | connectFailed hpc =>
      rename_i hello sock
      rcases hkept.connecting _ _ hpc with ⟨hnone, sg, _, hasks⟩
      refine .of_top hkept.reconnect rfl ?_
      show Asks _ k p.proto.hops (some sock) p.proto.syncGroupId
      rw [hnone]
      exact hasks.forget
  | acceptServ hpc hip =>
      rename_i conn ip sgid rest
      refine hkept.setPhase nofun nofun nofun ?_
      intro ip' sgid' hredirecting
      cases hredirecting
      have hconn := hwired.proto.conn conn (by rw [hpc]; rfl)
      rcases hled.batch conn _ hpc with ⟨msgs, hreceived, hrest⟩
      exact ⟨conn, msgs, ip, List.mem_append_left _ hreceived, hconn.1,
        congrArg (· + 1) hconn.2.1, hrest _ (List.mem_cons_self ..), hip, rfl⟩
  | redirect hpc hsend =>
      rename_i ip sgid queue
      -- From here on, every HELO of the thread is one for a reconnect.
      refine .of_top ⟨fun _ => Or.inr (Nat.succ_pos _), fun _ => rfl⟩ rfl ?_
      exact Or.inr ⟨_, sgid, rfl, hkept.redirecting ip sgid hpc, Or.inr rfl⟩
  | connect hpc => exact hkept.setPhase nofun nofun nofun nofun
  | _ => exact hkept.setPhase nofun nofun nofun nofun

theorem heads_of_threadStep (h : ThreadStep cfg k now g p g' p' entries) (hwired : p.Wired cfg k)
    (hled : p.Led log) (hp : p.proto.Heads cfg k log) : p'.proto.Heads cfg k (log ++ entries) := by
  rcases protoStep_or_frame h with hproto | ⟨hsame, _⟩
  · exact heads_of_protoStep hproto hwired hled hp
  · rw [hsame]
    exact hp.append entries

/-- A connection is opened with the HELO of its slim-proto thread. -/
theorem greeted_of_threadStep (h : ThreadStep cfg k now g p g' p' entries)
    (hp : p.proto.Heads cfg k log) {conn : Connection} {hello : Hello}
    (hopened : LogEntry.opened conn hello ∈ entries) : Greeted cfg log conn hello := by
  cases h with
  | proto h =>
      cases h with
      | connect hpc =>
          cases List.mem_singleton.1 hopened
          rcases hp.connecting _ _ hpc with ⟨_, sg, hfor, hasks⟩
          have hreconnect := hp.reconnect
          rw [← hfor.reconnect] at hreconnect hfor
          exact ⟨hreconnect, sg, hfor, hasks⟩
      | received msgs hpc hwire => cases List.mem_singleton.1 hopened
      | _ => exact absurd hopened List.not_mem_nil
  | writer h =>
      cases h with
      | written hthread => cases List.mem_singleton.1 hopened
      | _ => exact absurd hopened List.not_mem_nil
  | connect h =>
      cases h with
      | dial hpc hthread => cases List.mem_singleton.1 hopened
      | dialFailed hpc hthread => cases List.mem_singleton.1 hopened
      | _ => exact absurd hopened List.not_mem_nil
  | timer h => exact absurd hopened List.not_mem_nil
  | backend h => exact absurd hopened List.not_mem_nil

end Pass

/-! ## Runs -/

/-- What the slim-proto threads say, and what they have said. -/
structure Process.Heads {O : Type} (cfg : Config) (s : Process O) : Prop where
  reconnect : s.main = .leaving → s.reconnect = true
  threads : ∀ k ≤ s.current, (s.passes k).proto.Heads cfg k s.log
  opened : ∀ n conn hello, s.log[n]? = some (.opened conn hello) →
    Greeted cfg (s.log.take n) conn hello

section Main

variable {O : Type} [AudioOutput O] {cfg : Config} {s t : Process O} {entries : List LogEntry}

omit [AudioOutput O] in
/-- The record grows, and what has been said about a connection stays. -/
theorem Process.Heads.opened_append (hs : s.Heads cfg)
    (hnew : ∀ conn hello, LogEntry.opened conn hello ∈ entries → Greeted cfg s.log conn hello)
    (n : Nat) (conn : Connection) (hello : Hello)
    (hopened : (s.log ++ entries)[n]? = some (.opened conn hello)) :
    Greeted cfg ((s.log ++ entries).take n) conn hello := by
  rcases Nat.lt_or_ge n s.log.length with hlt | hge
  · rw [List.getElem?_append_left hlt] at hopened
    rw [List.take_append_of_le_length hlt.le]
    exact hs.opened n conn hello hopened
  · rw [List.getElem?_append_right hge] at hopened
    rw [List.take_append, List.take_of_length_le hge]
    exact (hnew conn hello (List.mem_of_getElem? hopened)).append _

/-- `main` has no say in what the threads it has started are going to do. -/
theorem proto_of_le (h : MainStep cfg s t entries) {k : Nat} (hk : k ≤ s.current) :
    (t.passes k).proto = (s.passes k).proto := by
  rcases lt_or_eq_of_le hk with hlt | rfl
  · exact congrArg Pass.proto (passes_of_lt h hlt)
  · exact protoThread_of_mainStep h

theorem heads_of_mainStep (hs : s.Heads cfg) (h : MainStep cfg s t entries) :
    (t.record entries).Heads cfg := by
  have hlog : (t.record entries).log = s.log ++ entries := by
    rw [← h.log_eq]
    rfl
  have hopened := hs.opened_append fun conn hello hnew => (byMain_of_mainStep h _ hnew).elim
  rw [← hlog] at hopened
  have hold : ∀ k ≤ s.current, (t.passes k).proto.Heads cfg k (t.record entries).log := by
    intro k hk
    rw [hlog, proto_of_le h hk]
    exact (hs.threads k hk).append entries
  cases h with
  | restart hostname hmain =>
      refine ⟨nofun, ?_, hopened⟩
      intro k hk
      by_cases hnext : k = s.current + 1
      · subst hnext
        show ((Process.setPass _ (s.current + 1) _).passes (s.current + 1)).proto.Heads cfg _ _
        rw [Process.setPass_passes_self]
        -- The new thread gets the flag that `main` has set with its goodbye.
        have hreconnect : s.reconnect = true := hs.reconnect hmain
        exact .of_top ⟨fun _ => Or.inl (Nat.succ_pos _), fun _ => hreconnect⟩ rfl
          (Or.inl ⟨rfl, rfl⟩)
      · exact hold k (Nat.le_of_lt_succ (lt_of_le_of_ne hk hnext))
  | bye hmain hsend => exact ⟨fun _ => rfl, hold, hopened⟩
  | disconnected hmain hqueue hended => exact ⟨nofun, hold, hopened⟩
  | lost hmain hqueue => exact ⟨nofun, hold, hopened⟩
  | _ => exact ⟨nofun, hold, hopened⟩

theorem heads (h : (system O cfg).Reachable s) : s.Heads cfg := by
  refine System.Reachable.invariant (Process.Heads cfg) ?_ ?_ h
  · rintro s ⟨now, hostname, rfl⟩
    refine ⟨nofun, ?_, fun n conn hello hopened => by cases hopened⟩
    intro k hk
    have hzero : k = 0 := Nat.le_zero.1 hk
    subst hzero
    refine .of_top ⟨nofun, ?_⟩ rfl (Or.inl ⟨rfl, rfl⟩)
    rintro (hpass | hhops)
    · exact absurd hpass (lt_irrefl 0)
    · exact absurd hhops (lt_irrefl 0)
  · intro s t hs ih hstep
    cases hstep with
    | main hmoved => exact heads_of_mainStep ih hmoved
    | @thread j g' p' entries hrun hj hmoved =>
        refine ⟨ih.reconnect, ?_, ?_⟩
        · intro k hk
          show ((s.setPass j p').passes k).proto.Heads cfg k (s.log ++ entries)
          by_cases hkj : k = j
          · subst hkj
            rw [Process.setPass_passes_self]
            exact Pass.heads_of_threadStep hmoved (wired hs k) (led hs k) (ih.threads k hk)
          · rw [Process.setPass_passes_of_ne _ _ hkj]
            exact (ih.threads k hk).append entries
        · exact ih.opened_append fun conn hello hnew =>
            Pass.greeted_of_threadStep hmoved (ih.threads j hj) hnew
    | tick d => exact ⟨ih.reconnect, ih.threads, ih.opened⟩

/-- Every connection has been opened with a HELO of this player. -/
theorem for_of_opened (h : (system O cfg).Reachable s) {conn : Connection} {hello : Hello}
    (hopened : LogEntry.opened conn hello ∈ s.log) :
    ∃ sg, Hello.For cfg hello.reconnect sg hello := by
  rcases List.getElem?_of_mem hopened with ⟨n, hn⟩
  rcases (heads h).opened n conn hello hn with ⟨-, sg, hfor, -⟩
  exact ⟨sg, hfor⟩

/-- **What the player says when it comes to a server**, in every run.

* Whatever connection is opened, the HELO is one for a reconnect unless no connection has been lost
  and no redirect has been followed before.  It names the player, and the other fields are not set.
* It asks for a sync group only on a connection that a redirect has led to.
* For such a connection, a Serv message with an acceptable address has been read before, on the
  connection from which the player has been sent away.  That is where it has gone, and if it asks
  for a sync group, it is the one of the message. -/
theorem greeting (h : (system O cfg).Reachable s) {n : Nat} {conn : Connection} {hello : Hello}
    (hopened : s.log[n]? = some (.opened conn hello)) :
    (hello.reconnect = true ↔ 0 < conn.pass ∨ 0 < conn.hops) ∧ hello.deviceId = SQUEEZEPLAY_ID ∧
      hello.mac = cfg.mac ∧ hello.revision = 0 ∧ hello.uuid = Vector.replicate 16 0 ∧
      hello.wlanChannelList = 0 ∧ hello.language = (Char.ofNat 0, Char.ofNat 0) ∧
      ∃ sg, hello.caps = capabilities cfg sg ∧ (conn.hops = 0 → sg = none) ∧
        (0 < conn.hops → ∃ led msgs ip sgid, LogEntry.received led msgs ∈ s.log.take n ∧
          led.pass = conn.pass ∧ led.hops + 1 = conn.hops ∧ ServerMessage.serv ip sgid ∈ msgs ∧
            Acceptable ip ∧ conn.sock = { ip := ip, port := SLIM_PORT } ∧
              (sg = none ∨ sg = sgid)) := by
  rcases (heads h).opened n conn hello hopened with ⟨hreconnect, sg, hfor, hasks⟩
  rcases hfor.unset with ⟨hrevision, huuid, hwlan, hlanguage⟩
  refine ⟨hreconnect, hfor.deviceId, hfor.mac, hrevision, huuid, hwlan, hlanguage, sg,
    hfor.caps, ?_, ?_⟩
  · intro hfirst
    rcases hasks with ⟨_, hnone⟩ | ⟨target, sgid, _, ⟨led, msgs, ip, _, _, hhops, _⟩, _⟩
    · exact hnone
    · rw [hfirst] at hhops
      cases hhops
  · intro hfollowed
    rcases hasks with ⟨hfirst, _⟩ |
      ⟨target, sgid, htarget, ⟨led, msgs, ip, hreceived, hpass, hhops, hserv, hip, hsock⟩, hgroup⟩
    · exact absurd hfirst (Nat.ne_of_gt hfollowed)
    · have hconn : conn.sock = target := Option.some.inj htarget
      exact ⟨led, msgs, ip, sgid, hreceived, hpass, hhops, hserv, hip, hconn.trans hsock, hgroup⟩

end Main

/-! ## A run -/

theorem onWire_servInto : ∀ msg ∈ [.serv otherIp (some "kitchen")], ServerMessage.OnWire msg := by
  refine forall_onWire _ ?_
  intro msg hmsg
  rw [List.mem_singleton.1 hmsg]
  intro group hgroup
  cases hgroup
  have hlatin : "kitchen".toList.all (fun c => c.toNat < 256) = true := by decide
  refine ⟨by decide, ?_⟩
  intro c hc
  exact of_decide_eq_true (List.all_eq_true.1 hlatin c hc)

/-- The player is sent to `otherIp`, into a sync group. -/
theorem greeting_redirected : ∃ (s : Process PulseOutput) (hello : Hello),
    (system PulseOutput cliConfig).Reachable s ∧ s.log[2]? = some (.opened redirected hello) ∧
      hello.reconnect = true ∧ hello.caps = capabilities cliConfig (some "kitchen") := by
  have h0 : (system PulseOutput cliConfig).Reachable (Process.start cliConfig 0 none) :=
    .init ⟨0, none, rfl⟩
  have h1 := reachable_of_threadRun h0 Step.thread nofun (le_refl 0)
    (.cons (.proto (.hello rfl)) <|
      .cons (.proto (.takeCli rfl rfl rfl)) <|
      .cons (.proto (.connect rfl)) <|
      .cons (.proto (.received [.serv otherIp (some "kitchen")] rfl onWire_servInto)) <|
      .cons (.proto (.acceptServ rfl (by decide))) <|
      .cons (.proto (.redirect rfl (.queued rfl (by decide)))) <|
      .cons (.proto (.hello rfl)) <|
      .cons (.proto (.takeNew rfl rfl)) <|
      .cons (.proto (.connect rfl)) .nil)
  refine ⟨_, _, h1, rfl, ?_, rfl⟩
  exact (greeting h1 (n := 2) rfl).1.2 (Or.inr Nat.zero_lt_one)

end Vibe
end LmsPlayer
