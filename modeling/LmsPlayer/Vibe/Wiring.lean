import LmsPlayer.Vibe.Process
import LmsPlayer.Vibe.Handling

/-!
# Vibe.Wiring — what goes through the channels of a pass

Every connection, receipt and outgoing message of a pass belongs to that pass, a connection that no
redirect has led to goes to the server of the command line, Serv messages stay in the slim-proto
thread, and a `None` in the channel to the event loop means that this thread has ended or has
followed a redirect.
-/

namespace LmsPlayer
namespace Vibe

open LmsProto
open Channel (Sends)
open TransitionSystem (System)

/-- A connection that no redirect has led to goes to the server of the command line, if there is
one. -/
def Connection.Chosen (cfg : Config) (conn : Connection) : Prop :=
  conn.hops = 0 → ∀ sock, cfg.cliServer = some sock → conn.sock = sock

/-! ## The slim-proto thread -/

def ProtoPhase.conn? : ProtoPhase → Option Connection
  | receiving conn => some conn
  | forwarding conn _ => some conn
  | _ => none

namespace ProtoThread

/-- The thread is going to connect to this address. -/
def Target (t : ProtoThread) (sock : SocketAddrV4) : Prop :=
  t.newServerSock = some sock ∨ ∃ hello, t.phase = .connecting hello sock

structure Wired (cfg : Config) (k : Nat) (t : ProtoThread) : Prop where
  conn : ∀ conn, t.phase.conn? = some conn →
    conn.pass = k ∧ conn.hops = t.hops ∧ conn.Chosen cfg
  target : ∀ sock, t.Target sock → t.hops = 0 → ∀ cli, cfg.cliServer = some cli → sock = cli

variable {cfg : Config} {k : Nat} {t : ProtoThread}

/-- Between two connections only the address of the next one matters. -/
theorem Wired.of_target (hconn : t.phase.conn? = none)
    (htarget : ∀ sock, t.Target sock → t.hops = 0 → ∀ cli, cfg.cliServer = some cli → sock = cli) :
    t.Wired cfg k := by
  refine ⟨?_, htarget⟩
  intro conn hc
  rw [hconn] at hc
  cases hc

theorem Wired.setPhase (h : t.Wired cfg k) {phase : ProtoPhase}
    (hconn : ∀ conn, phase.conn? = some conn → t.phase.conn? = some conn)
    (hphase : ∀ hello sock, phase ≠ .connecting hello sock) :
    ({ t with phase := phase } : ProtoThread).Wired cfg k := by
  refine ⟨fun conn hc => h.conn conn (hconn conn hc), ?_⟩
  rintro sock (hnew | ⟨hello, hconnecting⟩) hhops
  · exact h.target sock (Or.inl hnew) hhops
  · exact absurd hconnecting (hphase hello sock)

end ProtoThread

namespace Pass

variable {O : Type} {cfg : Config} {k : Nat} {now : Instant} {g g' : Globals} {p p' : Pass O}
  {entries : List LogEntry}

theorem protoWired_of_protoStep (h : ProtoStep cfg k now g p g' p' entries)
    (hp : p.proto.Wired cfg k) : p'.proto.Wired cfg k := by
  cases h with
  | hello hpc =>
      refine .of_target rfl ?_
      rintro sock (hnew | ⟨hello, hconnecting⟩) hhops
      · exact hp.target sock (Or.inl hnew) hhops
      · cases hconnecting
  | takeNew hpc hnew =>
      refine .of_target rfl ?_
      rintro sock (hnone | ⟨hello, hconnecting⟩) hhops
      · cases hnone
      · cases hconnecting
        exact hp.target _ (Or.inl hnew) hhops
  | takeCli hpc hnew hcli =>
      refine .of_target rfl ?_
      rintro sock (hsock | ⟨hello, hconnecting⟩) hhops cli hcli'
      · exact hp.target sock (Or.inl hsock) hhops cli hcli'
      · cases hconnecting
        exact Option.some.inj (hcli.symm.trans hcli')
  | discover ip hpc hnew hcli =>
      refine .of_target rfl ?_
      intro sock _ _ cli hcli'
      rw [hcli] at hcli'
      cases hcli'
  | connect hpc =>
      rename_i hello sock
      have htarget := hp.target sock (Or.inr ⟨hello, hpc⟩)
      refine ⟨?_, ?_⟩
      · intro conn hc
        cases hc
        exact ⟨rfl, rfl, htarget⟩
      · rintro sock' (hnew | ⟨hello', hconnecting⟩) hhops
        · exact hp.target sock' (Or.inl hnew) hhops
        · cases hconnecting
  | connectFailed hpc =>
      rename_i hello sock
      refine .of_target rfl ?_
      -- The address is kept for the next attempt.
      rintro sock' (hnew | ⟨hello', hconnecting⟩) hhops
      · cases hnew
        exact hp.target sock (Or.inr ⟨hello, hpc⟩) hhops
      · cases hconnecting
  | redirect hpc hsend =>
      refine .of_target rfl ?_
      intro sock _ hhops
      exact absurd hhops (Nat.succ_ne_zero _)
  | received msgs hpc hwire | batchDone hpc | skipServ hpc hip | forward hpc hmsg hsend =>
      refine hp.setPhase ?_ (fun hello sock hconnecting => by cases hconnecting)
      intro conn hc
      rw [hpc]
      exact hc
  | _ =>
      exact hp.setPhase (fun conn hc => by cases hc) (fun hello sock hconnecting => by
        cases hconnecting)

/-! ## Leaving a server -/

/-- The slim-proto thread has ended, or has followed a redirect away from the server it had
connected to first. -/
def HasLeft (p : Pass O) : Prop := ¬p.ProtoAlive ∨ 0 < p.proto.hops

theorem hasLeft_of_ended (h : p.proto.phase = .ended) : p.HasLeft := Or.inl fun halive => halive h

theorem hops_le_of_protoStep (h : ProtoStep cfg k now g p g' p' entries) :
    p.proto.hops ≤ p'.proto.hops := by
  cases h with
  | redirect hpc hsend => exact Nat.le_succ _
  | _ => exact le_rfl

/-- Only a thread that is alive takes a step. -/
theorem protoAlive_of_protoStep (h : ProtoStep cfg k now g p g' p' entries) : p.ProtoAlive := by
  intro hended
  cases h <;> simp_all only [reduceCtorEq]

theorem hasLeft_of_protoStep (h : ProtoStep cfg k now g p g' p' entries) (hp : p.HasLeft) :
    p'.HasLeft := by
  rcases hp with hended | hhops
  · exact absurd (protoAlive_of_protoStep h) hended
  · exact Or.inr (lt_of_lt_of_le hhops (hops_le_of_protoStep h))

/-- The other threads of the pass touch neither the slim-proto thread nor its channel to the event
loop. -/
theorem protoStep_or_frame (h : ThreadStep cfg k now g p g' p' entries) :
    ProtoStep cfg k now g p g' p' entries ∨ p'.proto = p.proto ∧ p'.toMain = p.toMain := by
  cases h with
  | proto h => exact Or.inl h
  | writer h => exact Or.inr (by cases h <;> exact ⟨rfl, rfl⟩)
  | connect h => exact Or.inr (by cases h <;> exact ⟨rfl, rfl⟩)
  | timer h => exact Or.inr (by cases h <;> exact ⟨rfl, rfl⟩)
  | backend h => exact Or.inr (by cases h <;> exact ⟨rfl, rfl⟩)

theorem hasLeft_of_threadStep (h : ThreadStep cfg k now g p g' p' entries) (hp : p.HasLeft) :
    p'.HasLeft := by
  rcases protoStep_or_frame h with hproto | ⟨hsame, _⟩
  · exact hasLeft_of_protoStep hproto hp
  · unfold HasLeft ProtoAlive
    rw [hsame]
    exact hp

/-! ## The channels of a pass -/

structure Wired (cfg : Config) (k : Nat) (p : Pass O) : Prop where
  proto : p.proto.Wired cfg k
  receipts : ∀ x ∈ p.toMain, ∀ receipt, x = some receipt →
    receipt.conn.pass = k ∧ receipt.conn.Chosen cfg ∧ ¬IsServ receipt.msg
  notices : ∀ x ∈ p.toMain, x = none → p.HasLeft
  writers : ∀ w ∈ p.writers, w.conn.pass = k ∧ ∀ out, w.phase = .sending out → out.sender = k
  outgoing : ∀ out ∈ p.toServer, out.sender = k
  serverDefaultIp : p.ctx.serverDefaultIp = cfg.serverDefaultIp

theorem Wired.start (cfg : Config) (k : Nat) (now : Instant) (name : String) (reconnect : Bool) :
    (start cfg now name reconnect : Pass O).Wired cfg k :=
  { proto := by
      refine .of_target rfl ?_
      rintro sock (hnew | ⟨hello, hconnecting⟩)
      · cases hnew
      · cases hconnecting
    receipts := fun x hx => absurd hx List.not_mem_nil
    notices := fun x hx => absurd hx List.not_mem_nil
    writers := fun w hw => absurd hw List.not_mem_nil
    outgoing := fun out hout => absurd hout List.not_mem_nil
    serverDefaultIp := rfl }

theorem Wired.protoStep (hp : p.Wired cfg k) (h : ProtoStep cfg k now g p g' p' entries) :
    p'.Wired cfg k := by
  have hproto := protoWired_of_protoStep h hp.proto
  have hleft : ∀ x ∈ p.toMain, x = none → p'.HasLeft :=
    fun x hx hnone => hasLeft_of_protoStep h (hp.notices x hx hnone)
  cases h with
  | connect hpc =>
      refine { hp with proto := hproto, notices := hleft, writers := ?_ }
      intro w hw
      rcases List.mem_append.1 hw with hold | hnew
      · exact hp.writers w hold
      · rw [List.mem_singleton.1 hnew]
        exact ⟨rfl, fun out hout => by cases hout⟩
  | forward hpc hmsg hsend =>
      rename_i conn msg rest queue
      have hconn := hp.proto.conn conn (by rw [hpc]; rfl)
      refine { hp with proto := hproto, receipts := ?_, notices := ?_ }
      · refine hsend.forall_mem hp.receipts ?_
        rintro receipt hreceipt
        cases hreceipt
        exact ⟨hconn.1, hconn.2.2, hmsg⟩
      · exact hsend.forall_mem hleft (fun hnone => by cases hnone)
  | redirect hpc hsend =>
      refine { hp with proto := hproto, receipts := ?_, notices := ?_ }
      · exact hsend.forall_mem hp.receipts (fun receipt hreceipt => by cases hreceipt)
      · exact hsend.forall_mem hleft (fun _ => Or.inr (Nat.succ_pos _))
  | lose hpc hsend =>
      refine { hp with proto := hproto, receipts := ?_, notices := ?_ }
      · exact hsend.forall_mem hp.receipts (fun receipt hreceipt => by cases hreceipt)
      · exact hsend.forall_mem hleft (fun _ => hasLeft_of_ended rfl)
  | _ => exact { hp with proto := hproto, notices := hleft }

theorem Wired.writerStep (hp : p.Wired cfg k) (h : WriterStep p p' entries) : p'.Wired cfg k := by
  cases h with
  | take hqueue hthread =>
      rename_i conn out rest writers
      have hout : ∀ o ∈ out :: rest, o.sender = k := hqueue ▸ hp.outgoing
      refine { hp with writers := ?_, outgoing := ?_ }
      · refine hthread.forall_mem hp.writers ?_
        rintro w hw
        cases hw
        refine ⟨(hp.writers _ hthread.mem).1, ?_⟩
        rintro o ho
        cases ho
        exact hout out (List.mem_cons_self ..)
      · exact fun o ho => hout o (List.mem_cons_of_mem _ ho)
  | written hthread =>
      rename_i conn out writers
      refine { hp with writers := hthread.forall_mem hp.writers ?_ }
      intro w hw
      split_ifs at hw
      · cases hw
        exact ⟨(hp.writers _ hthread.mem).1, fun o ho => by cases ho⟩
  | failed hthread =>
      exact { hp with writers := hthread.forall_mem hp.writers (fun w hw => by cases hw) }
  | disconnected hqueue hsenders hthread =>
      exact { hp with writers := hthread.forall_mem hp.writers (fun w hw => by cases hw) }

theorem Wired.threadStep (hp : p.Wired cfg k) (h : ThreadStep cfg k now g p g' p' entries) :
    p'.Wired cfg k := by
  cases h with
  | proto h => exact hp.protoStep h
  | writer h => exact hp.writerStep h
  | connect h => cases h <;> exact { hp with }
  | timer h =>
      cases h with
      | send hsend hthread => exact { hp with outgoing := hsend.forall_mem hp.outgoing rfl }
      | _ => exact { hp with }
  | backend h => cases h <;> exact { hp with }

theorem attached_of_threadStep (h : ThreadStep cfg k now g p g' p' entries) :
    p'.attached = p.attached := by
  cases h with
  | proto h => cases h <;> rfl
  | writer h => cases h <;> rfl
  | connect h => cases h <;> rfl
  | timer h => cases h <;> rfl
  | backend h => cases h <;> rfl

/-- Of its context, the threads of a pass change nothing but the output. -/
theorem ctx_of_threadStep (h : ThreadStep cfg k now g p g' p' entries) :
    ∃ output, p'.ctx = { p.ctx with output := output } := by
  cases h with
  | proto h => cases h <;> exact ⟨_, rfl⟩
  | writer h => cases h <;> exact ⟨_, rfl⟩
  | connect h => cases h <;> exact ⟨_, rfl⟩
  | timer h => cases h <;> exact ⟨_, rfl⟩
  | backend h => cases h <;> exact ⟨_, rfl⟩

/-- What the threads of the pass do to the channel of player messages. -/
theorem stream_of_threadStep (h : ThreadStep cfg k now g p g' p' entries) :
    p'.stream = p.stream ∨
      ∃ msg, Sends (p.attached = true) STREAM_CAPACITY p.stream msg p'.stream := by
  cases h with
  | proto h => exact Or.inl (by cases h <;> rfl)
  | writer h => exact Or.inl (by cases h <;> rfl)
  | connect h =>
      cases h with
      | postConnected hpc hsend hthread | postBufferThreshold hpc hsend hthread
        | post hpc hsend hthread => exact Or.inr ⟨_, hsend⟩
      | _ => exact Or.inl rfl
  | timer h =>
      cases h with
      | unpause hwake hsend hthread | resume hwake hsend hthread => exact Or.inr ⟨_, hsend⟩
      | _ => exact Or.inl rfl
  | backend h =>
      cases h with
      | trackStarted hsend hstream => exact Or.inr ⟨_, hsend⟩
      | post hmsg hother hsend => exact Or.inr ⟨_, hsend⟩
      | _ => exact Or.inl rfl

theorem Wired.absorb (hp : p.Wired cfg k) (origin : Nat) {done : Player O}
    (hdone : done.ctx.serverDefaultIp = p.ctx.serverDefaultIp) :
    (p.absorb origin now done).Wired cfg k :=
  { hp with serverDefaultIp := hdone.trans hp.serverDefaultIp }

end Pass

/-! ## The event loop -/

/-- Every handler starts from here. -/
theorem Process.handled_player {O : Type} (s : Process O) :
    Player.Handled s.now s.pass.ctx s.globals s.player := .start

section Main

variable {O : Type} [AudioOutput O] {cfg : Config} {s t : Process O} {entries : List LogEntry}

omit [AudioOutput O] in
/-- What the event loop takes from the channel has been in it. -/
theorem mem_toMain_of_cons {x : Option Receipt} {rest : List (Option Receipt)}
    (hqueue : s.pass.toMain = x :: rest) : x ∈ s.pass.toMain ∧ ∀ y ∈ rest, y ∈ s.pass.toMain := by
  rw [hqueue]
  exact ⟨List.mem_cons_self .., fun y hy => List.mem_cons_of_mem _ hy⟩

omit [AudioOutput O] in
theorem mem_stream_of_cons {msg : PlayerMsg} {rest : List PlayerMsg}
    (hqueue : s.pass.stream = msg :: rest) :
    msg ∈ s.pass.stream ∧ ∀ m ∈ rest, m ∈ s.pass.stream := by
  rw [hqueue]
  exact ⟨List.mem_cons_self .., fun m hm => List.mem_cons_of_mem _ hm⟩

theorem handled_of_serverMessage (hs : s.pass.Wired cfg s.current) {receipt : Receipt}
    {rest : List (Option Receipt)} (opened : Option O)
    (hqueue : s.pass.toMain = some receipt :: rest) :
    Player.Handled s.now s.pass.ctx s.globals
      (s.player.handleServerMessage s.now opened receipt.msg) := by
  have hreceipt := hs.receipts _ (mem_toMain_of_cons hqueue).1 receipt rfl
  exact s.handled_player.handleServerMessage opened hreceipt.2.2

theorem wired_of_mainStep (h : MainStep cfg s t entries) (hs : s.pass.Wired cfg s.current) :
    (t.passes s.current).Wired cfg s.current := by
  cases h with
  | serverMessage opened hmain hqueue hdone =>
      rename_i receipt rest done
      subst hdone
      rw [Process.finish_passes_self]
      have hdone := handled_of_serverMessage hs opened hqueue
      have hrest := (mem_toMain_of_cons hqueue).2
      have hwired : ({ s.pass with toMain := rest } : Pass O).Wired cfg s.current :=
        { hs with
          receipts := fun x hx => hs.receipts x (hrest x hx)
          notices := fun x hx => hs.notices x (hrest x hx) }
      exact hwired.absorb _ hdone.serverDefaultIp
  | playerMessage hmain hqueue hdone =>
      rename_i msg rest done
      subst hdone
      rw [Process.finish_passes_self]
      have hdone := s.handled_player.handlePlayerMessage msg
      have hrest : ({ s.pass with stream := rest } : Pass O).Wired cfg s.current := { hs with }
      exact hrest.absorb _ hdone.serverDefaultIp
  | timeout hmain hserver hstream hdone =>
      subst hdone
      rw [Process.finish_passes_self]
      have hdone := s.handled_player.onTimeout
      exact hs.absorb _ hdone.serverDefaultIp
  | sendToServer hmain hsend =>
      dsimp only
      rw [Process.setPass_passes_self]
      exact { hs with outgoing := hsend.forall_mem hs.outgoing rfl }
  | sendToSelf hmain hsend =>
      dsimp only
      rw [Process.setPass_passes_self]
      exact { hs with }
  | lost hmain hqueue =>
      rename_i rest
      dsimp only
      rw [Process.setPass_passes_self]
      have hrest := (mem_toMain_of_cons hqueue).2
      exact
        { hs with
          receipts := fun x hx => hs.receipts x (hrest x hx)
          notices := fun x hx => hs.notices x (hrest x hx) }
  | disconnected hmain hqueue hended => exact hs
  | bye hmain hsend =>
      dsimp only
      rw [Process.setPass_passes_self]
      exact { hs with outgoing := hsend.forall_mem hs.outgoing rfl }
  | restart hostname hmain =>
      dsimp only
      rw [Process.setPass_passes_of_ne _ _ (Nat.succ_ne_self _).symm, Process.setPass_passes_self]
      exact
        { hs with
          receipts := fun x hx => absurd hx List.not_mem_nil
          notices := fun x hx => absurd hx List.not_mem_nil }

/-- Every pass is wired, in every reachable state. -/
theorem wired (h : (system O cfg).Reachable s) (k : Nat) : (s.passes k).Wired cfg k := by
  refine forall_pass (P := fun k p => p.Wired cfg k) h ?_ ?_ ?_ k
  · intro k now name reconnect
    exact .start cfg k now name reconnect
  · intro s k g' p' entries _ hs hstep
    exact hs.threadStep hstep
  · intro s t entries _ hs hstep
    exact wired_of_mainStep hstep hs

/-- What `main` has still to post comes from the output. -/
theorem fromEnqueue_of_pending (h : (system O cfg).Reachable s) {pending : List Send}
    (hmain : s.main = .loop pending) {msg : PlayerMsg} (hmsg : Send.toSelf msg ∈ pending) :
    msg.FromEnqueue := by
  revert pending msg
  refine System.Reachable.invariant (fun s => ∀ {pending : List Send}, s.main = .loop pending →
    ∀ {msg : PlayerMsg}, Send.toSelf msg ∈ pending → msg.FromEnqueue) ?_ ?_ h
  · rintro s ⟨now, hostname, rfl⟩ pending hmain msg hmsg
    cases hmain
    exact absurd hmsg List.not_mem_nil
  · intro s t hs ih hstep pending hmain msg hmsg
    cases hstep with
    | main hmoved =>
        have hplayer := s.handled_player
        cases hmoved with
        | serverMessage opened hloop hqueue hdone =>
            subst hdone
            cases hmain
            exact (handled_of_serverMessage (wired hs _) opened hqueue).notices msg hmsg
        | playerMessage hloop hqueue hdone =>
            subst hdone
            cases hmain
            exact (hplayer.handlePlayerMessage _).notices msg hmsg
        | timeout hloop hserver hstream hdone =>
            subst hdone
            cases hmain
            exact hplayer.onTimeout.notices msg hmsg
        | sendToServer hloop hsend =>
            cases hmain
            exact ih hloop (List.mem_cons_of_mem _ hmsg)
        | sendToSelf hloop hsend =>
            cases hmain
            exact ih hloop (List.mem_cons_of_mem _ hmsg)
        | restart hostname hleaving =>
            cases hmain
            exact absurd hmsg List.not_mem_nil
        | lost hloop hqueue => cases hmain
        | disconnected hloop hqueue hended => cases hmain
        | bye hloop hsend => cases hmain
    | thread hrun hk hmoved => exact ih hmain hmsg
    | tick d => exact ih hmain hmsg

/-- A stream-connect thread ends with its decoder, or without one. -/
theorem posting (h : (system O cfg).Reachable s) (k : Nat) :
    ∀ t ∈ (s.passes k).connects, ∀ msg, t.phase = .posting msg →
      msg = .notSupported ∨ msg = t.decoderMsg := by
  refine forall_pass (P := fun _ p => ∀ t ∈ p.connects, ∀ msg, t.phase = .posting msg →
    msg = .notSupported ∨ msg = t.decoderMsg) h ?_ ?_ ?_ k
  · exact fun _ _ _ _ t ht => absurd ht List.not_mem_nil
  · intro s k g' p' entries _ hp hmoved
    cases hmoved with
    | proto hmoved => cases hmoved <;> exact hp
    | writer hmoved => cases hmoved <;> exact hp
    | timer hmoved => cases hmoved <;> exact hp
    | backend hmoved => cases hmoved <;> exact hp
    | connect hmoved =>
        cases hmoved with
        | dialFailed hpc hthread | notPrepared hpc hthread =>
            refine hthread.forall_mem hp ?_
            rintro t ht msg hmsg
            cases ht
            cases hmsg
            exact Or.inl rfl
        | prepared hpc hthread =>
            refine hthread.forall_mem hp ?_
            rintro t ht msg hmsg
            cases ht
            cases hmsg
            exact Or.inr rfl
        | post hpc hsend hthread => exact hthread.forall_mem hp (fun t ht => by cases ht)
        | dial hpc hthread | postConnected hpc hsend hthread | createBuffer hpc hthread
          | postBufferThreshold hpc hsend hthread =>
            refine hthread.forall_mem hp ?_
            rintro t ht msg hmsg
            cases ht
            cases hmsg
  · intro s t entries _ hp hmoved
    have hstarted : ∀ (origin : Nat) (done : Player O),
        ∀ t ∈ (s.pass.absorb origin s.now done).connects,
        ∀ msg, t.phase = .posting msg → msg = .notSupported ∨ msg = t.decoderMsg := by
      intro origin done t ht msg hmsg
      rcases List.mem_append.1 ht with hold | hnew
      · exact hp t hold msg hmsg
      · rcases List.mem_filterMap.1 hnew with ⟨thread, _, hthread⟩
        cases thread with
        | streamConnect request =>
            cases hthread
            cases hmsg
        | pauseTimer interval => cases hthread
        | resumeTimer dur playTime => cases hthread
    cases hmoved with
    | serverMessage | playerMessage | timeout =>
        rw [Process.finish_passes_self]
        exact hstarted _ _
    | disconnected => exact hp
    | restart =>
        dsimp only
        rw [Process.setPass_passes_of_ne _ _ (Nat.succ_ne_self _).symm,
          Process.setPass_passes_self]
        exact hp
    | _ =>
        dsimp only
        rw [Process.setPass_passes_self]
        exact hp

/-- No channel of player messages holds more than it can. -/
theorem stream_le (h : (system O cfg).Reachable s) (k : Nat) :
    (s.passes k).stream.length ≤ STREAM_CAPACITY := by
  refine forall_pass (P := fun _ p => p.stream.length ≤ STREAM_CAPACITY) h ?_ ?_ ?_ k
  · exact fun _ _ _ _ => Nat.zero_le _
  · intro s k g' p' entries _ hp hmoved
    rcases Pass.stream_of_threadStep hmoved with hsame | ⟨msg, hsend⟩
    · exact hsame ▸ hp
    · exact hsend.length_le hp
  · intro s t entries _ hp hmoved
    cases hmoved with
    | playerMessage hmain hqueue hdone =>
        rw [Process.finish_passes_self]
        rw [hqueue] at hp
        exact (Nat.le_succ _).trans hp
    | serverMessage | timeout =>
        rw [Process.finish_passes_self]
        exact hp
    | sendToSelf hmain hsend =>
        dsimp only
        rw [Process.setPass_passes_self]
        exact hsend.length_le hp
    | disconnected => exact hp
    | restart =>
        dsimp only
        rw [Process.setPass_passes_of_ne _ _ (Nat.succ_ne_self _).symm,
          Process.setPass_passes_self]
        exact Nat.zero_le _
    | _ =>
        dsimp only
        rw [Process.setPass_passes_self]
        exact hp

/-- The event loop holds on to the channels of its pass. -/
theorem attached (h : (system O cfg).Reachable s) : s.pass.attached = true := by
  have hall : ∀ k, s.current ≤ k → (s.passes k).attached = true := by
    refine System.Reachable.invariant
      (fun s => ∀ k, s.current ≤ k → (s.passes k).attached = true) ?_ ?_ h
    · rintro s ⟨now, hostname, rfl⟩ k _
      rfl
    · intro s t _ ih hstep k hk
      cases hstep with
      | main hmoved =>
          by_cases hcurrent : k = s.current
          · subst hcurrent
            have hattached := ih _ le_rfl
            cases hmoved with
            | disconnected => exact hattached
            | restart => exact absurd hk (Nat.not_succ_le_self _)
            | _ =>
                show ((s.setPass s.current _).passes s.current).attached = true
                rw [Process.setPass_passes_self]
                exact hattached
          · rcases hmoved.passes_of_ne hcurrent with hsame | ⟨now, name, reconnect, hnew⟩
            · have hle : s.current ≤ k := hmoved.current_le.trans hk
              exact (congrArg Pass.attached hsame).trans (ih k hle)
            · exact congrArg Pass.attached hnew
      | thread hrun hj hmoved =>
          exact Process.setPass_induction (P := fun p => p.attached = true)
            (fun hp => (Pass.attached_of_threadStep hmoved).trans hp) (ih k hk)
      | tick d => exact ih k hk
  exact hall _ le_rfl

end Main

end Vibe
end LmsPlayer
