import LmsPlayer.Vibe.Redirect

/-!
# Vibe.Fallback — where the audio data come from

A Stream command with the address 0.0.0.0 asks for the data of the server that has sent it.  The
address `make_decoder` takes instead is fixed when the pass is made (`Config.serverDefaultIp`),
while the slim-proto thread works out for itself which server to connect to.

The invariant is about history: every stream-connect thread stems from a Stream command in the
record (`ConnectThread.Stems`), and goes by what that command said and by the address of the pass.
-/

namespace LmsPlayer
namespace Vibe

open LmsProto
open TransitionSystem (System)

/-! ## Stream commands in the record -/

/-- The entry at `origin` is about a Stream command with these fields, delivered on `conn`. -/
def StreamAt (log : List LogEntry) (origin : Nat) (fields : StreamFields) (conn : Connection) :
    Prop :=
  ∃ now sends spawns, log[origin]? = some (.handled now ⟨.stream fields, conn⟩ sends spawns)

theorem StreamAt.append {log : List LogEntry} {origin : Nat} {fields : StreamFields}
    {conn : Connection} (h : StreamAt log origin fields conn) (entries : List LogEntry) :
    StreamAt (log ++ entries) origin fields conn := by
  rcases h with ⟨now, sends, spawns, hentry⟩
  rcases List.getElem?_eq_some_iff.1 hentry with ⟨hlt, _⟩
  exact ⟨now, sends, spawns, (List.getElem?_append_left hlt).trans hentry⟩

/-- The entry that has just been made. -/
theorem streamAt_length (log : List LogEntry) {now : Instant} {fields : StreamFields}
    {conn : Connection} {sends : List Send} {spawns : List Spawn} :
    StreamAt (log ++ [.handled now ⟨.stream fields, conn⟩ sends spawns]) log.length fields conn :=
  ⟨now, sends, spawns, List.getElem?_concat_length ..⟩

/-- The thread stems from a Stream command in the record. -/
def ConnectThread.Stems (cfg : Config) (log : List LogEntry) (t : ConnectThread) : Prop :=
  ∃ fields conn, StreamAt log t.origin fields conn ∧ t.request.serverIp = fields.serverIp ∧
    t.request.defaultIp = cfg.serverDefaultIp

theorem ConnectThread.Stems.append {cfg : Config} {log : List LogEntry} {t : ConnectThread}
    (h : t.Stems cfg log) (entries : List LogEntry) : t.Stems cfg (log ++ entries) := by
  rcases h with ⟨fields, conn, hstream, hserver, hdefault⟩
  exact ⟨fields, conn, hstream.append entries, hserver, hdefault⟩

/-! ## Steps -/

namespace Pass

variable {O : Type} {cfg : Config} {k : Nat} {now : Instant} {g g' : Globals} {p p' : Pass O}
  {entries : List LogEntry}

/-- The threads of a pass start no stream-connect thread, and change but the phase of one. -/
theorem connects_of_threadStep {Q : ConnectThread → Prop}
    (hQ : ∀ t phase, Q t → Q { t with phase := phase })
    (h : ThreadStep cfg k now g p g' p' entries) (hp : ∀ t ∈ p.connects, Q t) :
    ∀ t ∈ p'.connects, Q t := by
  cases h with
  | proto h => cases h <;> exact hp
  | writer h => cases h <;> exact hp
  | timer h => cases h <;> exact hp
  | backend h => cases h <;> exact hp
  | connect h =>
      cases h with
      | dial hpc hthread
      | dialFailed hpc hthread
      | postConnected hpc hsend hthread
      | createBuffer hpc hthread
      | postBufferThreshold hpc hsend hthread
      | prepared hpc hthread
      | notPrepared hpc hthread =>
          refine hthread.forall_mem hp ?_
          rintro t ht
          cases ht
          exact hQ _ _ (hp _ hthread.mem)
      | post hpc hsend hthread => exact hthread.forall_mem hp (fun t ht => by cases ht)

/-- A thread that dials is one of the pass. -/
theorem dialled_of_threadStep (h : ThreadStep cfg k now g p g' p' entries) {origin : Nat}
    {ip : Ipv4Addr} (hmem : LogEntry.dialled origin ip ∈ entries) :
    ∃ t ∈ p.connects, t.origin = origin ∧ t.request.ip = ip := by
  cases h with
  | proto h => cases h <;> simp_all
  | writer h => cases h <;> simp_all
  | timer h => exact absurd hmem List.not_mem_nil
  | backend h => exact absurd hmem List.not_mem_nil
  | connect h =>
      cases h with
      | dial hpc hthread
      | dialFailed hpc hthread =>
          cases List.mem_singleton.1 hmem
          exact ⟨_, hthread.mem, rfl, rfl⟩
      | _ => exact absurd hmem List.not_mem_nil

/-- What a handler has started a stream-connect thread for. -/
theorem mem_connects_absorb {t : ConnectThread} {origin : Nat} {done : Player O}
    (hmem : t ∈ (p.absorb origin now done).connects) :
    t ∈ p.connects ∨
      t.origin = origin ∧ t.phase = .dialing ∧ Spawn.streamConnect t.request ∈ done.spawns := by
  rcases List.mem_append.1 hmem with hold | hnew
  · exact Or.inl hold
  · rcases List.mem_filterMap.1 hnew with ⟨thread, hspawn, hthread⟩
    cases thread with
    | streamConnect request =>
        cases hthread
        exact Or.inr ⟨rfl, rfl, hspawn⟩
    | pauseTimer interval => cases hthread
    | resumeTimer dur playTime => cases hthread

end Pass

section Main

variable {O : Type} [AudioOutput O] {cfg : Config} {s t : Process O} {entries : List LogEntry}

theorem stems_of_mainStep (hwired : s.pass.Wired cfg s.current) (h : MainStep cfg s t entries)
    (hs : ∀ thread ∈ s.pass.connects, thread.Stems cfg s.log) :
    ∀ thread ∈ (t.passes s.current).connects, thread.Stems cfg (s.log ++ entries) := by
  have hkept : ∀ thread ∈ s.pass.connects, thread.Stems cfg (s.log ++ entries) :=
    fun thread hthread => (hs thread hthread).append entries
  cases h with
  | serverMessage opened hmain hqueue hdone =>
      rename_i receipt rest done
      subst hdone
      rw [Process.finish_passes_self]
      intro thread hthread
      rcases Pass.mem_connects_absorb hthread with hold | ⟨horigin, _, hspawn⟩
      · exact hkept thread hold
      · -- The thread has been started for this very message.
        rcases receipt with ⟨msg, conn⟩
        rcases Player.asked_of_mem_spawns opened hspawn with ⟨fields, hmsg, hfor, hdefault⟩
        cases hmsg
        refine ⟨fields, conn, ?_, hfor.serverIp, hdefault.trans hwired.serverDefaultIp⟩
        rw [horigin]
        exact streamAt_length s.log
  | playerMessage hmain hqueue hdone =>
      subst hdone
      rw [Process.finish_passes_self]
      intro thread hthread
      rcases Pass.mem_connects_absorb hthread with hold | ⟨_, _, hspawn⟩
      · exact hkept thread hold
      · rw [show s.player = Player.start s.pass.ctx s.globals from rfl,
          Player.spawns_handlePlayerMessage] at hspawn
        exact absurd hspawn List.not_mem_nil
  | timeout hmain hserver hstream hdone =>
      subst hdone
      rw [Process.finish_passes_self]
      intro thread hthread
      rcases Pass.mem_connects_absorb hthread with hold | ⟨_, _, hspawn⟩
      · exact hkept thread hold
      · exact absurd hspawn List.not_mem_nil
  | restart hostname hmain =>
      dsimp only
      rw [Process.setPass_passes_of_ne _ _ (Nat.succ_ne_self _).symm, Process.setPass_passes_self]
      exact hkept
  | disconnected hmain hqueue hended => exact hkept
  | _ =>
      dsimp only
      rw [Process.setPass_passes_self]
      exact hkept

/-- Every stream-connect thread stems from a Stream command in the record. -/
theorem stems (h : (system O cfg).Reachable s) (k : Nat) :
    ∀ thread ∈ (s.passes k).connects, thread.Stems cfg s.log := by
  refine forall_pass_log
    (P := fun _ log p => ∀ thread ∈ p.connects, thread.Stems cfg log) h ?_ ?_ ?_ ?_ k
  · exact fun _ _ _ _ _ thread hthread => absurd hthread List.not_mem_nil
  · exact fun _ _ entries _ hp thread hthread => (hp thread hthread).append entries
  · intro s k g' p' entries _ hp hmoved
    refine Pass.connects_of_threadStep (fun _ _ hthread => hthread) hmoved ?_
    exact fun thread hthread => (hp thread hthread).append entries
  · intro s t entries hs hp hmoved
    exact stems_of_mainStep (wired hs _) hmoved hp

/-! ## Where the threads connect to -/

/-- The address has been worked out for a Stream command in the record. -/
def DialledFor (cfg : Config) (log : List LogEntry) (origin : Nat) (ip : Ipv4Addr) : Prop :=
  ∃ fields conn, StreamAt log origin fields conn ∧
    ip = if fields.serverIp.isUnspecified then cfg.serverDefaultIp else fields.serverIp

theorem DialledFor.append {log : List LogEntry} {origin : Nat} {ip : Ipv4Addr}
    (h : DialledFor cfg log origin ip) (entries : List LogEntry) :
    DialledFor cfg (log ++ entries) origin ip := by
  rcases h with ⟨fields, conn, hstream, hip⟩
  exact ⟨fields, conn, hstream.append entries, hip⟩

theorem ConnectThread.Stems.dialledFor {log : List LogEntry} {thread : ConnectThread}
    (h : thread.Stems cfg log) : DialledFor cfg log thread.origin thread.request.ip := by
  rcases h with ⟨fields, conn, hstream, hserver, hdefault⟩
  refine ⟨fields, conn, hstream, ?_⟩
  unfold DecoderRequest.ip
  rw [hserver, hdefault]

theorem dialledFor (h : (system O cfg).Reachable s) {origin : Nat} {ip : Ipv4Addr}
    (hmem : LogEntry.dialled origin ip ∈ s.log) : DialledFor cfg s.log origin ip := by
  revert origin ip
  refine System.Reachable.invariant (fun s => ∀ {origin ip},
    LogEntry.dialled origin ip ∈ s.log → DialledFor cfg s.log origin ip) ?_ ?_ h
  · rintro s ⟨now, hostname, rfl⟩ origin ip hmem
    exact absurd hmem List.not_mem_nil
  · intro s t hs ih hstep origin ip hmem
    cases hstep with
    | @main t entries hmoved =>
        have hlog : (t.record entries).log = s.log ++ entries :=
          congrArg (· ++ entries) hmoved.log_eq
        rw [hlog] at hmem ⊢
        rcases List.mem_append.1 hmem with hold | hnew
        · exact (ih hold).append entries
        · -- `main` connects to nothing.
          exact (byMain_of_mainStep hmoved _ hnew).elim
    | @thread k g' p' entries hrun hk hmoved =>
        rcases List.mem_append.1 hmem with hold | hnew
        · exact (ih hold).append entries
        · rcases Pass.dialled_of_threadStep hmoved hnew with ⟨thread, hthread, rfl, rfl⟩
          exact (stems hs k thread hthread).dialledFor.append entries
    | tick d => exact ih hmem

/-- **When the data come from the server that has sent the command**: for a Stream command with the
address 0.0.0.0, `make_decoder` connects to the other end of the connection that has delivered the
command if and only if the server was given on the command line, or has the address 0.0.0.0
itself. -/
theorem dialled_ip_iff (h : (system O cfg).Reachable s) {origin : Nat} {ip : Ipv4Addr}
    {fields : StreamFields} {conn : Connection} (hdialled : LogEntry.dialled origin ip ∈ s.log)
    (hstream : StreamAt s.log origin fields conn) (hip : fields.serverIp.isUnspecified = true) :
    ip = conn.sock.ip ↔ cfg.cliServer.isSome = true ∨ conn.sock.ip = .unspecified := by
  rcases dialledFor h hdialled with ⟨fields', conn', ⟨now', sends', spawns', hentry'⟩, hfrom⟩
  rcases hstream with ⟨now, sends, spawns, hentry⟩
  -- Both speak of the same entry.
  rw [hentry] at hentry'
  cases hentry'
  rw [if_pos hip] at hfrom
  have hconn := handled_receipt h (List.mem_of_getElem? hentry)
  cases hcli : cfg.cliServer with
  | some sock =>
      have hsock : conn.sock = sock := hconn.2.1 hconn.1 sock hcli
      have hdefault : cfg.serverDefaultIp = sock.ip := by simp [Config.serverDefaultIp, hcli]
      rw [hfrom, hdefault, hsock]
      simp
  | none =>
      have hdefault : cfg.serverDefaultIp = .unspecified := by simp [Config.serverDefaultIp, hcli]
      rw [hfrom, hdefault]
      simp [eq_comm]

end Main

/-! ## A run -/

/-- The player looks for its server itself. -/
def discoveryConfig : Config := { cliConfig with cliServer := none }

/-- The connection to the server that was found. -/
def discovered : Connection :=
  { pass := 0
    hops := 0
    sock := { ip := .new 10 0 0 1, port := SLIM_PORT } }

/-- A Stream command for data of the server that sends it. -/
def ownStream : StreamFields :=
  { autostart := .auto
    format := .mp3
    pcmsamplesize := .selfDescribing
    pcmsamplerate := .selfDescribing
    pcmchannels := .selfDescribing
    pcmendian := .selfDescribing
    threshold := 255 * 1024
    spdifEnable := .auto
    transPeriod := 0
    transType := .none
    flags := .empty
    outputThreshold := 0
    replayGain := 0
    serverPort := 9000
    serverIp := .unspecified
    httpHeaders := some "GET /stream.mp3 HTTP/1.0\r\n" }

theorem representable_ownStream : ServerMessage.Representable (.stream ownStream) := by
  refine ⟨nofun, ⟨255, by decide, rfl⟩, ⟨0, by decide, rfl⟩, ⟨0, by decide, rfl⟩,
    ⟨0, by decide, ?_⟩, ?_⟩
  · simp [ownStream]
  · intro headers hheaders
    cases hheaders
    decide

theorem exists_discovered : ∃ s : Process PulseOutput,
    (system PulseOutput discoveryConfig).Reachable s ∧
      LogEntry.dialled 2 .unspecified ∈ s.log ∧ StreamAt s.log 2 ownStream discovered := by
  have h0 : (system PulseOutput discoveryConfig).Reachable (Process.start discoveryConfig 0 none) :=
    .init ⟨0, none, rfl⟩
  have h1 := reachable_of_threadRun h0 Step.thread nofun (le_refl 0)
    (.cons (.proto (.hello rfl)) <|
      .cons (.proto (.discover (.new 10 0 0 1) rfl rfl rfl)) <|
      .cons (.proto (.connect rfl)) <|
      .cons (.proto (.received [.stream ownStream] rfl
        (forall_onWire _ (by simpa using representable_ownStream)))) <|
      .cons (.proto (.forward rfl id (.queued rfl (by decide)))) .nil)
  have h2 := h1.step (.main (.serverMessage none rfl rfl rfl))
  have h3 := reachable_of_threadRun h2 Step.thread nofun (le_refl 0)
    (.cons (.connect (.dial rfl (.mk [] []))) .nil)
  exact ⟨_, h3, List.mem_append_right _ (List.mem_cons_self ..), _, _, _, rfl⟩

/-- A player that has found its server by discovery. -/
theorem dialled_ip_iff_discovered : ∃ s : Process PulseOutput,
    (system PulseOutput discoveryConfig).Reachable s ∧
      LogEntry.dialled 2 .unspecified ∈ s.log ∧ StreamAt s.log 2 ownStream discovered ∧
      (Ipv4Addr.unspecified = discovered.sock.ip ↔
        discoveryConfig.cliServer.isSome = true ∨ discovered.sock.ip = .unspecified) := by
  rcases exists_discovered with ⟨s, hs, hdialled, hstream⟩
  exact ⟨s, hs, hdialled, hstream, dialled_ip_iff hs hdialled hstream rfl⟩

/-- It asks nobody for the data. -/
theorem dialled_ip_ne_discovered : ∃ s : Process PulseOutput,
    (system PulseOutput discoveryConfig).Reachable s ∧ ∃ origin ip fields conn,
      LogEntry.dialled origin ip ∈ s.log ∧ StreamAt s.log origin fields conn ∧
      fields.serverIp.isUnspecified = true ∧ ip ≠ conn.sock.ip := by
  rcases exists_discovered with ⟨s, hs, hdialled, hstream⟩
  exact ⟨s, hs, 2, .unspecified, ownStream, discovered, hdialled, hstream, rfl, by decide⟩

end Vibe
end LmsPlayer
