import LmsPlayer.Vibe.Redirect
import LmsPlayer.Library.Fifo

/-!
# Vibe.Delivery — the way of a message from the server to its handler

A message of the server goes through three places: the batch that `rx.recv` has returned, the
channel to the event loop, and the handler.  The slim-proto thread keeps Serv messages for itself,
and drops the rest of a batch when one of them redirects it.

As long as nobody has redirected the player, a control connection is a first-in first-out pipe
(`Process.pipe`): what the event loop has handled, what waits in the channel and what is left of the
batch are together what the server has sent, in that order.  The loss of the connection does not cut
anything off, for the `None` that reports it goes through the same channel.
-/

namespace LmsPlayer
namespace Vibe

open LmsProto
open Channel (Sends)
open TransitionSystem (System Simulation)

/-! ## What is to be delivered -/

/-- The slim-proto thread leaves the server because of this message. -/
def Redirects : ServerMessage → Prop
  | .serv ip _ => Acceptable ip
  | _ => False

instance : DecidablePred Redirects
  | .serv ip _ => inferInstanceAs (Decidable (Acceptable ip))
  | .status .. | .stream .. | .gain .. | .enable .. | .flush | .stop | .pause .. | .unpause .. |
    .queryname | .setname .. | .disableDac | .skip .. | .unrecognised .. | .error => isFalse id

/-- What the event loop is to get of the messages of a connection. -/
def deliverable : List ServerMessage → List ServerMessage
  | [] => []
  | msg :: rest =>
      if Redirects msg then []
      else if IsServ msg then deliverable rest
      else msg :: deliverable rest

theorem isServ_of_redirects {msg : ServerMessage} (h : Redirects msg) : IsServ msg := by
  cases msg with
  | serv ip sgid => trivial
  | _ => exact h.elim

/-- Nothing is cut off in front of a redirect. -/
theorem deliverable_append {msgs : List ServerMessage} (h : ∀ msg ∈ msgs, ¬Redirects msg)
    (rest : List ServerMessage) :
    deliverable (msgs ++ rest) = deliverable msgs ++ deliverable rest := by
  induction msgs with
  | nil => rfl
  | cons msg msgs ih =>
      have hmsg : ¬Redirects msg := h msg (List.mem_cons_self ..)
      have hrest := ih fun m hm => h m (List.mem_cons_of_mem _ hm)
      simp only [List.cons_append, deliverable, if_neg hmsg, hrest]
      split_ifs <;> rfl

theorem deliverable_cons_of_not_isServ {msg : ServerMessage} (h : ¬IsServ msg)
    (rest : List ServerMessage) : deliverable (msg :: rest) = msg :: deliverable rest := by
  rw [deliverable, if_neg (mt isServ_of_redirects h), if_neg h]

example : deliverable
    [.queryname, .serv .unspecified none, .stop, .serv (.new 10 0 0 2) none, .flush] =
    [.queryname, .stop] := by decide

/-! ## The places -/

/-- The messages of the connection in a batch. -/
def LogEntry.batchOn (conn : Connection) : LogEntry → List ServerMessage
  | received conn' msgs => if conn' = conn then msgs else []
  | _ => []

def batchesOn (conn : Connection) (log : List LogEntry) : List ServerMessage :=
  log.flatMap (LogEntry.batchOn conn)

def handledIn (conn : Connection) (log : List LogEntry) : List ServerMessage :=
  log.flatMap (LogEntry.handledOn conn)

/-- What is left of the batch the thread is going through. -/
def ProtoPhase.batchOn (conn : Connection) : ProtoPhase → List ServerMessage
  | forwarding conn' msgs => if conn' = conn then msgs else []
  | _ => []

variable {conn : Connection}

theorem batchesOn_append (log entries : List LogEntry) :
    batchesOn conn (log ++ entries) = batchesOn conn log ++ batchesOn conn entries :=
  List.flatMap_append

theorem handledIn_append (log entries : List LogEntry) :
    handledIn conn (log ++ entries) = handledIn conn log ++ handledIn conn entries :=
  List.flatMap_append

theorem batchesOn_of_byMain {entries : List LogEntry} (h : ∀ e ∈ entries, e.ByMain) :
    batchesOn conn entries = [] := by
  refine List.flatMap_eq_nil_iff.2 ?_
  intro e he
  cases e with
  | received conn' msgs => exact (h _ he).elim
  | _ => rfl

theorem handledIn_of_not_byMain {entries : List LogEntry} (h : ∀ e ∈ entries, ¬e.ByMain) :
    handledIn conn entries = [] := by
  refine List.flatMap_eq_nil_iff.2 ?_
  intro e he
  cases e with
  | handled now receipt sends spawns => exact absurd trivial (h _ he)
  | _ => rfl

theorem batchOn_of_conn?_ne {phase : ProtoPhase} (h : phase.conn? ≠ some conn) :
    phase.batchOn conn = [] := by
  cases phase with
  | forwarding conn' msgs => exact if_neg fun hconn => h (congrArg some hconn)
  | _ => rfl

/-! ## The slim-proto thread -/

/-- There is no connection yet, or no more. -/
def ProtoPhase.Between : ProtoPhase → Prop
  | top => True
  | choosing _ => True
  | connecting .. => True
  | _ => False

def ProtoThread.Before (conn : Connection) (t : ProtoThread) : Prop :=
  t.hops < conn.hops ∨ t.hops = conn.hops ∧ t.phase.Between

/-- What the thread has made of the batches that have come on the connection. -/
structure ProtoThread.Reads (conn : Connection) (t : ProtoThread) (batches : List ServerMessage) :
    Prop where
  unopened : t.Before conn → batches = []
  /-- What it is done with has not redirected it. -/
  stayed : t.phase.conn? = some conn →
    ∃ done, batches = done ++ t.phase.batchOn conn ∧ ∀ msg ∈ done, ¬Redirects msg

namespace Pass

variable {O : Type} {cfg : Config} {k : Nat} {now : Instant} {g g' : Globals} {p p' : Pass O}
  {entries : List LogEntry} {log : List LogEntry}

/-- A thread does not go back to a connection. -/
theorem before_of_protoStep (h : ProtoStep cfg k now g p g' p' entries)
    (hbefore : p'.proto.Before conn) : p.proto.Before conn := by
  rcases hbefore with hlt | ⟨hhops, hbetween⟩
  · exact Or.inl (lt_of_le_of_lt (hops_le_of_protoStep h) hlt)
  · cases h with
    | hello hpc | takeNew hpc | takeCli hpc | discover ip hpc | notDiscovered hpc
    | connectFailed hpc =>
        refine Or.inr ⟨hhops, ?_⟩
        rw [hpc]
        trivial
    | redirect hpc hsend => exact Or.inl (hhops ▸ Nat.lt_succ_self _)
    | _ => exact hbetween.elim

theorem not_before_of_conn? (hwired : p.Wired cfg k) (hphase : p.proto.phase.conn? = some conn) :
    ¬p.proto.Before conn := by
  rintro (hlt | ⟨_, hbetween⟩)
  · exact absurd hlt ((hwired.proto.conn conn hphase).2.1 ▸ lt_irrefl _)
  · generalize p.proto.phase = phase at hphase hbetween
    cases phase with
    | receiving conn' => exact hbetween
    | forwarding conn' msgs => exact hbetween
    | _ => cases hphase

/-- What comes on a connection comes to the thread that has opened it. -/
theorem batchesOn_of_threadStep (h : ThreadStep cfg k now g p g' p' entries)
    (hne : p.proto.phase ≠ .receiving conn) : batchesOn conn entries = [] := by
  cases h with
  | proto h =>
      cases h with
      | received msgs hpc hwire =>
          rename_i conn'
          have hconn : conn' ≠ conn := fun heq => hne (hpc.trans (congrArg _ heq))
          simp [batchesOn, LogEntry.batchOn, hconn]
      | _ => rfl
  | writer h => cases h <;> rfl
  | connect h => cases h <;> rfl
  | timer h => rfl
  | backend h => rfl

theorem stayed_of_advance {batches : List ServerMessage} (hp : p.proto.Reads conn batches)
    {conn' : Connection} {msg : ServerMessage} {rest : List ServerMessage}
    (hpc : p.proto.phase = .forwarding conn' (msg :: rest)) (hmsg : ¬Redirects msg)
    (hconn : (ProtoPhase.forwarding conn' rest).conn? = some conn) :
    ∃ done, batches = done ++ (ProtoPhase.forwarding conn' rest).batchOn conn ∧
      ∀ m ∈ done, ¬Redirects m := by
  cases hconn
  rcases hp.stayed (by rw [hpc]; rfl) with ⟨done, hbatches, hdone⟩
  refine ⟨done ++ [msg], ?_, ?_⟩
  · rw [hbatches, hpc]
    simp [ProtoPhase.batchOn]
  · intro m hm
    rcases List.mem_append.1 hm with hold | hnew
    · exact hdone m hold
    · rw [List.mem_singleton.1 hnew]
      exact hmsg

theorem reads_of_protoStep (h : ProtoStep cfg k now g p g' p' entries) (hwired : p.Wired cfg k)
    (hp : p.proto.Reads conn (batchesOn conn log)) :
    p'.proto.Reads conn (batchesOn conn (log ++ entries)) := by
  have hquiet : p.proto.phase ≠ .receiving conn →
      batchesOn conn (log ++ entries) = batchesOn conn log := by
    intro hne
    rw [batchesOn_append, batchesOn_of_threadStep (.proto h) hne, List.append_nil]
  refine ⟨?_, ?_⟩
  · intro hbefore
    have hbefore := before_of_protoStep h hbefore
    rw [hquiet ?_]
    · exact hp.unopened hbefore
    · intro hphase
      exact not_before_of_conn? hwired (by rw [hphase]; rfl) hbefore
  · intro hconn
    cases h with
    | connect hpc =>
        rw [hquiet (by rw [hpc]; nofun)]
        cases hconn
        -- Nothing has come on a connection that has just been opened.
        have hnone := hp.unopened (Or.inr ⟨rfl, by rw [hpc]; trivial⟩)
        exact ⟨[], hnone, fun msg hmsg => absurd hmsg List.not_mem_nil⟩
    | received msgs hpc hwire =>
        cases hconn
        rcases hp.stayed (by rw [hpc]; rfl) with ⟨done, hbatches, hdone⟩
        refine ⟨done, ?_, hdone⟩
        rw [hpc] at hbatches
        rw [batchesOn_append, hbatches]
        simp [batchesOn, LogEntry.batchOn, ProtoPhase.batchOn, Pass.setPhase]
    | batchDone hpc =>
        rw [hquiet (by rw [hpc]; nofun)]
        cases hconn
        rcases hp.stayed (by rw [hpc]; rfl) with ⟨done, hbatches, hdone⟩
        refine ⟨done, ?_, hdone⟩
        rw [hpc] at hbatches
        simpa [ProtoPhase.batchOn, Pass.setPhase] using hbatches
    | skipServ hpc hip =>
        rw [hquiet (by rw [hpc]; nofun)]
        exact stayed_of_advance hp hpc hip hconn
    | forward hpc hmsg hsend =>
        rw [hquiet (by rw [hpc]; nofun)]
        exact stayed_of_advance hp hpc (mt isServ_of_redirects hmsg) hconn
    | _ => cases hconn

theorem reads_of_threadStep (h : ThreadStep cfg k now g p g' p' entries) (hwired : p.Wired cfg k)
    (hp : p.proto.Reads conn (batchesOn conn log)) :
    p'.proto.Reads conn (batchesOn conn (log ++ entries)) := by
  cases h with
  | proto h => exact reads_of_protoStep h hwired hp
  | writer h => cases h <;> simpa [batchesOn, LogEntry.batchOn] using hp
  | connect h => cases h <;> simpa [batchesOn, LogEntry.batchOn] using hp
  | timer h => cases h <;> simpa using hp
  | backend h => cases h <;> simpa using hp

end Pass

/-! ## The event loop -/

section Main

variable {O : Type} [AudioOutput O] {cfg : Config} {s t : Process O} {entries : List LogEntry}

/-- A pass that has not begun is as it will begin. -/
theorem unstarted (h : (system O cfg).Reachable s) {k : Nat} (hk : s.current < k) :
    ∃ now name reconnect, s.passes k = Pass.start cfg now name reconnect := by
  revert k
  refine System.Reachable.invariant (fun s : Process O => ∀ {k : Nat}, s.current < k →
    ∃ now name reconnect, s.passes k = Pass.start cfg now name reconnect) ?_ ?_ h
  · rintro s ⟨now, hostname, rfl⟩ k _
    exact ⟨_, _, _, rfl⟩
  · intro s t _ ih hstep k hk
    cases hstep with
    | main hmoved =>
        have hlt : s.current < k := lt_of_le_of_lt hmoved.current_le hk
        rcases hmoved.passes_of_ne (Nat.ne_of_gt hlt) with hsame | hnew
        · rcases ih hlt with ⟨now, name, reconnect, hstart⟩
          exact ⟨now, name, reconnect, hsame.trans hstart⟩
        · exact hnew
    | @thread j g' p' entries hrun hj hmoved =>
        have hne : k ≠ j := Nat.ne_of_gt (lt_of_le_of_lt hj hk)
        rcases ih hk with ⟨now, name, reconnect, hstart⟩
        exact ⟨now, name, reconnect, (s.setPass_passes_of_ne p' hne).trans hstart⟩
    | tick d => exact ih hk

/-- `main` does not come back to a pass it has left. -/
theorem passes_of_lt (h : MainStep cfg s t entries) {k : Nat} (hk : k < s.current) :
    t.passes k = s.passes k := by
  have hne : k ≠ s.current := Nat.ne_of_lt hk
  cases h with
  | disconnected hmain hqueue hended => rfl
  | restart hostname hmain =>
      calc
        ((s.setPass s.current s.pass.detach).setPass (s.current + 1) _).passes k
            = (s.setPass s.current s.pass.detach).passes k :=
          Process.setPass_passes_of_ne _ _ (Nat.ne_of_lt (Nat.lt_succ_of_lt hk))
        _ = s.passes k := Process.setPass_passes_of_ne _ _ hne
  | _ => exact Process.setPass_passes_of_ne _ _ hne

/-- Of a slim-proto thread `main` decides only whether it is one for a reconnect. -/
theorem proto_of_mainStep (hs : (system O cfg).Reachable s) (h : MainStep cfg s t entries)
    (k : Nat) :
    ∃ reconnect, (t.passes k).proto = { (s.passes k).proto with reconnect := reconnect } := by
  rcases lt_trichotomy k s.current with hlt | rfl | hgt
  · exact ⟨_, congrArg Pass.proto (passes_of_lt h hlt)⟩
  · exact ⟨_, protoThread_of_mainStep h⟩
  · rcases h.passes_of_ne (Nat.ne_of_gt hgt) with hsame | ⟨now, name, reconnect, hnew⟩
    · exact ⟨_, congrArg Pass.proto hsame⟩
    · rcases unstarted hs hgt with ⟨now', name', reconnect', hold⟩
      rw [hnew, hold]
      exact ⟨reconnect, rfl⟩

theorem reads (h : (system O cfg).Reachable s) (conn : Connection) :
    (s.passes conn.pass).proto.Reads conn (batchesOn conn s.log) := by
  refine System.Reachable.invariant
    (fun s : Process O => (s.passes conn.pass).proto.Reads conn (batchesOn conn s.log)) ?_ ?_ h
  · rintro s ⟨now, hostname, rfl⟩
    exact ⟨fun _ => rfl, nofun⟩
  · intro s t hs ih hstep
    cases hstep with
    | @main t entries hmoved =>
        show (t.passes conn.pass).proto.Reads conn (batchesOn conn (t.log ++ entries))
        rw [batchesOn_append, batchesOn_of_byMain (byMain_of_mainStep hmoved), List.append_nil,
          hmoved.log_eq]
        rcases proto_of_mainStep hs hmoved conn.pass with ⟨reconnect, hproto⟩
        rw [hproto]
        exact ⟨ih.unopened, ih.stayed⟩
    | @thread k g' p' entries hrun hk hmoved =>
        show ((s.setPass k p').passes conn.pass).proto.Reads conn
            (batchesOn conn (s.log ++ entries))
        by_cases hpass : conn.pass = k
        · subst hpass
          rw [Process.setPass_passes_self]
          exact Pass.reads_of_threadStep hmoved (wired hs _) ih
        · rw [Process.setPass_passes_of_ne _ _ hpass, batchesOn_append,
            Pass.batchesOn_of_threadStep hmoved ?_, List.append_nil]
          · exact ih
          · intro hphase
            have hconn := (wired hs k).proto.conn conn (by rw [hphase]; rfl)
            exact hpass hconn.1
    | tick d => exact ih

/-! ## The loss of the connection -/

theorem toMain_of_mainStep (h : MainStep cfg s t entries) (k : Nat) :
    (t.passes k).toMain = (s.passes k).toMain ∨ (t.passes k).toMain = [] ∨
      k = s.current ∧ ∃ x, (s.passes k).toMain = x :: (t.passes k).toMain := by
  by_cases hk : k = s.current
  · subst hk
    cases h with
    | serverMessage opened hmain hqueue hdone =>
        rw [Process.finish_passes_self]
        exact Or.inr (Or.inr ⟨rfl, _, hqueue⟩)
    | playerMessage | timeout =>
        rw [Process.finish_passes_self]
        exact Or.inl rfl
    | lost hmain hqueue =>
        dsimp only
        rw [Process.setPass_passes_self]
        exact Or.inr (Or.inr ⟨rfl, _, hqueue⟩)
    | disconnected hmain hqueue hended => exact Or.inl rfl
    | restart hostname hmain =>
        dsimp only
        rw [Process.setPass_passes_of_ne _ _ (Nat.succ_ne_self _).symm, Process.setPass_passes_self]
        exact Or.inr (Or.inl rfl)
    | sendToServer | sendToSelf | bye =>
        dsimp only
        rw [Process.setPass_passes_self]
        exact Or.inl rfl
  · rcases h.passes_of_ne hk with hsame | ⟨now, name, reconnect, hnew⟩
    · exact Or.inl (congrArg Pass.toMain hsame)
    · exact Or.inr (Or.inl (congrArg Pass.toMain hnew))

omit [AudioOutput O] in
theorem toMain_of_protoStep {k : Nat} {now : Instant} {g g' : Globals} {p p' : Pass O}
    (h : ProtoStep cfg k now g p g' p' entries) :
    p'.toMain = p.toMain ∨ ∃ x, Sends (p.attached = true) SLIM_CAPACITY p.toMain x p'.toMain ∧
      ∀ receipt, x = some receipt → ∃ msgs, p.proto.phase = .forwarding receipt.conn msgs := by
  cases h with
  | forward hpc hmsg hsend =>
      refine Or.inr ⟨_, hsend, ?_⟩
      intro receipt hreceipt
      cases hreceipt
      exact ⟨_, hpc⟩
  | redirect hpc hsend | lose hpc hsend =>
      refine Or.inr ⟨none, hsend, ?_⟩
      intro receipt hreceipt
      cases hreceipt
  | _ => exact Or.inl rfl

/-- The channel from a slim-proto thread holds one message at most. -/
theorem toMain_le (h : (system O cfg).Reachable s) (k : Nat) :
    (s.passes k).toMain.length ≤ SLIM_CAPACITY := by
  refine forall_pass (P := fun _ p => p.toMain.length ≤ SLIM_CAPACITY) h ?_ ?_ ?_ k
  · exact fun _ _ _ _ => Nat.zero_le _
  · intro s k g' p' entries _ hp hmoved
    rcases Pass.protoStep_or_frame hmoved with hproto | ⟨_, hsame⟩
    · rcases toMain_of_protoStep hproto with hsame | ⟨x, hsend, _⟩
      · exact hsame ▸ hp
      · exact hsend.length_le hp
    · exact hsame ▸ hp
  · intro s t entries _ hp hmoved
    rcases toMain_of_mainStep hmoved s.current with hsame | hnone | ⟨_, x, hqueue⟩
    · exact hsame ▸ hp
    · rw [hnone]
      exact Nat.zero_le _
    · have hlength : s.pass.toMain.length = (t.passes s.current).toMain.length + 1 := by
        rw [Process.pass, hqueue, List.length_cons]
      omega

/-- The entry that reports a loss is made when its `None` is received. -/
theorem lost_of_mem (h : MainStep cfg s t entries) {k : Nat} (he : LogEntry.lost k ∈ entries) :
    k = s.current ∧ s.pass.toMain = none :: (t.passes s.current).toMain := by
  cases h with
  | lost hmain hqueue =>
      cases List.mem_singleton.1 he
      dsimp only
      rw [Process.setPass_passes_self]
      exact ⟨rfl, hqueue⟩
  | serverMessage | playerMessage | timeout => cases List.mem_singleton.1 he
  | _ => exact absurd he List.not_mem_nil

/-- A loss is reported when the slim-proto thread has left. -/
theorem hasLeft_of_lost (h : (system O cfg).Reachable s) :
    ∀ k, LogEntry.lost k ∈ s.log → k ≤ s.current ∧ (s.passes k).HasLeft := by
  refine System.Reachable.invariant (fun s : Process O => ∀ k, LogEntry.lost k ∈ s.log →
    k ≤ s.current ∧ (s.passes k).HasLeft) ?_ ?_ h
  · rintro s ⟨now, hostname, rfl⟩ k hlost
    exact absurd hlost List.not_mem_nil
  · intro s t hs ih hstep k hlost
    have hmain : ∀ {u : Process O} {entries : List LogEntry}, MainStep cfg s u entries →
        k ≤ s.current → (s.passes k).HasLeft → k ≤ u.current ∧ (u.passes k).HasLeft := by
      intro u entries hmoved hk hleft
      refine ⟨hk.trans hmoved.current_le, ?_⟩
      rcases proto_of_mainStep hs hmoved k with ⟨reconnect, hproto⟩
      unfold Pass.HasLeft Pass.ProtoAlive
      rw [hproto]
      exact hleft
    rcases hstep.mem_log hlost trivial with hold | ⟨u, entries, hmoved, rfl, hnew⟩
    · rcases ih k hold with ⟨hk, hleft⟩
      cases hstep with
      | main hmoved =>
          have hkept := hmain hmoved hk hleft
          exact hkept
      | thread hrun hj hmoved =>
          exact ⟨hk, Process.setPass_induction (Pass.hasLeft_of_threadStep hmoved) hleft⟩
      | tick d => exact ⟨hk, hleft⟩
    · rcases lost_of_mem hmoved hnew with ⟨rfl, hqueue⟩
      have hnone : none ∈ s.pass.toMain := by
        rw [hqueue]
        exact List.mem_cons_self ..
      have hkept := hmain hmoved le_rfl ((wired hs _).notices none hnone rfl)
      exact hkept

/-- `main` leaves an event loop because of a loss. -/
theorem lost_of_leaving (h : (system O cfg).Reachable s)
    (hmain : s.main = .resetting ∨ s.main = .leaving) : LogEntry.lost s.current ∈ s.log := by
  revert hmain
  refine System.Reachable.invariant (fun s : Process O => s.main = .resetting ∨ s.main = .leaving →
    LogEntry.lost s.current ∈ s.log) ?_ ?_ h
  · rintro s ⟨now, hostname, rfl⟩ (hresetting | hleaving)
    · cases hresetting
    · cases hleaving
  · intro s t hs ih hstep hmain
    cases hstep with
    | @main t entries hmoved =>
        cases hmoved with
        | lost hloop hqueue => exact List.mem_append_right _ (List.mem_singleton_self _)
        | bye hresetting hsend => exact List.mem_append_left _ (ih (Or.inl hresetting))
        | _ => rcases hmain with hresetting | hleaving <;> contradiction
    | thread hrun hj hmoved => exact List.mem_append_left _ (ih hmain)
    | tick d => exact ih hmain

/-- No thread that has left is still reading the first connection of its pass. -/
theorem conn?_ne_of_hasLeft (h : (system O cfg).Reachable s) (hconn : conn.hops = 0)
    (hleft : (s.passes conn.pass).HasLeft) :
    (s.passes conn.pass).proto.phase.conn? ≠ some conn := by
  intro hphase
  rcases hleft with hended | hhops
  · refine hended ?_
    intro hphase'
    rw [hphase'] at hphase
    cases hphase
  · have hsame := ((wired h _).proto.conn conn hphase).2.1
    omega

/-- While the first connection of a pass is read, the event loop of the pass is there. -/
theorem attached_of_conn? (h : (system O cfg).Reachable s) (hconn : conn.hops = 0)
    (hcurrent : conn.pass ≤ s.current)
    (hphase : (s.passes conn.pass).proto.phase.conn? = some conn) :
    (s.passes conn.pass).attached = true := by
  rcases Nat.lt_or_eq_of_le hcurrent with hlt | heq
  · exact absurd hphase (conn?_ne_of_hasLeft h hconn ((session h).left _ hlt))
  · rw [heq]
    exact attached h

omit [AudioOutput O] in
theorem waitingOn_of_sends {p p' : Pass O} {x : Option Receipt}
    (hsend : Sends (p.attached = true) SLIM_CAPACITY p.toMain x p'.toMain) :
    p'.waitingOn conn = p.waitingOn conn ∨
      ∃ receipt, x = some receipt ∧ receipt.conn = conn ∧ p.attached = true ∧
        p'.waitingOn conn = p.waitingOn conn ++ [receipt.msg] := by
  unfold Pass.waitingOn
  generalize p'.toMain = queue at hsend
  cases hsend with
  | queued hattached hroom =>
      cases x with
      | none => exact Or.inl (by simp)
      | some receipt =>
          by_cases hreceipt : receipt.conn = conn
          · exact Or.inr ⟨receipt, rfl, hreceipt, hattached, by simp [hreceipt]⟩
          · exact Or.inl (by simp [hreceipt])
  | dropped hdead => exact Or.inl rfl

omit [AudioOutput O] in
theorem waitingOn_of_sends_none {p p' : Pass O}
    (hsend : Sends (p.attached = true) SLIM_CAPACITY p.toMain none p'.toMain) :
    p'.waitingOn conn = p.waitingOn conn := by
  rcases waitingOn_of_sends hsend with hsame | ⟨receipt, hnone, _⟩
  · exact hsame
  · cases hnone

/-- When the loss of the connection has been reported, nothing waits any more. -/
theorem waitingOn_of_lost (h : (system O cfg).Reachable s) (hconn : conn.hops = 0) :
    LogEntry.lost conn.pass ∈ s.log → (s.passes conn.pass).waitingOn conn = [] := by
  refine System.Reachable.invariant (fun s : Process O =>
    LogEntry.lost conn.pass ∈ s.log → (s.passes conn.pass).waitingOn conn = []) ?_ ?_ h
  · rintro s ⟨now, hostname, rfl⟩ _
    rfl
  · intro s t hs ih hstep hlost
    cases hstep with
    | @main t entries hmoved =>
        show (t.passes conn.pass).waitingOn conn = []
        have hlog : LogEntry.lost conn.pass ∈ s.log ++ entries := hmoved.log_eq ▸ hlost
        rcases List.mem_append.1 hlog with hold | hnew
        · have hnone := ih hold
          rcases toMain_of_mainStep hmoved conn.pass with hsame | hempty | ⟨_, x, hqueue⟩
          · rw [Pass.waitingOn, hsame]
            exact hnone
          · rw [Pass.waitingOn, hempty]
            rfl
          · rw [Pass.waitingOn, hqueue] at hnone
            exact (List.append_eq_nil_iff.1 hnone).2
        · rcases lost_of_mem hmoved hnew with ⟨heq, hqueue⟩
          -- The `None` was the one message in the channel.
          have hlength := toMain_le hs s.current
          have hone : s.pass.toMain.length = (t.passes s.current).toMain.length + 1 := by
            rw [hqueue, List.length_cons]
          have hempty : (t.passes s.current).toMain = [] := by
            refine List.length_eq_zero_iff.1 ?_
            have hcap : s.pass.toMain.length ≤ 1 := hlength
            omega
          rw [heq, Pass.waitingOn, hempty]
          rfl
    | @thread k g' p' entries hrun hk hmoved =>
        have hold : LogEntry.lost conn.pass ∈ s.log := by
          rcases List.mem_append.1 hlost with hold | hnew
          · exact hold
          · exact absurd trivial (not_byMain_of_threadStep hmoved _ hnew)
        show ((s.setPass k p').passes conn.pass).waitingOn conn = []
        by_cases hpass : conn.pass = k
        · subst hpass
          rw [Process.setPass_passes_self]
          rcases Pass.protoStep_or_frame hmoved with hproto | ⟨_, hsame⟩
          · rcases toMain_of_protoStep hproto with hsame | ⟨x, hsend, hfrom⟩
            · rw [Pass.waitingOn, hsame]
              exact ih hold
            · rcases waitingOn_of_sends hsend with hsame | ⟨receipt, hx, hreceipt, _⟩
              · exact hsame.trans (ih hold)
              · -- The thread has left the connection, and cannot have read this from it.
                rcases hfrom receipt hx with ⟨msgs, hphase⟩
                have hleft := (hasLeft_of_lost hs _ hold).2
                refine absurd ?_ (conn?_ne_of_hasLeft hs hconn hleft)
                rw [hphase, ← hreceipt]
                rfl
          · rw [Pass.waitingOn, hsame]
            exact ih hold
        · rw [Process.setPass_passes_of_ne _ _ hpass]
          exact ih hold
    | tick d => exact ih hlost

end Main

/-! ## The pipe -/

section Pipe

variable {O : Type} {cfg : Config} {s t : Process O} {entries : List LogEntry}

/-- The two ends of the connection, and what the pass holds of what is in between. -/
def Pass.pipe (conn : Connection) (log : List LogEntry) (p : Pass O) : Fifo.Pipe ServerMessage :=
  { sent := deliverable (batchesOn conn log)
    inFlight := p.waitingOn conn ++ deliverable (p.proto.phase.batchOn conn)
    received := handledIn conn log }

theorem pipe_eq {p p' : Pass O} {log : List LogEntry} (hbatches : batchesOn conn entries = [])
    (hhandled : handledIn conn entries = [])
    (hflight : p'.waitingOn conn ++ deliverable (p'.proto.phase.batchOn conn) =
      p.waitingOn conn ++ deliverable (p.proto.phase.batchOn conn)) :
    p'.pipe conn (log ++ entries) = p.pipe conn log := by
  unfold Pass.pipe
  rw [batchesOn_append, hbatches, List.append_nil, handledIn_append, hhandled, List.append_nil,
    hflight]

/-- A thread of the pass moves: more is sent, or nothing happens to the pipe. -/
theorem pipe_of_protoStep {k : Nat} {now : Instant} {g g' : Globals} {p p' : Pass O}
    {log : List LogEntry} (h : ProtoStep cfg k now g p g' p' entries)
    (hreads : p.proto.Reads conn (batchesOn conn log))
    (hattached : p.proto.phase.conn? = some conn → p.attached = true) :
    p'.pipe conn (log ++ entries) = p.pipe conn log ∨
      Fifo.Step (p.pipe conn log) (p'.pipe conn (log ++ entries)) := by
  have hhandled : handledIn conn entries = [] :=
    handledIn_of_not_byMain (not_byMain_of_threadStep (.proto h))
  have hquiet : p.proto.phase ≠ .receiving conn → batchesOn conn entries = [] :=
    Pass.batchesOn_of_threadStep (.proto h)
  cases h with
  | received msgs hpc hwire =>
      rename_i conn'
      by_cases hconn : conn' = conn
      · subst hconn
        refine Or.inr ?_
        rcases hreads.stayed (by rw [hpc]; rfl) with ⟨done, hbatches, hdone⟩
        have hnew : batchesOn conn' [LogEntry.received conn' msgs] = msgs := by
          simp [batchesOn, LogEntry.batchOn]
        have hstayed : ∀ msg ∈ batchesOn conn' log, ¬Redirects msg := by
          rw [hbatches, hpc]
          simpa [ProtoPhase.batchOn] using hdone
        have hsent : (p.setPhase (.forwarding conn' msgs)).pipe conn'
            (log ++ [LogEntry.received conn' msgs]) =
              (p.pipe conn' log).send (deliverable msgs) := by
          unfold Pass.pipe Fifo.Pipe.send
          rw [batchesOn_append, hnew, deliverable_append hstayed, handledIn_append, hhandled,
            List.append_nil, hpc]
          simp [ProtoPhase.batchOn, Pass.setPhase, Pass.waitingOn, deliverable]
        rw [hsent]
        exact .send _ _
      · refine Or.inl (pipe_eq (hquiet ?_) hhandled ?_)
        · rw [hpc]
          exact fun heq => hconn (ProtoPhase.receiving.inj heq)
        · rw [hpc]
          simp [ProtoPhase.batchOn, Pass.setPhase, Pass.waitingOn, hconn]
  | skipServ hpc hip =>
      rename_i conn' ip sgid rest
      refine Or.inl (pipe_eq rfl hhandled ?_)
      have hskip : deliverable (.serv ip sgid :: rest) = deliverable rest := by
        rw [deliverable, if_neg (show ¬Redirects (.serv ip sgid) from hip),
          if_pos (show IsServ (.serv ip sgid) from trivial)]
      rw [hpc]
      by_cases hconn : conn' = conn
      · simp [ProtoPhase.batchOn, Pass.setPhase, Pass.waitingOn, hconn, hskip]
      · simp [ProtoPhase.batchOn, Pass.setPhase, Pass.waitingOn, hconn]
  | acceptServ hpc hip =>
      rename_i conn' ip sgid rest
      refine Or.inl (pipe_eq rfl hhandled ?_)
      -- The rest of the batch is not delivered.
      have hcut : deliverable (.serv ip sgid :: rest) = [] := if_pos hip
      rw [hpc]
      by_cases hconn : conn' = conn
      · simp [ProtoPhase.batchOn, Pass.setPhase, Pass.waitingOn, hconn, hcut, deliverable]
      · simp [ProtoPhase.batchOn, Pass.setPhase, Pass.waitingOn, hconn]
  | forward hpc hmsg hsend =>
      rename_i conn' msg rest queue
      refine Or.inl (pipe_eq rfl hhandled ?_)
      rw [hpc]
      by_cases hconn : conn' = conn
      · subst hconn
        have hopen : p.attached = true := hattached (by rw [hpc]; rfl)
        cases hsend with
        | queued _ hroom =>
            simp [ProtoPhase.batchOn, Pass.sendToMain, Pass.waitingOn,
              deliverable_cons_of_not_isServ hmsg]
        | dropped hdead => exact absurd hopen hdead
      · have hsent : (p.sendToMain queue (.forwarding conn' rest)).waitingOn conn =
            p.waitingOn conn ∨ _ :=
          waitingOn_of_sends hsend
        rcases hsent with hsame | ⟨receipt, hreceipt, hon, _⟩
        · rw [hsame]
          simp [ProtoPhase.batchOn, Pass.sendToMain, hconn]
        · cases hreceipt
          exact absurd hon hconn
  | redirect hpc hsend =>
      refine Or.inl (pipe_eq rfl hhandled ?_)
      rw [hpc]
      exact congrArg (· ++ []) (waitingOn_of_sends_none hsend)
  | lose hpc hsend =>
      refine Or.inl (pipe_eq rfl hhandled ?_)
      rw [hpc]
      exact congrArg (· ++ []) (waitingOn_of_sends_none hsend)
  | batchDone hpc =>
      refine Or.inl (pipe_eq rfl hhandled ?_)
      rw [hpc]
      simp [ProtoPhase.batchOn, Pass.setPhase, Pass.waitingOn]
  | hello hpc | takeNew hpc hnew | takeCli hpc hnew hcli | discover ip hpc hnew hcli
    | notDiscovered hpc hnew hcli | connect hpc | connectFailed hpc | lost hpc | panic hpc =>
      refine Or.inl (pipe_eq rfl hhandled ?_)
      rw [hpc]
      rfl

theorem pipe_of_threadStep {k : Nat} {now : Instant} {g g' : Globals} {p p' : Pass O}
    {log : List LogEntry} (h : ThreadStep cfg k now g p g' p' entries)
    (hreads : p.proto.Reads conn (batchesOn conn log))
    (hattached : p.proto.phase.conn? = some conn → p.attached = true) :
    p'.pipe conn (log ++ entries) = p.pipe conn log ∨
      Fifo.Step (p.pipe conn log) (p'.pipe conn (log ++ entries)) := by
  have hhandled : handledIn conn entries = [] :=
    handledIn_of_not_byMain (not_byMain_of_threadStep h)
  cases h with
  | proto h => exact pipe_of_protoStep h hreads hattached
  | writer h => exact Or.inl (by cases h <;> exact pipe_eq rfl hhandled rfl)
  | connect h => exact Or.inl (by cases h <;> exact pipe_eq rfl hhandled rfl)
  | timer h => exact Or.inl (by cases h <;> exact pipe_eq rfl hhandled rfl)
  | backend h => exact Or.inl (by cases h <;> exact pipe_eq rfl hhandled rfl)

variable [AudioOutput O]

omit [AudioOutput O] in
theorem waitingOn_setPass {p : Pass O}
    (h : conn.pass = s.current → p.waitingOn conn = s.pass.waitingOn conn) :
    ((s.setPass s.current p).passes conn.pass).waitingOn conn =
      (s.passes conn.pass).waitingOn conn := by
  by_cases hpass : conn.pass = s.current
  · rw [hpass, Process.setPass_passes_self]
    exact h hpass
  · rw [Process.setPass_passes_of_ne _ _ hpass]

/-- `main` moves: it receives a message, or nothing happens to the pipe. -/
theorem pipe_of_mainStep (hs : (system O cfg).Reachable s) (h : MainStep cfg s t entries)
    (hconn : conn.hops = 0) :
    (t.passes conn.pass).pipe conn (s.log ++ entries) = (s.passes conn.pass).pipe conn s.log ∨
      Fifo.Step ((s.passes conn.pass).pipe conn s.log)
        ((t.passes conn.pass).pipe conn (s.log ++ entries)) := by
  have hbatches : batchesOn conn entries = [] := batchesOn_of_byMain (byMain_of_mainStep h)
  have hphase : (t.passes conn.pass).proto.phase = (s.passes conn.pass).proto.phase := by
    rcases proto_of_mainStep hs h conn.pass with ⟨reconnect, hproto⟩
    rw [hproto]
  have hquiet : handledIn conn entries = [] →
      (t.passes conn.pass).waitingOn conn = (s.passes conn.pass).waitingOn conn →
      (t.passes conn.pass).pipe conn (s.log ++ entries) =
        (s.passes conn.pass).pipe conn s.log := by
    intro hhandled hwaiting
    exact pipe_eq hbatches hhandled (by rw [hwaiting, hphase])
  cases h with
  | serverMessage opened hmain hqueue hdone =>
      rename_i receipt rest done
      by_cases hon : receipt.conn = conn
      · -- The event loop has received what came first.
        have hpass : conn.pass = s.current :=
          hon ▸ ((wired hs _).receipts _ (mem_toMain_of_cons hqueue).1 receipt rfl).1
        have hflight : (s.passes conn.pass).pipe conn s.log =
            { sent := deliverable (batchesOn conn s.log)
              inFlight := [receipt.msg] ++
                (({ s.pass with toMain := rest } : Pass O).waitingOn conn ++
                  deliverable (s.pass.proto.phase.batchOn conn))
              received := handledIn conn s.log } := by
          have hqueue' : (s.passes s.current).toMain = some receipt :: rest := hqueue
          rw [hpass]
          simp [Pass.pipe, Pass.waitingOn, hqueue', hon, Process.pass]
        have hreceived : ((s.finish { s.pass with toMain := rest } done).passes conn.pass).pipe conn
            (s.log ++ [.handled s.now receipt done.sends done.spawns]) =
            { sent := deliverable (batchesOn conn s.log)
              inFlight := ({ s.pass with toMain := rest } : Pass O).waitingOn conn ++
                deliverable (s.pass.proto.phase.batchOn conn)
              received := handledIn conn s.log ++ [receipt.msg] } := by
          rw [hpass, Process.finish_passes_self, Pass.pipe, batchesOn_append, hbatches,
            List.append_nil, handledIn_append]
          simp [handledIn, LogEntry.handledOn, hon, Pass.absorb, Pass.waitingOn]
        rw [hflight, hreceived]
        exact Or.inr (.receive _ rfl)
      · refine Or.inl (hquiet ?_ (waitingOn_setPass fun _ => ?_))
        · simp [handledIn, LogEntry.handledOn, hon]
        · show ({ s.pass with toMain := rest } : Pass O).waitingOn conn = s.pass.waitingOn conn
          simp [Pass.waitingOn, hqueue, hon]
  | lost hmain hqueue =>
      refine Or.inl (hquiet rfl (waitingOn_setPass fun _ => ?_))
      simp [Pass.waitingOn, hqueue]
  | disconnected hmain hqueue hended => exact Or.inl (hquiet rfl rfl)
  | restart hostname hmain =>
      refine Or.inl (hquiet rfl ?_)
      by_cases hnext : conn.pass = s.current + 1
      · have hlater : s.current < conn.pass := by
          rw [hnext]
          exact Nat.lt_succ_self _
        rcases unstarted hs hlater with ⟨now, name, reconnect, hstart⟩
        dsimp only
        rw [hstart, hnext, Process.setPass_passes_self]
        rfl
      · dsimp only
        rw [Process.setPass_passes_of_ne _ _ hnext]
        refine waitingOn_setPass fun hpass => ?_
        have hlost := lost_of_leaving hs (Or.inr hmain)
        have hnone := waitingOn_of_lost hs hconn (hpass.symm ▸ hlost)
        rw [hpass] at hnone
        exact hnone.symm
  | playerMessage | timeout | sendToServer | sendToSelf | bye =>
      exact Or.inl (hquiet rfl (waitingOn_setPass fun _ => rfl))

/-- **A control connection is a pipe**, as long as nobody has redirected the player: a simulation of
the program by the first-in first-out pipe from the server to the event loop. -/
def pipe (O : Type) [AudioOutput O] (cfg : Config) (hconn : conn.hops = 0) :
    Simulation (system O cfg) (Fifo.system ServerMessage) where
  abs s := (s.passes conn.pass).pipe conn s.log
  init := by
    rintro s ⟨now, hostname, rfl⟩
    rfl
  step := by
    intro s t hs hstep
    cases hstep with
    | @main t entries hmoved =>
        show (t.passes conn.pass).pipe conn (t.log ++ entries) = _ ∨
          Fifo.Step _ ((t.passes conn.pass).pipe conn (t.log ++ entries))
        rw [hmoved.log_eq]
        exact pipe_of_mainStep hs hmoved hconn
    | @thread k g' p' entries hrun hk hmoved =>
        show ((s.setPass k p').passes conn.pass).pipe conn (s.log ++ entries) = _ ∨
          Fifo.Step _ (((s.setPass k p').passes conn.pass).pipe conn (s.log ++ entries))
        by_cases hpass : conn.pass = k
        · subst hpass
          rw [Process.setPass_passes_self]
          exact pipe_of_threadStep hmoved (reads hs conn) (attached_of_conn? hs hconn hk)
        · rw [Process.setPass_passes_of_ne _ _ hpass]
          refine Or.inl (pipe_eq ?_ (handledIn_of_not_byMain (not_byMain_of_threadStep hmoved)) rfl)
          refine Pass.batchesOn_of_threadStep hmoved ?_
          intro hphase
          exact hpass ((wired hs k).proto.conn conn (by rw [hphase]; rfl)).1
    | tick d => exact Or.inl rfl

/-- **Every message of the server is handled once, in order**, for every way the threads take turns
and every connection that no redirect has led to: what has been handled, what waits in the channel
and what is left of the batch in hand are what the server has sent up to a redirect, but for the
Serv messages.  When the event loop is told that the connection is lost, it has handled all of
it. -/
theorem messages_delivered (h : (system O cfg).Reachable s) (hconn : conn.hops = 0) :
    deliverable (batchesOn conn s.log) =
        handledIn conn s.log ++ ((s.passes conn.pass).waitingOn conn ++
          deliverable ((s.passes conn.pass).proto.phase.batchOn conn)) ∧
      (LogEntry.lost conn.pass ∈ s.log →
        handledIn conn s.log = deliverable (batchesOn conn s.log)) := by
  have hpipe := Fifo.conservation ((pipe O cfg hconn).reachable h)
  refine ⟨hpipe.symm, ?_⟩
  intro hlost
  have hphase := conn?_ne_of_hasLeft h hconn (hasLeft_of_lost h _ hlost).2
  have hflight : ((pipe O cfg hconn).abs s).inFlight = [] := by
    show (s.passes conn.pass).waitingOn conn ++ deliverable _ = []
    rw [waitingOn_of_lost h hconn hlost, batchOn_of_conn?_ne hphase]
    rfl
  rw [hflight, List.append_nil] at hpipe
  exact hpipe

end Pipe

/-! ## A run -/

/-- The first connection of a run with the server on the command line. -/
def firstConnection : Connection :=
  { pass := 0
    hops := 0
    sock := { ip := .new 10 0 0 1, port := SLIM_PORT } }

theorem onWire_setname_serv_queryname :
    ∀ msg ∈ [.setname "Kitchen", .serv .unspecified none, .queryname],
    ServerMessage.OnWire msg := by
  refine forall_onWire _ ?_
  intro msg hmsg
  simp only [List.mem_cons, List.not_mem_nil, or_false] at hmsg
  rcases hmsg with rfl | rfl | rfl
  · exact trivial
  · intro group hgroup
    cases hgroup
  · exact trivial

/-- A redirect to nowhere is skipped, what is around it is handled, and the connection is lost. -/
theorem messages_delivered_setname_queryname : ∃ s : Process PulseOutput,
    (system PulseOutput cliConfig).Reachable s ∧ LogEntry.lost 0 ∈ s.log ∧
      deliverable (batchesOn firstConnection s.log) = [.setname "Kitchen", .queryname] ∧
      handledIn firstConnection s.log = [.setname "Kitchen", .queryname] := by
  have h0 : (system PulseOutput cliConfig).Reachable (Process.start cliConfig 0 none) :=
    .init ⟨0, none, rfl⟩
  have h1 := reachable_of_threadRun h0 Step.thread nofun (le_refl 0)
    (.cons (.proto (.hello rfl)) <|
      .cons (.proto (.takeCli rfl rfl rfl)) <|
      .cons (.proto (.connect rfl)) <|
      .cons (.proto (.received [.setname "Kitchen", .serv .unspecified none, .queryname] rfl
        onWire_setname_serv_queryname)) <|
      .cons (.proto (.forward rfl id (.queued rfl (by decide)))) <|
      .cons (.proto (.skipServ rfl (by decide))) .nil)
  have h2 := h1.step (.main (.serverMessage none rfl rfl rfl))
  have h3 := reachable_of_threadRun h2 Step.thread nofun (le_refl 0)
    (.cons (.proto (.forward rfl id (.queued rfl (by decide)))) <|
      .cons (.proto (.batchDone rfl)) <|
      .cons (.proto (.lost rfl)) .nil)
  have h4 := h3.step (.main (.serverMessage none rfl rfl rfl))
  have h5 := h4.step (.main (.sendToServer rfl (.queued (Or.inl nofun) (by decide))))
  have h6 := reachable_of_threadRun h5 Step.thread nofun (le_refl 0)
    (.cons (.proto (.lose rfl (.queued rfl (by decide)))) .nil)
  have h7 := h6.step (.main (.lost rfl rfl))
  have hall : handledIn firstConnection _ = deliverable (batchesOn firstConnection _) :=
    (messages_delivered h7 rfl).2 (List.mem_of_getLast? rfl)
  exact ⟨_, h7, List.mem_of_getLast? rfl, rfl, hall⟩

end Vibe
end LmsPlayer
