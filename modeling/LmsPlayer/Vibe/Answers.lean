import LmsPlayer.Vibe.Clocks
import LmsPlayer.Vibe.Delivery
import Mathlib.Data.List.Nodup

/-!
# Vibe.Answers — the way of a message from the event loop to the server

What the event loop sends to the server goes through the channel of its pass and the hands of a
slim-write thread.  Every connection of the pass has a slim-write thread, and all of them receive
from this one channel; a thread ends with the first write that fails, and with the goodbye.

* Whatever is written on a connection has been sent by the event loop of its pass, in that order and
  not twice (`Flow`), but for the reports of the resume-timers, which come from threads of their
  own.
* Nothing is left out in between as long as the player has not been redirected: there is one
  slim-write thread then, and what it has written is a prefix of what has been sent.
* Nothing is written behind a goodbye.
* The reports on a connection are in the order of the times they carry.
-/

namespace LmsPlayer
namespace Vibe

open LmsProto
open Channel (Sends)
open ThreadPool (Replace)
open TransitionSystem (System)

/-! ## What is sent and what is written -/

/-- The message reports that the player has resumed.  The resume-timers send such reports too. -/
def ReportsResume : ClientMessage → Prop
  | .stat code _ => code = StatusCode.resume.toString
  | _ => False

instance : DecidablePred ReportsResume
  | .stat code _ => inferInstanceAs (Decidable (code = StatusCode.resume.toString))
  | .helo .. | .bye _ | .name _ => isFalse id

/-- The messages that only the event loop sends. -/
def ordered (msgs : List ClientMessage) : List ClientMessage :=
  msgs.filter fun msg => ¬ReportsResume msg

/-- What a slim-write thread writes for the messages. -/
def shown (msgs : List ClientMessage) : List ClientMessage :=
  msgs.map fun msg => (writerMessage msg).1

/-- The messages to the server among what a handler sends. -/
def clientMessages (sends : List Send) : List ClientMessage :=
  sends.filterMap fun
    | .toServer msg => some msg
    | .toSelf _ => none

namespace LogEntry

/-- What the event loop of the pass sends to the server. -/
def sentIn (k : Nat) : LogEntry → List ClientMessage
  | handled _ receipt sends _ => if receipt.conn.pass = k then clientMessages sends else []
  | handledPlayer _ pass _ sends _ => if pass = k then clientMessages sends else []
  | timeout _ pass sends => if pass = k then clientMessages sends else []
  | lost pass => if pass = k then [.bye 1] else []
  | _ => []

def writtenOn (conn : Connection) : LogEntry → List ClientMessage
  | wrote conn' _ msg => if conn' = conn then [msg] else []
  | _ => []

end LogEntry

/-- Everything the event loop of the pass has sent to the server so far. -/
def sentBy (k : Nat) (log : List LogEntry) : List ClientMessage :=
  log.flatMap (LogEntry.sentIn k)

/-- Everything that has been written on the connection so far, behind its HELO. -/
def writtenTo (conn : Connection) (log : List LogEntry) : List ClientMessage :=
  log.flatMap (LogEntry.writtenOn conn)

/-! ## What is on its way -/

/-- What the event loop has still to send to the server. -/
def MainPhase.unsent : MainPhase → List ClientMessage
  | loop pending => clientMessages pending
  | resetting => [.bye 1]
  | _ => []

/-- What the thread is writing. -/
def WriterThread.hand (w : WriterThread) : List ClientMessage :=
  match w.phase with
  | .receiving => []
  | .sending out => [out.msg]

/-- What the slim-write threads of a connection are writing. -/
def handsOn (conn : Connection) (writers : List WriterThread) : List ClientMessage :=
  writers.flatMap fun w => if w.conn = conn then w.hand else []

namespace Pass

variable {O : Type}

/-- What has been sent and is still on its way to the connection, as far as the pass knows. -/
def carried (conn : Connection) (p : Pass O) : List ClientMessage :=
  handsOn conn p.writers ++ p.toServer.map Outgoing.msg

/-- The connection is the first one of its pass, and nobody else has taken anything from the
channel. -/
def Sole (conn : Connection) (p : Pass O) : Prop :=
  conn.hops = 0 ∧ p.proto.hops = 0 ∧ (p.proto.Before conn ∨ ∃ w ∈ p.writers, w.conn = conn)

/-- Every connection has one slim-write thread at most, and it has been opened. -/
structure Manned (p : Pass O) : Prop where
  nodup : (p.writers.map fun w => w.conn.hops).Nodup
  opened : ∀ w ∈ p.writers, ¬p.proto.Before w.conn

end Pass

namespace Process

variable {O : Type}

/-- What the event loop of pass `k` has still to send. -/
def unsentIn (k : Nat) (s : Process O) : List ClientMessage :=
  if k = s.current then s.main.unsent else []

/-- What has been sent and is still on its way to the connection. -/
def onTheWay (conn : Connection) (s : Process O) : List ClientMessage :=
  ordered (shown ((s.passes conn.pass).carried conn ++ s.unsentIn conn.pass))

end Process

variable {conn : Connection}

/-! ## Lists -/

@[simp] theorem ordered_nil : ordered [] = [] := rfl

@[simp] theorem ordered_append (msgs rest : List ClientMessage) :
    ordered (msgs ++ rest) = ordered msgs ++ ordered rest :=
  List.filter_append ..

@[simp] theorem shown_append (msgs rest : List ClientMessage) :
    shown (msgs ++ rest) = shown msgs ++ shown rest :=
  List.map_append

theorem sentBy_append (k : Nat) (log entries : List LogEntry) :
    sentBy k (log ++ entries) = sentBy k log ++ sentBy k entries :=
  List.flatMap_append

theorem writtenTo_append (log entries : List LogEntry) :
    writtenTo conn (log ++ entries) = writtenTo conn log ++ writtenTo conn entries :=
  List.flatMap_append

@[simp] theorem handsOn_append (writers rest : List WriterThread) :
    handsOn conn (writers ++ rest) = handsOn conn writers ++ handsOn conn rest :=
  List.flatMap_append

theorem handsOn_cons_self (w : WriterThread) (rest : List WriterThread) :
    handsOn w.conn (w :: rest) = w.hand ++ handsOn w.conn rest := by
  simp [handsOn]

theorem handsOn_cons_of_ne {w : WriterThread} (h : w.conn ≠ conn) (rest : List WriterThread) :
    handsOn conn (w :: rest) = handsOn conn rest := by
  simp [handsOn, h]

theorem handsOn_eq_nil {writers : List WriterThread} (h : ∀ w ∈ writers, w.conn ≠ conn) :
    handsOn conn writers = [] := by
  refine List.flatMap_eq_nil_iff.2 ?_
  intro w hw
  exact if_neg (h w hw)

theorem sentBy_of_not_byMain {k : Nat} {entries : List LogEntry} (h : ∀ e ∈ entries, ¬e.ByMain) :
    sentBy k entries = [] := by
  refine List.flatMap_eq_nil_iff.2 ?_
  intro e he
  cases e with
  | handled | handledPlayer | timeout | lost => exact absurd trivial (h _ he)
  | _ => rfl

theorem writtenTo_eq_nil {entries : List LogEntry}
    (h : ∀ sender msg, LogEntry.wrote conn sender msg ∉ entries) : writtenTo conn entries = [] := by
  refine List.flatMap_eq_nil_iff.2 ?_
  intro e he
  cases e with
  | wrote conn' sender msg =>
      refine if_neg ?_
      rintro rfl
      exact h sender msg he
  | _ => rfl

theorem writtenTo_of_byMain {entries : List LogEntry} (h : ∀ e ∈ entries, e.ByMain) :
    writtenTo conn entries = [] :=
  writtenTo_eq_nil fun _ _ hmem => (h _ hmem).elim

/-! ## The slim-write threads -/

namespace Pass

variable {O : Type} {cfg : Config} {k : Nat} {now : Instant} {g g' : Globals} {p p' : Pass O}
  {entries : List LogEntry}

/-- A connection has one slim-write thread. -/
theorem Manned.ne_of_split (hp : p.Manned) {before after : List WriterThread} {w : WriterThread}
    (hwriters : p.writers = before ++ w :: after) :
    (∀ v ∈ before, v.conn.hops ≠ w.conn.hops) ∧ ∀ v ∈ after, v.conn.hops ≠ w.conn.hops := by
  have hnodup := hp.nodup
  rw [hwriters, List.map_append, List.map_cons] at hnodup
  have hsplit := List.nodup_middle.1 hnodup
  have hnotMem := (List.nodup_cons.1 hsplit).1
  constructor
  · intro v hv heq
    refine hnotMem (List.mem_append_left _ ?_)
    exact List.mem_map.2 ⟨v, hv, heq⟩
  · intro v hv heq
    refine hnotMem (List.mem_append_right _ ?_)
    exact List.mem_map.2 ⟨v, hv, heq⟩

/-- When the slim-write thread of a connection has ended, there is none left. -/
theorem Manned.ne_of_ended (hp : p.Manned) {w : WriterThread} {writers : List WriterThread}
    (hthread : Replace w none p.writers writers) : ∀ v ∈ writers, v.conn ≠ w.conn := by
  generalize hall : p.writers = all at hthread
  cases hthread with
  | mk before after =>
      have hne := hp.ne_of_split hall
      intro v hv hconn
      rcases List.mem_append.1 hv with hbefore | hafter
      · rw [Option.toList_none, List.append_nil] at hbefore
        exact hne.1 v hbefore (congrArg Connection.hops hconn)
      · exact hne.2 v hafter (congrArg Connection.hops hconn)

/-- A slim-write thread takes a step. -/
theorem Manned.replace (hp : p.Manned) {w : WriterThread} {w' : Option WriterThread}
    {writers : List WriterThread} (hthread : Replace w w' p.writers writers)
    (hsame : ∀ v, w' = some v → v.conn = w.conn) {toServer : List Outgoing} :
    ({ p with toServer := toServer, writers := writers } : Pass O).Manned := by
  refine ⟨?_, ?_⟩
  · have hnodup := hp.nodup
    generalize p.writers = all at hthread hnodup
    cases hthread with
    | mk before after =>
        show (List.map _ (before ++ w'.toList ++ after)).Nodup
        cases w' with
        | none =>
            refine hnodup.sublist ?_
            simp
        | some v =>
            have hconn := hsame v rfl
            simpa [hconn] using hnodup
  · refine hthread.forall_mem hp.opened ?_
    intro v hv
    rw [hsame v hv]
    exact hp.opened w hthread.mem

theorem manned_of_protoStep (h : ProtoStep cfg k now g p g' p' entries) (hp : p.Manned) :
    p'.Manned := by
  have hopened : ∀ w ∈ p.writers, ¬p'.proto.Before w.conn :=
    fun w hw hbefore => hp.opened w hw (before_of_protoStep h hbefore)
  cases h with
  | connect hpc =>
      rename_i hello sock
      refine ⟨?_, ?_⟩
      · -- The connections there are have been opened on the way here.
        rw [List.map_append, List.nodup_append]
        refine ⟨hp.nodup, List.nodup_singleton _, ?_⟩
        intro hops hold hops' hnew heq
        rcases List.mem_map.1 hold with ⟨w, hw, hhops⟩
        have hnew := List.mem_singleton.1 hnew
        refine hp.opened w hw (Or.inr ⟨?_, by rw [hpc]; trivial⟩)
        exact hnew.symm.trans (heq.symm.trans hhops.symm)
      · intro w hw
        rcases List.mem_append.1 hw with hold | hnew
        · exact hopened w hold
        · rw [List.mem_singleton.1 hnew]
          rintro (hlt | ⟨_, hbetween⟩)
          · exact absurd hlt (lt_irrefl _)
          · exact hbetween
  | _ => exact ⟨hp.nodup, hopened⟩

theorem manned_of_threadStep (h : ThreadStep cfg k now g p g' p' entries) (hp : p.Manned) :
    p'.Manned := by
  cases h with
  | proto h => exact manned_of_protoStep h hp
  | writer h =>
      cases h with
      | take hqueue hthread => exact hp.replace hthread (fun v hv => by cases hv; rfl)
      | written hthread =>
          refine hp.replace hthread ?_
          intro v hv
          split_ifs at hv
          cases hv
          rfl
      | failed hthread => exact hp.replace hthread nofun
      | disconnected hqueue hsenders hthread => exact hp.replace hthread nofun
  | connect h => cases h <;> exact ⟨hp.nodup, hp.opened⟩
  | timer h => cases h <;> exact ⟨hp.nodup, hp.opened⟩
  | backend h => cases h <;> exact ⟨hp.nodup, hp.opened⟩

/-- A connection does not become the sole one. -/
theorem sole_of_protoStep (h : ProtoStep cfg k now g p g' p' entries) (hsole : p'.Sole conn) :
    p.Sole conn := by
  rcases hsole with ⟨hfirst, hhops, hbefore | ⟨w, hw, hconn⟩⟩
  all_goals
    have hhops' : p.proto.hops = 0 := Nat.le_zero.1 (hhops ▸ hops_le_of_protoStep h)
  · exact ⟨hfirst, hhops', Or.inl (before_of_protoStep h hbefore)⟩
  · cases h with
    | connect hpc =>
        rcases List.mem_append.1 hw with hold | hnew
        · exact ⟨hfirst, hhops', Or.inr ⟨w, hold, hconn⟩⟩
        · refine ⟨hfirst, hhops', Or.inl (Or.inr ⟨hhops'.trans hfirst.symm, ?_⟩)⟩
          rw [hpc]
          trivial
    | _ => exact ⟨hfirst, hhops', Or.inr ⟨w, hw, hconn⟩⟩

/-- The thread of a sole connection is the only one. -/
theorem Sole.hops_eq (hsole : p.Sole conn) (hp : p.Manned) {w : WriterThread} (hw : w ∈ p.writers) :
    w.conn.hops = conn.hops := by
  have hle : ¬p.proto.hops < w.conn.hops := fun hlt => hp.opened w hw (Or.inl hlt)
  have hhops := hsole.2.1
  have hfirst := hsole.1
  omega

theorem Sole.conn_eq (hsole : p.Sole conn) (hp : p.Manned) {w : WriterThread} (hw : w ∈ p.writers) :
    w.conn = conn := by
  have hhops := hsole.hops_eq hp hw
  rcases hsole with ⟨_, _, hbefore | ⟨v, hv, rfl⟩⟩
  · refine absurd ?_ (hp.opened w hw)
    unfold ProtoThread.Before
    rw [hhops]
    exact hbefore
  · exact congrArg WriterThread.conn (List.inj_on_of_nodup_map hp.nodup hw hv hhops)

/-- While a connection is the sole one, its messages find a receiver. -/
theorem Sole.serverConnected (hsole : p.Sole conn) : p.ServerConnected := by
  rcases hsole with ⟨hfirst, hhops, hbefore | ⟨w, hw, _⟩⟩
  · refine Or.inl ?_
    intro hended
    rcases hbefore with hlt | ⟨_, hbetween⟩
    · omega
    · rw [hended] at hbetween
      exact hbetween
  · exact Or.inr (List.ne_nil_of_mem hw)

end Pass

/-- The message is from the resume-timer that sends it. -/
def TimerThread.Reporting : TimerThread → Prop
  | sending msg => ReportsResume msg
  | _ => True

section Main

variable {O : Type} [AudioOutput O] {cfg : Config} {s t : Process O} {entries : List LogEntry}

/-- The resume-timers report nothing but that. -/
theorem reporting (h : (system O cfg).Reachable s) (k : Nat) :
    ∀ t ∈ (s.passes k).timers, t.Reporting := by
  refine forall_pass (P := fun _ p => ∀ t ∈ p.timers, t.Reporting) h ?_ ?_ ?_ k
  · exact fun _ _ _ _ t ht => absurd ht List.not_mem_nil
  · intro s k g' p' entries _ hp hmoved
    cases hmoved with
    | timer hmoved =>
        cases hmoved with
        | unpause hwake hsend hthread | send hsend hthread => exact hthread.forall_mem hp nofun
        | resume hwake hsend hthread =>
            refine hthread.forall_mem hp ?_
            intro t ht
            cases ht
            trivial
        | report hthread =>
            refine hthread.forall_mem hp ?_
            intro t ht
            cases ht
            rfl
    | proto hmoved => cases hmoved <;> exact hp
    | writer hmoved => cases hmoved <;> exact hp
    | connect hmoved => cases hmoved <;> exact hp
    | backend hmoved => cases hmoved <;> exact hp
  · intro s t entries _ hp hmoved
    have hstarted : ∀ (origin : Nat) (done : Player O),
        ∀ t ∈ (s.pass.absorb origin s.now done).timers, t.Reporting := by
      intro origin done t ht
      rcases List.mem_append.1 ht with hold | hnew
      · exact hp t hold
      · rcases List.mem_filterMap.1 hnew with ⟨thread, _, hthread⟩
        cases thread with
        | streamConnect request => cases hthread
        | pauseTimer interval =>
            cases hthread
            trivial
        | resumeTimer dur playTime =>
            cases hthread
            trivial
    cases hmoved with
    | serverMessage | playerMessage | timeout =>
        rw [Process.finish_passes_self]
        exact hstarted s.log.length _
    | disconnected => exact hp
    | restart =>
        dsimp only
        rw [Process.setPass_passes_of_ne _ _ (Nat.succ_ne_self _).symm,
          Process.setPass_passes_self]
        exact hp
    | _ =>
        dsimp only
        rw [Process.setPass_passes_self]
        exact hp

/-- `main` leaves the slim-write threads of its pass alone. -/
theorem writers_of_mainStep (h : MainStep cfg s t entries) :
    (t.passes s.current).writers = s.pass.writers := by
  cases h with
  | serverMessage | playerMessage | timeout =>
      rw [Process.finish_passes_self]
      rfl
  | disconnected => rfl
  | restart =>
      dsimp only
      rw [Process.setPass_passes_of_ne _ _ (Nat.succ_ne_self _).symm, Process.setPass_passes_self]
      rfl
  | _ =>
      dsimp only
      rw [Process.setPass_passes_self]

theorem manned (h : (system O cfg).Reachable s) (k : Nat) : (s.passes k).Manned := by
  refine forall_pass (P := fun _ p => p.Manned) h ?_ ?_ ?_ k
  · exact fun _ _ _ _ => ⟨List.nodup_nil, fun w hw => absurd hw List.not_mem_nil⟩
  · intro s k g' p' entries _ hp hmoved
    exact Pass.manned_of_threadStep hmoved hp
  · intro s t entries _ hp hmoved
    have hwriters := writers_of_mainStep hmoved
    refine ⟨?_, ?_⟩
    · rw [hwriters]
      exact hp.nodup
    · rw [hwriters, protoThread_of_mainStep hmoved]
      exact hp.opened

end Main

/-! ## From one moment to the next -/

section Flow

variable {O : Type} {cfg : Config} {k : Nat} {now : Instant} {g g' : Globals} {p p' : Pass O}
  {s t : Process O} {entries : List LogEntry}

/-- What a thread of the pass does to what is on its way: it passes it on, or it loses some of it,
and then the connection is not the sole one. -/
inductive Pass.Carries (conn : Connection) (entries : List LogEntry) (p p' : Pass O) : Prop where
  | moved (hway : ordered (writtenTo conn entries) ++ ordered (shown (p'.carried conn)) =
        ordered (shown (p.carried conn)))
      (hsole : p'.Sole conn → p.Sole conn)
      (hwrote : conn.hops = 0 → p'.proto.hops = 0 → p.Sole conn ∨ writtenTo conn entries = [])
  | lost (hway : (ordered (shown (p'.carried conn))).Sublist (ordered (shown (p.carried conn))))
      (hnone : writtenTo conn entries = []) (hsole : ¬p'.Sole conn)

/-- Nothing has moved. -/
theorem Pass.Carries.same (hnone : writtenTo conn entries = [])
    (hway : ordered (shown (p'.carried conn)) = ordered (shown (p.carried conn)))
    (hsole : p'.Sole conn → p.Sole conn) : Pass.Carries conn entries p p' := by
  refine .moved ?_ hsole (fun _ _ => Or.inr hnone)
  rw [hnone, hway]
  rfl

theorem carries_of_protoStep (h : ProtoStep cfg k now g p g' p' entries) :
    Pass.Carries conn entries p p' := by
  have hsole : p'.Sole conn → p.Sole conn := Pass.sole_of_protoStep h
  cases h with
  | connect hpc =>
      refine .same rfl ?_ hsole
      rename_i hello sock
      have hnone : handsOn conn [⟨⟨k, p.proto.hops, sock⟩, .receiving⟩] = [] := by
        simp [handsOn, WriterThread.hand]
      simp only [Pass.carried, handsOn_append, hnone, List.append_nil]
  | _ => exact .same rfl rfl hsole

/-- A slim-write thread takes a step, and the channel may lose its first message to it. -/
theorem sole_of_replace {w : WriterThread} {w' : Option WriterThread} {writers : List WriterThread}
    (hthread : Replace w w' p.writers writers) (hsame : ∀ v, w' = some v → v.conn = w.conn)
    {toServer : List Outgoing}
    (hsole : ({ p with toServer := toServer, writers := writers } : Pass O).Sole conn) :
    p.Sole conn := by
  rcases hsole with ⟨hfirst, hhops, hbefore | ⟨v, hv, hconn⟩⟩
  · exact ⟨hfirst, hhops, Or.inl hbefore⟩
  · refine ⟨hfirst, hhops, Or.inr ?_⟩
    have hall : ∀ v ∈ writers, ∃ u ∈ p.writers, u.conn = v.conn := by
      refine hthread.forall_mem (fun v hv => ⟨v, hv, rfl⟩) ?_
      intro v hv
      exact ⟨w, hthread.mem, (hsame v hv).symm⟩
    rcases hall v hv with ⟨u, hu, hsameConn⟩
    exact ⟨u, hu, hsameConn.trans hconn⟩

/-- The connection of a slim-write thread that has ended is not the sole one. -/
theorem not_sole_of_ended (hp : p.Manned) {w : WriterThread} {writers : List WriterThread}
    (hthread : Replace w none p.writers writers) {toServer : List Outgoing}
    (hconn : w.conn = conn) :
    ¬({ p with toServer := toServer, writers := writers } : Pass O).Sole conn := by
  rintro ⟨_, _, hbefore | ⟨v, hv, hv'⟩⟩
  · exact hp.opened w hthread.mem (hconn ▸ hbefore)
  · exact hp.ne_of_ended hthread v hv (hv'.trans hconn.symm)

/-- What the threads of a connection hold, of which one takes a step. -/
theorem handsOn_of_replace (conn : Connection) (hp : p.Manned) {w : WriterThread}
    {w' : Option WriterThread}
    {writers : List WriterThread} (hthread : Replace w w' p.writers writers)
    (hsame : ∀ v, w' = some v → v.conn = w.conn) :
    if w.conn = conn then
      handsOn conn p.writers = w.hand ∧ handsOn conn writers = w'.toList.flatMap WriterThread.hand
    else handsOn conn writers = handsOn conn p.writers := by
  generalize hall : p.writers = all at hthread
  cases hthread with
  | mk before after =>
      have hne := hp.ne_of_split hall
      split_ifs with hconn
      · subst hconn
        have hbefore : handsOn w.conn before = [] :=
          handsOn_eq_nil fun v hv heq => hne.1 v hv (congrArg Connection.hops heq)
        have hafter : handsOn w.conn after = [] :=
          handsOn_eq_nil fun v hv heq => hne.2 v hv (congrArg Connection.hops heq)
        constructor
        · rw [handsOn_append, handsOn_cons_self, hbefore, hafter]
          simp
        · cases w' with
          | none => simp [hbefore, hafter]
          | some v =>
              have hcons := handsOn_cons_self v after
              rw [hsame v rfl] at hcons
              simp [hbefore, hafter, hcons]
      · cases w' with
        | none => simp [handsOn_cons_of_ne hconn]
        | some v =>
            have hv : v.conn ≠ conn := (hsame v rfl).symm ▸ hconn
            simp [handsOn_cons_of_ne hconn, handsOn_cons_of_ne hv]

theorem carries_of_writerStep (h : WriterStep p p' entries) (hp : p.Manned) :
    Pass.Carries conn entries p p' := by
  cases h with
  | take hqueue hthread =>
      rename_i conn' out rest writers
      have hsame : ∀ v, some (⟨conn', .sending out⟩ : WriterThread) = some v → v.conn = conn' := by
        intro v hv
        cases hv
        rfl
      have hhands := handsOn_of_replace conn hp hthread hsame
      by_cases hconn : conn' = conn
      · -- From the channel into the hands of the thread.
        rw [if_pos hconn] at hhands
        refine .same rfl ?_ (sole_of_replace hthread hsame)
        simp only [Pass.carried, hhands.1, hhands.2, hqueue]
        rfl
      · -- A thread of another connection has it now, so there has been a redirect.
        rw [if_neg hconn] at hhands
        refine .lost ?_ rfl ?_
        · simp only [Pass.carried, hhands, hqueue]
          refine List.Sublist.filter _ (List.Sublist.map _ ?_)
          exact List.Sublist.append_left (List.sublist_cons_self _ _) _
        · intro hsole
          exact hconn ((sole_of_replace hthread hsame hsole).conn_eq hp hthread.mem)
  | written hthread =>
      rename_i conn' out writers
      have hsame : ∀ v, (if (writerMessage out.msg).2 then none else
          some (⟨conn', .receiving⟩ : WriterThread)) = some v → v.conn = conn' := by
        intro v hv
        split_ifs at hv
        cases hv
        rfl
      have hhands := handsOn_of_replace conn hp hthread hsame
      by_cases hconn : conn' = conn
      · rw [if_pos hconn] at hhands
        have hwritten : writtenTo conn [.wrote conn' out.sender (writerMessage out.msg).1] =
            shown [out.msg] := by
          simp [writtenTo, LogEntry.writtenOn, hconn, shown]
        -- The thread is gone or back at its `recv`.
        have hempty : handsOn conn writers = [] := by
          rw [hhands.2]
          split_ifs <;> rfl
        refine .moved ?_ (sole_of_replace hthread hsame) ?_
        · simp only [Pass.carried, hhands.1, hempty, hwritten, ← ordered_append, ← shown_append]
          rfl
        · intro hfirst hhops
          exact Or.inl ⟨hfirst, hhops, Or.inr ⟨_, hthread.mem, hconn⟩⟩
      · rw [if_neg hconn] at hhands
        refine .same ?_ ?_ (sole_of_replace hthread hsame)
        · simp [writtenTo, LogEntry.writtenOn, hconn]
        · simp only [Pass.carried, hhands]
  | failed hthread =>
      rename_i conn' out writers
      have hhands := handsOn_of_replace conn hp hthread nofun
      by_cases hconn : conn' = conn
      · -- The message is lost with the thread.
        rw [if_pos hconn] at hhands
        refine .lost ?_ rfl (not_sole_of_ended hp hthread hconn)
        simp only [Pass.carried, hhands.1, hhands.2]
        exact List.Sublist.filter _ (List.Sublist.map _ (List.sublist_append_right _ _))
      · rw [if_neg hconn] at hhands
        refine .same rfl ?_ (sole_of_replace hthread nofun)
        simp only [Pass.carried, hhands]
  | disconnected hqueue hsenders hthread =>
      rename_i conn' writers
      have hhands := handsOn_of_replace conn hp hthread nofun
      refine .same rfl ?_ (sole_of_replace hthread nofun)
      by_cases hconn : conn' = conn
      · rw [if_pos hconn] at hhands
        simp only [Pass.carried, hhands.1, hhands.2]
        rfl
      · rw [if_neg hconn] at hhands
        simp only [Pass.carried, hhands]

theorem carries_of_threadStep (h : ThreadStep cfg k now g p g' p' entries) (hp : p.Manned)
    (htimers : ∀ t ∈ p.timers, t.Reporting) : Pass.Carries conn entries p p' := by
  cases h with
  | proto h => exact carries_of_protoStep h
  | writer h => exact carries_of_writerStep h hp
  | connect h => cases h <;> exact .same rfl rfl id
  | timer h =>
      cases h with
      | send hsend hthread =>
          rename_i msg timers queue
          have hmsg : ReportsResume msg := htimers _ hthread.mem
          have hkept : ReportsResume (writerMessage msg).1 := by
            cases msg with
            | stat code status => exact hmsg
            | _ => exact hmsg.elim
          -- This is a report that is not counted.
          have hqueue : ordered (shown (queue.map Outgoing.msg)) =
              ordered (shown (p.toServer.map Outgoing.msg)) := by
            cases hsend with
            | queued hconn hroom => simp [shown, ordered, hkept]
            | dropped hdead => rfl
          refine .same rfl ?_ id
          simp only [Pass.carried, shown_append, ordered_append, hqueue]
      | _ => exact .same rfl rfl id
  | backend h => cases h <;> exact .same rfl rfl id

/-- From one state to the next, `sent` messages later: what is on its way is passed on, or some of
it is lost. -/
inductive Process.Flow (conn : Connection) (entries : List LogEntry) (s t : Process O) : Prop where
  | moved (hway : ordered (writtenTo conn entries) ++ t.onTheWay conn =
        s.onTheWay conn ++ ordered (shown (sentBy conn.pass entries)))
      (hsole : (t.passes conn.pass).Sole conn → (s.passes conn.pass).Sole conn)
      (hwrote : conn.hops = 0 → (t.passes conn.pass).proto.hops = 0 →
        (s.passes conn.pass).Sole conn ∨ writtenTo conn entries = [])
  | lost (hway : (t.onTheWay conn).Sublist
        (s.onTheWay conn ++ ordered (shown (sentBy conn.pass entries))))
      (hnone : writtenTo conn entries = []) (hsole : ¬(t.passes conn.pass).Sole conn)

/-- What is known of a connection whatever happens. -/
structure Process.Answers (conn : Connection) (s : Process O) : Prop where
  kept : (ordered (writtenTo conn s.log) ++ s.onTheWay conn).Sublist
    (ordered (shown (sentBy conn.pass s.log)))
  exact : (s.passes conn.pass).Sole conn →
    ordered (shown (sentBy conn.pass s.log)) = ordered (writtenTo conn s.log) ++ s.onTheWay conn
  first : conn.hops = 0 → (s.passes conn.pass).proto.hops = 0 →
    ordered (writtenTo conn s.log) <+: ordered (shown (sentBy conn.pass s.log))

theorem Process.Answers.flow (hs : s.Answers conn) (h : s.Flow conn entries t)
    (hlog : t.log = s.log ++ entries)
    (hhops : (s.passes conn.pass).proto.hops ≤ (t.passes conn.pass).proto.hops) :
    t.Answers conn := by
  have hwritten : ordered (writtenTo conn t.log) =
      ordered (writtenTo conn s.log) ++ ordered (writtenTo conn entries) := by
    rw [hlog, writtenTo_append, ordered_append]
  have hsent : ordered (shown (sentBy conn.pass t.log)) =
      ordered (shown (sentBy conn.pass s.log)) ++ ordered (shown (sentBy conn.pass entries)) := by
    rw [hlog, sentBy_append, shown_append, ordered_append]
  have hfirst : (t.passes conn.pass).proto.hops = 0 → (s.passes conn.pass).proto.hops = 0 :=
    fun ht => Nat.le_zero.1 (ht ▸ hhops)
  cases h with
  | moved hway hsole hwrote =>
      have hall : ordered (writtenTo conn t.log) ++ t.onTheWay conn =
          (ordered (writtenTo conn s.log) ++ s.onTheWay conn) ++
            ordered (shown (sentBy conn.pass entries)) := by
        rw [hwritten, List.append_assoc, hway, List.append_assoc]
      refine ⟨?_, ?_, ?_⟩
      · rw [hall, hsent]
        exact hs.kept.append_right _
      · intro ht
        rw [hall, hsent, hs.exact (hsole ht)]
      · intro hconn ht
        rcases hwrote hconn ht with hsole | hnone
        · rw [hsent, hs.exact hsole, ← hall]
          exact List.prefix_append _ _
        · rw [hwritten, hnone, hsent, ordered_nil, List.append_nil]
          exact (hs.first hconn (hfirst ht)).trans (List.prefix_append _ _)
  | lost hway hnone hsole =>
      refine ⟨?_, fun ht => absurd ht hsole, ?_⟩
      · have hpassed := List.Sublist.append_left hway (ordered (writtenTo conn s.log))
        rw [← List.append_assoc] at hpassed
        rw [hwritten, hnone, hsent, ordered_nil, List.append_nil]
        exact hpassed.trans (hs.kept.append_right _)
      · intro hconn ht
        rw [hwritten, hnone, hsent, ordered_nil, List.append_nil]
        exact (hs.first hconn (hfirst ht)).trans (List.prefix_append _ _)

/-- The pass passes nothing on; what has been sent has still to go into the channel. -/
theorem flow_of_carried (hnone : writtenTo conn entries = [])
    (hcarried : (t.passes conn.pass).carried conn = (s.passes conn.pass).carried conn)
    (hsole : (t.passes conn.pass).Sole conn → (s.passes conn.pass).Sole conn)
    (hunsent : t.unsentIn conn.pass = s.unsentIn conn.pass ++ sentBy conn.pass entries) :
    s.Flow conn entries t := by
  refine .moved ?_ hsole (fun _ _ => Or.inr hnone)
  simp only [hnone, ordered_nil, List.nil_append, Process.onTheWay, hcarried, hunsent, shown_append,
    ordered_append, List.append_assoc]

end Flow

section Main

variable {O : Type} [AudioOutput O] {cfg : Config} {s t : Process O} {entries : List LogEntry}

/-- `main` does nothing for the pass it is not in. -/
theorem flow_of_other (hs : (system O cfg).Reachable s) (h : MainStep cfg s t entries)
    (hpass : conn.pass ≠ s.current) : s.Flow conn entries t := by
  have hnone : writtenTo conn entries = [] := writtenTo_of_byMain (byMain_of_mainStep h)
  have hunsent : s.unsentIn conn.pass = [] := if_neg hpass
  have hsent : sentBy conn.pass entries = [] := by
    refine List.flatMap_eq_nil_iff.2 ?_
    intro e he
    cases h with
    | serverMessage opened hmain hqueue hdone =>
        cases List.mem_singleton.1 he
        have hreceipt := ((wired hs _).receipts _ (mem_toMain_of_cons hqueue).1 _ rfl).1
        exact if_neg fun heq => hpass (heq.symm.trans hreceipt)
    | playerMessage | timeout | lost =>
        cases List.mem_singleton.1 he
        exact if_neg fun heq => hpass heq.symm
    | _ => exact absurd he List.not_mem_nil
  have hunsent' : t.unsentIn conn.pass = [] := by
    cases h with
    | restart hostname hmain =>
        -- It may be the pass that begins, and that has nothing to send yet.
        show (if conn.pass = s.current + 1 then [] else []) = []
        exact ite_self _
    | _ => exact if_neg hpass
  have hpasses : (t.passes conn.pass).carried conn = (s.passes conn.pass).carried conn ∧
      ((t.passes conn.pass).Sole conn → (s.passes conn.pass).Sole conn) := by
    rcases lt_or_gt_of_ne hpass with hlt | hgt
    · rw [passes_of_lt h hlt]
      exact ⟨rfl, id⟩
    · rcases h.passes_of_ne hpass with hsame | ⟨now, name, reconnect, hnew⟩
      · rw [hsame]
        exact ⟨rfl, id⟩
      · rcases unstarted hs hgt with ⟨now', name', reconnect', hold⟩
        rw [hnew, hold]
        exact ⟨rfl, id⟩
  refine flow_of_carried hnone hpasses.1 hpasses.2 ?_
  rw [hunsent', hunsent, hsent]
  rfl

omit [AudioOutput O] in
/-- `main` does something else in its pass. -/
theorem flow_of_setPass {p : Pass O} {u : Process O} (hpass : conn.pass = s.current)
    (hu : u.passes s.current = p) (hproto : p.proto = s.pass.proto)
    (hwriters : p.writers = s.pass.writers) (hserver : p.toServer = s.pass.toServer)
    (hnone : writtenTo conn entries = [])
    (hunsent : u.unsentIn conn.pass = s.unsentIn conn.pass ++ sentBy conn.pass entries) :
    s.Flow conn entries u := by
  refine flow_of_carried hnone ?_ ?_ hunsent
  · rw [hpass, hu, Pass.carried, hwriters, hserver]
    rfl
  · unfold Pass.Sole
    rw [hpass, hu, hproto, hwriters]
    exact id

omit [AudioOutput O] in
/-- A handler has run. -/
theorem flow_of_finish {p : Pass O} {done : Player O} (hpass : conn.pass = s.current)
    (hmain : s.main = .loop []) (hproto : p.proto = s.pass.proto)
    (hwriters : p.writers = s.pass.writers) (hserver : p.toServer = s.pass.toServer)
    (hnone : writtenTo conn entries = [])
    (hsent : sentBy conn.pass entries = clientMessages done.sends) :
    s.Flow conn entries (s.finish p done) := by
  refine flow_of_setPass hpass (s.finish_passes_self p done) hproto hwriters hserver hnone ?_
  have hbefore : s.unsentIn conn.pass = [] := by
    rw [Process.unsentIn, if_pos hpass, hmain]
    rfl
  rw [hbefore, hsent]
  exact if_pos hpass

omit [AudioOutput O] in
/-- `main` sends a message to the server. -/
theorem flow_of_sends {msg : ClientMessage} {queue : List Outgoing} {p : Pass O}
    (hsend : Sends s.pass.ServerConnected SLIM_CAPACITY s.pass.toServer ⟨msg, s.current⟩ queue)
    (hpass : conn.pass = s.current) (hp : t.passes s.current = p) (hproto : p.proto = s.pass.proto)
    (hwriters : p.writers = s.pass.writers) (hqueue : p.toServer = queue)
    (hunsent : s.unsentIn conn.pass = msg :: t.unsentIn conn.pass) : s.Flow conn [] t := by
  have hsole : (t.passes conn.pass).Sole conn → (s.passes conn.pass).Sole conn := by
    unfold Pass.Sole
    rw [hpass, hp, hproto, hwriters]
    exact id
  have hcarried : (t.passes conn.pass).carried conn =
      handsOn conn s.pass.writers ++ queue.map Outgoing.msg := by
    rw [hpass, hp, Pass.carried, hwriters, hqueue]
  have hcarried' : (s.passes conn.pass).carried conn =
      handsOn conn s.pass.writers ++ s.pass.toServer.map Outgoing.msg := by
    rw [hpass]
    rfl
  cases hsend with
  | queued hconn hroom =>
      refine .moved ?_ hsole (fun _ _ => Or.inr rfl)
      have hway : (t.passes conn.pass).carried conn ++ t.unsentIn conn.pass =
          (s.passes conn.pass).carried conn ++ s.unsentIn conn.pass := by
        rw [hcarried, hcarried', hunsent]
        simp
      show [] ++ t.onTheWay conn = s.onTheWay conn ++ []
      rw [List.nil_append, List.append_nil, Process.onTheWay, Process.onTheWay, hway]
  | dropped hdead =>
      refine .lost ?_ rfl ?_
      · show (t.onTheWay conn).Sublist (s.onTheWay conn ++ [])
        rw [List.append_nil, Process.onTheWay, Process.onTheWay, hcarried, hcarried', hunsent]
        refine List.Sublist.filter _ (List.Sublist.map _ ?_)
        exact List.Sublist.append_left (List.sublist_cons_self _ _) _
      · -- The channel is closed, and the sole connection would hold it open.
        intro ht
        have hconnected := (hsole ht).serverConnected
        rw [hpass] at hconnected
        exact hdead hconnected

theorem flow_of_mainStep (hs : (system O cfg).Reachable s) (h : MainStep cfg s t entries) :
    s.Flow conn entries t := by
  by_cases hpass : conn.pass = s.current
  · have hunsent : ∀ {main : MainPhase}, s.main = main → s.unsentIn conn.pass = main.unsent := by
      rintro main rfl
      exact if_pos hpass
    cases h with
    | serverMessage opened hmain hqueue hdone =>
        refine flow_of_finish hpass hmain rfl rfl rfl rfl ?_
        have hreceipt := ((wired hs _).receipts _ (mem_toMain_of_cons hqueue).1 _ rfl).1
        exact (List.append_nil _).trans (if_pos (hreceipt.trans hpass.symm))
    | playerMessage hmain hqueue hdone =>
        refine flow_of_finish hpass hmain rfl rfl rfl rfl ?_
        exact (List.append_nil _).trans (if_pos hpass.symm)
    | timeout hmain hserver hstream hdone =>
        refine flow_of_finish hpass hmain rfl rfl rfl rfl ?_
        exact (List.append_nil _).trans (if_pos hpass.symm)
    | sendToServer hmain hsend =>
        refine flow_of_sends hsend hpass (Process.setPass_passes_self ..) rfl rfl rfl ?_
        exact (hunsent hmain).trans (congrArg (List.cons _) (if_pos hpass).symm)
    | sendToSelf hmain hsend =>
        refine flow_of_setPass hpass (Process.setPass_passes_self ..) rfl rfl rfl rfl ?_
        rw [hunsent hmain]
        exact (if_pos hpass).trans (List.append_nil _).symm
    | lost hmain hqueue =>
        refine flow_of_setPass hpass (Process.setPass_passes_self ..) rfl rfl rfl rfl ?_
        rw [hunsent hmain]
        exact (if_pos hpass).trans ((List.append_nil _).trans (if_pos hpass.symm)).symm
    | disconnected hmain hqueue hended =>
        refine flow_of_setPass hpass rfl rfl rfl rfl rfl ?_
        rw [hunsent hmain]
        exact if_pos hpass
    | bye hmain hsend =>
        refine flow_of_sends hsend hpass (Process.setPass_passes_self ..) rfl rfl rfl ?_
        exact (hunsent hmain).trans (congrArg (List.cons _) (if_pos hpass).symm)
    | restart hostname hmain =>
        refine flow_of_setPass (p := s.pass.detach) hpass ?_ rfl rfl rfl rfl ?_
        · dsimp only
          rw [Process.setPass_passes_of_ne _ _ (Nat.succ_ne_self _).symm,
            Process.setPass_passes_self]
        · rw [hunsent hmain]
          exact if_neg fun hnext => Nat.succ_ne_self _ (hnext.symm.trans hpass)
  · exact flow_of_other hs h hpass

omit [AudioOutput O] in
/-- A thread of the pass moves. -/
theorem flow_of_carries {p' : Pass O} (hunsent : t.unsentIn conn.pass = s.unsentIn conn.pass)
    (hself : t.passes conn.pass = p') (hsent : sentBy conn.pass entries = [])
    (h : Pass.Carries conn entries (s.passes conn.pass) p') : s.Flow conn entries t := by
  subst hself
  have hway : ∀ u : Process O, u.onTheWay conn =
      ordered (shown ((u.passes conn.pass).carried conn)) ++
        ordered (shown (u.unsentIn conn.pass)) := by
    intro u
    rw [Process.onTheWay, shown_append, ordered_append]
  have hnone : ordered (shown (sentBy conn.pass entries)) = [] := by
    rw [hsent]
    rfl
  cases h with
  | moved hmoved hsole hwrote =>
      refine .moved ?_ hsole hwrote
      rw [hnone, List.append_nil, hway, hway, hunsent, ← List.append_assoc, hmoved]
  | lost hlost hwritten hsole =>
      refine .lost ?_ hwritten hsole
      rw [hnone, List.append_nil, hway, hway, hunsent]
      exact hlost.append_right _

omit [AudioOutput O] in
/-- A thread writes on the connections of its pass. -/
theorem conn_of_wrote {k : Nat} {now : Instant} {g g' : Globals} {p p' : Pass O}
    (h : ThreadStep cfg k now g p g' p' entries) (hp : p.Wired cfg k) {sender : Nat}
    {msg : ClientMessage} (he : .wrote conn sender msg ∈ entries) : conn.pass = k := by
  cases h with
  | proto h => cases h <;> simp_all only [List.mem_singleton, List.not_mem_nil, reduceCtorEq]
  | connect h => cases h <;> simp_all
  | timer h => exact absurd he List.not_mem_nil
  | backend h => exact absurd he List.not_mem_nil
  | writer h =>
      cases h with
      | written hthread =>
          cases List.mem_singleton.1 he
          exact (hp.writers _ hthread.mem).1
      | _ => exact absurd he List.not_mem_nil

theorem flow_of_step (hs : (system O cfg).Reachable s) (h : Step cfg s t) :
    ∃ entries, t.log = s.log ++ entries ∧ s.Flow conn entries t := by
  cases h with
  | @main t entries hmoved =>
      refine ⟨entries, congrArg (· ++ entries) hmoved.log_eq, ?_⟩
      have hflow : s.Flow conn entries t := flow_of_mainStep hs hmoved
      cases hflow with
      | moved hway hsole hwrote => exact .moved hway hsole hwrote
      | lost hway hnone hsole => exact .lost hway hnone hsole
  | @thread k g' p' entries hrun hk hmoved =>
      refine ⟨entries, rfl, ?_⟩
      have hsent : sentBy conn.pass entries = [] :=
        sentBy_of_not_byMain (not_byMain_of_threadStep hmoved)
      by_cases hpass : conn.pass = k
      · subst hpass
        exact flow_of_carries rfl (Process.setPass_passes_self ..) hsent
          (carries_of_threadStep hmoved (manned hs _) (reporting hs _))
      · refine flow_of_carried ?_ ?_ ?_ ?_
        · -- It writes on the connections of its own pass.
          exact writtenTo_eq_nil fun sender msg hmem =>
            hpass (conn_of_wrote hmoved (wired hs k) hmem)
        · exact congrArg (Pass.carried conn) (Process.setPass_passes_of_ne _ _ hpass)
        · show ((s.setPass k p').passes conn.pass).Sole conn → _
          rw [Process.setPass_passes_of_ne _ _ hpass]
          exact id
        · rw [hsent]
          exact (List.append_nil _).symm
  | tick d =>
      refine ⟨[], (List.append_nil _).symm, flow_of_carried rfl rfl id ?_⟩
      exact (List.append_nil _).symm

theorem hops_le_of_step (hs : (system O cfg).Reachable s) (h : Step cfg s t) (k : Nat) :
    (s.passes k).proto.hops ≤ (t.passes k).proto.hops := by
  cases h with
  | main hmoved =>
      rcases proto_of_mainStep hs hmoved k with ⟨reconnect, hproto⟩
      exact le_of_eq (congrArg ProtoThread.hops hproto).symm
  | @thread j g' p' entries hrun hj hmoved =>
      refine Process.setPass_induction (P := fun q => (s.passes k).proto.hops ≤ q.proto.hops)
        ?_ le_rfl
      intro hle
      rcases Pass.protoStep_or_frame hmoved with hproto | ⟨hsame, _⟩
      · exact hle.trans (Pass.hops_le_of_protoStep hproto)
      · rw [hsame]
        exact hle
  | tick d => exact le_rfl

/-- Of every connection. -/
theorem answers (h : (system O cfg).Reachable s) (conn : Connection) : s.Answers conn := by
  refine System.Reachable.invariant (Process.Answers conn) ?_ ?_ h
  · rintro s ⟨now, hostname, rfl⟩
    have hway : (Process.start cfg now hostname : Process O).onTheWay conn = [] := by
      have hunsent : (Process.start cfg now hostname : Process O).unsentIn conn.pass = [] :=
        ite_self _
      rw [Process.onTheWay, hunsent]
      rfl
    refine ⟨?_, fun _ => ?_, fun _ _ => List.prefix_rfl⟩
    · rw [hway]
      exact List.Sublist.refl _
    · rw [hway]
      rfl
  · intro s t hs ih hstep
    rcases flow_of_step hs hstep with ⟨entries, hlog, hflow⟩
    exact ih.flow hflow hlog (hops_le_of_step hs hstep _)

/-- **What is written on a connection is what has been sent**, in every reachable state.

* On whatever connection, the messages written are among those that the event loop of its pass has
  sent, in the same order, the goodbye in the form the server is shown.
* As long as the pass has not followed a redirect, they are the first of them,
* and as long as the slim-write thread of the connection is there, the others are still on their
  way.

Every report of a resume is left out on both sides, the event loop's own too: the resume-timers send
some that cannot be told from them. -/
theorem written_in_order (h : (system O cfg).Reachable s) (conn : Connection) :
    (ordered (writtenTo conn s.log)).Sublist (ordered (shown (sentBy conn.pass s.log))) ∧
      (conn.hops = 0 → (s.passes conn.pass).proto.hops = 0 →
        ordered (writtenTo conn s.log) <+: ordered (shown (sentBy conn.pass s.log))) ∧
      ((s.passes conn.pass).Sole conn →
        ordered (shown (sentBy conn.pass s.log)) =
          ordered (writtenTo conn s.log) ++ s.onTheWay conn) := by
  have hs := answers h conn
  exact ⟨(List.sublist_append_left _ _).trans hs.kept, hs.first, hs.exact⟩

/-! ## The goodbye -/

/-- The message is not a goodbye, or it is the one for a connection that has been lost. -/
def Parting (lost : Prop) (msg : ClientMessage) : Prop := ∀ val, msg = .bye val → val = 1 ∧ lost

/-- The goodbyes in the channel and in the hands of the slim-write threads. -/
structure Pass.Parts (lost : Prop) (p : Pass O) : Prop where
  queued : ∀ out ∈ p.toServer, Parting lost out.msg
  held : ∀ w ∈ p.writers, ∀ msg ∈ w.hand, Parting lost msg

omit [AudioOutput O] in
theorem parts_of_threadStep {k : Nat} {now : Instant} {g g' : Globals} {p p' : Pass O} {lost : Prop}
    (h : ThreadStep cfg k now g p g' p' entries) (hp : p.Parts lost)
    (htimers : ∀ t ∈ p.timers, t.Reporting) : p'.Parts lost := by
  cases h with
  | proto h =>
      cases h with
      | connect hpc =>
          refine ⟨hp.queued, ?_⟩
          intro w hw
          rcases List.mem_append.1 hw with hold | hnew
          · exact hp.held w hold
          · rw [List.mem_singleton.1 hnew]
            exact fun msg hmsg => absurd hmsg List.not_mem_nil
      | _ => exact ⟨hp.queued, hp.held⟩
  | writer h =>
      cases h with
      | take hqueue hthread =>
          rename_i conn out rest writers
          have hqueued : ∀ o ∈ out :: rest, Parting lost o.msg := hqueue ▸ hp.queued
          refine ⟨fun o ho => hqueued o (List.mem_cons_of_mem _ ho), ?_⟩
          refine hthread.forall_mem hp.held ?_
          intro w hw msg hmsg
          cases hw
          rw [List.mem_singleton.1 hmsg]
          exact hqueued out (List.mem_cons_self ..)
      | written hthread =>
          refine ⟨hp.queued, hthread.forall_mem hp.held ?_⟩
          intro w hw
          split_ifs at hw
          cases hw
          exact fun msg hmsg => absurd hmsg List.not_mem_nil
      | failed hthread => exact ⟨hp.queued, hthread.forall_mem hp.held nofun⟩
      | disconnected hqueue hsenders hthread => exact ⟨hp.queued, hthread.forall_mem hp.held nofun⟩
  | connect h => cases h <;> exact ⟨hp.queued, hp.held⟩
  | backend h => cases h <;> exact ⟨hp.queued, hp.held⟩
  | timer h =>
      cases h with
      | send hsend hthread =>
          refine ⟨hsend.forall_mem hp.queued ?_, hp.held⟩
          rintro val rfl
          exact (htimers _ hthread.mem).elim
      | _ => exact ⟨hp.queued, hp.held⟩

/-- What `main` has still to send is not a goodbye. -/
theorem stays_of_pending (h : (system O cfg).Reachable s) {pending : List Send}
    (hmain : s.main = .loop pending) (val : UInt8) : Send.toServer (.bye val) ∉ pending := by
  revert pending
  refine System.Reachable.invariant (fun s : Process O => ∀ {pending : List Send},
    s.main = .loop pending → Send.toServer (.bye val) ∉ pending) ?_ ?_ h
  · rintro s ⟨now, hostname, rfl⟩ pending hmain
    cases hmain
    exact List.not_mem_nil
  · intro s t hs ih hstep pending hmain
    cases hstep with
    | main hmoved =>
        cases hmoved with
        | serverMessage opened hloop hqueue hdone =>
            subst hdone
            cases hmain
            exact (handled_of_serverMessage (wired hs _) opened hqueue).stays val
        | playerMessage hloop hqueue hdone =>
            subst hdone
            cases hmain
            exact (s.handled_player.handlePlayerMessage _).stays val
        | timeout hloop hserver hstream hdone =>
            subst hdone
            cases hmain
            exact s.handled_player.onTimeout.stays val
        | sendToServer hloop hsend | sendToSelf hloop hsend =>
            cases hmain
            exact fun hmem => ih hloop (List.mem_cons_of_mem _ hmem)
        | restart hostname hleaving =>
            cases hmain
            exact List.not_mem_nil
        | lost hloop hqueue => cases hmain
        | disconnected hloop hqueue hended => cases hmain
        | bye hloop hsend => cases hmain
    | thread hrun hk hmoved => exact ih hmain
    | tick d => exact ih hmain

theorem parts (h : (system O cfg).Reachable s) (k : Nat) :
    (s.passes k).Parts (LogEntry.lost k ∈ s.log) := by
  have hmono : ∀ {p : Pass O} {lost lost' : Prop}, (lost → lost') → p.Parts lost →
      p.Parts lost' := by
    intro p lost lost' himp hp
    refine ⟨?_, ?_⟩
    · intro out hout val hmsg
      exact (hp.queued out hout val hmsg).imp id himp
    · intro w hw msg hmsg val hval
      exact (hp.held w hw msg hmsg val hval).imp id himp
  refine forall_pass_log (P := fun k log p => p.Parts (LogEntry.lost k ∈ log)) h ?_ ?_ ?_ ?_ k
  · exact fun _ _ _ _ _ => ⟨fun out hout => absurd hout List.not_mem_nil,
      fun w hw => absurd hw List.not_mem_nil⟩
  · intro k log entries p hp
    exact hmono (List.mem_append_left _) hp
  · intro s k g' p' entries hs hp hmoved
    exact hmono (List.mem_append_left _) (parts_of_threadStep hmoved hp (reporting hs k))
  · intro s t entries hs hp hmoved
    refine hmono (List.mem_append_left _) ?_
    cases hmoved with
    | serverMessage | playerMessage | timeout =>
        rw [Process.finish_passes_self]
        exact ⟨hp.queued, hp.held⟩
    | disconnected => exact hp
    | restart =>
        dsimp only
        rw [Process.setPass_passes_of_ne _ _ (Nat.succ_ne_self _).symm,
          Process.setPass_passes_self]
        exact ⟨hp.queued, hp.held⟩
    | sendToServer hmain hsend =>
        dsimp only
        rw [Process.setPass_passes_self]
        refine ⟨hsend.forall_mem hp.queued ?_, hp.held⟩
        rintro val rfl
        exact absurd (List.mem_cons_self ..) (stays_of_pending hs hmain val)
    | bye hmain hsend =>
        dsimp only
        rw [Process.setPass_passes_self]
        refine ⟨hsend.forall_mem hp.queued ?_, hp.held⟩
        intro val hval
        cases hval
        exact ⟨rfl, lost_of_leaving hs (Or.inl hmain)⟩
    | _ =>
        dsimp only
        rw [Process.setPass_passes_self]
        exact ⟨hp.queued, hp.held⟩

/-- The connection has been said goodbye to. -/
def SaidGoodbye (conn : Connection) (log : List LogEntry) : Prop :=
  ∃ sender val, LogEntry.wrote conn sender (.bye val) ∈ log

/-- Nobody can write on the connection any more. -/
def Pass.Gone {O : Type} (conn : Connection) (p : Pass O) : Prop :=
  ¬p.proto.Before conn ∧ ∀ w ∈ p.writers, w.conn ≠ conn

omit [AudioOutput O] in
/-- No thread but the slim-proto thread opens a connection, and it has been before it then. -/
theorem before_of_opened {k : Nat} {now : Instant} {g g' : Globals} {p p' : Pass O} {hello : Hello}
    (h : ThreadStep cfg k now g p g' p' entries) (he : .opened conn hello ∈ entries) :
    conn.pass = k ∧ p.proto.Before conn ∧ ¬p'.proto.Before conn ∧
      entries = [.opened conn hello] := by
  cases h with
  | writer h => cases h <;> simp at he
  | connect h => cases h <;> simp at he
  | timer h => exact absurd he List.not_mem_nil
  | backend h => exact absurd he List.not_mem_nil
  | proto h =>
      cases h with
      | connect hpc =>
          have heq := List.mem_singleton.1 he
          have hconn := (LogEntry.opened.inj heq).1
          rw [heq, hconn]
          refine ⟨rfl, Or.inr ⟨rfl, ?_⟩, ?_, rfl⟩
          · rw [hpc]
            trivial
          · rintro (hlt | ⟨_, hbetween⟩)
            · exact absurd hlt (lt_irrefl _)
            · exact hbetween
      | received => exact absurd (List.mem_singleton.1 he) nofun
      | _ => exact absurd he List.not_mem_nil

omit [AudioOutput O] in
theorem before_of_threadStep {k : Nat} {now : Instant} {g g' : Globals} {p p' : Pass O}
    (h : ThreadStep cfg k now g p g' p' entries) (hbefore : p'.proto.Before conn) :
    p.proto.Before conn := by
  cases h with
  | proto h => exact Pass.before_of_protoStep h hbefore
  | writer h => cases h <;> exact hbefore
  | connect h => cases h <;> exact hbefore
  | timer h => cases h <;> exact hbefore
  | backend h => cases h <;> exact hbefore

omit [AudioOutput O] in
/-- Only a connection that is opened gets a slim-write thread. -/
theorem writers_of_threadStep {k : Nat} {now : Instant} {g g' : Globals} {p p' : Pass O}
    (h : ThreadStep cfg k now g p g' p' entries) (hwriters : ∀ w ∈ p.writers, w.conn ≠ conn)
    (hopened : ∀ hello, LogEntry.opened conn hello ∉ entries) :
    ∀ w ∈ p'.writers, w.conn ≠ conn := by
  cases h with
  | proto h =>
      cases h with
      | connect hpc =>
          intro w hw
          rcases List.mem_append.1 hw with hold | hnew
          · exact hwriters w hold
          · rw [List.mem_singleton.1 hnew]
            rintro rfl
            exact hopened _ (List.mem_singleton_self _)
      | _ => exact hwriters
  | writer h =>
      cases h with
      | take hqueue hthread =>
          refine hthread.forall_mem hwriters ?_
          intro w hw
          cases hw
          have hne := hwriters _ hthread.mem
          exact hne
      | written hthread =>
          refine hthread.forall_mem hwriters ?_
          intro w hw
          split_ifs at hw
          cases hw
          have hne := hwriters _ hthread.mem
          exact hne
      | failed hthread => exact hthread.forall_mem hwriters nofun
      | disconnected hqueue hsenders hthread => exact hthread.forall_mem hwriters nofun
  | connect h => cases h <;> exact hwriters
  | timer h => cases h <;> exact hwriters
  | backend h => cases h <;> exact hwriters

omit [AudioOutput O] in
theorem gone_of_threadStep {k : Nat} {now : Instant} {g g' : Globals} {p p' : Pass O}
    (h : ThreadStep cfg k now g p g' p' entries) (hp : p.Gone conn) : p'.Gone conn := by
  refine ⟨fun hbefore => hp.1 (before_of_threadStep h hbefore), writers_of_threadStep h hp.2 ?_⟩
  intro hello hopened
  exact hp.1 (before_of_opened h hopened).2.1

omit [AudioOutput O] in
theorem writtenTo_of_unmanned {k : Nat} {now : Instant} {g g' : Globals} {p p' : Pass O}
    (h : ThreadStep cfg k now g p g' p' entries) (hwriters : ∀ w ∈ p.writers, w.conn ≠ conn) :
    writtenTo conn entries = [] := by
  cases h with
  | proto h => cases h <;> rfl
  | connect h => cases h <;> rfl
  | timer h => rfl
  | backend h => rfl
  | writer h =>
      cases h with
      | written hthread =>
          have hne := hwriters _ hthread.mem
          simp [writtenTo, LogEntry.writtenOn, hne]
      | _ => rfl

omit [AudioOutput O] in
/-- The goodbye is written, and with it the thread ends. -/
theorem gone_of_goodbye {k : Nat} {now : Instant} {g g' : Globals} {p p' : Pass O} {lost : Prop}
    (h : ThreadStep cfg k now g p g' p' entries) (hmanned : p.Manned) (hparts : p.Parts lost)
    {sender : Nat} {val : UInt8} (he : .wrote conn sender (.bye val) ∈ entries) :
    val = 0 ∧ lost ∧ entries = [.wrote conn sender (.bye val)] ∧ p'.Gone conn := by
  cases h with
  | proto h => cases h <;> simp_all only [List.mem_singleton, List.not_mem_nil, reduceCtorEq]
  | connect h => cases h <;> simp_all
  | timer h => exact absurd he List.not_mem_nil
  | backend h => exact absurd he List.not_mem_nil
  | writer h =>
      cases h with
      | written hthread =>
          rename_i conn' out writers
          have heq := List.mem_singleton.1 he
          have hconn : conn' = conn := (LogEntry.wrote.inj heq).1.symm
          have hmsg : (writerMessage out.msg).1 = .bye val := (LogEntry.wrote.inj heq).2.2.symm
          -- Only one message becomes a goodbye.
          have hbye : out.msg = .bye 1 ∧ lost := by
            by_cases hone : out.msg = .bye 1
            · exact ⟨hone, (hparts.held _ hthread.mem _ (List.mem_singleton_self _) 1 hone).2⟩
            · rw [writerMessage, if_neg hone] at hmsg
              have hheld := hparts.held _ hthread.mem _ (List.mem_singleton_self _) val hmsg
              exact absurd (hmsg.trans (congrArg _ hheld.1)) hone
          rw [hbye.1] at hmsg hthread
          cases hmsg
          have hends : Replace (⟨conn', .sending out⟩ : WriterThread) none p.writers writers := by
            simpa [writerMessage] using hthread
          subst hconn
          exact ⟨rfl, hbye.2, by rw [heq], hmanned.opened _ hthread.mem, hmanned.ne_of_ended hends⟩
      | _ => exact absurd he List.not_mem_nil

theorem gone_of_mainStep (hs : (system O cfg).Reachable s) (h : MainStep cfg s t entries)
    (hp : (s.passes conn.pass).Gone conn) : (t.passes conn.pass).Gone conn := by
  rcases proto_of_mainStep hs h conn.pass with ⟨reconnect, hproto⟩
  have hwriters : (t.passes conn.pass).writers = (s.passes conn.pass).writers := by
    by_cases hpass : conn.pass = s.current
    · rw [hpass]
      exact writers_of_mainStep h
    · rcases lt_or_gt_of_ne hpass with hlt | hgt
      · rw [passes_of_lt h hlt]
      · rcases h.passes_of_ne hpass with hsame | ⟨now, name, reconnect, hnew⟩
        · rw [hsame]
        · rcases unstarted hs hgt with ⟨now', name', reconnect', hold⟩
          rw [hnew, hold]
          rfl
  unfold Pass.Gone
  rw [hproto, hwriters]
  exact hp

/-- What becomes of a connection after its goodbye. -/
structure Process.Parted (conn : Connection) (s : Process O) : Prop where
  gone : SaidGoodbye conn s.log → (s.passes conn.pass).Gone conn
  last : ∀ before sender val after, s.log = before ++ .wrote conn sender (.bye val) :: after →
    val = 0 ∧ LogEntry.lost conn.pass ∈ before ∧ writtenTo conn after = []

omit [AudioOutput O] in
/-- The step has said no goodbye, and has written nothing after one. -/
theorem Process.Parted.quiet (hs : s.Parted conn) (hlog : t.log = s.log ++ entries)
    (hnew : ∀ sender val, LogEntry.wrote conn sender (.bye val) ∉ entries)
    (hgone : (s.passes conn.pass).Gone conn →
      (t.passes conn.pass).Gone conn ∧ writtenTo conn entries = []) : t.Parted conn := by
  have hold : SaidGoodbye conn t.log → SaidGoodbye conn s.log := by
    rintro ⟨sender, val, hmem⟩
    rw [hlog] at hmem
    rcases List.mem_append.1 hmem with hold | hentry
    · exact ⟨sender, val, hold⟩
    · exact absurd hentry (hnew sender val)
  refine ⟨fun hsaid => (hgone (hs.gone (hold hsaid))).1, ?_⟩
  intro before sender val after hsplit
  rw [hlog] at hsplit
  -- The goodbye stands in the old part of the record.
  rcases List.append_eq_append_iff.1 hsplit with ⟨rest, rfl, hentries⟩ | ⟨rest, hlog', hafter⟩
  · refine absurd ?_ (hnew sender val)
    rw [hentries]
    exact List.mem_append_right _ (List.mem_cons_self ..)
  · cases rest with
    | nil =>
        refine absurd ?_ (hnew sender val)
        rw [← List.nil_append entries, ← hafter]
        exact List.mem_cons_self ..
    | cons e rest =>
        cases hafter
        rcases hs.last before sender val rest hlog' with ⟨hval, hlost, hnone⟩
        refine ⟨hval, hlost, ?_⟩
        have hsaid : SaidGoodbye conn s.log := by
          refine ⟨sender, val, ?_⟩
          rw [hlog']
          exact List.mem_append_right _ (List.mem_cons_self ..)
        show writtenTo conn (rest ++ entries) = []
        rw [writtenTo_append, hnone, (hgone (hs.gone hsaid)).2]
        rfl

theorem parted (h : (system O cfg).Reachable s) (conn : Connection) : s.Parted conn := by
  refine System.Reachable.invariant (Process.Parted conn) ?_ ?_ h
  · rintro s ⟨now, hostname, rfl⟩
    refine ⟨?_, ?_⟩
    · rintro ⟨sender, val, hmem⟩
      exact absurd hmem List.not_mem_nil
    · intro before sender val after hsplit
      exact absurd hsplit (by simp [Process.start])
  · intro s t hs ih hstep
    cases hstep with
    | @main t entries hmoved =>
        have hentries := byMain_of_mainStep hmoved
        have hnew : ∀ sender val, LogEntry.wrote conn sender (.bye val) ∉ entries :=
          fun sender val hmem => (hentries _ hmem).elim
        refine ih.quiet (congrArg (· ++ entries) hmoved.log_eq) hnew ?_
        intro hgone
        have hkept := gone_of_mainStep hs hmoved hgone
        exact ⟨hkept, writtenTo_of_byMain hentries⟩
    | @thread k g' p' entries hrun hk hmoved =>
        by_cases hpass : conn.pass = k
        · subst hpass
          have hself : (s.setPass conn.pass p').passes conn.pass = p' :=
            Process.setPass_passes_self ..
          by_cases hbye : ∃ sender val, LogEntry.wrote conn sender (.bye val) ∈ entries
          · rcases hbye with ⟨sender, val, hmem⟩
            rcases gone_of_goodbye hmoved (manned hs _) (parts hs _) hmem with
              ⟨hval, hlost, hentries, hgone⟩
            refine ⟨fun _ => hself.symm ▸ hgone, ?_⟩
            subst hentries
            intro before sender' val' after hsplit
            -- Nobody writes on a connection behind a goodbye, so this is the first one.
            have hfirst : ¬SaidGoodbye conn s.log := by
              intro hsaid
              have hnone := writtenTo_of_unmanned hmoved (ih.gone hsaid).2
              simp [writtenTo, LogEntry.writtenOn] at hnone
            have hend : s.log ++ [.wrote conn sender (.bye val)] =
                before ++ .wrote conn sender' (.bye val') :: after := hsplit
            rcases List.append_eq_append_iff.1 hend with ⟨rest, rfl, hrest⟩ | ⟨rest, hlog, hrest⟩
            · cases rest with
              | nil =>
                  cases hrest
                  exact ⟨hval, List.mem_append_left _ hlost, rfl⟩
              | cons e rest =>
                  have hlength := congrArg List.length hrest
                  simp at hlength
            · cases rest with
              | nil =>
                  cases hrest
                  rw [List.append_nil] at hlog
                  exact ⟨hval, hlog ▸ hlost, rfl⟩
              | cons e rest =>
                  cases hrest
                  refine absurd ⟨sender', val', ?_⟩ hfirst
                  rw [hlog]
                  exact List.mem_append_right _ (List.mem_cons_self ..)
          · refine ih.quiet rfl (fun sender val hmem => hbye ⟨sender, val, hmem⟩) ?_
            intro hgone
            exact ⟨hself.symm ▸ gone_of_threadStep hmoved hgone,
              writtenTo_of_unmanned hmoved hgone.2⟩
        · have hconn : ∀ sender msg, LogEntry.wrote conn sender msg ∉ entries :=
            fun sender msg hmem => hpass (conn_of_wrote hmoved (wired hs k) hmem)
          refine ih.quiet rfl (fun sender val => hconn sender _) ?_
          intro hgone
          refine ⟨?_, writtenTo_eq_nil hconn⟩
          show ((s.setPass k p').passes conn.pass).Gone conn
          rw [Process.setPass_passes_of_ne _ _ hpass]
          exact hgone
    | tick d => exact ⟨ih.gone, ih.last⟩

/-- **A goodbye is the last word on its connection**, in every reachable state: it is a `BYE!` with
value 0, the event loop has been told before that the connection is lost, and nothing is written
behind it. -/
theorem goodbye_last (h : (system O cfg).Reachable s) {conn : Connection} {sender : Nat}
    {val : UInt8} {before after : List LogEntry}
    (hlog : s.log = before ++ .wrote conn sender (.bye val) :: after) :
    val = 0 ∧ LogEntry.lost conn.pass ∈ before ∧ writtenTo conn after = [] :=
  (parted h conn).last before sender val after hlog

end Main

/-! ## The clock of the reports -/

/-- The time a status report carries. -/
def jiffiesOf : ClientMessage → Option Duration
  | .stat _ status => some status.jiffies
  | _ => none

/-- The first report carries no later time than the second one. -/
def InTime (msg msg' : ClientMessage) : Prop :=
  ∀ jiffies, jiffiesOf msg = some jiffies → ∀ jiffies', jiffiesOf msg' = some jiffies' →
    jiffies ≤ jiffies'

/-- Whatever the first entry is about has been sent before what the second one is about. -/
def LogEntry.SentBefore (e e' : LogEntry) : Prop :=
  ∀ now msg now' msg', e.Sent now msg → e'.Sent now' msg' → now ≤ now'

/-- Whatever the event loop sends, but for its goodbye, a handler has sent. -/
theorem LogEntry.sent_of_mem_sentIn {k : Nat} {e : LogEntry} {msg : ClientMessage}
    (h : msg ∈ e.sentIn k) (hbye : msg ≠ .bye 1) : ∃ now, e.Sent now (.toServer msg) := by
  have hmem : ∀ {sends : List Send}, msg ∈ clientMessages sends → Send.toServer msg ∈ sends := by
    intro sends hclient
    rcases List.mem_filterMap.1 hclient with ⟨send, hsend, hmsg⟩
    cases send with
    | toServer msg =>
        cases hmsg
        exact hsend
    | toSelf msg => cases hmsg
  cases e with
  | handled now receipt sends spawns =>
      simp only [LogEntry.sentIn] at h
      split_ifs at h
      · exact ⟨now, rfl, hmem h⟩
      · exact absurd h List.not_mem_nil
  | handledPlayer now pass msg sends enqueued =>
      simp only [LogEntry.sentIn] at h
      split_ifs at h
      · exact ⟨now, rfl, hmem h⟩
      · exact absurd h List.not_mem_nil
  | timeout now pass sends =>
      simp only [LogEntry.sentIn] at h
      split_ifs at h
      · exact ⟨now, rfl, hmem h⟩
      · exact absurd h List.not_mem_nil
  | lost pass =>
      simp only [LogEntry.sentIn] at h
      split_ifs at h
      · exact absurd (List.mem_singleton.1 h) hbye
      · exact absurd h List.not_mem_nil
  | _ => exact absurd h List.not_mem_nil

/-- Whatever an entry has sent has been sent at one instant. -/
theorem LogEntry.Sent.now_eq {e : LogEntry} {now now' : Instant} {msg msg' : Send}
    (h : e.Sent now msg) (h' : e.Sent now' msg') : now = now' := by
  cases e with
  | handled | handledPlayer | timeout => exact h.1.symm.trans h'.1
  | _ => exact h.elim

theorem jiffiesOf_writerMessage (msg : ClientMessage) :
    jiffiesOf (writerMessage msg).1 = jiffiesOf msg := by
  cases msg with
  | bye val =>
      unfold writerMessage
      split <;> rfl
  | _ => rfl

section Time

variable {O : Type} [AudioOutput O] {cfg : Config} {s t : Process O} {entries : List LogEntry}

theorem now_of_mainStep (h : MainStep cfg s t entries) {e : LogEntry} (he : e ∈ entries)
    {now : Instant} {msg : Send} (hsent : e.Sent now msg) : now = s.now := by
  cases h with
  | serverMessage | playerMessage | timeout =>
      cases List.mem_singleton.1 he
      exact hsent.1.symm
  | lost =>
      cases List.mem_singleton.1 he
      exact hsent.elim
  | _ => exact absurd he List.not_mem_nil

/-- The record is in the order of time. -/
theorem sentBefore (h : (system O cfg).Reachable s) :
    s.log.Pairwise LogEntry.SentBefore ∧
      ∀ e ∈ s.log, ∀ now msg, e.Sent now msg → now ≤ s.now := by
  refine System.Reachable.invariant (fun s : Process O => s.log.Pairwise LogEntry.SentBefore ∧
    ∀ e ∈ s.log, ∀ now msg, e.Sent now msg → now ≤ s.now) ?_ ?_ h
  · rintro s ⟨now, hostname, rfl⟩
    exact ⟨List.Pairwise.nil, fun e he => absurd he List.not_mem_nil⟩
  · rintro s t hs ⟨horder, hpast⟩ hstep
    have hadd : ∀ {entries : List LogEntry} {later : Instant}, s.now ≤ later →
        (∀ e ∈ entries, ∀ now msg, e.Sent now msg → now = s.now) →
        (s.log ++ entries).Pairwise LogEntry.SentBefore ∧
          ∀ e ∈ s.log ++ entries, ∀ now msg, e.Sent now msg → now ≤ later := by
      intro entries later hlater hnow
      refine ⟨List.pairwise_append.2 ⟨horder, ?_, ?_⟩, ?_⟩
      · refine List.pairwise_of_forall_mem_list ?_
        intro e he e' he' now msg now' msg' hsent hsent'
        exact le_of_eq ((hnow e he now msg hsent).trans (hnow e' he' now' msg' hsent').symm)
      · intro e he e' he' now msg now' msg' hsent hsent'
        exact (hpast e he now msg hsent).trans (le_of_eq (hnow e' he' now' msg' hsent').symm)
      · intro e he now msg hsent
        rcases List.mem_append.1 he with hold | hnew
        · exact (hpast e hold now msg hsent).trans hlater
        · exact (le_of_eq (hnow e hnew now msg hsent)).trans hlater
    cases hstep with
    | @main t entries hmoved =>
        have hkept := hadd (now_le_of_step (.main hmoved))
          (fun e he now msg hsent => now_of_mainStep hmoved he hsent)
        rw [← hmoved.log_eq] at hkept
        exact hkept
    | thread hrun hk hmoved =>
        exact hadd le_rfl fun e he now msg hsent =>
          absurd hsent.byMain (not_byMain_of_threadStep hmoved e he)
    | tick d =>
        have hkept := hadd (Nat.le_add_right s.now d) (fun e he => absurd he List.not_mem_nil)
        rw [List.append_nil] at hkept
        exact hkept

/-- Two reports are in the order of the instants they have been sent at. -/
theorem inTime_of_sent (h : (system O cfg).Reachable s) {k : Nat} {e e' : LogEntry} (he : e ∈ s.log)
    (he' : e' ∈ s.log) (hle : e.SentBefore e') {msg msg' : ClientMessage} (hmsg : msg ∈ e.sentIn k)
    (hmsg' : msg' ∈ e'.sentIn k) : InTime msg msg' := by
  intro jiffies hjiffies jiffies' hjiffies'
  cases msg with
  | stat code status =>
      cases msg' with
      | stat code' status' =>
          cases hjiffies
          cases hjiffies'
          obtain ⟨now, hsent⟩ := LogEntry.sent_of_mem_sentIn hmsg nofun
          obtain ⟨now', hsent'⟩ := LogEntry.sent_of_mem_sentIn hmsg' nofun
          have hreport := (timed h).reports e he now code status hsent
          have hreport' := (timed h).reports e' he' now' code' status' hsent'
          -- Both count from the creation of `STATUS`.
          have hstart : status.start = status'.start :=
            Option.some.inj (hreport.1.symm.trans hreport'.1)
          calc
            status.jiffies = now - status.start := hreport.2
            _ ≤ now' - status.start := Nat.sub_le_sub_right (hle now _ now' _ hsent hsent') _
            _ = now' - status'.start := by rw [hstart]
            _ = status'.jiffies := hreport'.2.symm
      | _ => cases hjiffies'
  | _ => cases hjiffies

/-- The event loop sends its reports in the order of the times they carry. -/
theorem inTime_sentBy (h : (system O cfg).Reachable s) (k : Nat) :
    (sentBy k s.log).Pairwise InTime := by
  refine List.pairwise_flatMap.2 ⟨?_, ?_⟩
  · intro e he
    refine List.pairwise_of_forall_mem_list ?_
    intro msg hmsg msg' hmsg'
    refine inTime_of_sent h he he ?_ hmsg hmsg'
    intro now msg now' msg' hsent hsent'
    exact le_of_eq (hsent.now_eq hsent')
  · refine (sentBefore h).1.imp_of_mem ?_
    intro e e' he he' hle msg hmsg msg' hmsg'
    exact inTime_of_sent h he he' hle hmsg hmsg'

/-- A slim-write thread does not touch the reports. -/
theorem inTime_shown {msgs : List ClientMessage} (h : msgs.Pairwise InTime) :
    (shown msgs).Pairwise InTime := by
  refine h.map _ ?_
  intro msg msg' hle
  unfold InTime
  rw [jiffiesOf_writerMessage, jiffiesOf_writerMessage]
  exact hle

/-- **The reports on a connection are in the order of the times they carry**, in every reachable
state and on every connection, but for every report of a resume.  The time is the one in the
message: the field that is made of it has 32 bits. -/
theorem reports_in_time (h : (system O cfg).Reachable s) (conn : Connection) :
    ((ordered (writtenTo conn s.log)).filterMap jiffiesOf).Pairwise (· ≤ ·) := by
  have hsent : (ordered (shown (sentBy conn.pass s.log))).Pairwise InTime :=
    (inTime_shown (inTime_sentBy h conn.pass)).sublist List.filter_sublist
  have hkept : (ordered (writtenTo conn s.log)).Sublist
      (ordered (shown (sentBy conn.pass s.log))) :=
    (List.sublist_append_left _ _).trans (answers h conn).kept
  exact List.pairwise_filterMap.2 (hsent.sublist hkept)

end Time

/-! ## A run -/

def firstHello : Hello :=
  { Hello.new with
    deviceId := SQUEEZEPLAY_ID
    mac := cliConfig.mac
    bytesReceived := 0
    reconnect := false
    caps := capabilities cliConfig none }

/-- The record up to the goodbye. -/
def beforeParting : List LogEntry :=
  [.opened firstConnection firstHello,
    .received firstConnection [.queryname],
    .handled 0 ⟨.queryname, firstConnection⟩ [.toServer (.name "Vibe")] [],
    .wrote firstConnection 0 (.name "Vibe"),
    .lost 0]

/-- The player answers a Queryname, loses the connection and says goodbye. -/
theorem exists_parted : ∃ s : Process PulseOutput, (system PulseOutput cliConfig).Reachable s ∧
    s.log = beforeParting ++ [.wrote firstConnection 0 (.bye 0)] := by
  have h0 : (system PulseOutput cliConfig).Reachable (Process.start cliConfig 0 none) :=
    .init ⟨0, none, rfl⟩
  have h1 := reachable_of_threadRun h0 Step.thread nofun (le_refl 0)
    (.cons (.proto (.hello rfl)) <|
      .cons (.proto (.takeCli rfl rfl rfl)) <|
      .cons (.proto (.connect rfl)) <|
      .cons (.proto (.received [.queryname] rfl (onWire_queryname 1))) <|
      .cons (.proto (.forward rfl id (.queued rfl (by decide)))) <|
      .cons (.proto (.batchDone rfl)) <|
      .cons (.proto (.lost rfl)) .nil)
  have h2 := h1.step (.main (.serverMessage none rfl rfl rfl))
  have h3 := h2.step (.main (.sendToServer rfl (.queued (Or.inl nofun) (by decide))))
  have h4 := reachable_of_threadRun h3 Step.thread nofun (le_refl 0)
    (.cons (.writer (.take rfl (.mk [] []))) <|
      .cons (.writer (.written (.mk [] []))) <|
      .cons (.proto (.lose rfl (.queued rfl (by decide)))) .nil)
  have h5 := h4.step (.main (.lost rfl rfl))
  have h6 := h5.step (.main (.bye rfl (.queued (Or.inr nofun) (by decide))))
  have h7 := reachable_of_threadRun h6 Step.thread nofun (le_refl 0)
    (.cons (.writer (.take rfl (.mk [] []))) <|
      .cons (.writer (.written (.mk [] []))) .nil)
  exact ⟨_, h7, rfl⟩

theorem written_in_order_parted : ∃ s : Process PulseOutput,
    (system PulseOutput cliConfig).Reachable s ∧
      (ordered (writtenTo firstConnection s.log)).Sublist (ordered (shown (sentBy 0 s.log))) ∧
      writtenTo firstConnection s.log = [.name "Vibe", .bye 0] := by
  rcases exists_parted with ⟨s, hs, hlog⟩
  refine ⟨s, hs, (written_in_order hs firstConnection).1, ?_⟩
  rw [hlog]
  rfl

theorem goodbye_last_parted : ∃ (s : Process PulseOutput) (before after : List LogEntry),
    (system PulseOutput cliConfig).Reachable s ∧
      s.log = before ++ .wrote firstConnection 0 (.bye 0) :: after ∧
      LogEntry.lost 0 ∈ before ∧ writtenTo firstConnection after = [] := by
  rcases exists_parted with ⟨s, hs, hlog⟩
  have hlast := goodbye_last hs hlog
  exact ⟨s, beforeParting, [], hs, hlog, hlast.2.1, hlast.2.2⟩

/-- Nothing happens for two seconds. -/
theorem reports_in_time_timeouts : ∃ s : Process PulseOutput,
    (system PulseOutput cliConfig).Reachable s ∧
      (writtenTo firstConnection s.log).filterMap jiffiesOf =
        [Duration.fromSecs 1, Duration.fromSecs 2] ∧
      ((ordered (writtenTo firstConnection s.log)).filterMap jiffiesOf).Pairwise (· ≤ ·) := by
  have h0 : (system PulseOutput cliConfig).Reachable (Process.start cliConfig 0 none) :=
    .init ⟨0, none, rfl⟩
  have h1 := reachable_of_threadRun h0 Step.thread nofun (le_refl 0)
    (.cons (.proto (.hello rfl)) <|
      .cons (.proto (.takeCli rfl rfl rfl)) <|
      .cons (.proto (.connect rfl)) .nil)
  have h2 := h1.step (.tick (Duration.fromSecs 1))
  have h3 := h2.step (.main (.timeout rfl rfl rfl rfl))
  have h4 := h3.step (.main (.sendToServer rfl (.queued (Or.inl nofun) (by decide))))
  have h5 := reachable_of_threadRun h4 Step.thread nofun (le_refl 0)
    (.cons (.writer (.take rfl (.mk [] []))) <|
      .cons (.writer (.written (.mk [] []))) .nil)
  have h6 := h5.step (.tick (Duration.fromSecs 1))
  have h7 := h6.step (.main (.timeout rfl rfl rfl rfl))
  have h8 := h7.step (.main (.sendToServer rfl (.queued (Or.inl nofun) (by decide))))
  have h9 := reachable_of_threadRun h8 Step.thread nofun (le_refl 0)
    (.cons (.writer (.take rfl (.mk [] []))) <|
      .cons (.writer (.written (.mk [] []))) .nil)
  exact ⟨_, h9, rfl, reports_in_time h9 firstConnection⟩

end Vibe
end LmsPlayer
