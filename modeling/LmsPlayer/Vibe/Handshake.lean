import LmsPlayer.Library.Stages
import LmsPlayer.Vibe.Answers
import LmsPlayer.Vibe.StaleDecoder

/-!
# Vibe.Handshake — what becomes of a Stream command

A Stream command with HTTP headers starts a stream-connect thread, which reports to the event loop
when it has connected to the server (`Connected`), when its buffer has filled up
(`BufferThreshold`), and when it has a decoder (`Decoder`).  It gives up wherever something fails.
The event loop makes a report to the server (STMc, STMl) of the first two, and gives the decoder to
the output.

The messages do not say which thread has posted them, and many threads may be under way at the same
time.  But no thread skips a stage, and the channel is a queue, so that the server never hears of a
buffer before it has heard of its connection.
-/

namespace LmsPlayer
namespace Vibe

open LmsProto
open Channel (Sends)
open Stages (Leads Accounted supply)
open ThreadPool (Replace)
open TransitionSystem (System)

/-! ## The stages of a stream -/

/-- What a stream-connect thread posts on its way. -/
inductive Stage where
  | connected
  | bufferThreshold
  | decoder
  deriving DecidableEq

/-- The stage a thread has posted just before. -/
def Stage.before : Stage → Option Stage
  | connected => none
  | bufferThreshold => some connected
  | decoder => some bufferThreshold

def PlayerMsg.stage? : PlayerMsg → Option Stage
  | connected => some .connected
  | bufferThreshold => some .bufferThreshold
  | decoder _ _ => some .decoder
  | _ => none

/-- What the thread posts next, if nothing fails. -/
def ConnectThread.stage? (t : ConnectThread) : Option Stage :=
  match t.phase with
  | .dialing | .connected => some .connected
  | .buffering | .buffered => some .bufferThreshold
  | .preparing => some .decoder
  | .posting msg => msg.stage?

def StatusCode.stage? : StatusCode → Option Stage
  | .connect => some .connected
  | .bufferThreshold => some .bufferThreshold
  | _ => none

/-- The stage a report tells the server of. -/
def ClientMessage.stage? : ClientMessage → Option Stage
  | .stat code _ =>
      if code = StatusCode.connect.toString then some .connected
      else if code = StatusCode.bufferThreshold.toString then some .bufferThreshold
      else none
  | _ => none

/-- The command starts a stream-connect thread. -/
def ServerMessage.beginsStream : ServerMessage → Bool
  | .stream fields => fields.httpHeaders.any fun headers => Player.crlfCount headers.toList ≠ 0
  | _ => false

/-- The stages that the messages to the server are about. -/
def told (msgs : List ClientMessage) : List Stage := msgs.filterMap ClientMessage.stage?

namespace LogEntry

/-- The event loop of the pass has been told of a stage. -/
def stagesIn (k : Nat) : LogEntry → List Stage
  | handledPlayer _ pass msg _ _ => if pass = k then msg.stage?.toList else []
  | _ => []

def begins (k : Nat) : LogEntry → Bool
  | handled _ receipt _ _ => receipt.conn.pass = k && ServerMessage.beginsStream receipt.msg
  | _ => false

/-- The streams that the event loop of the pass enqueues on the output. -/
def enqueuedIn (k : Nat) : LogEntry → List VibeDecoder
  | handledPlayer _ pass _ _ enqueued => if pass = k then enqueued else []
  | _ => []

end LogEntry

/-- The stages that the event loop of the pass has been told of so far. -/
def stagesBy (k : Nat) (log : List LogEntry) : List Stage := log.flatMap (LogEntry.stagesIn k)

/-- The number of Stream commands so far for which the event loop of the pass has started a
thread. -/
def streamsBegun (k : Nat) (log : List LogEntry) : Nat := log.countP (LogEntry.begins k)

def enqueuedBy (k : Nat) (log : List LogEntry) : List VibeDecoder :=
  log.flatMap (LogEntry.enqueuedIn k)

theorem stagesBy_append (k : Nat) (log entries : List LogEntry) :
    stagesBy k (log ++ entries) = stagesBy k log ++ stagesBy k entries :=
  List.flatMap_append

theorem streamsBegun_append (k : Nat) (log entries : List LogEntry) :
    streamsBegun k (log ++ entries) = streamsBegun k log + streamsBegun k entries :=
  List.countP_append

theorem told_append (msgs rest : List ClientMessage) :
    told (msgs ++ rest) = told msgs ++ told rest :=
  List.filterMap_append

/-- The reports of a resume are about no stage. -/
theorem filterMap_ordered (msgs : List ClientMessage) :
    (ordered msgs).filterMap ClientMessage.stage? = told msgs := by
  unfold ordered told
  rw [List.filterMap_filter]
  refine List.filterMap_congr ?_
  intro msg _
  by_cases hmsg : ReportsResume msg
  · cases msg with
    | stat code status =>
        have hcode : code = StatusCode.resume.toString := hmsg
        subst hcode
        rfl
    | _ => exact hmsg.elim
  · rw [if_pos (decide_eq_true hmsg)]

/-- Nor is a goodbye. -/
theorem filterMap_shown (msgs : List ClientMessage) :
    told (shown msgs) = told msgs := by
  unfold shown told
  rw [List.filterMap_map]
  refine List.filterMap_congr ?_
  intro msg _
  cases msg with
  | bye val =>
      show ClientMessage.stage? (writerMessage (.bye val)).1 = none
      unfold writerMessage
      split <;> rfl
  | _ => rfl

/-- The threads and the callbacks have nothing to do with it. -/
theorem quiet_of_not_byMain (k : Nat) {entries : List LogEntry} (h : ∀ e ∈ entries, ¬e.ByMain) :
    stagesBy k entries = [] ∧ streamsBegun k entries = 0 := by
  refine ⟨List.flatMap_eq_nil_iff.2 ?_, List.countP_eq_zero.2 ?_⟩
  · intro e he
    cases e with
    | handledPlayer => exact absurd trivial (h _ he)
    | _ => rfl
  · intro e he
    cases e with
    | handled => exact absurd trivial (h _ he)
    | _ => exact Bool.false_ne_true

/-! ## What the event loop tells the server -/

namespace Player

variable {O : Type} {now : Instant} {ctx : PlayerContext O} {g : Globals}

theorem told_sendStatus (p : Player O) (code : StatusCode) :
    told (clientMessages (p.sendStatus now code).sends) =
      told (clientMessages p.sends) ++ (StatusCode.stage? code).toList := by
  have hsends : (p.sendStatus now code).sends =
      p.sends ++ [.toServer (.stat code.toString
        ((p.globals.lockStatus now).makeStatusMessage now code).2)] := rfl
  rw [hsends]
  unfold told clientMessages
  rw [List.filterMap_append, List.filterMap_append]
  cases code <;> rfl

/-- A handler that has sent nothing yet. -/
theorem told_sendStatus_nil {p : Player O} {code : StatusCode} (hp : p.sends = []) :
    told (clientMessages (p.sendStatus now code).sends) = (StatusCode.stage? code).toList := by
  rw [told_sendStatus, hp]
  rfl

theorem told_onStream (fields : StreamFields) :
    told (clientMessages ((Player.start ctx g).onStream now fields).sends) = [] := by
  unfold onStream
  cases fields.httpHeaders with
  | none => rfl
  | some httpHeaders =>
      dsimp only
      split_ifs <;> rfl

/-- What the threads that a handler has started post next. -/
def nextStages (spawns : List Spawn) (origin : Nat) : List (Option Stage) :=
  (spawns.filterMap (Spawn.connect? origin)).map ConnectThread.stage?

theorem nextStages_onStream (fields : StreamFields) (origin : Nat) :
    nextStages ((Player.start ctx g).onStream now fields).spawns origin =
      if ServerMessage.beginsStream (.stream fields) then [some .connected] else [] := by
  have hbegins : ServerMessage.beginsStream (.stream fields) =
      fields.httpHeaders.any fun headers => crlfCount headers.toList ≠ 0 := rfl
  unfold onStream
  rw [hbegins]
  cases fields.httpHeaders with
  | none => rfl
  | some httpHeaders =>
      dsimp only
      rw [Option.any_some]
      by_cases hnone : crlfCount httpHeaders.toList = 0
      · rw [if_pos hnone, if_neg (ne_true_of_eq_false (decide_eq_false (not_not.2 hnone)))]
        rfl
      · rw [if_neg hnone, if_pos (decide_eq_true hnone)]
        rfl

/-- Timers are no streams. -/
theorem nextStages_eq_nil {spawns : List Spawn} (origin : Nat)
    (h : ∀ thread ∈ spawns, ∀ request, thread ≠ .streamConnect request) :
    nextStages spawns origin = [] := by
  have hnone : spawns.filterMap (Spawn.connect? origin) = [] := by
    refine List.filterMap_eq_nil_iff.2 ?_
    intro thread hthread
    cases thread with
    | streamConnect request => exact absurd rfl (h _ hthread request)
    | _ => rfl
  unfold nextStages
  rw [hnone]
  rfl

variable [AudioOutput O]

theorem told_onPause (interval : Duration) :
    told (clientMessages ((Player.start ctx g).onPause now interval).sends) = [] := by
  unfold onPause
  cases (Player.start ctx g).ctx.output with
  | none => rfl
  | some output =>
      dsimp only
      split_ifs
      · exact told_sendStatus_nil rfl
      · rfl
      · rfl
      · rfl

theorem told_onUnpause (interval : Duration) :
    told (clientMessages ((Player.start ctx g).onUnpause now interval).sends) = [] := by
  unfold onUnpause
  by_cases hnow : interval = 0
  · rw [if_pos hnow]
    cases (Player.start ctx g).ctx.output with
    | none => rfl
    | some output =>
        dsimp only
        split_ifs
        · exact told_sendStatus_nil rfl
        · rfl
  · rw [if_neg hnow]
    rfl

/-- The answers to the server are about other things. -/
theorem told_handleServerMessage (opened : Option O) (msg : ServerMessage) :
    told (clientMessages ((Player.start ctx g).handleServerMessage now opened msg).sends) = [] := by
  cases msg with
  | status ts => exact told_sendStatus_nil rfl
  | stop => exact told_sendStatus_nil rfl
  | flush => exact told_sendStatus_nil rfl
  | pause interval => exact told_onPause interval
  | unpause interval => exact told_onUnpause interval
  | stream fields => exact told_onStream fields
  | enable spdif dac =>
      show told (clientMessages ((Player.start ctx g).onEnable opened spdif dac).sends) = []
      unfold onEnable
      split_ifs <;> rfl
  | _ => rfl

/-- Every stage but the last one is reported, by itself. -/
theorem told_handlePlayerMessage (msg : PlayerMsg) :
    told (clientMessages ((Player.start ctx g).handlePlayerMessage now msg).sends) =
      msg.stage?.toList.filter (· ≠ .decoder) := by
  cases msg with
  | drained =>
      show told (clientMessages ((Player.start ctx g).onDrained now).sends) = []
      unfold onDrained
      cases (Player.start ctx g).ctx.output <;> rfl
  | unpause =>
      show told (clientMessages ((Player.start ctx g).onPlayerUnpause now).sends) = []
      unfold onPlayerUnpause
      cases (Player.start ctx g).ctx.output with
      | none => rfl
      | some output =>
          dsimp only
          split_ifs
          · exact told_sendStatus_nil rfl
          · rfl
  | decoder decoder params =>
      show told (clientMessages ((Player.start ctx g).onDecoder decoder params).sends) = []
      unfold onDecoder
      cases (Player.start ctx g).ctx.output with
      | none => rfl
      | some output =>
          -- All it sends goes to the event loop.
          refine List.filterMap_eq_nil_iff.2 ?_
          intro msg hmsg
          rcases List.mem_filterMap.1 hmsg with ⟨send, hsend, hmsg⟩
          rcases List.mem_append.1 hsend with hold | hposted
          · exact absurd hold List.not_mem_nil
          · rcases List.mem_map.1 hposted with ⟨m, _, rfl⟩
            cases hmsg
  | pause => rfl
  | trackStarted => exact told_sendStatus_nil rfl
  | _ => exact told_sendStatus_nil rfl

/-- One stream is enqueued for a decoder, and none for anything else. -/
theorem length_enqueued_le (msg : PlayerMsg) :
    ((Player.start ctx g).handlePlayerMessage now msg).enqueued.length ≤
      msg.stage?.toList.count .decoder := by
  cases hmsg : msg.decoder? with
  | none =>
      have hnone : ((Player.start ctx g).handlePlayerMessage now msg).enqueued = [] := by
        refine List.eq_nil_iff_forall_not_mem.2 ?_
        intro d hd
        cases hmsg.symm.trans (decoder?_of_mem_enqueued hd)
      rw [hnone]
      exact Nat.zero_le _
  | some d =>
      cases msg with
      | decoder decoder params =>
          show ((Player.start ctx g).onDecoder decoder params).enqueued.length ≤ 1
          unfold onDecoder
          cases (Player.start ctx g).ctx.output with
          | none => exact Nat.zero_le _
          | some output => exact le_rfl
      | _ => cases hmsg

theorem told_onTimeout :
    told (clientMessages ((Player.start ctx g).onTimeout now).sends) = [] :=
  told_sendStatus_nil rfl

/-- Only a Stream command with headers starts a stream-connect thread, and it starts one. -/
theorem nextStages_handleServerMessage (opened : Option O) (msg : ServerMessage) (origin : Nat) :
    nextStages ((Player.start ctx g).handleServerMessage now opened msg).spawns origin =
      if ServerMessage.beginsStream msg then [some .connected] else [] := by
  by_cases hstream : ∃ fields, msg = .stream fields
  · rcases hstream with ⟨fields, rfl⟩
    exact nextStages_onStream fields origin
  · have hnone : ServerMessage.beginsStream msg = false := by
      cases msg with
      | stream fields => exact absurd ⟨fields, rfl⟩ hstream
      | _ => rfl
    rw [hnone, if_neg Bool.false_ne_true]
    refine nextStages_eq_nil origin ?_
    rintro thread hthread request rfl
    rcases asked_of_mem_spawns opened hthread with ⟨fields, hfields, _⟩
    exact hstream ⟨fields, hfields⟩

end Player

/-! ## A pass -/

/-- A message that is no stage of a stream does not count in the channel. -/
theorem stages_of_sends {connected : Prop} {cap : Nat} {stream queue : List PlayerMsg}
    {msg : PlayerMsg} (h : Sends connected cap stream msg queue) (hmsg : msg.stage? = none) :
    queue.filterMap PlayerMsg.stage? = stream.filterMap PlayerMsg.stage? := by
  cases h with
  | queued hconn hroom =>
      rw [List.filterMap_append, List.filterMap_cons_none hmsg]
      exact List.append_nil _
  | dropped hconn => rfl

theorem PlayerMsg.stage?_of_fromCallback {msg : PlayerMsg} (h : msg.FromCallback) :
    msg.stage? = none := by
  cases msg with
  | endOfDecode | drained | notSupported | trackStarted => rfl
  | _ => exact h.elim

theorem PlayerMsg.stage?_of_fromEnqueue {msg : PlayerMsg} (h : msg.FromEnqueue) :
    msg.stage? = none := by
  cases msg with
  | notSupported | streamEstablished => rfl
  | _ => exact h.elim

namespace Pass

variable {O : Type} {cfg : Config} {k : Nat} {now : Instant} {g g' : Globals} {p p' : Pass O}
  {entries : List LogEntry}

/-- The stages that have been posted: the event loop has been told of the ones in `known`, the
others are in the channel. -/
def posted (known : List Stage) (p : Pass O) : List Stage :=
  known ++ p.stream.filterMap PlayerMsg.stage?

/-- What the stream-connect threads post next, as long as somebody receives it. -/
def next (p : Pass O) : List (Option Stage) :=
  if p.attached then p.connects.map ConnectThread.stage? else []

/-- Every stage has been posted by a thread that has posted the one before. -/
def Heralded (known : List Stage) (begun : Nat) (p : Pass O) : Prop :=
  Accounted Stage.before begun p.next (p.posted known)

theorem Heralded.of_eq {known : List Stage} {begun : Nat} (h : p.Heralded known begun)
    (hattached : p'.attached = p.attached) (hconnects : p'.connects = p.connects)
    (hstream : p'.stream.filterMap PlayerMsg.stage? = p.stream.filterMap PlayerMsg.stage?) :
    p'.Heralded known begun := by
  unfold Heralded next posted at h ⊢
  rw [hattached, hconnects, hstream]
  exact h

/-- A stream-connect thread posts its stage and goes on to the next one, or it posts none and goes
nowhere. -/
inductive Advances (p p' : Pass O) : Prop where
  | posts {t : ConnectThread} {t' : Option ConnectThread} {msg : PlayerMsg} {stage : Stage}
      (hworker : Replace t t' p.connects p'.connects)
      (hsend : Sends (p.attached = true) STREAM_CAPACITY p.stream msg p'.stream)
      (hstage : t.stage? = some stage) (hmsg : msg.stage? = some stage)
      (hnext : ∀ later, t'.map ConnectThread.stage? = some (some later) → later.before = some stage)
  | waits {t : ConnectThread} {t' : Option ConnectThread}
      (hworker : Replace t t' p.connects p'.connects)
      (hstream : p'.stream.filterMap PlayerMsg.stage? = p.stream.filterMap PlayerMsg.stage?)
      (hnext : ∀ stage, t'.map ConnectThread.stage? = some (some stage) → t.stage? = some stage)

theorem advances_of_connectStep (h : ConnectStep now g p g' p' entries) : p.Advances p' := by
  cases h with
  | dial hpc hthread =>
      refine .waits hthread rfl ?_
      rintro stage hstage
      unfold ConnectThread.stage? at hstage ⊢
      rw [hpc]
      exact Option.some.inj hstage
  | dialFailed hpc hthread =>
      refine .waits hthread rfl ?_
      intro stage hstage
      cases hstage
  | postConnected hpc hsend hthread =>
      refine .posts hthread hsend ?_ rfl ?_
      · unfold ConnectThread.stage?
        rw [hpc]
      · intro later hlater
        cases hlater
        rfl
  | createBuffer hpc hthread =>
      refine .waits hthread rfl ?_
      intro stage hstage
      unfold ConnectThread.stage? at hstage ⊢
      rw [hpc]
      exact Option.some.inj hstage
  | postBufferThreshold hpc hsend hthread =>
      refine .posts hthread hsend ?_ rfl ?_
      · unfold ConnectThread.stage?
        rw [hpc]
      · intro later hlater
        cases hlater
        rfl
  | prepared hpc hthread =>
      refine .waits hthread rfl ?_
      intro stage hstage
      unfold ConnectThread.stage? at hstage ⊢
      rw [hpc]
      exact Option.some.inj hstage
  | notPrepared hpc hthread =>
      refine .waits hthread rfl ?_
      intro stage hstage
      cases hstage
  | post hpc hsend hthread =>
      rename_i t msg connects queue
      have hnext : t.stage? = msg.stage? := by
        unfold ConnectThread.stage?
        rw [hpc]
      cases hmsg : msg.stage? with
      | some stage =>
          refine .posts hthread hsend (hnext.trans hmsg) hmsg ?_
          intro later hlater
          cases hlater
      | none =>
          refine .waits hthread (stages_of_sends hsend hmsg) ?_
          intro stage hstage
          cases hstage

theorem Heralded.advances {known : List Stage} {begun : Nat} (hp : p.Heralded known begun)
    (hattached : p'.attached = p.attached) (h : p.Advances p') : p'.Heralded known begun := by
  unfold Heralded next posted at hp ⊢
  rw [hattached]
  by_cases hp' : p.attached = true
  · rw [if_pos hp'] at hp ⊢
    cases h with
    | posts hworker hsend hstage hmsg hnext =>
        rename_i t t' msg stage
        have hmoved := hworker.map ConnectThread.stage?
        rw [hstage] at hmoved
        have hqueue : p'.stream.filterMap PlayerMsg.stage? =
            p.stream.filterMap PlayerMsg.stage? ++ [stage] := by
          generalize p'.stream = queue at hsend
          cases hsend with
          | queued hconn hroom =>
              rw [List.filterMap_append, List.filterMap_cons_some hmsg]
              rfl
          | dropped hconn => exact absurd hp' hconn
        rw [hqueue, ← List.append_assoc]
        refine hp.post hmoved ?_ hnext
        cases stage <;> nofun
    | waits hworker hstream hnext =>
        rename_i t t'
        rw [hstream]
        refine hp.quit ?_
        intro stage
        have hcount := (hworker.map ConnectThread.stage?).count_add (some stage)
        -- What the thread posts next is what it would have posted before.
        have hkept : (t'.map ConnectThread.stage?).toList.count (some stage) ≤
            [t.stage?].count (some stage) := by
          by_cases hstage : t'.map ConnectThread.stage? = some (some stage)
          · rw [hstage, hnext stage hstage]
            exact le_rfl
          · have hnone : (t'.map ConnectThread.stage?).toList.count (some stage) = 0 :=
              List.count_eq_zero.2 fun hmem => hstage (Option.mem_toList.1 hmem)
            rw [hnone]
            exact Nat.zero_le _
        omega
  · -- Nobody receives it.
    rw [if_neg hp'] at hp ⊢
    have hqueue : p'.stream.filterMap PlayerMsg.stage? = p.stream.filterMap PlayerMsg.stage? := by
      cases h with
      | posts hworker hsend hstage hmsg hnext =>
          generalize p'.stream = queue at hsend
          cases hsend with
          | queued hconn hroom => exact absurd hconn hp'
          | dropped hconn => rfl
      | waits hworker hstream hnext => exact hstream
    rw [hqueue]
    exact hp

theorem heralded_of_threadStep {known : List Stage} {begun : Nat}
    (h : ThreadStep cfg k now g p g' p' entries) (hp : p.Heralded known begun) :
    p'.Heralded known begun := by
  have hattached := attached_of_threadStep h
  cases h with
  | proto h => cases h <;> exact hp
  | writer h => cases h <;> exact hp
  | connect h => exact hp.advances hattached (advances_of_connectStep h)
  | timer h =>
      cases h with
      | unpause hwake hsend hthread => exact hp.of_eq rfl rfl (stages_of_sends hsend rfl)
      | resume hwake hsend hthread => exact hp.of_eq rfl rfl (stages_of_sends hsend rfl)
      | _ => exact hp
  | backend h =>
      cases h with
      | trackStarted hsend hstream => exact hp.of_eq rfl rfl (stages_of_sends hsend rfl)
      | post hmsg hother hsend =>
          exact hp.of_eq rfl rfl (stages_of_sends hsend (PlayerMsg.stage?_of_fromCallback hmsg))
      | _ => exact hp

/-- A handler has run, which leaves the channel of player messages alone. -/
theorem Heralded.absorb {known : List Stage} {begun origin : Nat} {done : Player O} {more : Bool}
    (hp : p.Heralded known begun) (hattached : p.attached = true)
    (hspawns : Player.nextStages done.spawns origin = if more then [some .connected] else []) :
    (p.absorb origin now done).Heralded known (begun + if more then 1 else 0) := by
  have hnext : (p.absorb origin now done).next =
      p.next ++ Player.nextStages done.spawns origin := by
    unfold next
    rw [if_pos hattached]
    exact (if_pos hattached).trans (List.map_append ..)
  have hposted : (p.absorb origin now done).posted known = p.posted known := rfl
  unfold Heralded at hp ⊢
  rw [hnext, hposted, hspawns]
  cases more with
  | false =>
      rw [if_neg Bool.false_ne_true, if_neg Bool.false_ne_true, List.append_nil]
      exact hp
  | true => exact hp.begin rfl

/-- The event loop takes a message from the channel. -/
theorem posted_of_cons {msg : PlayerMsg} {rest : List PlayerMsg} (hqueue : p.stream = msg :: rest)
    (known : List Stage) :
    ({ p with stream := rest } : Pass O).posted (known ++ msg.stage?.toList) = p.posted known := by
  unfold posted
  rw [hqueue, List.append_assoc]
  refine congrArg _ ?_
  cases hmsg : msg.stage? with
  | none =>
      rw [List.filterMap_cons_none hmsg]
      rfl
  | some stage =>
      rw [List.filterMap_cons_some hmsg]
      rfl

end Pass

/-! ## The event loop -/

section Main

variable {O : Type} [AudioOutput O] {cfg : Config} {s t : Process O} {entries : List LogEntry}

/-- What the event loop of the pass knows and has begun. -/
def Process.Heralded (k : Nat) (s : Process O) : Prop :=
  (s.passes k).Heralded (stagesBy k s.log) (streamsBegun k s.log)

theorem stagesBy_of_ne {k j : Nat} (hk : k ≠ j) (now : Instant) (msg : PlayerMsg)
    (sends : List Send) (enqueued : List VibeDecoder) :
    stagesBy k [.handledPlayer now j msg sends enqueued] = [] := by
  show (if j = k then msg.stage?.toList else []) ++ [] = []
  rw [if_neg hk.symm]
  rfl

theorem streamsBegun_of_ne {k : Nat} {receipt : Receipt} (hk : k ≠ receipt.conn.pass)
    (now : Instant) (sends : List Send) (spawns : List Spawn) :
    streamsBegun k [.handled now receipt sends spawns] = 0 := by
  refine List.countP_eq_zero.2 ?_
  intro e he
  cases List.mem_singleton.1 he
  show ¬(decide (receipt.conn.pass = k) && ServerMessage.beginsStream receipt.msg) = true
  rw [decide_eq_false hk.symm]
  exact Bool.false_ne_true

/-- The event loop of one pass knows nothing of another. -/
theorem quiet_of_mainStep (hwired : s.pass.Wired cfg s.current) (h : MainStep cfg s t entries)
    {k : Nat} (hk : k ≠ s.current) : stagesBy k entries = [] ∧ streamsBegun k entries = 0 := by
  cases h with
  | serverMessage opened hmain hqueue hdone =>
      rename_i receipt rest done
      have hpass : receipt.conn.pass = s.current :=
        (hwired.receipts _ (mem_toMain_of_cons hqueue).1 receipt rfl).1
      exact ⟨rfl, streamsBegun_of_ne (hpass ▸ hk) _ _ _⟩
  | playerMessage hmain hqueue hdone => exact ⟨stagesBy_of_ne hk _ _ _ _, rfl⟩
  | timeout hmain hserver hstream hdone => exact ⟨rfl, rfl⟩
  | _ => exact ⟨rfl, rfl⟩

/-- A Stream command with headers counts for the pass of its connection. -/
theorem streamsBegun_of_eq {k : Nat} {receipt : Receipt} (hk : receipt.conn.pass = k)
    (now : Instant) (sends : List Send) (spawns : List Spawn) :
    streamsBegun k [.handled now receipt sends spawns] =
      if ServerMessage.beginsStream receipt.msg then 1 else 0 := by
  have hbegins : LogEntry.begins k (.handled now receipt sends spawns) =
      ServerMessage.beginsStream receipt.msg := by
    show (decide (receipt.conn.pass = k) && ServerMessage.beginsStream receipt.msg) = _
    rw [decide_eq_true hk, Bool.true_and]
  unfold streamsBegun
  rw [List.countP_singleton, hbegins]

theorem stagesBy_of_eq (k : Nat) (now : Instant) (msg : PlayerMsg) (sends : List Send)
    (enqueued : List VibeDecoder) :
    stagesBy k [.handledPlayer now k msg sends enqueued] = msg.stage?.toList := by
  show (if k = k then msg.stage?.toList else []) ++ [] = msg.stage?.toList
  rw [if_pos rfl, List.append_nil]

omit [AudioOutput O] in
/-- The pass is `p` now, and the record has grown. -/
theorem Process.Heralded.move {k : Nat} {p : Pass O} (hlog : t.log = s.log ++ entries)
    (hpass : t.passes k = p)
    (hp : p.Heralded (stagesBy k s.log ++ stagesBy k entries)
      (streamsBegun k s.log + streamsBegun k entries)) : t.Heralded k := by
  unfold Process.Heralded
  rw [hlog, hpass, stagesBy_append, streamsBegun_append]
  exact hp

omit [AudioOutput O] in
/-- Nothing that concerns the streams is recorded. -/
theorem Process.Heralded.stay {k : Nat} {p : Pass O} (hlog : t.log = s.log ++ entries)
    (hpass : t.passes k = p) (hquiet : stagesBy k entries = [] ∧ streamsBegun k entries = 0)
    (hp : p.Heralded (stagesBy k s.log) (streamsBegun k s.log)) : t.Heralded k := by
  refine .move hlog hpass ?_
  rw [hquiet.1, hquiet.2, List.append_nil]
  exact hp

theorem heralded_of_mainStep (hreach : (system O cfg).Reachable s) (hs : s.Heralded s.current)
    (h : MainStep cfg s t entries) : (t.record entries).Heralded s.current := by
  have hplayer : s.player = Player.start s.pass.ctx s.globals := rfl
  have hattached := attached hreach
  have hlog : (t.record entries).log = s.log ++ entries := by
    rw [← h.log_eq]
    rfl
  cases h with
  | serverMessage opened hmain hqueue hdone =>
      rename_i receipt rest done
      have hpass : receipt.conn.pass = s.current :=
        ((wired hreach s.current).receipts _ (mem_toMain_of_cons hqueue).1 receipt rfl).1
      have hspawns : Player.nextStages done.spawns s.log.length =
          if ServerMessage.beginsStream receipt.msg then [some .connected] else [] := by
        rw [hdone, hplayer]
        exact Player.nextStages_handleServerMessage opened receipt.msg s.log.length
      refine .move hlog (s.finish_passes_self _ _) ?_
      rw [streamsBegun_of_eq hpass]
      have hnone : stagesBy s.current [.handled s.now receipt done.sends done.spawns] = [] := rfl
      rw [hnone, List.append_nil]
      exact Pass.Heralded.absorb (hs.of_eq rfl rfl rfl) hattached hspawns
  | playerMessage hmain hqueue hdone =>
      rename_i msg rest done
      refine .move hlog (s.finish_passes_self _ _) ?_
      have hspawns : Player.nextStages done.spawns s.log.length =
          if false then [some .connected] else [] := by
        rw [hdone, hplayer, Player.spawns_handlePlayerMessage]
        rfl
      rw [stagesBy_of_eq]
      have htaken : ({ s.pass with stream := rest } : Pass O).Heralded
          (stagesBy s.current s.log ++ msg.stage?.toList) (streamsBegun s.current s.log) := by
        have hposted := Pass.posted_of_cons hqueue (stagesBy s.current s.log)
        unfold Pass.Heralded
        rw [hposted]
        exact hs
      exact Pass.Heralded.absorb htaken hattached hspawns
  | timeout hmain hserver hstream hdone =>
      rename_i done
      refine .stay hlog (s.finish_passes_self _ _) ⟨rfl, rfl⟩ ?_
      have hspawns : Player.nextStages done.spawns s.log.length =
          if false then [some .connected] else [] := by
        rw [hdone]
        rfl
      exact Pass.Heralded.absorb hs hattached hspawns
  | sendToServer hmain hsend =>
      exact .stay hlog (s.setPass_passes_self _ _) ⟨rfl, rfl⟩ (hs.of_eq rfl rfl rfl)
  | sendToSelf hmain hsend =>
      have hmsg := PlayerMsg.stage?_of_fromEnqueue
        (fromEnqueue_of_pending hreach hmain (List.mem_cons_self ..))
      exact .stay hlog (s.setPass_passes_self _ _) ⟨rfl, rfl⟩
        (hs.of_eq rfl rfl (stages_of_sends hsend hmsg))
  | lost hmain hqueue =>
      exact .stay hlog (s.setPass_passes_self _ _) ⟨rfl, rfl⟩ (hs.of_eq rfl rfl rfl)
  | disconnected hmain hqueue hended => exact .stay hlog rfl ⟨rfl, rfl⟩ hs
  | bye hmain hsend =>
      exact .stay hlog (s.setPass_passes_self _ _) ⟨rfl, rfl⟩ (hs.of_eq rfl rfl rfl)
  | restart hostname hmain =>
      have hpass : ((s.setPass s.current s.pass.detach).setPass (s.current + 1)
          (Pass.start cfg s.now (cfg.playerName hostname) s.reconnect)).passes s.current =
            s.pass.detach := by
        rw [Process.setPass_passes_of_ne _ _ (Nat.succ_ne_self _).symm, Process.setPass_passes_self]
      refine .stay hlog hpass ⟨rfl, rfl⟩ ?_
      -- What is in the channel is lost.
      exact Accounted.cut hs (List.prefix_append_right_inj _ |>.2 List.nil_prefix)

theorem heralded (h : (system O cfg).Reachable s) (k : Nat) : s.Heralded k := by
  refine System.Reachable.invariant (fun s : Process O => ∀ k, s.Heralded k) ?_ ?_ h k
  · rintro s ⟨now, hostname, rfl⟩ k
    exact Accounted.nil Stage.before 0
  · intro s t hs ih hstep k
    cases hstep with
    | @main t entries hmoved =>
        by_cases hk : k = s.current
        · subst hk
          exact heralded_of_mainStep hs (ih _) hmoved
        · have hlog : (t.record entries).log = s.log ++ entries := by
            rw [← hmoved.log_eq]
            rfl
          have hquiet := quiet_of_mainStep (wired hs _) hmoved hk
          rcases lt_or_gt_of_ne hk with hlt | hgt
          · exact .stay hlog (passes_of_lt hmoved hlt) hquiet (ih k)
          · rcases hmoved.passes_of_ne hk with hsame | ⟨now, name, reconnect, hnew⟩
            · exact .stay hlog hsame hquiet (ih k)
            · -- A pass that begins is as empty as it has been before.
              rcases unstarted hs hgt with ⟨now', name', reconnect', hold⟩
              refine .stay hlog hnew hquiet ((ih k).of_eq ?_ ?_ ?_)
              · rw [hold]
                rfl
              · rw [hold]
                rfl
              · rw [hold]
                rfl
    | @thread j g' p' entries hrun hj hmoved =>
        have hquiet := quiet_of_not_byMain k (not_byMain_of_threadStep hmoved)
        by_cases hk : k = j
        · subst hk
          exact .stay rfl (s.setPass_passes_self _ _) hquiet
            (Pass.heralded_of_threadStep hmoved (ih k))
        · exact .stay rfl (s.setPass_passes_of_ne _ hk) hquiet (ih k)
    | tick d => exact ih k

/-- What an entry says about the stages, the event loop has told the server. -/
theorem told_sentIn (h : (system O cfg).Reachable s) (k : Nat) : ∀ e ∈ s.log,
    told (e.sentIn k) = (e.stagesIn k).filter (· ≠ .decoder) ∧
      (e.enqueuedIn k).length ≤ (e.stagesIn k).count .decoder := by
  refine forall_log (Q := fun e => told (e.sentIn k) = (e.stagesIn k).filter (· ≠ .decoder) ∧
    (e.enqueuedIn k).length ≤ (e.stagesIn k).count .decoder) h ?_ ?_
  · intro s j g' p' entries _ hmoved e he
    have hother := not_byMain_of_threadStep hmoved e he
    cases e with
    | handled | handledPlayer | timeout | lost => exact absurd trivial hother
    | _ => exact ⟨rfl, le_rfl⟩
  · intro s t entries _ hmoved e he
    have hplayer : s.player = Player.start s.pass.ctx s.globals := rfl
    cases hmoved with
    | serverMessage opened hmain hqueue hdone =>
        rename_i receipt rest done
        cases List.mem_singleton.1 he
        rw [hplayer] at hdone
        refine ⟨?_, le_rfl⟩
        show told (if receipt.conn.pass = k then clientMessages done.sends else []) = []
        split_ifs
        · rw [hdone]
          exact Player.told_handleServerMessage opened receipt.msg
        · rfl
    | playerMessage hmain hqueue hdone =>
        rename_i msg rest done
        cases List.mem_singleton.1 he
        rw [hplayer] at hdone
        unfold LogEntry.sentIn LogEntry.stagesIn LogEntry.enqueuedIn
        dsimp only
        split_ifs
        · rw [hdone]
          exact ⟨Player.told_handlePlayerMessage msg, Player.length_enqueued_le msg⟩
        · exact ⟨rfl, le_rfl⟩
    | timeout hmain hserver hstream hdone =>
        rename_i done
        cases List.mem_singleton.1 he
        rw [hplayer] at hdone
        refine ⟨?_, le_rfl⟩
        show told (if s.current = k then clientMessages done.sends else []) = []
        split_ifs
        · rw [hdone]
          exact Player.told_onTimeout
        · rfl
    | lost hmain hqueue =>
        cases List.mem_singleton.1 he
        refine ⟨?_, le_rfl⟩
        show told (if s.current = k then [.bye 1] else []) = []
        split_ifs <;> rfl
    | _ => exact absurd he List.not_mem_nil

/-- The server is told of every stage but the last one, in that order. -/
theorem told_sentBy (h : (system O cfg).Reachable s) (k : Nat) :
    told (sentBy k s.log) = (stagesBy k s.log).filter (· ≠ .decoder) := by
  have hentries := told_sentIn h k
  revert hentries
  generalize s.log = log
  induction log with
  | nil =>
      intro _
      rfl
  | cons e log ih =>
      intro hentries
      have hrest := ih fun e he => hentries e (List.mem_cons_of_mem _ he)
      calc
        told (sentBy k (e :: log)) = told (e.sentIn k) ++ told (sentBy k log) := told_append _ _
        _ = (e.stagesIn k).filter (· ≠ .decoder) ++ (stagesBy k log).filter (· ≠ .decoder) := by
          rw [(hentries e (List.mem_cons_self ..)).1, hrest]
        _ = (stagesBy k (e :: log)).filter (· ≠ .decoder) := (List.filter_append _ _).symm

theorem length_enqueuedBy_le (h : (system O cfg).Reachable s) (k : Nat) :
    (enqueuedBy k s.log).length ≤ (stagesBy k s.log).count .decoder := by
  have hentries := told_sentIn h k
  revert hentries
  generalize s.log = log
  induction log with
  | nil =>
      intro _
      exact le_rfl
  | cons e log ih =>
      intro hentries
      have hrest := ih fun e he => hentries e (List.mem_cons_of_mem _ he)
      calc
        (enqueuedBy k (e :: log)).length = (e.enqueuedIn k).length + (enqueuedBy k log).length :=
          List.length_append
        _ ≤ (e.stagesIn k).count .decoder + (stagesBy k log).count .decoder :=
          Nat.add_le_add (hentries e (List.mem_cons_self ..)).2 hrest
        _ = (stagesBy k (e :: log)).count .decoder := List.count_append.symm

/-- **The server hears of every stream in order**, in every reachable state.

* Whatever the event loop of a pass has sent to the server: at no point are there more reports of a
  full buffer than reports of a connection,
* and there are no more of those than Stream commands that begin a stream.
* There are no more streams enqueued on the output than reports of a full buffer.
* On the first connection of a pass, as long as the pass has not followed a redirect, it is the same
  with what has been written. -/
theorem stream_handshake (h : (system O cfg).Reachable s) (k : Nat) :
    Leads .connected .bufferThreshold (told (sentBy k s.log)) ∧
      (told (sentBy k s.log)).count .connected ≤ streamsBegun k s.log ∧
      (enqueuedBy k s.log).length ≤ (told (sentBy k s.log)).count .bufferThreshold ∧
      ∀ conn, conn.pass = k → conn.hops = 0 → (s.passes k).proto.hops = 0 →
        Leads .connected .bufferThreshold (told (writtenTo conn s.log)) := by
  have hknown : Accounted Stage.before (streamsBegun k s.log) [] (stagesBy k s.log) :=
    Accounted.cut (heralded h k) (List.prefix_append _ _)
  have hleads : Leads .connected .bufferThreshold (told (sentBy k s.log)) := by
    rw [told_sentBy h k]
    exact (hknown.leads .bufferThreshold .connected rfl).filter rfl rfl
  refine ⟨hleads, ?_, ?_, ?_⟩
  · rw [told_sentBy h k, List.count_filter rfl]
    exact hknown.count_le .connected
  · rw [told_sentBy h k, List.count_filter rfl]
    exact (length_enqueuedBy_le h k).trans (hknown.count_le .decoder)
  · rintro conn rfl hconn hhops
    have hwritten := ((answers h conn).first hconn hhops).filterMap ClientMessage.stage?
    rw [filterMap_ordered, filterMap_ordered, filterMap_shown] at hwritten
    exact hleads.of_early hwritten

end Main

/-- A stream is enqueued on the output, so that the server has been told of its buffer. -/
theorem stream_handshake_lateDecoder : ∃ (s : Process PulseOutput) (k : Nat),
    (system PulseOutput cliConfig).Reachable s ∧ lateDecoder ∈ enqueuedBy k s.log ∧
      Leads .connected .bufferThreshold (told (sentBy k s.log)) ∧
      0 < (told (sentBy k s.log)).count .bufferThreshold := by
  rcases exists_decoder_runs.1 with ⟨s, hs, before, entry, hlog, hd⟩
  cases entry with
  | handledPlayer now k msg sends enqueued =>
      have hmem : lateDecoder ∈ enqueuedBy k s.log := by
        refine List.mem_flatMap.2 ⟨.handledPlayer now k msg sends enqueued, ?_, ?_⟩
        · rw [hlog]
          exact List.mem_append_right _ (List.mem_singleton_self _)
        · show lateDecoder ∈ if k = k then enqueued else []
          rw [if_pos rfl]
          exact hd
      have htold := stream_handshake hs.of_restrict k
      exact ⟨s, k, hs.of_restrict, hmem, htold.1,
        lt_of_lt_of_le (List.length_pos_of_mem hmem) htold.2.2.1⟩
  | _ => exact absurd hd List.not_mem_nil

end Vibe
end LmsPlayer
