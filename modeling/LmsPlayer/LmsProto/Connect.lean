import LmsPlayer.Library.Iteration
import LmsPlayer.LmsProto.Frames.Send
import LmsPlayer.LmsProto.Hello

/-!
# Connect — opening a connection

`Hello::connect` tries again as long as the failures are transient ones, and sends the HELO as the
first message on the connection that it gets.  The network is given by what the attempts come to,
one after the other, and a connection by what its reads and writes are going to return.

* How long a sleep is depends on how many there have been (`retryDelay`).
* `announce` is what `connect` does with a connection that it has been given.
-/

namespace LmsPlayer
namespace LmsProto

open Iteration

/-! ## Dialling -/

/-- The kinds of errors that `connect_with_retry` tells apart. -/
inductive DialErrorKind where
  | connectionRefused
  | hostUnreachable
  | networkUnreachable
  | networkDown
  | other
  deriving DecidableEq, Repr

structure DialError where
  kind : DialErrorKind
  message : String
  deriving DecidableEq, Repr

/-- A connection: whether it can be prepared, and what comes of reading and writing. -/
structure TcpStream where
  setNodelay : Option IoError
  tryClone : Option IoError
  reads : List ReadResult
  writes : List WriteResult
  flushes : List SendResult
  deriving DecidableEq

/-- What one `TcpStream::connect` comes to. -/
abbrev Dial := Except DialError TcpStream

/-- A failure that is worth another attempt. -/
def Dial.Transient : Dial → Prop
  | .ok _ => False
  | .error e => e.kind ≠ .other

instance : DecidablePred Dial.Transient
  | .ok _ => isFalse id
  | .error e => inferInstanceAs (Decidable (e.kind ≠ .other))

/-- The loop, at the beginning of an attempt. -/
structure Dialling where
  delay : Duration
  failed : Nat
  slept : List Duration

def Dialling.start : Dialling :=
  { delay := Duration.fromMillis 10
    failed := 0
    slept := [] }

/-- What the loop returns, and the sleeps. -/
structure Dialled where
  result : Dial
  failed : Nat
  slept : List Duration

section

variable (dials : Nat → Dial)

/-- One round of `connect_with_retry`. -/
def connectRound (s : Dialling) : Dialling ⊕ Dialled :=
  let ret : Dialling ⊕ Dialled :=
    .inr
      { result := dials s.failed
        failed := s.failed
        slept := s.slept }
  match dials s.failed with
  | .ok _ => ret
  | .error e =>
      -- The delay doubles after the sleep.
      if e.kind = .connectionRefused ∨ e.kind = .hostUnreachable ∨ e.kind = .networkUnreachable ∨
          e.kind = .networkDown then
        .inl
          { delay := min (s.delay * 2) (Duration.fromSecs 5)
            failed := s.failed + 1
            slept := s.slept ++ [s.delay] }
      else ret

theorem connectRound_eq (s : Dialling) :
    connectRound dials s =
      if (dials s.failed).Transient then
        .inl
          { delay := min (s.delay * 2) (Duration.fromSecs 5)
            failed := s.failed + 1
            slept := s.slept ++ [s.delay] }
      else
        .inr
          { result := dials s.failed
            failed := s.failed
            slept := s.slept } := by
  unfold connectRound
  cases dials s.failed with
  | ok stream => rfl
  | error e =>
      rcases e with ⟨kind, message⟩
      cases kind <;> rfl

end

/-! ## The sleeps -/

/-- How long the sleep after so many others is. -/
def retryDelay (n : Nat) : Duration := min (Duration.fromMillis 10 * 2 ^ n) (Duration.fromSecs 5)

theorem retryDelay_succ (n : Nat) :
    retryDelay (n + 1) = min (retryDelay n * 2) (Duration.fromSecs 5) := by
  have hmin : ∀ delay longest : Nat, min (delay * 2) longest =
      min (min delay longest * 2) longest := by
    omega
  unfold retryDelay
  rw [Nat.pow_succ, ← Nat.mul_assoc]
  exact hmin _ _

/-- What a loop has been through. -/
structure Dialling.Regular (dials : Nat → Dial) (s : Dialling) : Prop where
  delay : s.delay = retryDelay s.failed
  transient : ∀ k < s.failed, (dials k).Transient
  slept : s.slept = (List.range s.failed).map retryDelay

variable {dials : Nat → Dial}

theorem Dialling.regular_start : Dialling.start.Regular dials := ⟨by decide, nofun, rfl⟩

theorem Dialling.Regular.round {s t : Dialling} (hs : s.Regular dials)
    (h : connectRound dials s = .inl t) : t.Regular dials := by
  rw [connectRound_eq] at h
  split at h
  · rename_i htransient
    cases h
    refine ⟨?_, ?_, ?_⟩
    · rw [retryDelay_succ, hs.delay]
    · intro k hk
      rcases Nat.lt_succ_iff_lt_or_eq.1 hk with hlt | rfl
      · exact hs.transient k hlt
      · exact htransient
    · rw [hs.slept, hs.delay, List.range_succ, List.map_append]
      rfl
  · cases h

/-- It returns what the first attempt comes to that is not a transient failure. -/
theorem dialled_of_returns {r : Dialled} (h : Returns (connectRound dials) .start r) :
    (∀ k < r.failed, (dials k).Transient) ∧ ¬(dials r.failed).Transient ∧
      r.result = dials r.failed ∧ r.slept = (List.range r.failed).map retryDelay := by
  rcases h.exists_goesOn with ⟨s, hgoes, hlast⟩
  have hregular : s.Regular dials := by
    refine hgoes.invariant (Dialling.Regular dials) Dialling.regular_start ?_
    intro a b ha hround
    exact ha.round hround
  rw [connectRound_eq] at hlast
  split at hlast
  · cases hlast
  · rename_i htransient
    cases hlast
    exact ⟨hregular.transient, htransient, rfl, hregular.slept⟩

theorem terminates_connect_iff :
    Terminates (connectRound dials) .start ↔ ∃ k, ¬(dials k).Transient := by
  constructor
  · rintro ⟨r, hreturns⟩
    exact ⟨r.failed, (dialled_of_returns hreturns).2.1⟩
  · rintro ⟨k, hk⟩
    refine Terminates.of_count Dialling.failed (fun k => (dials k).Transient) ?_ hk (Nat.zero_le k)
    intro s t hround
    rw [connectRound_eq] at hround
    split at hround
    · cases hround
      exact ⟨‹_›, rfl⟩
    · cases hround

/-! ## The first message -/

inductive ConnectError where
  | dial (e : DialError)
  | io (e : IoError)
  deriving DecidableEq, Repr

/-- What becomes of a connection. -/
structure Connected where
  sent : Bytes
  /-- Nothing as long as the HELO has not been written. -/
  result : Option (Except ConnectError (LMSRecv × Writer))

namespace Hello

/-- What `connect` does with a connection that it has been given. -/
def announce (hello : Hello) (stream : TcpStream) : Connected :=
  let failed (e : IoError) (sent : Bytes) : Connected :=
    { sent := sent
      result := some (.error (.io e)) }
  match stream.setNodelay with
  | some e => failed e []
  | none =>
      match stream.tryClone with
      | some e => failed e []
      | none =>
          let rx := LMSRecv.new stream.reads
          let tx : Writer :=
            { writes := stream.writes
              flushes := stream.flushes
              accepted := [] }
          -- The server hears the HELO before anything else.
          match LMSSend.send tx hello.helo with
          | .returned .ok tx =>
              { sent := tx.accepted
                result := some (.ok (rx, tx)) }
          | .returned (.err e) tx => failed e tx.accepted
          | .waiting tx =>
              { sent := tx.accepted
                result := none }

/-- `Hello::connect`, with at most `fuel` attempts, and the sleeps between them. -/
def connect (hello : Hello) (dials : Nat → Dial) (fuel : Nat) :
    Option (Connected × List Duration) :=
  (run (connectRound dials) fuel .start).map fun r =>
    match r.result with
    | .ok stream => (hello.announce stream, r.slept)
    | .error e =>
        ({ sent := []
           result := some (.error (.dial e)) }, r.slept)

/-- Nothing but the HELO is sent, and all of it before `connect` returns a connection. -/
theorem announce_spec (hello : Hello) (stream : TcpStream) :
    (hello.announce stream).sent <+: hello.helo.toBytes ∧
      ∀ rx tx, (hello.announce stream).result = some (.ok (rx, tx)) →
        rx = LMSRecv.new stream.reads ∧ tx.accepted = hello.helo.toBytes ∧
          (hello.announce stream).sent = hello.helo.toBytes := by
  unfold announce
  dsimp only
  cases stream.setNodelay with
  | some e => exact ⟨List.nil_prefix, nofun⟩
  | none =>
      cases stream.tryClone with
      | some e => exact ⟨List.nil_prefix, nofun⟩
      | none =>
          dsimp only
          generalize hwriter :
            ({ writes := stream.writes, flushes := stream.flushes, accepted := [] } :
            Writer) = writer
          rcases LMSSend.send_spec writer hello.helo with ⟨p, hp, haccepted, hwhole⟩
          have hsent : (LMSSend.send writer hello.helo).inner.accepted = p := by
            rw [haccepted, ← hwriter]
            rfl
          have hfront : (LMSSend.send writer hello.helo).inner.accepted <+: hello.helo.toBytes := by
            rw [hsent]
            exact hp
          cases hcall : LMSSend.send writer hello.helo with
          | waiting tx =>
              rw [hcall] at hfront
              exact ⟨hfront, nofun⟩
          | returned result tx =>
              rw [hcall] at hfront hsent hwhole
              cases result with
              | err e => exact ⟨hfront, nofun⟩
              | ok =>
                  have haccepted : tx.accepted = hello.helo.toBytes := hsent.trans (hwhole rfl)
                  refine ⟨hfront, ?_⟩
                  rintro rx tx' ⟨⟩
                  exact ⟨rfl, haccepted, haccepted⟩

/-- It returns a connection exactly if all calls for it succeed, and it does not return exactly if
it waits for the server to take the HELO. -/
theorem announce_result (hello : Hello) (stream : TcpStream) :
    ((∃ rx tx, (hello.announce stream).result = some (.ok (rx, tx))) ↔
        stream.setNodelay = none ∧ stream.tryClone = none ∧
          LMSSend.Takes stream.writes hello.helo.toBytes.length ∧ stream.flushes.head? = some .ok) ∧
      ((hello.announce stream).result = none ↔
        stream.setNodelay = none ∧ stream.tryClone = none ∧
          (LMSSend.RunOut stream.writes hello.helo.toBytes.length ∨
            LMSSend.Takes stream.writes hello.helo.toBytes.length ∧ stream.flushes = [])) := by
  unfold announce
  dsimp only
  cases stream.setNodelay with
  | some e => simp
  | none =>
      cases stream.tryClone with
      | some e => simp
      | none =>
          dsimp only
          -- From here on the result is that of `send`.
          have hresult := LMSSend.send_result
            { writes := stream.writes, flushes := stream.flushes, accepted := [] } hello.helo
          dsimp only at hresult
          simp only [true_and]
          rw [← hresult.1, ← hresult.2]
          generalize LMSSend.send _ hello.helo = call
          cases call with
          | waiting tx => simp [LMSSend.Call.result?]
          | returned result tx => cases result <;> simp [LMSSend.Call.result?]

end Hello

/-- What has been accepted stays at the beginning. -/
theorem accepted_prefix_sendAll (inner : Writer) (msgs : List ClientMessage) :
    inner.accepted <+: (LMSSend.sendAll inner msgs).2.accepted := by
  induction msgs generalizing inner with
  | nil => exact List.prefix_rfl
  | cons msg msgs ih =>
      rcases LMSSend.send_spec inner msg with ⟨p, -, haccepted, -⟩
      unfold LMSSend.sendAll
      cases hcall : LMSSend.send inner msg with
      | returned result next =>
          rw [hcall] at haccepted
          have hfirst : inner.accepted <+: next.accepted := ⟨p, haccepted.symm⟩
          exact hfirst.trans (ih next)
      | waiting next =>
          rw [hcall] at haccepted
          exact ⟨p, haccepted.symm⟩

/-- **A connection begins with the HELO**: the dialling ends exactly if there is an attempt that is
not a transient failure.  The first such attempt decides; before it there has been one sleep for
each failure, ten milliseconds at first, twice as long each time, and never longer than five
seconds.

* If it fails as well, nothing is sent and its error is returned.
* Otherwise `connect` returns a connection exactly if it can be prepared and the HELO is taken and
  flushed, and it waits for good exactly if the server neither takes all of it nor fails.
* Nothing but the HELO is sent before it returns, and all of it if a connection is returned.  What
  is received is what comes on this connection, and whatever is sent on it later comes behind the
  HELO. -/
theorem connect_begins (hello : Hello) (dials : Nat → Dial) :
    ((∃ fuel c, hello.connect dials fuel = some c) ↔ ∃ k, ¬(dials k).Transient) ∧
    ∀ fuel c slept, hello.connect dials fuel = some (c, slept) →
      ∃ k, (∀ j < k, (dials j).Transient) ∧ ¬(dials k).Transient ∧
        slept = (List.range k).map retryDelay ∧
        (∀ e, dials k = .error e → c.sent = [] ∧ c.result = some (.error (.dial e))) ∧
        c.sent <+: hello.helo.toBytes ∧
        ∀ stream, dials k = .ok stream →
          ((∃ rx tx, c.result = some (.ok (rx, tx))) ↔
            stream.setNodelay = none ∧ stream.tryClone = none ∧
              LMSSend.Takes stream.writes hello.helo.toBytes.length ∧
                stream.flushes.head? = some .ok) ∧
          (c.result = none ↔
            stream.setNodelay = none ∧ stream.tryClone = none ∧
              (LMSSend.RunOut stream.writes hello.helo.toBytes.length ∨
                LMSSend.Takes stream.writes hello.helo.toBytes.length ∧ stream.flushes = [])) ∧
          ∀ rx tx, c.result = some (.ok (rx, tx)) →
            rx = LMSRecv.new stream.reads ∧ c.sent = hello.helo.toBytes ∧ ∀ msgs,
              hello.helo.toBytes <+: (LMSSend.sendAll tx msgs).2.accepted ∧
              ((∀ call ∈ (LMSSend.sendAll tx msgs).1, call.result = some .ok) →
                (LMSSend.sendAll tx msgs).2.accepted =
                  (hello.helo :: msgs).flatMap ClientMessage.toBytes) := by
  refine ⟨?_, ?_⟩
  · rw [← terminates_connect_iff]
    constructor
    · rintro ⟨fuel, c, hconnect⟩
      rcases Option.map_eq_some_iff.1 hconnect with ⟨r, hrun, -⟩
      exact ⟨r, fuel, hrun⟩
    · rintro ⟨r, fuel, hrun⟩
      exact ⟨fuel, _, Option.map_eq_some_iff.2 ⟨r, hrun, rfl⟩⟩
  · intro fuel c slept hconnect
    rcases Option.map_eq_some_iff.1 hconnect with ⟨r, hrun, hresult⟩
    rcases dialled_of_returns ⟨fuel, hrun⟩ with ⟨htransient, hlast, hdial, hslept⟩
    refine ⟨r.failed, htransient, hlast, ?_⟩
    rw [hdial] at hresult
    cases houtcome : dials r.failed with
    | error e =>
        rw [houtcome] at hresult
        cases hresult
        refine ⟨hslept, ?_, List.nil_prefix, nofun⟩
        rintro e' ⟨rfl⟩
        exact ⟨rfl, rfl⟩
    | ok stream =>
        rw [houtcome] at hresult
        cases hresult
        rcases hello.announce_spec stream with ⟨hfront, hwhole⟩
        rcases hello.announce_result stream with ⟨hreturns, hwaits⟩
        refine ⟨hslept, nofun, hfront, ?_⟩
        rintro stream' ⟨rfl⟩
        refine ⟨hreturns, hwaits, ?_⟩
        -- What is sent later goes through the writer that has taken the HELO.
        intro rx tx hok
        rcases hwhole rx tx hok with ⟨hreads, haccepted, hsent⟩
        refine ⟨hreads, hsent, ?_⟩
        intro msgs
        refine ⟨haccepted ▸ accepted_prefix_sendAll tx msgs, ?_⟩
        intro hall
        rw [LMSSend.accepted_of_ok hall, haccepted, List.flatMap_cons]

/-- The server is not up yet when it is called for the first time, and takes the HELO in two
parts. -/
theorem connect_begins_refused :
    let hello : Hello :=
      { Hello.new with
        deviceId := 12
        mac := #v[2, 0, 0, 0, 0, 1]
        caps := [.flc] }
    let dials : Nat → Dial := fun k =>
      if k = 0 then .error { kind := .connectionRefused, message := "refused" }
      else
        .ok
          { setNodelay := none
            tryClone := none
            reads := []
            writes := [.ok 20, .ok 27]
            flushes := [.ok] }
    ∃ c rx tx, hello.connect dials 2 = some (c, [Duration.fromMillis 10]) ∧
      c.result = some (.ok (rx, tx)) ∧ c.sent = hello.helo.toBytes := by
  intro hello dials
  have hconnect : hello.connect dials 2 = some (_, [Duration.fromMillis 10]) := rfl
  rcases (connect_begins hello dials).2 2 _ _ hconnect with ⟨k, hbefore, hlast, _, _, _, hok⟩
  -- Only the first attempt is a transient failure.
  obtain rfl : k = 1 := by
    rcases Nat.lt_trichotomy k 1 with hlt | heq | hgt
    · rw [Nat.lt_one_iff.1 hlt] at hlast
      exact absurd (by decide) hlast
    · exact heq
    · exact absurd (hbefore 1 hgt) (by decide)
  rcases hok _ rfl with ⟨hreturns, _, hwhole⟩
  have hlength : hello.helo.toBytes.length = 47 := by decide
  have htakes : LMSSend.Takes [.ok 20, .ok 27] hello.helo.toBytes.length := by
    rw [hlength]
    exact ⟨by decide, Or.inr ⟨by decide, Or.inl (by decide)⟩⟩
  rcases hreturns.2 ⟨rfl, rfl, htakes, rfl⟩ with ⟨rx, tx, hresult⟩
  exact ⟨_, rx, tx, hconnect, hresult, (hwhole rx tx hresult).2.1⟩

end LmsProto
end LmsPlayer
