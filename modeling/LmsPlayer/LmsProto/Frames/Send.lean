import LmsPlayer.LmsProto.Frames.Recv
import LmsPlayer.LmsProto.Messages.Client

/-!
# Frames.Send — writing client messages out

`LMSSend::send` as the source has it: the message is encoded, what is left of it is offered to the
writer until nothing is left, and the writer is flushed.  The writer is given by the results that
its calls are going to return, and by the bytes that it has accepted.

The argument is a conservation law: what has been accepted during a call and what is left to be
offered are, in this order, the encoding of the message (`turn_cases`).
-/

namespace LmsPlayer
namespace LmsProto

/-- What one `write` returns: how many of the bytes offered were accepted, or an error, which
accepts none.  No bytes at all mean that the peer has closed the connection. -/
inductive WriteResult where
  | ok (n : Nat)
  | err (e : IoError)
  deriving DecidableEq, Repr

def WriteResult.took (dst : Bytes) : WriteResult → Bytes
  | ok n => dst.take n
  | err _ => []

/-- What `flush` returns, and what a call of `send` returns. -/
inductive SendResult where
  | ok
  | err (e : IoError)
  deriving DecidableEq, Repr

/-- A writer: the results still to come, and the bytes accepted so far. -/
structure Writer where
  writes : List WriteResult
  flushes : List SendResult
  accepted : Bytes
  deriving DecidableEq, Repr

namespace LMSSend

def failedToWrite (e : IoError) : IoError :=
  { kind := e.kind
    message := "Failed to write to stream: " ++ e.message }

inductive Turn where
  | again (dst : Bytes)
  | done
  | failed (e : IoError)
  deriving DecidableEq

/-- One pass: the result of a write, and what becomes of it. -/
def turn (dst : Bytes) : WriteResult → Turn
  | .ok 0 => .failed connectionReset
  | .ok (n + 1) => if n + 1 < dst.length then .again (dst.drop (n + 1)) else .done
  | .err e =>
      match e.kind with
      -- Sleep for a millisecond.
      | .wouldBlock => .again dst
      | .interrupted => .again dst
      | _ => .failed (failedToWrite e)

/-- How one call of `send` ends: it returns, or it is still waiting in `write` or `flush`. -/
inductive Call where
  | returned (result : SendResult) (inner : Writer)
  | waiting (inner : Writer)
  deriving DecidableEq

namespace Call

def inner : Call → Writer
  | returned _ inner => inner
  | waiting inner => inner

def result? : Call → Option SendResult
  | returned result _ => some result
  | waiting _ => none

end Call

/-- `self.inner.flush()` -/
def flush (inner : Writer) : Call :=
  match inner.flushes with
  | [] => .waiting inner
  | result :: flushes => .returned result { inner with flushes := flushes }

/-- The loop of `send`, with `accepted` accepted and `dst` left to be offered. -/
def sendLoop (flushes : List SendResult) : List WriteResult → Bytes → Bytes → Call
  | [], accepted, _ =>
      .waiting
        { writes := []
          flushes := flushes
          accepted := accepted }
  | r :: writes, accepted, dst =>
      let inner : Writer :=
        { writes := writes
          flushes := flushes
          accepted := accepted ++ r.took dst }
      match turn dst r with
      | .again dst => sendLoop flushes writes inner.accepted dst
      | .done => flush inner
      | .failed e => .returned (.err e) inner

/-- `LMSSend::send` -/
def send (inner : Writer) (msg : ClientMessage) : Call :=
  sendLoop inner.flushes inner.writes inner.accepted msg.toBytes

/-- A call that has been made: what the writer had accepted before it and after it. -/
structure Sent where
  message : ClientMessage
  before : Bytes
  after : Bytes
  /-- Nothing when the call is still waiting. -/
  result : Option SendResult
  deriving DecidableEq

/-- `send` for one message after the other, whatever the calls return. -/
def sendAll : Writer → List ClientMessage → List Sent × Writer
  | inner, [] => ([], inner)
  | inner, msg :: msgs =>
      let call := send inner msg
      let sent : Sent :=
        { message := msg
          before := inner.accepted
          after := call.inner.accepted
          result := call.result? }
      match call with
      | .returned _ inner =>
          let rest := sendAll inner msgs
          (sent :: rest.1, rest.2)
      | .waiting inner => ([sent], inner)

/-! ## One call -/

/-- What a pass gets accepted and what it leaves to be offered are what there was; a failed pass
gets nothing accepted. -/
theorem turn_cases (dst : Bytes) (r : WriteResult) :
    (∃ dst', turn dst r = .again dst' ∧ r.took dst ++ dst' = dst) ∨
      (turn dst r = .done ∧ r.took dst = dst) ∨
      ∃ e, turn dst r = .failed e ∧ r.took dst = [] := by
  cases r with
  | ok n =>
      cases n with
      | zero => exact Or.inr (Or.inr ⟨connectionReset, rfl, rfl⟩)
      | succ n =>
          by_cases hpart : n + 1 < dst.length
          · exact Or.inl ⟨_, if_pos hpart, List.take_append_drop (n + 1) dst⟩
          · exact Or.inr (Or.inl ⟨if_neg hpart, List.take_of_length_le (Nat.not_lt.1 hpart)⟩)
  | err e =>
      rcases e with ⟨kind, message⟩
      -- The two errors after which the loop goes on, and all others.
      cases kind with
      | wouldBlock => exact Or.inl ⟨dst, rfl, rfl⟩
      | interrupted => exact Or.inl ⟨dst, rfl, rfl⟩
      | _ => exact Or.inr (Or.inr ⟨_, rfl, rfl⟩)

theorem accepted_flush (inner : Writer) : (flush inner).inner.accepted = inner.accepted := by
  unfold flush
  cases inner.flushes <;> rfl

/-- What a call gets accepted is a prefix of what it has to offer, and all of it if the call returns
`Ok(())`. -/
theorem sendLoop_spec (flushes : List SendResult) (writes : List WriteResult)
    (accepted dst : Bytes) :
    ∃ p, p <+: dst ∧ (sendLoop flushes writes accepted dst).inner.accepted = accepted ++ p ∧
      ((sendLoop flushes writes accepted dst).result? = some .ok → p = dst) := by
  induction writes generalizing accepted dst with
  | nil => exact ⟨[], List.nil_prefix, (List.append_nil _).symm, nofun⟩
  | cons r writes ih =>
      unfold sendLoop
      rcases turn_cases dst r with ⟨dst', hturn, hsplit⟩ | ⟨hturn, hwhole⟩ | ⟨e, hturn, hnone⟩
      · rw [hturn]
        rcases ih (accepted ++ r.took dst) dst' with ⟨p, hp, haccepted, hok⟩
        refine ⟨r.took dst ++ p, ?_, ?_, ?_⟩
        · calc
            r.took dst ++ p <+: r.took dst ++ dst' := (List.prefix_append_right_inj _).2 hp
            _ = dst := hsplit
        · exact haccepted.trans (List.append_assoc _ _ _)
        · intro hresult
          rw [hok hresult, hsplit]
      · rw [hturn]
        refine ⟨dst, List.prefix_rfl, ?_, fun _ => rfl⟩
        exact (accepted_flush _).trans (congrArg (accepted ++ ·) hwhole)
      · rw [hturn]
        refine ⟨[], List.nil_prefix, ?_, nofun⟩
        exact congrArg (accepted ++ ·) hnone

theorem send_spec (inner : Writer) (msg : ClientMessage) :
    ∃ p, p <+: msg.toBytes ∧ (send inner msg).inner.accepted = inner.accepted ++ p ∧
      ((send inner msg).result? = some .ok → p = msg.toBytes) :=
  sendLoop_spec inner.flushes inner.writes inner.accepted msg.toBytes

/-! ## When a call returns -/

def Repeats (e : IoError) : Prop := e.kind = .wouldBlock ∨ e.kind = .interrupted

/-- The writes take so many bytes. -/
def Takes : List WriteResult → Nat → Prop
  | [], _ => False
  | .ok k :: writes, n => 0 < k ∧ (n ≤ k ∨ Takes writes (n - k))
  | .err e :: writes, n => Repeats e ∧ Takes writes n

/-- The writes are used up before they have taken so many bytes, and none of them has failed. -/
def RunOut : List WriteResult → Nat → Prop
  | [], _ => True
  | .ok k :: writes, n => 0 < k ∧ k < n ∧ RunOut writes (n - k)
  | .err e :: writes, n => Repeats e ∧ RunOut writes n

theorem result?_flush (inner : Writer) : (flush inner).result? = inner.flushes.head? := by
  unfold flush
  cases inner.flushes <;> rfl

theorem turn_err (dst : Bytes) (e : IoError) :
    Repeats e ∧ turn dst (.err e) = .again dst ∨
      ¬Repeats e ∧ ∃ e', turn dst (.err e) = .failed e' := by
  rcases e with ⟨kind, message⟩
  cases kind with
  | wouldBlock => exact Or.inl ⟨Or.inl rfl, rfl⟩
  | interrupted => exact Or.inl ⟨Or.inr rfl, rfl⟩
  | _ => exact Or.inr ⟨by simp [Repeats], _, rfl⟩

/-- A call returns `Ok(())` exactly if the writes take the message and the flush succeeds, and it
does not return exactly if it waits in a write or in the flush. -/
theorem sendLoop_result (flushes : List SendResult) (writes : List WriteResult)
    (accepted dst : Bytes) :
    ((sendLoop flushes writes accepted dst).result? = some .ok ↔
        Takes writes dst.length ∧ flushes.head? = some .ok) ∧
      ((sendLoop flushes writes accepted dst).result? = none ↔
        RunOut writes dst.length ∨ Takes writes dst.length ∧ flushes = []) := by
  induction writes generalizing accepted dst with
  | nil => exact ⟨⟨nofun, fun h => h.1.elim⟩, fun _ => Or.inl trivial, fun _ => rfl⟩
  | cons r writes ih =>
      unfold sendLoop
      cases r with
      | ok k =>
          cases k with
          | zero => simp [turn, Call.result?, Takes, RunOut]
          | succ k =>
              by_cases hpart : k + 1 < dst.length
              · -- A part of the bytes is taken, and the others are offered again.
                have hturn : turn dst (.ok (k + 1)) = .again (dst.drop (k + 1)) := if_pos hpart
                rw [hturn]
                dsimp only
                rw [(ih _ _).1, (ih _ _).2, List.length_drop]
                simp [Takes, RunOut, hpart, Nat.not_le.2 hpart]
              · have hturn : turn dst (.ok (k + 1)) = .done := if_neg hpart
                rw [hturn]
                dsimp only
                rw [result?_flush, List.head?_eq_none_iff]
                simp [Takes, RunOut, hpart, Nat.not_lt.1 hpart]
      | err e =>
          -- An error that repeats the write takes none of the bytes.
          rcases turn_err dst e with ⟨hrepeats, hturn⟩ | ⟨hfails, e', hturn⟩
          · rw [hturn]
            dsimp only
            rw [(ih _ _).1, (ih _ _).2]
            simp [Takes, RunOut, hrepeats]
          · rw [hturn]
            simp [Call.result?, Takes, RunOut, hfails]

theorem send_result (inner : Writer) (msg : ClientMessage) :
    ((send inner msg).result? = some .ok ↔
        Takes inner.writes msg.toBytes.length ∧ inner.flushes.head? = some .ok) ∧
      ((send inner msg).result? = none ↔
        RunOut inner.writes msg.toBytes.length ∨
          Takes inner.writes msg.toBytes.length ∧ inner.flushes = []) :=
  sendLoop_result inner.flushes inner.writes inner.accepted msg.toBytes

/-! ## All calls -/

/-- A call gets a prefix of its message accepted behind what was accepted before, and the whole
message if it returns `Ok(())`. -/
def Sent.InOrder (c : Sent) : Prop :=
  ∃ p, p <+: c.message.toBytes ∧ c.after = c.before ++ p ∧
    (c.result = some .ok → p = c.message.toBytes)

theorem inOrder_sendAll (inner : Writer) (msgs : List ClientMessage) :
    ∀ c ∈ (sendAll inner msgs).1, c.InOrder := by
  induction msgs generalizing inner with
  | nil => exact nofun
  | cons msg msgs ih =>
      intro c hc
      have hspec := send_spec inner msg
      unfold sendAll at hc
      cases hcall : send inner msg with
      | returned result next =>
          rw [hcall] at hc hspec
          rcases List.mem_cons.1 hc with rfl | hrest
          · exact hspec
          · exact ih next c hrest
      | waiting next =>
          rw [hcall] at hc hspec
          rw [List.mem_singleton.1 hc]
          exact hspec

theorem messages_sendAll (inner : Writer) (msgs : List ClientMessage) :
    (sendAll inner msgs).1.map Sent.message <+: msgs := by
  induction msgs generalizing inner with
  | nil => exact List.prefix_rfl
  | cons msg msgs ih =>
      unfold sendAll
      cases hcall : send inner msg with
      | returned result next => exact (List.prefix_cons_inj msg).2 (ih next)
      | waiting next => exact ⟨msgs, rfl⟩

/-- As long as every call has returned `Ok(())`, the next one begins behind all messages so far. -/
theorem before_eq {inner : Writer} {msgs : List ClientMessage} {done rest : List Sent} {c : Sent}
    (h : (sendAll inner msgs).1 = done ++ c :: rest) (hok : ∀ c ∈ done, c.result = some .ok) :
    c.before = inner.accepted ++ done.flatMap fun c => c.message.toBytes := by
  induction done generalizing inner msgs with
  | nil =>
      cases msgs with
      | nil => cases h
      | cons msg msgs =>
          unfold sendAll at h
          cases hcall : send inner msg <;> rw [hcall] at h <;> cases h <;>
            exact (List.append_nil _).symm
  | cons d done ih =>
      cases msgs with
      | nil => cases h
      | cons msg msgs =>
          have hspec := send_spec inner msg
          unfold sendAll at h
          cases hcall : send inner msg with
          | waiting next =>
              rw [hcall] at h
              cases done <;> cases h
          | returned result next =>
              rw [hcall] at h hspec
              injection h with hd hrest
              rcases hspec with ⟨p, -, haccepted, hwhole⟩
              have hfirst := hok d List.mem_cons_self
              rw [← hd] at hfirst
              have hmessage : d.message = msg := by
                rw [← hd]
              calc
                c.before = next.accepted ++ done.flatMap fun c => c.message.toBytes :=
                  ih hrest fun c hc => hok c (List.mem_cons_of_mem d hc)
                _ = (inner.accepted ++ p) ++ done.flatMap fun c => c.message.toBytes := by
                  rw [← haccepted]
                  rfl
                _ = inner.accepted ++ (d :: done).flatMap fun c => c.message.toBytes := by
                  rw [hwhole hfirst, List.flatMap_cons, hmessage, List.append_assoc]

/-- When every call has returned `Ok(())`, all messages have been accepted. -/
theorem accepted_of_ok {inner : Writer} {msgs : List ClientMessage}
    (hok : ∀ c ∈ (sendAll inner msgs).1, c.result = some .ok) :
    (sendAll inner msgs).2.accepted = inner.accepted ++ msgs.flatMap ClientMessage.toBytes := by
  induction msgs generalizing inner with
  | nil => exact (List.append_nil _).symm
  | cons msg msgs ih =>
      have hspec := send_spec inner msg
      unfold sendAll at hok ⊢
      cases hcall : send inner msg with
      | waiting next =>
          rw [hcall] at hok
          cases hok _ List.mem_cons_self
      | returned result next =>
          rw [hcall] at hok hspec
          rcases hspec with ⟨p, -, haccepted, hwhole⟩
          calc
            (sendAll next msgs).2.accepted
                = next.accepted ++ msgs.flatMap ClientMessage.toBytes :=
                  ih fun c hc => hok c (List.mem_cons_of_mem _ hc)
            _ = (inner.accepted ++ p) ++ msgs.flatMap ClientMessage.toBytes := by
                  rw [← haccepted]
                  rfl
            _ = inner.accepted ++ (msg :: msgs).flatMap ClientMessage.toBytes := by
                  rw [hwhole (hok _ List.mem_cons_self), List.flatMap_cons, List.append_assoc]

/-- **Every byte is sent once and in order**: the calls are made for the messages in their order;
when all have returned `Ok(())`, what the writer has accepted are the encodings of the messages, one
behind the other; as long as all calls so far have, a call begins behind the encodings of their
messages; and whatever a call returns, it gets a prefix of its message accepted, the whole message
if it returns `Ok(())`. -/
theorem sent_in_order (inner : Writer) (msgs : List ClientMessage) :
    (sendAll inner msgs).1.map Sent.message <+: msgs ∧
    ((∀ c ∈ (sendAll inner msgs).1, c.result = some .ok) →
      (sendAll inner msgs).2.accepted =
        inner.accepted ++ msgs.flatMap ClientMessage.toBytes) ∧
    (∀ done c rest, (sendAll inner msgs).1 = done ++ c :: rest →
      (∀ c ∈ done, c.result = some .ok) →
        c.before = inner.accepted ++ done.flatMap fun c => c.message.toBytes) ∧
    ∀ c ∈ (sendAll inner msgs).1,
      ∃ p, p <+: c.message.toBytes ∧ c.after = c.before ++ p ∧
        (c.result = some .ok → p = c.message.toBytes) :=
  ⟨messages_sendAll inner msgs, accepted_of_ok, fun _ _ _ => before_eq, inOrder_sendAll inner msgs⟩

/-- Two messages through a writer that takes a few bytes at a time, and now and then none; the third
message meets an error after five bytes. -/
theorem sent_in_order_partly :
    let inner : Writer :=
      { writes := [.ok 5, .err ⟨.wouldBlock, ""⟩, .ok 7, .err ⟨.interrupted, ""⟩, .ok 9, .ok 5,
          .err ⟨.other, "broken"⟩]
        flushes := [.ok, .ok]
        accepted := [] }
    let msgs := [ClientMessage.name "abc", .bye 1, .bye 2]
    (sendAll inner msgs).1.map Sent.result =
        [some .ok, some .ok, some (.err ⟨.other, "Failed to write to stream: broken"⟩)] ∧
      (sendAll inner msgs).1.map Sent.message <+: msgs := by
  intro inner msgs
  exact ⟨by decide, (sent_in_order inner msgs).1⟩

end LMSSend

end LmsProto
end LmsPlayer
