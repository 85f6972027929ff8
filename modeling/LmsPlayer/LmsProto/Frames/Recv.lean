import LmsPlayer.LmsProto.Messages.ServerWire
import LmsPlayer.Library.StreamSplitting

/-!
# Frames.Recv — collecting bytes into server messages

`LMSRecv::recv` as the source has it: read, append to the buffer, decode, and go round again while
no message is complete.  The socket is a list of the results that its reads are going to give, so a
run of the receiver is a function of that list.

We define

* `decode` — the loop over the complete frames of the buffer;
* `turn` — one pass of the loop in `recv`;
* `recv` — one call;
* `calls` — one call after the other until the reads run out.
-/

namespace LmsPlayer
namespace LmsProto

/-- Size of the array handed to `read`. -/
def INITIAL_CAPACITY : Nat := 4 * 1024

/-- What one `read` gives: some bytes, at most as many as the array holds, or an error.  No bytes at
all mean that the peer has closed the connection. -/
inductive ReadResult where
  | ok (chunk : Bytes) (fits : chunk.length ≤ INITIAL_CAPACITY)
  | err (e : IoError)
  deriving DecidableEq, Repr

/-- What one call of `recv` returns. -/
inductive RecvResult where
  | ok (messages : List ServerMessage)
  | err (e : IoError)
  deriving DecidableEq

/-- What `decode` does: panic, or return `Ok(None)`, `Ok(Some(messages))` or `Err(e)`. -/
inductive Decoded where
  | panicked
  | none
  | some (messages : List ServerMessage)
  | err (e : IoError)
  deriving DecidableEq

def connectionReset : IoError :=
  { kind := .connectionReset
    message := "Server connection reset" }

def dataCorrupted : IoError :=
  { kind := .invalidData
    message := "Server data corrupted" }

def failedToRead (e : IoError) : IoError :=
  { kind := e.kind
    message := "Failed to read from stream: " ++ e.message }

/-- The `while` loop of `decode`, with the messages so far and the buffer; every round takes at
least two bytes, so the length of the buffer is fuel enough. -/
def decodeLoop : Nat → List ServerMessage → Bytes → Decoded × Bytes
  | 0, messages, buf => (.some messages, buf)
  | fuel + 1, messages, buf =>
      if buf.length ≤ 2 then (.some messages, buf)
      else
        let frameSize := BigEndian.ofBytes (buf.take 2)
        if buf.length < frameSize + 2 then
          -- Not enough data for a complete message.
          if messages.isEmpty then (.none, buf) else (.some messages, buf)
        else
          let msg := (buf.drop 2).take frameSize
          let rest := (buf.drop 2).drop frameSize
          match ServerMessage.fromBytes msg with
          | none => (.panicked, rest)
          | some msg =>
              if msg = .error then (.err dataCorrupted, [])
              else decodeLoop fuel (messages ++ [msg]) rest

/-- `LMSRecv::decode`: what it returns and the buffer it leaves. -/
def decode (buf : Bytes) : Decoded × Bytes :=
  if buf.length ≤ 2 then (.none, buf) else decodeLoop buf.length [] buf

structure LMSRecv where
  inner : List ReadResult
  buf : Bytes
  deriving DecidableEq

namespace LMSRecv

def new (inner : List ReadResult) : LMSRecv :=
  { inner := inner
    buf := [] }

/-- What one pass of the loop in `recv` leads to. -/
inductive Turn where
  | again (buf : Bytes)
  | returned (result : RecvResult) (buf : Bytes)
  | panicked
  deriving DecidableEq

/-- One pass: the result of a read, and what becomes of it. -/
def turn (buf : Bytes) : ReadResult → Turn
  | .ok chunk _ =>
      if chunk = [] then .returned (.err connectionReset) buf
      else
        match decode (buf ++ chunk) with
        | (.some item, buf) => .returned (.ok item) buf
        | (.none, buf) => .again buf
        | (.err e, buf) => .returned (.err e) buf
        | (.panicked, _) => .panicked
  | .err e =>
      match e.kind with
      -- Sleep for a millisecond.
      | .wouldBlock => .again buf
      | .interrupted => .again buf
      | _ => .returned (.err (failedToRead e)) buf

/-- How one call of `recv` ends: it returns, it panics, or it is still waiting in `read` with what
it has collected so far. -/
inductive Call where
  | returned (result : RecvResult) (self : LMSRecv)
  | panicked
  | waiting (buf : Bytes)
  deriving DecidableEq

/-- `LMSRecv::recv`, reading from `inner` with `buf` collected. -/
def recv : List ReadResult → Bytes → Call
  | [], buf => .waiting buf
  | r :: inner, buf =>
      match turn buf r with
      | .again buf => recv inner buf
      | .returned result buf =>
          .returned result
            { inner := inner
              buf := buf }
      | .panicked => .panicked

/-- What a sequence of calls has returned, and how it stands: in a panic, or waiting for the next
read with a buffer. -/
structure Calls where
  results : List RecvResult
  /-- `none` after a panic. -/
  waiting : Option Bytes
  deriving DecidableEq

namespace Calls

def cons (result : RecvResult) (c : Calls) : Calls :=
  { c with results := result :: c.results }

def panicked (c : Calls) : Bool := c.waiting.isNone

end Calls

/-- `recv` called again and again, at most `fuel` times. -/
def callsUpTo : Nat → LMSRecv → Calls
  | 0, self =>
      { results := []
        waiting := some self.buf }
  | fuel + 1, self =>
      match recv self.inner self.buf with
      | .returned result self => (callsUpTo fuel self).cons result
      | .panicked =>
          { results := []
            waiting := none }
      | .waiting buf =>
          { results := []
            waiting := some buf }

/-- `recv` called again and again until it waits for a read that is not there yet.  Every call that
returns has used up a read, so one call more than there are reads is enough. -/
def calls (self : LMSRecv) : Calls := callsUpTo (self.inner.length + 1) self

/-! ## Reading on, one read at a time -/

theorem length_lt_of_recv_returned {inner : List ReadResult} {buf : Bytes} {result : RecvResult}
    {self : LMSRecv} (h : recv inner buf = .returned result self) :
    self.inner.length < inner.length := by
  induction inner generalizing buf with
  | nil => simp [recv] at h
  | cons r inner ih =>
      unfold recv at h
      cases hturn : turn buf r with
      | again buf' =>
          rw [hturn] at h
          exact Nat.lt_succ_of_lt (ih h)
      | returned result' buf' =>
          rw [hturn] at h
          injection h with _ hself
          rw [← hself]
          exact Nat.lt_succ_self _
      | panicked =>
          rw [hturn] at h
          exact Call.noConfusion h

theorem callsUpTo_eq_of_lt {n m : Nat} {self : LMSRecv} (hn : self.inner.length < n)
    (hm : self.inner.length < m) : callsUpTo n self = callsUpTo m self := by
  induction n generalizing m self with
  | zero => exact absurd hn (Nat.not_lt_zero _)
  | succ n ih =>
      cases m with
      | zero => exact absurd hm (Nat.not_lt_zero _)
      | succ m =>
          unfold callsUpTo
          cases h : recv self.inner self.buf with
          | returned result next =>
              have hlt := length_lt_of_recv_returned h
              have hnext : callsUpTo n next = callsUpTo m next := ih (by omega) (by omega)
              simp [hnext]
          | panicked => rfl
          | waiting buf => rfl

/-- Waiting for the first read. -/
theorem calls_nil (buf : Bytes) :
    calls ⟨[], buf⟩ = { results := [], waiting := some buf } := rfl

/-- A read after which the same call reads on. -/
theorem calls_cons_of_again {r : ReadResult} {inner : List ReadResult} {buf buf' : Bytes}
    (h : turn buf r = .again buf') : calls ⟨r :: inner, buf⟩ = calls ⟨inner, buf'⟩ := by
  have hrecv : recv (r :: inner) buf = recv inner buf' := by
    rw [recv, h]
  have hfuel : callsUpTo ((r :: inner).length + 1) ⟨inner, buf'⟩ = calls ⟨inner, buf'⟩ :=
    callsUpTo_eq_of_lt (Nat.lt_succ_of_lt (Nat.lt_succ_self _)) (Nat.lt_succ_self _)
  rw [← hfuel]
  unfold calls callsUpTo
  rw [hrecv]

/-- A read with which the call returns. -/
theorem calls_cons_of_returned {r : ReadResult} {inner : List ReadResult} {buf buf' : Bytes}
    {result : RecvResult} (h : turn buf r = .returned result buf') :
    calls ⟨r :: inner, buf⟩ = (calls ⟨inner, buf'⟩).cons result := by
  have hrecv : recv (r :: inner) buf = .returned result ⟨inner, buf'⟩ := by
    rw [recv, h]
  have hfuel : callsUpTo (r :: inner).length ⟨inner, buf'⟩ = calls ⟨inner, buf'⟩ :=
    callsUpTo_eq_of_lt (Nat.lt_succ_self _) (Nat.lt_succ_self _)
  rw [← hfuel]
  show callsUpTo ((r :: inner).length + 1) _ = _
  rw [callsUpTo, hrecv]

theorem calls_cons_of_panicked {r : ReadResult} {inner : List ReadResult} {buf : Bytes}
    (h : turn buf r = .panicked) :
    calls ⟨r :: inner, buf⟩ = { results := [], waiting := none } := by
  have hrecv : recv (r :: inner) buf = .panicked := by
    rw [recv, h]
  show callsUpTo ((r :: inner).length + 1) _ = _
  rw [callsUpTo, hrecv]

/-- Reads that come later do not change what has been returned: the calls go on from the buffer they
were waiting with. -/
theorem calls_append {first : List ReadResult} {buf buf' : Bytes} (later : List ReadResult)
    (h : (calls ⟨first, buf⟩).waiting = some buf') :
    calls ⟨first ++ later, buf⟩ =
      { results := (calls ⟨first, buf⟩).results ++ (calls ⟨later, buf'⟩).results
        waiting := (calls ⟨later, buf'⟩).waiting } := by
  induction first generalizing buf with
  | nil =>
      have hbuf : buf = buf' := Option.some.inj h
      rw [calls_nil, hbuf]
      rfl
  | cons r first ih =>
      cases hturn : turn buf r with
      | again next =>
          rw [calls_cons_of_again hturn] at h ⊢
          rw [List.cons_append, calls_cons_of_again hturn]
          exact ih h
      | returned result next =>
          rw [calls_cons_of_returned hturn] at h ⊢
          rw [List.cons_append, calls_cons_of_returned hturn, ih h]
          rfl
      | panicked =>
          rw [calls_cons_of_panicked hturn] at h
          cases h

end LMSRecv

end LmsProto
end LmsPlayer
