import LmsPlayer.LmsProto.Status
import LmsPlayer.Library.TransitionSystem

/-!
# Buffer.SlimBuffer — a buffer that a second thread keeps filled

`SlimBuffer` with its two threads, one step for each thing that the other thread can observe: taking
the lock, a critical section, waiting on a condition variable and waking up again, a read of the
source, a notification.  Waiting gives the lock back in the same step; a waiting thread may also
wake up without a notification.

* `FillStep` — the fill thread, `fill_loop`;
* `ConsumerStep` — the thread that owns the `SlimBuffer`: `read`, `fill_buf`, `consume`, and finally
  the drop;
* `History` — what an observer has seen so far; nothing in the code reads it.

The lock of the shared `StatusData` is only ever held for one assignment, so updating it is part of
the step around it.
-/

namespace LmsPlayer
namespace LmsProto

open TransitionSystem (System)

/-- Size of each read the fill thread issues against the source. -/
def READ_CHUNK : Nat := 8 * 1024

/-- Max bytes moved into the consumer-side staging buffer at once. -/
def STAGING_SIZE : Nat := 8 * 1024

/-- What one `read` of the source gives; no bytes mean end of stream. -/
inductive SourceRead where
  | ok (chunk : Bytes)
  | err (e : IoError)
  deriving DecidableEq, Repr

namespace SourceRead

/-- The contract of `Read`: never more bytes than were asked for. -/
def Fits (want : Nat) : SourceRead → Prop
  | ok chunk => chunk.length ≤ want
  | err _ => True

instance (want : Nat) : DecidablePred (Fits want)
  | ok chunk => inferInstanceAs (Decidable (chunk.length ≤ want))
  | err _ => isTrue trivial

/-- The bytes of a read. -/
def bytes : SourceRead → Bytes
  | ok chunk => chunk
  | err _ => []

/-- The errors after which the fill thread simply reads again. -/
def Retry : SourceRead → Prop
  | ok _ => False
  | err e => e.kind = .interrupted ∨ e.kind = .wouldBlock ∨ e.kind = .timedOut

instance : DecidablePred Retry
  | ok _ => isFalse id
  | err e =>
      inferInstanceAs (Decidable (e.kind = .interrupted ∨ e.kind = .wouldBlock ∨
        e.kind = .timedOut))

end SourceRead

/-- What a `SlimBuffer` is created with.  The capacity is raised to the threshold. -/
structure BufferConfig where
  capacity : Nat
  threshold : UInt32
  threshold_le : threshold.toNat ≤ capacity
  capacity_pos : 0 < capacity
  /-- Whether there is a threshold callback. -/
  hasCallback : Bool

/-- `capacity.max(threshold as usize).max(1)` -/
def BufferConfig.withCapacity (capacity : Nat) (threshold : UInt32) (hasCallback : Bool) :
    BufferConfig :=
  { capacity := max (max capacity threshold.toNat) 1
    threshold := threshold
    threshold_le := le_trans (le_max_right _ _) (le_max_left _ _)
    capacity_pos := lt_of_lt_of_le Nat.zero_lt_one (le_max_right _ _)
    hasCallback := hasCallback }

/-! ## State -/

/-- What the lock protects. -/
structure BufferState where
  buf : Bytes
  eof : Bool
  error : Option IoError
  shutdown : Bool
  deriving DecidableEq, Repr

inductive BufferThread where
  | fill
  | consumer
  deriving DecidableEq, Repr

/-- Where the fill thread is. -/
inductive FillPc where
  /-- At `shared.lock()`, at the top of the loop. -/
  | locking
  /-- At the head of the `while`, holding the lock. -/
  | checking
  /-- In `writable.wait`. -/
  | waiting
  /-- Woken up, and about to take the lock again. -/
  | waking
  /-- In `source.read`. -/
  | reading (want : Nat)
  /-- At the second `shared.lock()`. -/
  | relocking (result : SourceRead)
  /-- Behind it, holding the lock. -/
  | applying (result : SourceRead)
  /-- At `readable.notify_all()`. -/
  | notifying (reached finished : Bool)
  /-- At the test for the callback. -/
  | signalling (reached finished : Bool)
  | returned
  deriving DecidableEq, Repr

/-- The calls that look for data. -/
inductive Call where
  | read (len : Nat)
  | fillBuf
  deriving DecidableEq, Repr

/-- Where the consumer is. -/
inductive ConsumerPc where
  /-- Between calls. -/
  | idle
  /-- At the start of `refill`. -/
  | refilling (call : Call)
  /-- At `shared.lock()` in `refill`. -/
  | locking (call : Call)
  /-- At the head of the `while`, holding the lock. -/
  | checking (call : Call)
  /-- In `readable.wait`. -/
  | waiting (call : Call)
  /-- Woken up, and about to take the lock again. -/
  | waking (call : Call)
  /-- At `writable.notify_all()` in `refill`. -/
  | notifying (call : Call)
  /-- Behind a `refill` that returned `Ok(())`. -/
  | finishing (call : Call)
  /-- At `shared.lock()` in `drop`. -/
  | dropping
  /-- At `writable.notify_all()` in `drop`. -/
  | notifyingWritable
  /-- At `readable.notify_all()` in `drop`. -/
  | notifyingReadable
  /-- In `handle.join()`. -/
  | joining
  | dropped
  deriving DecidableEq, Repr

/-- Where a notification leaves the fill thread. -/
def FillPc.woken : FillPc → FillPc
  | waiting => waking
  | pc => pc

/-- Where a notification leaves the consumer. -/
def ConsumerPc.woken : ConsumerPc → ConsumerPc
  | waiting call => waking call
  | pc => pc

/-- What a call returned. -/
inductive CallResult where
  | ok (call : Call) (bytes : Bytes)
  | err (call : Call) (e : IoError)
  deriving DecidableEq, Repr

/-- What an observer has seen. -/
structure History where
  /-- The bytes appended to the shared buffer. -/
  appended : Bytes
  /-- The bytes copied by `read` or passed over by `consume`. -/
  delivered : Bytes
  /-- What the source has returned. -/
  sourced : List SourceRead
  /-- What the calls of the consumer have returned. -/
  results : List CallResult
  /-- How often the threshold callback has been invoked. -/
  callbacks : Nat
  deriving DecidableEq, Repr

structure SlimBuffer where
  state : BufferState
  /-- Who holds the lock. -/
  owner : Option BufferThread
  status : StatusData
  fill : FillPc
  signalled : Bool
  consumer : ConsumerPc
  staging : Bytes
  pos : Nat
  history : History

namespace SlimBuffer

/-- `with_capacity`, with the fill thread spawned. -/
def withCapacity (cfg : BufferConfig) (status : StatusData) : SlimBuffer :=
  { state :=
      { buf := []
        eof := false
        error := none
        shutdown := false }
    owner := none
    status := status.setBufferSize (UInt32.ofNat cfg.capacity)
    fill := .locking
    signalled := false
    consumer := .idle
    staging := []
    pos := 0
    history :=
      { appended := []
        delivered := []
        sourced := []
        results := []
        callbacks := 0 } }

/-- `buffered`: bytes currently held in the shared buffer. -/
def buffered (s : SlimBuffer) : Nat := s.state.buf.length

/-! ## The fill thread -/

/-- `(shared.capacity - st.buf.len()).min(chunk.len())` -/
def want (cfg : BufferConfig) (s : SlimBuffer) : Nat :=
  min (cfg.capacity - s.state.buf.length) READ_CHUNK

/-- The bytes of a read at the end of the shared buffer, with the fullness reported. -/
def append (s : SlimBuffer) (chunk : Bytes) : SlimBuffer :=
  { s with
    state := { s.state with buf := s.state.buf ++ chunk }
    status := s.status.setFullness (UInt32.ofNat (s.state.buf ++ chunk).length)
    history := { s.history with appended := s.history.appended ++ chunk } }

/-- The `match result` of `fill_loop` for a result that is not retried: the new state, and
`reached`. -/
def apply (cfg : BufferConfig) (s : SlimBuffer) : SourceRead → SlimBuffer × Bool
  | .ok [] => ({ s with state := { s.state with eof := true } }, true)
  | .ok (b :: bs) =>
      let s := s.append (b :: bs)
      (s, decide (cfg.threshold.toNat ≤ s.state.buf.length))
  | .err e => ({ s with state := { s.state with error := some e, eof := true } }, true)

/-- `readable.notify_all()` -/
def notifyReadable (s : SlimBuffer) : SlimBuffer :=
  match s.consumer with
  | .waiting call => { s with consumer := .waking call }
  | _ => s

/-- `writable.notify_all()` -/
def notifyWritable (s : SlimBuffer) : SlimBuffer :=
  match s.fill with
  | .waiting => { s with fill := .waking }
  | _ => s

/-- The callback is invoked when the threshold is reached for the first time. -/
def signal (cfg : BufferConfig) (reached : Bool) (s : SlimBuffer) : SlimBuffer :=
  if reached && !s.signalled then
    { s with
      signalled := true
      history :=
        { s.history with
          callbacks := s.history.callbacks + if cfg.hasCallback then 1 else 0 } }
  else s

/-- One step of `fill_loop`. -/
inductive FillStep (cfg : BufferConfig) : SlimBuffer → SlimBuffer → Prop where
  | lock {s : SlimBuffer} (hpc : s.fill = .locking) (hfree : s.owner = none) :
      FillStep cfg s { s with owner := some .fill, fill := .checking }
  | wait {s : SlimBuffer} (hpc : s.fill = .checking) (hrun : s.state.shutdown = false)
      (hfull : cfg.capacity ≤ s.state.buf.length) :
      FillStep cfg s { s with owner := none, fill := .waiting }
  | wake {s : SlimBuffer} (hpc : s.fill = .waiting) : FillStep cfg s { s with fill := .waking }
  | lockAgain {s : SlimBuffer} (hpc : s.fill = .waking) (hfree : s.owner = none) :
      FillStep cfg s { s with owner := some .fill, fill := .checking }
  | stop {s : SlimBuffer} (hpc : s.fill = .checking) (hstop : s.state.shutdown = true) :
      FillStep cfg s { s with owner := none, fill := .returned }
  | startRead {s : SlimBuffer} (hpc : s.fill = .checking) (hrun : s.state.shutdown = false)
      (hroom : s.state.buf.length < cfg.capacity) :
      FillStep cfg s { s with owner := none, fill := .reading (want cfg s) }
  | endRead {s : SlimBuffer} {want : Nat} (result : SourceRead) (hpc : s.fill = .reading want)
      (hfits : result.Fits want) :
      FillStep cfg s
        { s with
          fill := .relocking result
          history := { s.history with sourced := s.history.sourced ++ [result] } }
  | relock {s : SlimBuffer} {result : SourceRead} (hpc : s.fill = .relocking result)
      (hfree : s.owner = none) :
      FillStep cfg s { s with owner := some .fill, fill := .applying result }
  | stopAfterRead {s : SlimBuffer} {result : SourceRead} (hpc : s.fill = .applying result)
      (hstop : s.state.shutdown = true) :
      FillStep cfg s { s with owner := none, fill := .returned }
  | retry {s : SlimBuffer} {result : SourceRead} (hpc : s.fill = .applying result)
      (hrun : s.state.shutdown = false) (hretry : result.Retry) :
      FillStep cfg s { s with owner := none, fill := .locking }
  | apply {s : SlimBuffer} {result : SourceRead} (hpc : s.fill = .applying result)
      (hrun : s.state.shutdown = false) (hretry : ¬ result.Retry) :
      FillStep cfg s
        { (s.apply cfg result).1 with
          owner := none
          fill := .notifying (s.apply cfg result).2 (s.apply cfg result).1.state.eof }
  | notify {s : SlimBuffer} {reached finished : Bool} (hpc : s.fill = .notifying reached finished) :
      FillStep cfg s { s.notifyReadable with fill := .signalling reached finished }
  | signal {s : SlimBuffer} {reached finished : Bool}
      (hpc : s.fill = .signalling reached finished) :
      FillStep cfg s
        { s.signal cfg reached with fill := if finished then .returned else .locking }

/-! ## The consumer -/

/-- The unread part of the staging area, `&self.staging[self.pos..]`. -/
def avail (s : SlimBuffer) : Bytes := s.staging.drop s.pos

/-- Move the beginning of the shared buffer to the staging area. -/
def stage (s : SlimBuffer) : SlimBuffer :=
  let n := min s.state.buf.length STAGING_SIZE
  { s with
    state := { s.state with buf := s.state.buf.drop n }
    staging := s.staging ++ s.state.buf.take n
    status := s.status.setFullness (UInt32.ofNat (s.state.buf.drop n).length) }

/-- Pass over `n` bytes of the staging area, counting them as received. -/
def advance (s : SlimBuffer) (n : Nat) : SlimBuffer :=
  { s with
    pos := s.pos + n
    status := s.status.addBytesReceived (UInt64.ofNat n)
    history := { s.history with delivered := s.history.delivered ++ s.avail.take n } }

def logResult (s : SlimBuffer) (result : CallResult) : SlimBuffer :=
  { s with history := { s.history with results := s.history.results ++ [result] } }

/-- What a call does behind its `refill`. -/
def finish (s : SlimBuffer) : Call → SlimBuffer
  | .read len =>
      let n := min s.avail.length len
      (s.advance n).logResult (.ok (.read len) (s.avail.take n))
  | .fillBuf => s.logResult (.ok .fillBuf s.avail)

/-- What `refill` answers when there is nothing left: the error, once, or `Ok(())`. -/
def refillEmpty (s : SlimBuffer) (call : Call) : SlimBuffer :=
  match s.state.error with
  | some e =>
      { s.logResult (.err call e) with
        state := { s.state with error := none }
        consumer := .idle }
  | none => { s with consumer := .finishing call }

/-- One step of the thread that owns the buffer. -/
inductive ConsumerStep : SlimBuffer → SlimBuffer → Prop where
  | readNothing {s : SlimBuffer} (hpc : s.consumer = .idle) :
      ConsumerStep s (s.logResult (.ok (.read 0) []))
  | read {s : SlimBuffer} {len : Nat} (hpc : s.consumer = .idle) (hlen : 0 < len) :
      ConsumerStep s { s with consumer := .refilling (.read len) }
  | fillBuf {s : SlimBuffer} (hpc : s.consumer = .idle) :
      ConsumerStep s { s with consumer := .refilling .fillBuf }
  | consume {s : SlimBuffer} (amt : Nat) (hpc : s.consumer = .idle) :
      ConsumerStep s (s.advance (min amt (s.staging.length - s.pos)))
  | staged {s : SlimBuffer} {call : Call} (hpc : s.consumer = .refilling call)
      (hdata : s.pos < s.staging.length) :
      ConsumerStep s { s with consumer := .finishing call }
  | clear {s : SlimBuffer} {call : Call} (hpc : s.consumer = .refilling call)
      (hdata : ¬ s.pos < s.staging.length) :
      ConsumerStep s { s with staging := [], pos := 0, consumer := .locking call }
  | lock {s : SlimBuffer} {call : Call} (hpc : s.consumer = .locking call)
      (hfree : s.owner = none) :
      ConsumerStep s { s with owner := some .consumer, consumer := .checking call }
  | wait {s : SlimBuffer} {call : Call} (hpc : s.consumer = .checking call)
      (hempty : s.state.buf = []) (heof : s.state.eof = false) :
      ConsumerStep s { s with owner := none, consumer := .waiting call }
  | wake {s : SlimBuffer} {call : Call} (hpc : s.consumer = .waiting call) :
      ConsumerStep s { s with consumer := .waking call }
  | lockAgain {s : SlimBuffer} {call : Call} (hpc : s.consumer = .waking call)
      (hfree : s.owner = none) :
      ConsumerStep s { s with owner := some .consumer, consumer := .checking call }
  | ended {s : SlimBuffer} {call : Call} (hpc : s.consumer = .checking call)
      (hempty : s.state.buf = []) (heof : s.state.eof = true) :
      ConsumerStep s { s.refillEmpty call with owner := none }
  | stage {s : SlimBuffer} {call : Call} (hpc : s.consumer = .checking call)
      (hdata : s.state.buf ≠ []) :
      ConsumerStep s { s.stage with owner := none, consumer := .notifying call }
  | notify {s : SlimBuffer} {call : Call} (hpc : s.consumer = .notifying call) :
      ConsumerStep s { s.notifyWritable with consumer := .finishing call }
  | finish {s : SlimBuffer} {call : Call} (hpc : s.consumer = .finishing call) :
      ConsumerStep s { s.finish call with consumer := .idle }
  | drop {s : SlimBuffer} (hpc : s.consumer = .idle) :
      ConsumerStep s { s with consumer := .dropping }
  | shutdown {s : SlimBuffer} (hpc : s.consumer = .dropping) (hfree : s.owner = none) :
      ConsumerStep s
        { s with
          state := { s.state with shutdown := true }
          consumer := .notifyingWritable }
  | notifyWritable {s : SlimBuffer} (hpc : s.consumer = .notifyingWritable) :
      ConsumerStep s { s.notifyWritable with consumer := .notifyingReadable }
  | notifyReadable {s : SlimBuffer} (hpc : s.consumer = .notifyingReadable) :
      ConsumerStep s { s with consumer := .joining }
  | join {s : SlimBuffer} (hpc : s.consumer = .joining) (hdone : s.fill = .returned) :
      ConsumerStep s { s with consumer := .dropped }

/-- Both threads, interleaved in any way. -/
def system (cfg : BufferConfig) : System SlimBuffer :=
  { init := fun s => ∃ status, s = withCapacity cfg status
    step := fun s t => FillStep cfg s t ∨ ConsumerStep s t }

/-! ## What the helpers change -/

theorem notifyWritable_eq (s : SlimBuffer) :
    s.notifyWritable = { s with fill := s.fill.woken } := by
  unfold notifyWritable
  rcases s with ⟨state, owner, status, fill, signalled, consumer, staging, pos, history⟩
  cases fill <;> rfl

theorem notifyReadable_eq (s : SlimBuffer) :
    s.notifyReadable = { s with consumer := s.consumer.woken } := by
  unfold notifyReadable
  rcases s with ⟨state, owner, status, fill, signalled, consumer, staging, pos, history⟩
  cases consumer <;> rfl

theorem exists_signal_eq (cfg : BufferConfig) (reached : Bool) (s : SlimBuffer) :
    ∃ signalled callbacks, s.signal cfg reached =
      { s with
        signalled := signalled
        history := { s.history with callbacks := callbacks } } := by
  unfold signal
  by_cases hfirst : (reached && !s.signalled) = true
  · rw [if_pos hfirst]
    exact ⟨true, _, rfl⟩
  · rw [if_neg hfirst]
    exact ⟨s.signalled, s.history.callbacks, rfl⟩

theorem exists_finish_eq (s : SlimBuffer) (call : Call) :
    ∃ status pos delivered results, s.finish call =
      { s with
        status := status
        pos := pos
        history :=
          { s.history with
            delivered := delivered
            results := results } } := by
  cases call with
  | read len => exact ⟨_, _, _, _, rfl⟩
  | fillBuf => exact ⟨s.status, s.pos, s.history.delivered, _, rfl⟩

theorem exists_refillEmpty_eq (s : SlimBuffer) (call : Call) :
    ∃ error consumer results, (consumer = .idle ∨ consumer = .finishing call) ∧
      s.refillEmpty call =
        { s with
          state := { s.state with error := error }
          consumer := consumer
          history := { s.history with results := results } } := by
  unfold refillEmpty
  cases herror : s.state.error with
  | none => exact ⟨s.state.error, .finishing call, s.history.results, Or.inr rfl, rfl⟩
  | some e => exact ⟨none, .idle, _, Or.inl rfl, rfl⟩

end SlimBuffer

end LmsProto
end LmsPlayer
