import LmsPlayer.Vibe.PulseOutput
import LmsPlayer.Vibe.Callback

/-!
# Vibe.PulseEnqueue — a stream for PulseAudio, and the lock of its main loop

`PulseAudioOutput::enqueue_new_stream` and `connect_stream` with everything that the sound server
can answer.  The lock of the threaded main loop is taken and given back by calls of their own, and
it is recursive: what counts is how often the caller holds it (`heldAfter`).

The two functions can be left in three places between a `lock` and its `unlock`.  Where the stream
has failed or been terminated, the lock is given back first; the `return` for a stream that cannot
be made and the `?` behind `connect_playback` keep it.
-/

namespace LmsPlayer
namespace Vibe

open LmsProto

/-! ## The lock -/

/-- What the calls do with the main loop, and what they post. -/
inductive MainloopOp where
  | lock
  | unlock
  /-- The lock is given back meanwhile, and taken again. -/
  | wait
  | stop
  | post (msg : PlayerMsg)
  deriving DecidableEq

namespace MainloopOp

/-- How often the lock is held afterwards; it must be held to be given back. -/
def held : MainloopOp → Nat → Option Nat
  | lock, n => some (n + 1)
  | unlock, 0 => none
  | unlock, n + 1 => some n
  | wait, 0 => none
  | wait, n + 1 => some (n + 1)
  | stop, n => some n
  | post _, n => some n

end MainloopOp

def heldAfter (n : Nat) (ops : List MainloopOp) : Option Nat :=
  ops.foldlM (fun n op => op.held n) n

theorem heldAfter_append (n : Nat) (ops ops' : List MainloopOp) :
    heldAfter n (ops ++ ops') = (heldAfter n ops).bind fun m => heldAfter m ops' :=
  List.foldlM_append

/-- Waiting gives the lock back and takes it again. -/
theorem heldAfter_waits (held n : Nat) (ops : List MainloopOp) :
    heldAfter (held + 1) (List.replicate n .wait ++ ops) = heldAfter (held + 1) ops := by
  induction n with
  | zero => rfl
  | succ n ih => exact ih

/-! ## The sound server -/

inductive StreamState where
  | unconnected
  | creating
  | ready
  | failed
  | terminated
  deriving DecidableEq, Repr

inductive PulseError where
  /-- What `connect_playback` fails with. -/
  | notConnected (code : Nat)
  | connectionTerminated
  deriving DecidableEq, Repr

structure PulseServer where
  /-- Whether `Stream::new` gives a stream. -/
  newStream : Bool
  connectPlayback : Except PulseError Unit
  /-- The states of the stream, one for each time that it is looked at. -/
  streamStates : List StreamState
  /-- Whether the operation that corks the stream or uncorks it is done, in the same way. -/
  corkDone : List Bool

/-- A call that has returned: what it has done, and the result. -/
structure PulseReturn where
  ops : List MainloopOp
  result : Except PulseError Unit
  deriving DecidableEq

def PulseReturn.behind (ops : List MainloopOp) (r : PulseReturn) : PulseReturn :=
  { r with ops := ops ++ r.ops }

/-! ## The calls -/

/-- `connect_stream` from the loop on; nothing when it is still waiting. -/
def awaitReady : List StreamState → Option PulseReturn
  | [] => none
  | .ready :: _ => some { ops := [.unlock], result := .ok () }
  | .failed :: _ => some { ops := [.unlock, .stop], result := .error .connectionTerminated }
  | .terminated :: _ => some { ops := [.unlock, .stop], result := .error .connectionTerminated }
  | _ :: states => (awaitReady states).map (.behind [.wait])

/-- `connect_stream` -/
def connectStream (server : PulseServer) : Option PulseReturn :=
  match server.connectPlayback with
  | .error e => some { ops := [.lock], result := .error e }
  | .ok () => (awaitReady server.streamStates).map (.behind [.lock])

/-- The loop in `set_cork_state`, and the `unlock` behind it. -/
def awaitCork : List Bool → Option PulseReturn
  | [] => none
  | true :: _ => some { ops := [.unlock], result := .ok () }
  | false :: done => (awaitCork done).map (.behind [.wait])

/-- `enqueue`: a stream that is not to wait for another one is uncorked if it starts by itself. -/
def enqueueStream (o : PulseOutput) (autostart : AutoStart) (server : PulseServer) :
    Option PulseReturn :=
  if o.playing.isNone ∧ autostart = .auto then
    (awaitCork server.corkDone).map (.behind [.lock])
  else
    some { ops := [], result := .ok () }

/-- `enqueue_new_stream` -/
def enqueueNewStream (g : Growth) (o : PulseOutput) (d : Decoding) (params : StreamParams)
    (server : PulseServer) : Option PulseReturn :=
  match prefill g d params.outputThreshold with
  | none => some { ops := [.post .notSupported], result := .ok () }
  | some _ =>
      if server.newStream then
        -- The stream is made, and it is given its callbacks.
        let made : List MainloopOp := [.lock, .unlock, .lock, .unlock]
        match connectStream server with
        | none => none
        | some connected =>
            match connected.result with
            | .error e => some { ops := made ++ connected.ops, result := .error e }
            | .ok () =>
                (enqueueStream o params.autostart server).map
                  (.behind (made ++ connected.ops ++ [.post .streamEstablished]))
      else
        some { ops := [.lock, .post .notSupported], result := .ok () }

/-! ## The ways out -/

/-- The loop waits for a while, and then the stream is ready or it is not going to be. -/
theorem awaitReady_cases {states : List StreamState} {r : PulseReturn}
    (h : awaitReady states = some r) :
    ∃ n, r = .behind (List.replicate n .wait) { ops := [.unlock], result := .ok () } ∨
      r = .behind (List.replicate n .wait)
        { ops := [.unlock, .stop], result := .error .connectionTerminated } := by
  induction states generalizing r with
  | nil => cases h
  | cons state states ih =>
      cases state with
      | ready =>
          cases h
          exact ⟨0, .inl rfl⟩
      | failed | terminated =>
          cases h
          exact ⟨0, .inr rfl⟩
      | unconnected | creating =>
          -- One more time to wait, in front of those that the rest takes.
          obtain ⟨rest, hrest, rfl⟩ := Option.map_eq_some_iff.1 h
          obtain ⟨n, rfl | rfl⟩ := ih hrest
          · exact ⟨n + 1, .inl rfl⟩
          · exact ⟨n + 1, .inr rfl⟩

theorem exists_of_awaitCork {done : List Bool} {r : PulseReturn} (h : awaitCork done = some r) :
    ∃ n, r = .behind (List.replicate n .wait) { ops := [.unlock], result := .ok () } := by
  induction done generalizing r with
  | nil => cases h
  | cons isDone done ih =>
      cases isDone with
      | true =>
          cases h
          exact ⟨0, rfl⟩
      | false =>
          obtain ⟨rest, hrest, rfl⟩ := Option.map_eq_some_iff.1 h
          obtain ⟨n, rfl⟩ := ih hrest
          exact ⟨n + 1, rfl⟩

/-- The ways that `enqueue_new_stream` can go. -/
theorem enqueueNewStream_cases {g : Growth} {o : PulseOutput} {d : Decoding} {params : StreamParams}
    {server : PulseServer} {r : PulseReturn} (h : enqueueNewStream g o d params server = some r) :
    (prefill g d params.outputThreshold = none ∧ r.ops = [.post .notSupported]) ∨
    (prefill g d params.outputThreshold ≠ none ∧ server.newStream = false ∧
      r.ops = [.lock, .post .notSupported]) ∨
    (prefill g d params.outputThreshold ≠ none ∧ server.newStream = true ∧
      ∃ connected, connectStream server = some connected ∧
        ((∃ e, connected.result = .error e ∧ r.result = .error e ∧
            r.ops = [.lock, .unlock, .lock, .unlock] ++ connected.ops) ∨
          (connected.result = .ok () ∧
            ∃ queued, enqueueStream o params.autostart server = some queued ∧
              r.result = queued.result ∧
              r.ops = [.lock, .unlock, .lock, .unlock] ++ connected.ops ++
                .post .streamEstablished :: queued.ops))) := by
  unfold enqueueNewStream at h
  cases hprefill : prefill g d params.outputThreshold with
  | none =>
      rw [hprefill] at h
      cases h
      exact .inl ⟨rfl, rfl⟩
  | some filled =>
      rw [hprefill] at h
      cases hnew : server.newStream with
      | false =>
          simp only [hnew] at h
          cases h
          exact .inr (.inl ⟨nofun, rfl, rfl⟩)
      | true =>
          simp only [hnew, if_true] at h
          refine .inr (.inr ⟨nofun, rfl, ?_⟩)
          cases hconnect : connectStream server with
          | none => simp [hconnect] at h
          | some connected =>
              refine ⟨connected, rfl, ?_⟩
              simp only [hconnect] at h
              cases hresult : connected.result with
              | error e =>
                  simp only [hresult] at h
                  cases h
                  exact .inl ⟨e, rfl, rfl, rfl⟩
              | ok u =>
                  simp only [hresult] at h
                  obtain ⟨queued, hqueued, hr⟩ := Option.map_eq_some_iff.1 h
                  refine .inr ⟨rfl, queued, hqueued, by rw [← hr]; rfl, ?_⟩
                  rw [← hr]
                  simp [PulseReturn.behind]

/-! ## How often the lock is held -/

/-- From the loop on, the lock is given back once, whatever becomes of the stream. -/
theorem heldAfter_awaitReady {states : List StreamState} {r : PulseReturn}
    (h : awaitReady states = some r) (n : Nat) : heldAfter (n + 1) r.ops = some n := by
  obtain ⟨k, rfl | rfl⟩ := awaitReady_cases h
  · exact heldAfter_waits n k _
  · exact heldAfter_waits n k _

theorem heldAfter_awaitCork {done : List Bool} {r : PulseReturn} (h : awaitCork done = some r)
    (n : Nat) : heldAfter (n + 1) r.ops = some n := by
  obtain ⟨k, rfl⟩ := exists_of_awaitCork h
  exact heldAfter_waits n k _

theorem heldAfter_enqueueStream {o : PulseOutput} {autostart : AutoStart} {server : PulseServer}
    {r : PulseReturn} (h : enqueueStream o autostart server = some r) (n : Nat) :
    heldAfter n r.ops = some n := by
  unfold enqueueStream at h
  split_ifs at h
  · rcases Option.map_eq_some_iff.1 h with ⟨rest, hrest, rfl⟩
    exact heldAfter_awaitCork hrest n
  · cases h
    rfl

/-- `connect_stream` keeps the lock when `connect_playback` fails. -/
theorem heldAfter_connectStream {server : PulseServer} {r : PulseReturn}
    (h : connectStream server = some r) (n : Nat) :
    heldAfter n r.ops = some (if server.connectPlayback = .ok () then n else n + 1) := by
  unfold connectStream at h
  cases hconnect : server.connectPlayback with
  | error e =>
      rw [hconnect] at h
      cases h
      rfl
  | ok u =>
      rw [hconnect] at h
      rcases Option.map_eq_some_iff.1 h with ⟨rest, hrest, rfl⟩
      exact heldAfter_awaitReady hrest n

/-- `enqueue_new_stream` keeps the lock when there is no stream, and when it cannot be connected. -/
theorem heldAfter_enqueueNewStream {g : Growth} {o : PulseOutput} {d : Decoding}
    {params : StreamParams} {server : PulseServer} {r : PulseReturn}
    (h : enqueueNewStream g o d params server = some r) (n : Nat) :
    heldAfter n r.ops = some (if (prefill g d params.outputThreshold).isNone = true ∨
      server.newStream = true ∧ server.connectPlayback = .ok () then n else n + 1) := by
  rcases enqueueNewStream_cases h with ⟨hprefill, hops⟩ | ⟨hprefill, hnew, hops⟩ |
    ⟨hprefill, hnew, connected, hconnected, hrest⟩
  · rw [hops, hprefill]
    rfl
  · rw [hops]
    simp [hprefill, hnew, heldAfter, MainloopOp.held]
  · have hconnect := heldAfter_connectStream hconnected n
    simp only [Option.isNone_iff_eq_none, hprefill, hnew, false_or, true_and]
    rcases hrest with ⟨e, hresult, -, hops⟩ | ⟨hresult, queued, hqueued, -, hops⟩
    · rw [hops]
      exact hconnect
    · calc heldAfter n r.ops
        _ = heldAfter n (connected.ops ++ .post .streamEstablished :: queued.ops) := by
            rw [hops, List.append_assoc]
            rfl
        _ = (heldAfter n connected.ops).bind (heldAfter · queued.ops) := heldAfter_append ..
        _ = heldAfter n connected.ops := by
            rw [hconnect]
            exact heldAfter_enqueueStream hqueued _
        _ = _ := hconnect

/-- The caller holds the lock of the main loop as often as before exactly when the stream can be
connected and, for `enqueue_new_stream`, there is one; unless the decoder breaks off before. -/
theorem lock_balanced_iff (g : Growth) (o : PulseOutput) (d : Decoding) (params : StreamParams)
    (server : PulseServer) (n : Nat) :
    (∀ r, connectStream server = some r →
      (heldAfter n r.ops = some n ↔ server.connectPlayback = .ok ())) ∧
    ∀ r, enqueueNewStream g o d params server = some r →
      (heldAfter n r.ops = some n ↔
        prefill g d params.outputThreshold = none ∨
          server.newStream = true ∧ server.connectPlayback = .ok ()) := by
  constructor
  · intro r h
    rw [heldAfter_connectStream h]
    split_ifs with hconnect <;> simp [hconnect]
  · intro r h
    rw [heldAfter_enqueueNewStream h, ← Option.isNone_iff_eq_none]
    split_ifs with hways
    · exact iff_of_true rfl hways
    · exact iff_of_false (by simp) hways

/-- A server that gives a stream, which is ready when it is looked at for the second time. -/
def PulseServer.answering : PulseServer :=
  { newStream := true
    connectPlayback := .ok ()
    streamStates := [.creating, .ready]
    corkDone := [true] }

def StreamParams.atOnce : StreamParams := { autostart := .auto, outputThreshold := 0 }

theorem lock_balanced_answering :
    (∃ r, connectStream .answering = some r ∧ heldAfter 0 r.ops = some 0) ∧
    ∃ r, enqueueNewStream .exact .new lastFrame .atOnce .answering = some r ∧
      heldAfter 0 r.ops = some 0 := by
  have hiff := lock_balanced_iff .exact .new lastFrame .atOnce .answering 0
  constructor
  · exact ⟨_, rfl, (hiff.1 _ rfl).2 rfl⟩
  · exact ⟨_, rfl, (hiff.2 _ rfl).2 (.inr ⟨rfl, rfl⟩)⟩

/-- Without a stream the call returns as if nothing had happened, and with the lock; when the stream
cannot be connected, it returns the error, and with the lock. -/
theorem lock_kept :
    enqueueNewStream .exact .new lastFrame .atOnce
      { PulseServer.answering with newStream := false } =
        some { ops := [.lock, .post .notSupported], result := .ok () } ∧
      heldAfter 0 [.lock, .post .notSupported] = some 1 ∧
      connectStream { PulseServer.answering with connectPlayback := .error (.notConnected 1) } =
        some { ops := [.lock], result := .error (.notConnected 1) } ∧
      heldAfter 0 [.lock] = some 1 := by
  exact ⟨rfl, rfl, rfl, rfl⟩

end Vibe
end LmsPlayer
