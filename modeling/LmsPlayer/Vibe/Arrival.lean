import LmsPlayer.LmsProto.Frames.Reassembly
import LmsPlayer.Vibe.Delivery

/-!
# Vibe.Arrival — from the bytes of the server to the event loop

A batch of messages is what one call of `recv` returns, and `recv` makes it of the bytes that have
come on the connection.  `Arrives` ties the batches in the record of a run to such calls.

However the bytes have been cut into reads, and wherever the threads are, the event loop has handled
the messages of the frames that have come in completely, from the first one on and each once, or is
about to.
-/

namespace LmsPlayer
namespace Vibe

open LmsProto
open LmsProto.LMSRecv (calls new)
open TransitionSystem (System)

/-! ## The batches of a connection -/

def LogEntry.batch? (conn : Connection) : LogEntry → Option (List ServerMessage)
  | received conn' msgs => if conn' = conn then some msgs else none
  | _ => none

/-- What the calls of `recv` on the connection have returned so far. -/
def batches (conn : Connection) (log : List LogEntry) : List (List ServerMessage) :=
  log.filterMap (LogEntry.batch? conn)

variable {conn : Connection}

theorem flatten_batches (log : List LogEntry) :
    (batches conn log).flatten = batchesOn conn log := by
  unfold batches batchesOn
  induction log with
  | nil => rfl
  | cons e log ih =>
      rw [List.flatMap_cons, ← ih]
      cases e with
      | received conn' msgs =>
          by_cases hconn : conn' = conn
          · simp [LogEntry.batch?, LogEntry.batchOn, hconn]
          · simp [LogEntry.batch?, LogEntry.batchOn, hconn]
      | _ => rfl

/-- The calls of `recv` on the connection are the first ones of a receiver that gets these reads. -/
def Arrives (conn : Connection) (script : List ReadResult) (log : List LogEntry) : Prop :=
  (batches conn log).map .ok <+: (calls (new script)).results

/-! ## What is to be handled -/

/-- More messages do not change what is to be handled of the first ones. -/
theorem deliverable_prefix {msgs all : List ServerMessage} (h : msgs <+: all) :
    deliverable msgs <+: deliverable all := by
  induction msgs generalizing all with
  | nil => exact List.nil_prefix
  | cons msg msgs ih =>
      rcases h with ⟨rest, rfl⟩
      have hrest := ih (List.prefix_append msgs rest)
      rw [List.cons_append, deliverable, deliverable]
      split_ifs
      · exact List.nil_prefix
      · exact hrest
      · exact (List.prefix_cons_inj msg).2 hrest

/-- The frame of a `setd` without a name. -/
def setdFrame (id : UInt8) : Frame :=
  { payload := [115, 101, 116, 100, id]
    lower := by simp
    upper := by simp }

/-- What has been returned are the messages of the frames that have come in completely. -/
theorem Arrives.batchesOn_prefix {fs : List Frame} {script : List ReadResult} {log : List LogEntry}
    (hfs : ∀ f ∈ fs, f.message ≠ .error) (hscript : ∀ r ∈ script, r.Harmless)
    (hbytes : delivered script <+: fs.flatMap Frame.encode) (h : Arrives conn script log) :
    batchesOn conn log <+: (Frame.within fs (delivered script).length).map Frame.message := by
  -- Any frame could come next.
  have hnext : Frame.StrictPrefix [] (setdFrame 0) := ⟨List.nil_prefix, by decide⟩
  have hpart : delivered script <+: fs.flatMap Frame.encode ++ [] := by
    rw [List.append_nil]
    exact hbytes
  rcases LMSRecv.calls_of_prefix hfs hnext hscript hpart with
    ⟨f, _, returned, left, hcalls, _, _, hflatten, _⟩
  have hprefix : batches conn log <+: returned := by
    have hmap : (batches conn log).map RecvResult.ok <+: returned.map RecvResult.ok := by
      unfold Arrives at h
      rwa [hcalls] at h
    exact (List.prefix_map_iff_of_injective fun a b hab => RecvResult.ok.inj hab).1 hmap
  rcases hprefix with ⟨more, rfl⟩
  rw [← flatten_batches, ← hflatten, List.flatten_append]
  exact List.prefix_append _ _

section Main

variable {O : Type} [AudioOutput O] {cfg : Config} {s : Process O}

/-- **The messages of the server are handled as they have been sent**, in every reachable state: for
frames that can be read, cut into reads in any way, what the event loop has handled of a connection
is the beginning of what the frames say that have come in completely, up to the first redirect. -/
theorem frames_handled (h : (system O cfg).Reachable s) (hconn : conn.hops = 0) {fs : List Frame}
    {script : List ReadResult} (hfs : ∀ f ∈ fs, f.message ≠ .error)
    (hscript : ∀ r ∈ script, r.Harmless) (hbytes : delivered script <+: fs.flatMap Frame.encode)
    (harrives : Arrives conn script s.log) :
    handledIn conn s.log <+:
      deliverable ((Frame.within fs (delivered script).length).map Frame.message) := by
  have hpipe : handledIn conn s.log ++ _ = deliverable (batchesOn conn s.log) :=
    Fifo.conservation ((pipe O cfg hconn).reachable h)
  calc
    handledIn conn s.log
        <+: deliverable (batchesOn conn s.log) := ⟨_, hpipe⟩
    _ <+: deliverable ((Frame.within fs (delivered script).length).map Frame.message) :=
        deliverable_prefix (harrives.batchesOn_prefix hfs hscript hbytes)

end Main

/-! ## A run -/

def disableThenQuery : List Frame := [setdFrame 4, setdFrame 0]

/-- They come in two reads, the first of which ends inside the first frame. -/
def disableThenQueryReads : List ReadResult :=
  [.ok [0, 5, 115, 101] (by decide), .ok [116, 100, 4, 0, 5, 115, 101, 116, 100, 0] (by decide)]

theorem onWire_disableThenQuery : ∀ msg ∈ [.disableDac, .queryname], ServerMessage.OnWire msg := by
  refine forall_onWire _ ?_
  intro msg hmsg
  simp only [List.mem_cons, List.not_mem_nil, or_false] at hmsg
  rcases hmsg with rfl | rfl
  · exact trivial
  · exact trivial

/-- The first message has been handled, and the second one waits. -/
theorem frames_handled_disableThenQuery : ∃ s : Process PulseOutput,
    (system PulseOutput cliConfig).Reachable s ∧ handledIn firstConnection s.log = [.disableDac] ∧
      handledIn firstConnection s.log <+: [.disableDac, .queryname] := by
  have h0 : (system PulseOutput cliConfig).Reachable (Process.start cliConfig 0 none) :=
    .init ⟨0, none, rfl⟩
  have h1 := reachable_of_threadRun h0 Step.thread nofun (le_refl 0)
    (.cons (.proto (.hello rfl)) <|
      .cons (.proto (.takeCli rfl rfl rfl)) <|
      .cons (.proto (.connect rfl)) <|
      .cons (.proto (.received [.disableDac, .queryname] rfl onWire_disableThenQuery)) <|
      .cons (.proto (.forward rfl id (.queued rfl (by decide)))) .nil)
  have h2 := h1.step (.main (.serverMessage none rfl rfl rfl))
  have h3 := reachable_of_threadRun h2 Step.thread nofun (le_refl 0)
    (.cons (.proto (.forward rfl id (.queued rfl (by decide)))) .nil)
  have hresults : (calls (new disableThenQueryReads)).results =
      [.ok [.disableDac, .queryname]] := by
    decide
  have hhandled : handledIn firstConnection _ <+: deliverable ((Frame.within disableThenQuery
      (delivered disableThenQueryReads).length).map Frame.message) :=
    frames_handled h3 rfl (by decide) (by decide) (by decide) ⟨[], hresults.symm⟩
  exact ⟨_, h3, rfl, hhandled⟩

end Vibe
end LmsPlayer
