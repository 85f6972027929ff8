import LmsPlayer.Vibe.PipewireOutput
import LmsPlayer.Vibe.PulseOutput
import LmsPlayer.Library.TwoSlots

/-!
# Vibe.PlayQueue — the order in which streams play

The PulseAudio and the PipeWire output have a place for the stream that is playing and one for the
stream that is up next.  A stream that is enqueued while both are taken puts the one that is up next
out, and nothing in the event loop keeps it from being enqueued then.
-/

namespace LmsPlayer
namespace Vibe

open LmsProto
open TwoSlots (Slots History Roomy)

/-- What happens to an output between a stop or a flush and the next one. -/
inductive QueueOp where
  | enqueue (decoder : VibeDecoder) (params : StreamParams)
  /-- The stream that is playing has drained. -/
  | shift

/-- An output with two places. -/
class TwoSlotOutput (O : Type) [AudioOutput O] where
  slots : O → Slots VibeDecoder
  slots_enqueueNewStream : ∀ (o : O) (d : VibeDecoder) (params : StreamParams),
    slots (AudioOutput.enqueueNewStream o d params).1 = (slots o).push d
  slots_shift : ∀ o : O, slots (AudioOutput.shift o) = (slots o).shift

open TwoSlotOutput

instance : TwoSlotOutput PulseOutput where
  slots o :=
    { current := o.playing
      next := o.nextUp }
  slots_enqueueNewStream := by
    intro o d params
    show Slots.mk (o.enqueue d params.autostart).playing (o.enqueue d params.autostart).nextUp = _
    -- Whether the stream is started at once makes no difference to the places.
    cases hplaying : o.playing with
    | some playing => simp [PulseOutput.enqueue, Slots.push, hplaying]
    | none =>
        by_cases hauto : params.autostart = .auto
        · simp [PulseOutput.enqueue, PulseOutput.setCorkState, Slots.push, hplaying, hauto]
        · simp [PulseOutput.enqueue, Slots.push, hplaying, hauto]
  slots_shift _ := rfl

instance : TwoSlotOutput PipewireOutput where
  slots o :=
    { current := o.playing
      next := o.nextUp }
  slots_enqueueNewStream := by
    intro o d params
    show Slots.mk (o.enqueue d params.autostart).playing (o.enqueue d params.autostart).nextUp = _
    cases hplaying : o.playing with
    | some playing => simp [PipewireOutput.enqueue, Slots.push, hplaying]
    | none =>
        by_cases hauto : params.autostart = .auto
        · simp [PipewireOutput.enqueue, PipewireOutput.play, Slots.push, hplaying, hauto]
        · simp [PipewireOutput.enqueue, Slots.push, hplaying, hauto]
  slots_shift _ := rfl

section

variable {O : Type} [AudioOutput O] [TwoSlotOutput O]

/-- An output, the streams enqueued on it, and the ones that have become the playing stream. -/
structure Playback (O : Type) where
  output : O
  enqueued : List VibeDecoder
  played : List VibeDecoder

namespace Playback

/-- Nothing has been enqueued yet. -/
def start (o : O) : Playback O :=
  { output := o
    enqueued := []
    played := [] }

def apply (p : Playback O) : QueueOp → Playback O
  | .enqueue decoder params =>
      let output := (AudioOutput.enqueueNewStream p.output decoder params).1
      { output := output
        enqueued := p.enqueued ++ [decoder]
        played :=
          if (slots p.output).current.isSome then p.played
          else p.played ++ (slots output).current.toList }
  | .shift =>
      let output := AudioOutput.shift p.output
      { p with
        output := output
        played := p.played ++ (slots output).current.toList }

def run (p : Playback O) (ops : List QueueOp) : Playback O := ops.foldl apply p

/-- The streams have played or are playing in the order in which they were enqueued, each once; only
the one that is up next is still waiting. -/
def InOrder (p : Playback O) : Prop := p.played ++ (slots p.output).next.toList = p.enqueued

instance (p : Playback O) : Decidable p.InOrder :=
  inferInstanceAs (Decidable (_ = _))

/-- The queue behind it. -/
def history (p : Playback O) : History VibeDecoder :=
  { slots := slots p.output
    pushed := p.enqueued
    used := p.played }

end Playback

def QueueOp.slotOp : QueueOp → TwoSlots.Op VibeDecoder
  | enqueue decoder _ => .push decoder
  | shift => .shift

/-- Every stream is enqueued while none is up next. -/
def HasRoom (o : O) : List QueueOp → Prop
  | [] => True
  | .enqueue decoder params :: ops =>
      (slots o).next = none ∧ HasRoom (AudioOutput.enqueueNewStream o decoder params).1 ops
  | .shift :: ops => HasRoom (AudioOutput.shift o) ops

namespace Playback

theorem history_apply (p : Playback O) (op : QueueOp) :
    (p.apply op).history = p.history.apply op.slotOp := by
  cases op with
  | enqueue decoder params =>
      cases hcurrent : (slots p.output).current with
      | none =>
          simp [history, apply, History.apply, QueueOp.slotOp, slots_enqueueNewStream, Slots.push,
            hcurrent]
      | some playing =>
          simp [history, apply, History.apply, QueueOp.slotOp, slots_enqueueNewStream, Slots.push,
            hcurrent]
  | shift => simp [history, apply, History.apply, QueueOp.slotOp, slots_shift, Slots.shift]

theorem history_run (p : Playback O) (ops : List QueueOp) :
    (p.run ops).history = p.history.run (ops.map QueueOp.slotOp) := by
  induction ops generalizing p with
  | nil => rfl
  | cons op ops ih =>
      calc
        ((p.apply op).run ops).history = (p.apply op).history.run (ops.map QueueOp.slotOp) := ih _
        _ = (p.history.apply op.slotOp).run (ops.map QueueOp.slotOp) := by rw [history_apply]

end Playback

theorem hasRoom_iff (o : O) (ops : List QueueOp) :
    HasRoom o ops ↔ Roomy (slots o) (ops.map QueueOp.slotOp) := by
  induction ops generalizing o with
  | nil => exact Iff.rfl
  | cons op ops ih =>
      cases op with
      | enqueue decoder params =>
          simp [HasRoom, Roomy, QueueOp.slotOp, ih, slots_enqueueNewStream]
      | shift => simp [HasRoom, Roomy, QueueOp.slotOp, ih, slots_shift]

/-- Starting from an output without streams, no stream is dropped or overtaken exactly if each is
enqueued while none is up next. -/
theorem Playback.inOrder_run_iff {o : O} (hidle : slots o = .empty) (ops : List QueueOp) :
    ((Playback.start o).run ops).InOrder ↔ HasRoom o ops := by
  have hwf : (Playback.start o).history.slots.WellFormed := by
    intro _
    exact congrArg Slots.next hidle
  have horder : (Playback.start o).history.InOrder := by
    simp [History.InOrder, history, start, hidle, Slots.empty]
  have hrun : ((Playback.start o).run ops).InOrder ↔
      ((Playback.start o).history.run (ops.map QueueOp.slotOp)).InOrder := by
    rw [← history_run]
    exact Iff.rfl
  exact hrun.trans ((TwoSlots.inOrder_run_iff hwf horder _).trans (hasRoom_iff o ops).symm)

end

/-- **Streams play in the order in which they were enqueued**, on the PulseAudio and on the PipeWire
output, exactly if each is enqueued while none is up next. -/
theorem inOrder_iff_hasRoom (ops : List QueueOp) :
    (∀ o : PulseOutput, slots o = .empty →
      (((Playback.start o).run ops).InOrder ↔ HasRoom o ops)) ∧
    ∀ o : PipewireOutput, slots o = .empty →
      (((Playback.start o).run ops).InOrder ↔ HasRoom o ops) :=
  ⟨fun _ hidle => Playback.inOrder_run_iff hidle ops,
    fun _ hidle => Playback.inOrder_run_iff hidle ops⟩

/-- The stream of the Stream command at `origin`. -/
def track (origin : Nat) : QueueOp :=
  .enqueue
    { format := .flac
      pcmsamplesize := .selfDescribing
      pcmsamplerate := .selfDescribing
      pcmchannels := .selfDescribing
      origin := origin }
    { autostart := .auto
      outputThreshold := 0 }

/-- The third track is enqueued when the first one has drained. -/
theorem inOrder_threeTracks :
    ((Playback.start PulseOutput.new).run [track 0, track 1, .shift, track 2, .shift]).InOrder ∧
      ((Playback.start PipewireOutput.new).run
        [track 0, track 1, .shift, track 2, .shift]).InOrder :=
  ⟨((inOrder_iff_hasRoom _).1 _ rfl).2 ⟨rfl, rfl, rfl, trivial⟩,
    ((inOrder_iff_hasRoom _).2 _ rfl).2 ⟨rfl, rfl, rfl, trivial⟩⟩

/-- The third track is enqueued while the first one is still playing, and the second one never
plays. -/
theorem not_inOrder_threeTracks :
    ¬((Playback.start PulseOutput.new).run [track 0, track 1, track 2, .shift]).InOrder ∧
      ¬((Playback.start PipewireOutput.new).run [track 0, track 1, track 2, .shift]).InOrder := by
  decide

end Vibe
end LmsPlayer
