import LmsPlayer.Vibe.HeaderLines
import LmsPlayer.LmsProto.Buffer.FillBuf

/-!
# Vibe.SkipHeaders — the headers of a data stream are skipped

The loop of `make_decoder` that reads the lines in front of the data, step by step, while the fill
thread of its `SlimBuffer` goes its own way and the network delivers the response in whatever pieces
it likes.

Wherever the loop is, it ends as if it had been given the whole response at once (`Faithful`), and
it does end (`inevitable_ended`).
-/

namespace LmsPlayer
namespace Vibe

open LmsProto
open ReadUntil (Round round upTo beyond)
open SlimBuffer (FillStep ConsumerStep Delivers ComesBack GoesOn undelivered)
open TransitionSystem (System Simulation)

/-- Where the loop is. -/
inductive SkipPc where
  /-- In `read_until`, before `fill_buf`, with the beginning of a line read. -/
  | looking (line : Bytes)
  /-- In `fill_buf`. -/
  | filling (line : Bytes)
  /-- Before `consume`. -/
  | taking (r : Round UInt8)
  | ended (result : Except IoError Unit)

namespace SkipPc

def rank : SkipPc → Nat
  -- The call of `fill_buf` that starts here counts for 29.
  | looking _ => 30
  | filling _ => 0
  -- When it comes back, it takes off 14, and the bytes that are used take off more than 40.
  | taking r => if r.used = 0 then 13 else 40
  | ended _ => 0

/-- What `read_until` does with the answer of `fill_buf`. -/
def heard (line : Bytes) : CallResult → SkipPc
  | .ok _ available => taking (round LF line available)
  -- `read_until` tries again behind an interruption.
  | .err _ e => if e.kind = .interrupted then looking line else ended (.error e)

/-- Behind `consume`: the line goes on, or `read_line` has read it. -/
def taken (r : Round UInt8) : SkipPc :=
  if r.done then
    match headerVerdict r.read with
    -- `line.clear()`
    | none => looking []
    | some result => ended result
  else
    looking r.read

variable {r : Round UInt8}

theorem taken_of_not_done (hdone : r.done = false) : taken r = looking r.read := by
  unfold taken
  rw [hdone]
  rfl

theorem taken_of_none (hdone : r.done = true) (h : headerVerdict r.read = none) :
    taken r = looking [] := by
  unfold taken
  rw [if_pos hdone, h]

theorem taken_of_some {result : Except IoError Unit} (hdone : r.done = true)
    (h : headerVerdict r.read = some result) : taken r = ended result := by
  unfold taken
  rw [if_pos hdone, h]

end SkipPc

/-- The stream-connect thread in the loop, and its buffer. -/
structure SkipHeaders where
  loop : SkipPc
  dataStream : SlimBuffer

namespace SkipHeaders

/-- One step of the loop. -/
inductive LoopStep (s : SkipHeaders) : SkipHeaders → Prop where
  | fillBuf {line : Bytes} (hloop : s.loop = .looking line)
      (hidle : s.dataStream.consumer = .idle) :
      LoopStep s
        { loop := .filling line
          dataStream := { s.dataStream with consumer := .refilling .fillBuf } }
  | goesOn {line : Bytes} {b : SlimBuffer} (hloop : s.loop = .filling line)
      (hstep : ConsumerStep s.dataStream b) (hcall : GoesOn s.dataStream b) :
      LoopStep s { s with dataStream := b }
  | comesBack {line : Bytes} {b : SlimBuffer} {answer : CallResult} (hloop : s.loop = .filling line)
      (hstep : ConsumerStep s.dataStream b) (hcall : ComesBack s.dataStream b answer) :
      LoopStep s
        { loop := .heard line answer
          dataStream := b }
  | consume {r : Round UInt8} (hloop : s.loop = .taking r) (hidle : s.dataStream.consumer = .idle) :
      LoopStep s
        { loop := .taken r
          dataStream := s.dataStream.advance
            (min r.used (s.dataStream.staging.length - s.dataStream.pos)) }

inductive Step (cfg : BufferConfig) (s : SkipHeaders) : SkipHeaders → Prop where
  | fill {b : SlimBuffer} (h : FillStep cfg s.dataStream b) : Step cfg s { s with dataStream := b }
  | loop {t : SkipHeaders} (h : LoopStep s t) : Step cfg s t

/-- The runs in which the network delivers the response. -/
def system (cfg : BufferConfig) (response : Bytes) : System SkipHeaders :=
  { init := fun s => ∃ status, s = { loop := .looking [], dataStream := .withCapacity cfg status }
    step := fun s t => Step cfg s t ∧ t.dataStream.Delivers response }

variable {cfg : BufferConfig} {response : Bytes} {s t : SkipHeaders}

/-! ## The buffer -/

theorem bufferStep (h : Step cfg s t) :
    (SlimBuffer.system cfg).step s.dataStream t.dataStream := by
  cases h with
  | fill h => exact .inl h
  | loop h =>
      cases h with
      | fillBuf _ hidle => exact .inr (.fillBuf hidle)
      | goesOn _ hstep _ => exact .inr hstep
      | comesBack _ hstep _ => exact .inr hstep
      | consume _ hidle => exact .inr (.consume _ hidle)

/-- The buffer does nothing that it does not do elsewhere. -/
def bufferSimulation (cfg : BufferConfig) (response : Bytes) :
    Simulation (system cfg response) (SlimBuffer.system cfg) :=
  { abs := dataStream
    init := by
      rintro s ⟨status, rfl⟩
      exact ⟨status, rfl⟩
    step := fun _ _ _ hstep => .inr (bufferStep hstep.1) }

theorem reachable_buffer (h : (system cfg response).Reachable s) :
    (SlimBuffer.system cfg).Reachable s.dataStream :=
  (bufferSimulation cfg response).reachable h

theorem delivers (h : (system cfg response).Reachable s) : s.dataStream.Delivers response := by
  cases h with
  | init h =>
      rcases h with ⟨status, rfl⟩
      exact ⟨List.nil_prefix, nofun⟩
  | step _ h => exact h.2

/-! ## The loop does what it would do with the whole response -/

/-- Whatever the loop comes to from here on, it would come to with the whole response. -/
def Resumes (response line input : Bytes) : Prop :=
  ∀ result rest, SkipsTo line input result rest → SkipsTo [] response result rest

/-- The same, of a place at which no call is under way. -/
def Continues (response : Bytes) (input : Bytes) : SkipPc → Prop
  | .looking line => Resumes response line input
  | .ended result => SkipsTo [] response result input
  | _ => False

/-- What holds at each place of the loop. -/
def Faithful (response : Bytes) (s : SkipHeaders) : Prop :=
  match s.loop with
  | .looking line =>
      s.dataStream.consumer = .idle ∧ Resumes response line (s.dataStream.undelivered response)
  | .filling line =>
      s.dataStream.consumer.call? = some .fillBuf ∧
        Resumes response line (s.dataStream.undelivered response)
  | .taking r =>
      s.dataStream.consumer = .idle ∧ r.used ≤ s.dataStream.avail.length ∧
        -- Nothing is used only at the end of the stream, and there the line is read.
        (r.done = false → r.used ≠ 0) ∧
        Continues response ((s.dataStream.undelivered response).drop r.used) (.taken r)
  | .ended result =>
      s.dataStream.consumer = .idle ∧
        SkipsTo [] response result (s.dataStream.undelivered response)

/-- A round of `read_until` on the beginning of what is left. -/
theorem continues_taken {line available more : Bytes} (hend : available = [] → more = [])
    (h : Resumes response line (available ++ more)) :
    Continues response ((available ++ more).drop (round LF line available).used)
      (.taken (round LF line available)) := by
  cases hdone : (round LF line available).done with
  | true =>
      obtain ⟨hread, hrest⟩ := ReadUntil.round_done hend hdone
      rw [hrest]
      cases hverdict : headerVerdict (round LF line available).read with
      | none =>
          rw [SkipPc.taken_of_none hdone hverdict]
          rw [hread] at hverdict
          exact fun result rest hskips => h _ _ (.next hverdict hskips)
      | some result =>
          rw [SkipPc.taken_of_some hdone hverdict]
          rw [hread] at hverdict
          exact h _ _ (.stop hverdict)
  | false =>
      obtain ⟨hused, -, hread, hrest⟩ := ReadUntil.round_not_done more hdone
      rw [hused, List.drop_left, SkipPc.taken_of_not_done hdone]
      intro result rest hskips
      apply h
      cases hskips with
      | stop hverdict =>
          rw [hread] at hverdict
          rw [hrest]
          exact .stop hverdict
      | next hverdict hnext =>
          rw [hread] at hverdict
          rw [hrest] at hnext
          exact .next hverdict hnext

/-- Passing over bytes of the staging area. -/
theorem undelivered_advance {b : SlimBuffer} {used : Nat} (h : used ≤ b.avail.length) :
    (b.advance used).undelivered response = (b.undelivered response).drop used := by
  have hlength : (b.history.delivered ++ b.avail.take used).length =
      b.history.delivered.length + used := by
    rw [List.length_append, List.length_take, Nat.min_eq_left h]
  have hdelivered : (b.advance used).history.delivered = b.history.delivered ++ b.avail.take used :=
    rfl
  unfold undelivered
  rw [hdelivered, hlength, List.drop_drop]

/-- No more is shown than the staging area holds. -/
theorem advance_used {b : SlimBuffer} {used : Nat} (h : used ≤ b.avail.length) :
    b.advance (min used (b.staging.length - b.pos)) = b.advance used := by
  rw [SlimBuffer.length_avail] at h
  rw [Nat.min_eq_left h]

theorem faithful_loopStep (hs : Faithful response s) (h : LoopStep s t)
    (ht : (SlimBuffer.system cfg).Reachable t.dataStream)
    (hdelivers : t.dataStream.Delivers response) :
    Faithful response t := by
  unfold Faithful at hs
  cases h with
  | fillBuf hloop hidle =>
      rw [hloop] at hs
      exact ⟨rfl, hs.2⟩
  | @goesOn line b hloop _ hcall =>
      rw [hloop] at hs
      unfold Faithful
      rw [hloop]
      refine ⟨hcall.call, ?_⟩
      rw [SlimBuffer.undelivered_congr hcall.delivered]
      exact hs.2
  | @comesBack line b answer hloop _ hcall =>
      rw [hloop] at hs
      have hb : (SlimBuffer.system cfg).Reachable b := ht
      have hgiven : b.Delivers response := hdelivers
      obtain ⟨rfl, hnothing⟩ := SlimBuffer.shown hb hgiven hcall
      obtain ⟨more, hmore⟩ := (SlimBuffer.undelivered_starts hb hgiven).2
      have hundelivered : b.undelivered response = s.dataStream.undelivered response :=
        SlimBuffer.undelivered_congr hcall.delivered
      have hresumes : Resumes response line (b.avail ++ more) := by
        rw [hmore, hundelivered]
        exact hs.2
      -- Nothing is shown only when nothing is left.
      have hend : b.avail = [] → more = [] := by
        intro hnil
        have hempty := hnothing hnil
        rw [← hmore, hnil] at hempty
        exact hempty
      refine ⟨hcall.idle, ReadUntil.used_round_le _ _ _, ?_, ?_⟩
      · intro hdone
        obtain ⟨hused, hne, -⟩ := ReadUntil.round_not_done [] hdone
        rw [hused]
        exact Nat.ne_of_gt (List.length_pos_of_ne_nil hne)
      · have hcontinues := continues_taken hend hresumes
        rw [hmore] at hcontinues
        exact hcontinues
  | @consume r hloop hidle =>
      rw [hloop] at hs
      obtain ⟨-, hused, -, hcontinues⟩ := hs
      rw [advance_used hused]
      rw [← undelivered_advance hused] at hcontinues
      unfold Faithful
      cases htaken : SkipPc.taken r with
      | looking line | ended result =>
          rw [htaken] at hcontinues
          exact ⟨hidle, hcontinues⟩
      | filling line | taking r' =>
          rw [htaken] at hcontinues
          exact hcontinues.elim

theorem faithful_fillStep (hs : Faithful response s) {b : SlimBuffer}
    (h : FillStep cfg s.dataStream b) :
    Faithful response { s with dataStream := b } := by
  obtain ⟨havail, -, -, hdelivered, -, hconsumer⟩ := SlimBuffer.consumerSide_of_fillStep h
  have hundelivered : b.undelivered response = s.dataStream.undelivered response :=
    SlimBuffer.undelivered_congr hdelivered
  -- A notification wakes up a consumer that waits, and does nothing to any other.
  have hidle (hbefore : s.dataStream.consumer = .idle) : b.consumer = .idle := by
    rcases hconsumer with hsame | hwoken
    · rw [hsame, hbefore]
    · rw [hwoken, hbefore]
      rfl
  have hcall (hbefore : s.dataStream.consumer.call? = some .fillBuf) :
      b.consumer.call? = some .fillBuf := by
    rcases hconsumer with hsame | hwoken
    · rw [hsame, hbefore]
    · rw [hwoken, ConsumerPc.call?_woken, hbefore]
  unfold Faithful at hs ⊢
  cases hloop : s.loop with
  | looking line | ended result =>
      rw [hloop] at hs
      simp only [hundelivered]
      exact ⟨hidle hs.1, hs.2⟩
  | filling line =>
      rw [hloop] at hs
      simp only [hundelivered]
      exact ⟨hcall hs.1, hs.2⟩
  | taking r =>
      rw [hloop] at hs
      simp only [hundelivered, havail]
      exact ⟨hidle hs.1, hs.2⟩

theorem faithful (h : (system cfg response).Reachable s) : Faithful response s := by
  refine System.Reachable.invariant (Faithful response) ?_ ?_ h
  · rintro s ⟨status, rfl⟩
    exact ⟨rfl, fun _ _ hskips => hskips⟩
  · rintro s t hs ih ⟨hstep, hdelivers⟩
    have ht : (SlimBuffer.system cfg).Reachable t.dataStream :=
      (reachable_buffer hs).step (bufferStep hstep)
    cases hstep with
    | fill h => exact faithful_fillStep ih h
    | loop h => exact faithful_loopStep ih h ht hdelivers

/-! ## The loop ends -/

/-- How much is left to be read.  A line that the end of the stream cuts off counts as well, since
one more line is read behind it. -/
def left (response : Bytes) (s : SkipHeaders) : Nat :=
  match s.loop with
  | .looking line => 2 * (s.dataStream.undelivered response).length + min line.length 1
  | .filling line => 2 * (s.dataStream.undelivered response).length + min line.length 1
  | .taking r => 2 * ((s.dataStream.undelivered response).length - r.used) + min r.read.length 1
  | .ended _ => 0

theorem left_congr {b : SlimBuffer}
    (h : b.history.delivered = s.dataStream.history.delivered) :
    left response { s with dataStream := b } = s.left response := by
  unfold left
  rw [SlimBuffer.undelivered_congr h]

def rank (response : Bytes) (s : SkipHeaders) : Nat :=
  100 * s.left response + s.dataStream.rank response + s.loop.rank

/-- Nobody wakes up by himself, and no read has to be retried. -/
def Undisturbed (s t : SkipHeaders) : Prop := s.dataStream.Undisturbed t.dataStream

theorem rank_fillStep (hs : (SlimBuffer.system cfg).Reachable s.dataStream) {b : SlimBuffer}
    (h : FillStep cfg s.dataStream b) (hb : b.Delivers response)
    (hstep : s.dataStream.Undisturbed b) :
    rank response { s with dataStream := b } < s.rank response := by
  have hless := SlimBuffer.rank_of_fillStep hs h hb hstep
  have hdelivered := (SlimBuffer.consumerSide_of_fillStep h).2.2.2.1
  unfold rank
  rw [left_congr hdelivered]
  dsimp only
  omega

/-- The answer of `fill_buf` brings the loop on, unless it says that the stream has ended. -/
theorem rank_comesBack {line : Bytes} {b : SlimBuffer} (hloop : s.loop = .filling line)
    (hcall : s.dataStream.consumer.call? = some .fillBuf)
    (hback : ComesBack s.dataStream b (.ok .fillBuf b.avail))
    (hstarts : b.avail <+: b.undelivered response) :
    rank response { loop := .heard line (.ok .fillBuf b.avail), dataStream := b } <
      s.rank response := by
  have hbuffer : b.rank response + 14 ≤ s.dataStream.rank response :=
    SlimBuffer.rank_of_comesBack hcall hback
  have hundelivered : b.undelivered response = s.dataStream.undelivered response :=
    SlimBuffer.undelivered_congr hback.delivered
  have hused := ReadUntil.used_round_le LF line b.avail
  have hlength := hstarts.length_le
  rw [hundelivered] at hlength
  unfold rank left
  rw [hloop]
  simp only [SkipPc.heard, SkipPc.rank, hundelivered]
  by_cases hzero : (round LF line b.avail).used = 0
  · rw [if_pos hzero, ReadUntil.read_of_used_eq_zero hzero, hzero]
    omega
  · rw [if_neg hzero]
    omega

theorem rank_consume {r : Round UInt8} (hloop : s.loop = .taking r)
    (hused : r.used ≤ s.dataStream.avail.length) (hdone : r.done = false → r.used ≠ 0) :
    rank response { loop := .taken r, dataStream := s.dataStream.advance r.used } <
      s.rank response := by
  have hlength : ((s.dataStream.advance r.used).undelivered response).length =
      (s.dataStream.undelivered response).length - r.used := by
    rw [undelivered_advance hused, List.length_drop]
  have hbuffer : (s.dataStream.advance r.used).rank response = s.dataStream.rank response := rfl
  have hrank : 13 ≤ (SkipPc.taking r).rank := by
    simp only [SkipPc.rank]
    split_ifs <;> omega
  unfold rank left
  rw [hloop, hbuffer]
  cases hround : r.done with
  | true =>
      cases hverdict : headerVerdict r.read with
      | none =>
          -- The loop goes on only behind a line with something on it.
          have hpos : 0 < r.read.length := by
            refine List.length_pos_of_ne_nil ?_
            intro hnil
            rw [hnil, headerVerdict_nil] at hverdict
            cases hverdict
          have hlooking : (SkipPc.looking []).rank = 30 := rfl
          rw [SkipPc.taken_of_none hround hverdict, hlooking]
          simp only [hlength, List.length_nil]
          omega
      | some result =>
          have hended : (SkipPc.ended result).rank = 0 := rfl
          rw [SkipPc.taken_of_some hround hverdict, hended]
          dsimp only
          omega
  | false =>
      have hlooking : (SkipPc.looking r.read).rank = 30 := rfl
      have htaking : (SkipPc.taking r).rank = 40 := if_neg (hdone hround)
      rw [SkipPc.taken_of_not_done hround, hlooking, htaking]
      simp only [hlength]
      omega

theorem rank_step (hs : (system cfg response).Reachable s) (h : Step cfg s t)
    (ht : t.dataStream.Delivers response) (hstep : s.Undisturbed t) :
    t.rank response < s.rank response := by
  have hbuffer := reachable_buffer hs
  have hfaithful := faithful hs
  unfold Faithful at hfaithful
  have htbuffer : (SlimBuffer.system cfg).Reachable t.dataStream := hbuffer.step (bufferStep h)
  cases h with
  | fill h => exact rank_fillStep hbuffer h ht hstep
  | loop h =>
      cases h with
      | @fillBuf line hloop hidle =>
          have hbefore : s.dataStream.consumer.rank = 0 := by rw [hidle]; rfl
          have hbuffer : SlimBuffer.rank response
              { s.dataStream with consumer := .refilling .fillBuf } =
                s.dataStream.rank response + 29 := by
            unfold SlimBuffer.rank
            rw [hbefore]
            rfl
          have hlooking : (SkipPc.looking line).rank = 30 := rfl
          have hfilling : (SkipPc.filling line).rank = 0 := rfl
          unfold rank left
          rw [hloop, hbuffer, hlooking, hfilling]
          simp only [undelivered]
          omega
      | @goesOn line b hloop hmove hcall =>
          rw [hloop] at hfaithful
          have hless : b.rank response < s.dataStream.rank response :=
            SlimBuffer.rank_of_callStep hmove hfaithful.1 hstep
          unfold rank
          rw [left_congr hcall.delivered]
          dsimp only
          omega
      | @comesBack line b answer hloop hmove hcall =>
          rw [hloop] at hfaithful
          have hb : (SlimBuffer.system cfg).Reachable b := htbuffer
          have hgiven : b.Delivers response := ht
          obtain ⟨rfl, -⟩ := SlimBuffer.shown hb hgiven hcall
          exact rank_comesBack hloop hfaithful.1 hcall (SlimBuffer.undelivered_starts hb hgiven).2
      | @consume r hloop hidle =>
          rw [hloop] at hfaithful
          obtain ⟨-, hused, hdone, -⟩ := hfaithful
          rw [advance_used hused]
          exact rank_consume hloop hused hdone

def Ended (s : SkipHeaders) : Prop := ∃ result, s.loop = .ended result

/-- A step of the loop itself is seen by nobody. -/
theorem step_quietly (hs : (system cfg response).Reachable s) (h : LoopStep s t)
    (hidle : s.dataStream.consumer = .idle) (hfill : t.dataStream.fill = s.dataStream.fill)
    (hsourced : t.dataStream.history.sourced = s.dataStream.history.sourced) :
    ((system cfg response).restrict Undisturbed).step s t := by
  refine ⟨⟨.loop h, (delivers hs).congr hsourced⟩, ⟨?_, ?_⟩, ?_⟩
  · intro hwaiting _
    rw [hfill]
    exact hwaiting
  · intro call hwaiting
    rw [hidle] at hwaiting
    cases hwaiting
  · intro result hread
    rw [hsourced] at hread
    simp at hread

theorem exists_step (hs : (system cfg response).Reachable s) (hnot : ¬s.Ended) :
    ∃ t, ((system cfg response).restrict Undisturbed).step s t := by
  have hfaithful := faithful hs
  unfold Faithful at hfaithful
  cases hloop : s.loop with
  | looking line =>
      rw [hloop] at hfaithful
      exact ⟨_, step_quietly hs (.fillBuf hloop hfaithful.1) hfaithful.1 rfl rfl⟩
  | taking r =>
      rw [hloop] at hfaithful
      exact ⟨_, step_quietly hs (.consume hloop hfaithful.1) hfaithful.1 rfl rfl⟩
  | filling line =>
      -- While the call is under way, it may be the turn of the fill thread.
      rw [hloop] at hfaithful
      obtain ⟨b, hmove⟩ := SlimBuffer.exists_move (reachable_buffer hs) (delivers hs) hfaithful.1
      rcases hmove.step with hfill | hconsumer
      · exact ⟨_, ⟨.fill hfill, hmove.delivers⟩, hmove.undisturbed⟩
      · rcases SlimBuffer.callStep_cases hconsumer hfaithful.1 with hcall | ⟨answer, hcall⟩
        · exact ⟨_, ⟨.loop (.goesOn hloop hconsumer hcall), hmove.delivers⟩, hmove.undisturbed⟩
        · exact ⟨_, ⟨.loop (.comesBack hloop hconsumer hcall), hmove.delivers⟩, hmove.undisturbed⟩
  | ended result => exact absurd ⟨result, hloop⟩ hnot

/-- From wherever it is, the loop comes to its end. -/
theorem inevitable_ended (hs : (system cfg response).Reachable s) :
    ((system cfg response).restrict Undisturbed).Inevitable Ended s := by
  refine System.Inevitable.of_rank (P := (system cfg response).Reachable) (rank response) ?_
    ?_ ?_ hs
  · intro a b ha hstep
    exact ha.step hstep.1
  · rintro a b ha ⟨⟨hstep, hdelivers⟩, hundisturbed⟩
    exact rank_step ha hstep hdelivers hundisturbed
  · intro a ha hnot
    exact exists_step ha hnot

/-- Where the loop ends is where it would end with the whole response, and what is left there is
what the decoder reads. -/
theorem skipsTo_of_ended (hs : (system cfg response).Reachable s) {result : Except IoError Unit}
    (hended : s.loop = .ended result) :
    SkipsTo [] response result (s.dataStream.unread response) := by
  have hfaithful := faithful hs
  unfold Faithful at hfaithful
  rw [hended] at hfaithful
  have hrun : s.dataStream.state.shutdown = false := by
    refine SlimBuffer.shutdown_eq_false (reachable_buffer hs) ?_
    rw [hfaithful.1]
    exact id
  rw [SlimBuffer.unread_eq (reachable_buffer hs) (delivers hs) hrun]
  exact hfaithful.2

theorem exists_ended (cfg : BufferConfig) (response : Bytes) :
    ∃ s result, (system cfg response).Reachable s ∧ s.loop = .ended result := by
  have hinit : (system cfg response).Reachable _ := .init ⟨StatusData.default 0, rfl⟩
  obtain ⟨s, hrun, result, hended⟩ := (inevitable_ended hinit).exists_steps
  exact ⟨s, result, hinit.steps hrun.of_restrict, hended⟩

/-- The headers of a response are skipped, and nothing else, exactly when they are lines of text
that are not too long: whatever pieces the network delivers, the loop ends, without an error, and
what is left is the data. -/
theorem headers_skipped_iff (cfg : BufferConfig) (r : Response) :
    (∀ s, (system cfg r.bytes).Reachable s →
      ((system cfg r.bytes).restrict Undisturbed).Inevitable Ended s ∧
      ∀ result, s.loop = .ended result → result = .ok () ∧ s.dataStream.unread r.bytes = r.body) ↔
    ∀ line ∈ r.lines, Response.LineOk line := by
  constructor
  · intro hskipped
    obtain ⟨s, result, hs, hended⟩ := exists_ended cfg r.bytes
    exact (Response.skipsTo_body_iff r (skipsTo_of_ended hs hended)).1
      ((hskipped s hs).2 result hended)
  · intro hok s hs
    refine ⟨inevitable_ended hs, ?_⟩
    intro result hended
    exact (Response.skipsTo_body_iff r (skipsTo_of_ended hs hended)).2 hok

/-- A station whose name ends in an umlaut, in Latin-1. -/
def latin1Station : Response :=
  { lines := [[byte 'J', 0xFC]]
    body := [1, 2, 3]
    lines_ne := by decide
    notMem_lines := by decide }

/-- A line of 8191 letters, and the one behind it. -/
def longLine : Response :=
  { lines := [List.replicate 8191 (byte 'a')]
    body := [1, 2, 3]
    lines_ne := by
      intro line hmem
      rw [List.mem_singleton.1 hmem]
      exact List.ne_nil_of_length_pos (by rw [List.length_replicate]; decide)
    notMem_lines := by
      intro line hmem
      rw [List.mem_singleton.1 hmem]
      exact ⟨fun h => absurd (List.eq_of_mem_replicate h) (by decide),
        fun h => absurd (List.eq_of_mem_replicate h) (by decide)⟩ }

theorem headerVerdict_long :
    headerVerdict (List.replicate 8191 (byte 'a') ++ [CR, LF]) = some (.ok ()) := by
  have hletters : (List.replicate 8191 'a').flatMap String.utf8EncodeChar =
      List.replicate 8191 (byte 'a') := by
    rw [List.flatMap_replicate]
    exact List.flatten_replicate_singleton
  have hvalid : (Utf8.fromUtf8 (List.replicate 8191 (byte 'a') ++ [CR, LF])).isSome = true :=
    (Response.isSome_fromUtf8_crlf _).2 (Utf8.isSome_fromUtf8.2 ⟨_, hletters⟩)
  obtain ⟨text, htext⟩ := Option.isSome_iff_exists.1 hvalid
  have hlong : 8 * 1024 < (List.replicate 8191 (byte 'a') ++ [CR, LF]).length := by
    rw [List.length_append, List.length_replicate]
    decide
  rw [headerVerdict_of_text htext, if_pos (.inr (.inr hlong))]

/-- At the name the loop fails; behind the long line it ends, and the blank line is taken for
data. -/
theorem headers_not_skipped :
    (∃ s, (system (.withCapacity (2 * 1024 * 1024) 0 false) latin1Station.bytes).Reachable s ∧
      s.loop = .ended (.error notUtf8)) ∧
    ∃ s, (system (.withCapacity (2 * 1024 * 1024) 0 false) longLine.bytes).Reachable s ∧
      s.loop = .ended (.ok ()) ∧ s.dataStream.unread longLine.bytes = [CR, LF, 1, 2, 3] := by
  constructor
  · have hverdict : headerVerdict ([] ++ upTo LF latin1Station.bytes) = some (.error notUtf8) := by
      rw [Response.bytes, latin1Station, Response.upTo_encode_cons (by decide)]
      rfl
    obtain ⟨s, result, hs, hended⟩ := exists_ended _ latin1Station.bytes
    obtain ⟨rfl, -⟩ := (skipsTo_of_ended hs hended).unique (.stop hverdict)
    exact ⟨s, hs, hended⟩
  · have hLF : LF ∉ List.replicate 8191 (byte 'a') :=
      fun h => absurd (List.eq_of_mem_replicate h) (by decide)
    have hverdict : headerVerdict ([] ++ upTo LF longLine.bytes) = some (.ok ()) := by
      rw [Response.bytes, longLine, Response.upTo_encode_cons hLF]
      exact headerVerdict_long
    have hrest : beyond LF longLine.bytes = [CR, LF, 1, 2, 3] := by
      rw [Response.bytes, longLine, Response.beyond_encode_cons hLF]
      rfl
    obtain ⟨s, result, hs, hended⟩ := exists_ended _ longLine.bytes
    obtain ⟨rfl, hleft⟩ := (skipsTo_of_ended hs hended).unique (.stop hverdict)
    exact ⟨s, hs, hended, hleft.trans hrest⟩

end SkipHeaders

end Vibe
end LmsPlayer
