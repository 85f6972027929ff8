import LmsPlayer.Vibe.Reports
import LmsPlayer.Vibe.TrackStarted
import LmsPlayer.LmsProto.Buffer.Counters

/-!
# Vibe.Fullness — the fill ratios that are reported

A status report says how large the stream buffer and the output buffer are, and how full.

* All stream buffers are of one size, since a threshold takes one byte on the wire.  So whichever of
  them has written the fullness, it does not exceed the size.
* The callback of an audio backend writes the capacity of its own audio buffer, but a fullness that
  counts what the sound server holds as well.
* Making a buffer sets the size, and leaves the fullness of the previous stream.

Nothing is reported as more than full when the callbacks find room for what the sound server holds,
and a new buffer is reported as empty when the previous one has been emptied before (`Fitting`).
-/

namespace LmsPlayer
namespace Vibe

open LmsProto
open Channel (Sends)
open ThreadPool (Replace)
open TransitionSystem (System)
open ServerMessage (ThresholdFits)

/-! ## The two ratios -/

/-- No stream buffer has been made yet, or it is of the size they all have. -/
def StreamFits (status : StatusData) : Prop :=
  status.bufferSize = 0 ∧ status.fullness = 0 ∨
    status.bufferSize.toNat = STREAM_BUFFER_SIZE ∧ status.fullness.toNat ≤ STREAM_BUFFER_SIZE

def OutputFits (status : StatusData) : Prop :=
  status.outputBufferFullness ≤ status.outputBufferSize

instance (status : StatusData) : Decidable (OutputFits status) :=
  inferInstanceAs (Decidable (_ ≤ _))

/-- Neither buffer is reported as more than full. -/
structure Balanced (status : StatusData) : Prop where
  stream : status.fullness ≤ status.bufferSize
  output : status.outputBufferFullness ≤ status.outputBufferSize

theorem StreamFits.le {status : StatusData} (h : StreamFits status) :
    status.fullness ≤ status.bufferSize := by
  rcases h with ⟨hsize, hfullness⟩ | ⟨hsize, hfullness⟩
  · simp [hsize, hfullness]
  · rwa [UInt32.le_iff_toNat_le, hsize]

/-- The handlers and the timers write no size but that of an output that has been stopped. -/
theorem kept_streamFits : Kept StreamFits :=
  { default := fun _ => Or.inl ⟨rfl, rfl⟩
    written := by
      intro s t hwritten hs
      cases hwritten with
      | clear =>
          -- With the fields of the block in sight, the setters need not be compared.
          cases s
          exact hs
      | _ => exact hs }

theorem kept_outputFits : Kept OutputFits :=
  { default := fun now => UInt32.le_refl (StatusData.default now).outputBufferSize
    written := by
      intro s t hwritten hs
      cases hwritten with
      | clear => exact UInt32.le_refl 0
      | _ => exact hs }

/-! ## The size of the stream buffers -/

theorem toNat_streamBufferSize : (UInt32.ofNat STREAM_BUFFER_SIZE).toNat = STREAM_BUFFER_SIZE := by
  decide

/-- A threshold is never what decides the size. -/
theorem DecoderRequest.buffer_capacity {request : DecoderRequest}
    (h : request.threshold.toNat ≤ 255 * 1024) :
    request.buffer.capacity = STREAM_BUFFER_SIZE := by
  have hcapacity : request.buffer.capacity =
      max (max (max STREAM_BUFFER_SIZE request.threshold.toNat) request.threshold.toNat) 1 := rfl
  have hsize : STREAM_BUFFER_SIZE = 2097152 := rfl
  omega

namespace Pass

variable {O : Type} {cfg : Config} {k : Nat} {now : Instant} {g g' : Globals} {p p' : Pass O}
  {entries : List LogEntry}

/-- Every threshold on its way to a stream-connect thread fits into a buffer of the usual size. -/
structure Sized (p : Pass O) : Prop where
  batch : ∀ conn msgs, p.proto.phase = .forwarding conn msgs → ∀ msg ∈ msgs, ThresholdFits msg
  receipts : ∀ x ∈ p.toMain, ∀ receipt, x = some receipt → ThresholdFits receipt.msg
  connects : ∀ t ∈ p.connects, t.request.threshold.toNat ≤ 255 * 1024
  buffers : ∀ buffer ∈ p.buffers, buffer.capacity = STREAM_BUFFER_SIZE

theorem Sized.start (cfg : Config) (now : Instant) (name : String) (reconnect : Bool) :
    (start cfg now name reconnect : Pass O).Sized :=
  { batch := fun _ _ hphase => by cases hphase
    receipts := fun _ hx => absurd hx List.not_mem_nil
    connects := fun _ ht => absurd ht List.not_mem_nil
    buffers := fun _ hbuffer => absurd hbuffer List.not_mem_nil }

theorem Sized.protoStep (hp : p.Sized) (h : ProtoStep cfg k now g p g' p' entries) : p'.Sized := by
  cases h with
  | received msgs hpc hwire =>
      refine { hp with batch := ?_ }
      intro conn msgs' hphase msg hmsg
      cases hphase
      exact ServerMessage.thresholdFits_of_onWire (hwire msg hmsg)
  | skipServ hpc hip =>
      refine { hp with batch := ?_ }
      intro conn msgs hphase msg hmsg
      cases hphase
      exact hp.batch _ _ hpc msg (List.mem_cons_of_mem _ hmsg)
  | forward hpc hmsg hsend =>
      have hbatch := hp.batch _ _ hpc
      refine { hp with batch := ?_, receipts := hsend.forall_mem hp.receipts ?_ }
      · intro conn msgs hphase msg hmem
        cases hphase
        exact hbatch msg (List.mem_cons_of_mem _ hmem)
      · rintro receipt hreceipt
        cases hreceipt
        exact hbatch _ (List.mem_cons_self ..)
  | redirect hpc hsend | lose hpc hsend =>
      exact
        { hp with
          batch := fun _ _ hphase => by cases hphase
          receipts := hsend.forall_mem hp.receipts fun receipt hreceipt => by cases hreceipt }
  | _ => exact { hp with batch := fun _ _ hphase => by cases hphase }

/-- A stream-connect thread keeps its request to its end. -/
theorem Sized.replace (hp : p.Sized) {t : ConnectThread} {phase : ConnectPhase}
    {connects : List ConnectThread}
    (h : Replace t (some { t with phase := phase }) p.connects connects) :
    ∀ t ∈ connects, t.request.threshold.toNat ≤ 255 * 1024 := by
  refine h.forall_mem hp.connects ?_
  intro t' ht'
  cases ht'
  exact hp.connects t h.mem

theorem Sized.connectStep (hp : p.Sized) (h : ConnectStep now g p g' p' entries) : p'.Sized := by
  cases h with
  | post hpc hsend hthread =>
      exact { hp with connects := hthread.forall_mem hp.connects fun t ht => by cases ht }
  | createBuffer hpc hthread =>
      refine { hp with connects := hp.replace hthread, buffers := ?_ }
      intro buffer hbuffer
      rcases List.mem_append.1 hbuffer with hold | hnew
      · exact hp.buffers buffer hold
      · cases List.mem_singleton.1 hnew
        exact DecoderRequest.buffer_capacity (hp.connects _ hthread.mem)
  | dial hpc hthread | dialFailed hpc hthread | postConnected hpc hsend hthread
    | postBufferThreshold hpc hsend hthread | prepared hpc hthread | notPrepared hpc hthread =>
      exact { hp with connects := hp.replace hthread }

theorem Sized.threadStep (hp : p.Sized) (h : ThreadStep cfg k now g p g' p' entries) :
    p'.Sized := by
  cases h with
  | proto h => exact hp.protoStep h
  | connect h => exact hp.connectStep h
  | writer h => cases h <;> exact { hp with }
  | timer h => cases h <;> exact { hp with }
  | backend h => cases h <;> exact { hp with }

theorem Sized.absorb (hp : p.Sized) (origin : Nat) {done : Player O}
    (hspawns : ∀ request, Spawn.streamConnect request ∈ done.spawns →
      request.threshold.toNat ≤ 255 * 1024) : (p.absorb origin now done).Sized := by
  refine { hp with connects := ?_ }
  intro t ht
  rcases List.mem_append.1 ht with hold | hnew
  · exact hp.connects t hold
  · rcases List.mem_filterMap.1 hnew with ⟨thread, hmem, hthread⟩
    cases thread with
    | streamConnect request =>
        cases hthread
        exact hspawns request hmem
    | pauseTimer interval => cases hthread
    | resumeTimer dur playTime => cases hthread

/-- Only a stream-connect thread makes a buffer, and only then the size changes. -/
theorem made_or_kept (h : ThreadStep cfg k now g p g' p' entries) :
    (∃ t ∈ p.connects, p'.buffers = p.buffers ++ [t.request.buffer] ∧
      g' =
        { g with
          status :=
            some
              ((g.lockStatus now).setBufferSize (UInt32.ofNat t.request.buffer.capacity)) }) ∨
    p'.buffers = p.buffers ∧ (g'.lockStatus now).bufferSize = (g.lockStatus now).bufferSize := by
  cases h with
  | proto h => exact Or.inr (by cases h <;> exact ⟨rfl, rfl⟩)
  | writer h => exact Or.inr (by cases h <;> exact ⟨rfl, rfl⟩)
  | timer h => exact Or.inr (by cases h <;> exact ⟨rfl, rfl⟩)
  | backend h => exact Or.inr (by cases h <;> exact ⟨rfl, rfl⟩)
  | connect h =>
      cases h with
      | createBuffer hpc hthread => exact Or.inl ⟨_, hthread.mem, rfl, rfl⟩
      | _ => exact Or.inr ⟨rfl, rfl⟩

end Pass

section Main

variable {O : Type} [AudioOutput O] {cfg : Config} {s t : Process O} {entries : List LogEntry}

theorem sized_of_mainStep (h : MainStep cfg s t entries) (hs : s.pass.Sized) :
    (t.passes s.current).Sized := by
  have hplayer : s.player = Player.start s.pass.ctx s.globals := rfl
  cases h with
  | serverMessage opened hmain hqueue hdone =>
      rename_i receipt rest done
      rw [hplayer] at hdone
      subst hdone
      rw [Process.finish_passes_self]
      have hmem := mem_toMain_of_cons hqueue
      have hrest : ({ s.pass with toMain := rest } : Pass O).Sized :=
        { hs with receipts := fun x hx => hs.receipts x (hmem.2 x hx) }
      refine hrest.absorb _ ?_
      intro request hrequest
      rcases Player.asked_of_mem_spawns opened hrequest with ⟨fields, hmsg, hfor, _⟩
      rw [hfor.threshold]
      exact hs.receipts _ hmem.1 receipt rfl fields hmsg
  | playerMessage hmain hqueue hdone =>
      rename_i msg rest done
      rw [hplayer] at hdone
      subst hdone
      rw [Process.finish_passes_self]
      have hrest : ({ s.pass with stream := rest } : Pass O).Sized := { hs with }
      refine hrest.absorb _ ?_
      intro request hrequest
      rw [Player.spawns_handlePlayerMessage] at hrequest
      exact absurd hrequest List.not_mem_nil
  | timeout hmain hserver hstream hdone =>
      subst hdone
      rw [Process.finish_passes_self]
      exact hs.absorb _ fun request hrequest => absurd hrequest List.not_mem_nil
  | lost hmain hqueue =>
      dsimp only
      rw [Process.setPass_passes_self]
      exact { hs with receipts := fun x hx => hs.receipts x ((mem_toMain_of_cons hqueue).2 x hx) }
  | disconnected hmain hqueue hended => exact hs
  | restart hostname hmain =>
      dsimp only
      rw [Process.setPass_passes_of_ne _ _ (Nat.succ_ne_self _).symm, Process.setPass_passes_self]
      exact { hs with receipts := fun x hx => absurd hx List.not_mem_nil }
  | sendToServer hmain hsend | sendToSelf hmain hsend | bye hmain hsend =>
      dsimp only
      rw [Process.setPass_passes_self]
      exact { hs with }

theorem sized (h : (system O cfg).Reachable s) (k : Nat) : (s.passes k).Sized := by
  refine forall_pass (P := fun _ p => p.Sized) h ?_ ?_ ?_ k
  · intro k now name reconnect
    exact .start cfg now name reconnect
  · intro s k g' p' entries _ hp hmoved
    exact hp.threadStep hmoved
  · intro s t entries _ hp hmoved
    exact sized_of_mainStep hmoved hp

/-! ## The size that is announced -/

omit [AudioOutput O] in
/-- It does not matter when the size is looked at. -/
theorem Globals.bufferSize_eq {g : Globals} (now : Instant)
    (h : (g.lockStatus now).bufferSize = UInt32.ofNat STREAM_BUFFER_SIZE) (now' : Instant) :
    (g.lockStatus now').bufferSize = UInt32.ofNat STREAM_BUFFER_SIZE := by
  cases hstatus : g.status with
  | some status => simpa [lockStatus, hstatus] using h
  | none =>
      have hdefault : (g.lockStatus now).bufferSize = 0 := by
        simp [lockStatus, hstatus, StatusData.default]
      rw [hdefault] at h
      exact absurd h (by decide)

/-- As soon as there is a buffer, its size is in `STATUS`. -/
def Process.Announced (s : Process O) : Prop :=
  ∀ k, (s.passes k).buffers ≠ [] →
    ∀ now, (s.globals.lockStatus now).bufferSize = UInt32.ofNat STREAM_BUFFER_SIZE

omit [AudioOutput O] in
theorem buffers_of_setPass {j : Nat} {p : Pass O} (hp : p.buffers = (s.passes j).buffers)
    (k : Nat) :
    ((s.setPass j p).passes k).buffers = (s.passes k).buffers := by
  refine Process.setPass_induction (P := fun q => q.buffers = (s.passes k).buffers) ?_ rfl
  intro hk
  exact hp.trans hk

/-- `main` makes no buffers, and a new pass has none. -/
theorem buffers_of_mainStep (h : MainStep cfg s t entries) (k : Nat) :
    (t.passes k).buffers = (s.passes k).buffers ∨ (t.passes k).buffers = [] := by
  cases h with
  | disconnected hmain hqueue hended => exact Or.inl rfl
  | restart hostname hmain =>
      by_cases hnext : k = s.current + 1
      · subst hnext
        exact Or.inr (congrArg Pass.buffers (Process.setPass_passes_self ..))
      · refine Or.inl ?_
        dsimp only
        rw [Process.setPass_passes_of_ne _ _ hnext]
        refine buffers_of_setPass ?_ k
        rfl
  | _ =>
      refine Or.inl (buffers_of_setPass ?_ k)
      rfl

theorem bufferSize_of_written {u v : StatusData} (h : Player.Written u v) :
    v.bufferSize = u.bufferSize := by
  cases h with
  | clear =>
      cases u
      rfl
  | _ => rfl

theorem bufferSize_of_mainStep (hwired : s.pass.Wired cfg s.current)
    (h : MainStep cfg s t entries) :
    (t.globals.lockStatus s.now).bufferSize = (s.globals.lockStatus s.now).bufferSize := by
  have hkept : ∀ u : StatusData, Player.Writes (s.globals.lockStatus s.now) u →
      u.bufferSize = (s.globals.lockStatus s.now).bufferSize := by
    intro u hwrites
    refine hwrites.keep (Q := fun v => v.bufferSize = (s.globals.lockStatus s.now).bufferSize) ?_
      rfl
    intro v w hwritten hv
    exact (bufferSize_of_written hwritten).trans hv
  cases h with
  | serverMessage opened hmain hqueue hdone =>
      subst hdone
      exact hkept _ (handled_of_serverMessage hwired opened hqueue).writes
  | playerMessage hmain hqueue hdone =>
      subst hdone
      exact hkept _ (s.handled_player.handlePlayerMessage _).writes
  | timeout hmain hserver hstream hdone =>
      subst hdone
      exact hkept _ s.handled_player.onTimeout.writes
  | _ => rfl

theorem announced (h : (system O cfg).Reachable s) : s.Announced := by
  refine System.Reachable.invariant Process.Announced ?_ ?_ h
  · rintro s ⟨now, hostname, rfl⟩ k hbuffers
    exact absurd rfl hbuffers
  · intro s t hs ih hstep k hbuffers
    cases hstep with
    | main hmoved =>
        rcases buffers_of_mainStep hmoved k with hsame | hnone
        · have hold : (s.passes k).buffers ≠ [] := fun hnil => hbuffers (hsame.trans hnil)
          refine Globals.bufferSize_eq s.now ?_
          exact (bufferSize_of_mainStep (wired hs _) hmoved).trans (ih k hold s.now)
        · exact absurd hnone hbuffers
    | @thread j g' p' entries hrun hj hmoved =>
        refine Globals.bufferSize_eq s.now ?_
        rcases Pass.made_or_kept hmoved with ⟨t, ht, _, hmade⟩ | ⟨hkept, hsize⟩
        · rw [hmade]
          exact congrArg UInt32.ofNat
            (DecoderRequest.buffer_capacity ((sized hs j).connects t ht))
        · have hold : (s.passes k).buffers ≠ [] := fun hnil =>
            hbuffers ((buffers_of_setPass hkept k).trans hnil)
          exact hsize.trans (ih k hold s.now)
    | tick d => exact ih k hbuffers

/-! ## The stream buffer -/

omit [AudioOutput O] in
/-- What is in a buffer fits into the size that has been announced. -/
theorem streamFits_of_threadStep {k : Nat} {g' : Globals} {p' : Pass O}
    (hsized : (s.passes k).Sized) (hannounced : s.Announced)
    (hs : StreamFits (s.globals.lockStatus s.now))
    (h : ThreadStep cfg k s.now s.globals (s.passes k) g' p' entries) :
    StreamFits (g'.lockStatus s.now) := by
  cases h with
  | proto h => cases h <;> exact hs
  | writer h => exact hs
  | connect h =>
      cases h with
      | createBuffer hpc hthread =>
          have hcapacity := DecoderRequest.buffer_capacity (hsized.connects _ hthread.mem)
          refine Or.inr ⟨?_, ?_⟩
          · exact (congrArg (fun n => (UInt32.ofNat n).toNat) hcapacity).trans
              toNat_streamBufferSize
          · rcases hs with ⟨_, hempty⟩ | ⟨_, hle⟩
            · exact hempty ▸ Nat.zero_le _
            · exact hle
      | _ => exact hs
  | timer h =>
      cases h with
      | report hthread =>
          exact kept_streamFits.written _ _ (.jiffies _)
            (kept_streamFits.written _ _ (.elapsed _) hs)
      | _ => exact hs
  | backend h =>
      cases h with
      | fullness len hbuffer hlen =>
          rw [hsized.buffers _ hbuffer] at hlen
          refine Or.inr ⟨?_, ?_⟩
          · have hsize := hannounced k (List.ne_nil_of_mem hbuffer) s.now
            exact (congrArg UInt32.toNat hsize).trans toNat_streamBufferSize
          · -- No content of a buffer is too long for a `u32`.
            have hlt : len < 2 ^ 32 := lt_of_le_of_lt hlen (by decide)
            exact le_of_eq_of_le (UInt32.toNat_ofNat_of_lt' hlt) hlen
      | _ => exact hs

/-- No stream buffer is reported as more than full, in any run. -/
theorem streamFits {ok : Process O → Process O → Prop}
    (h : ((system O cfg).restrict ok).Reachable s) : s.AllReports StreamFits := by
  refine allReports kept_streamFits ?_ h
  intro s k g' p' entries hs hall hmoved _
  exact streamFits_of_threadStep (sized hs.of_restrict k) (announced hs.of_restrict)
    (hall.status s.now) hmoved

end Main

/-- What the threads behind a buffer write to `STATUS` is what the program lets them write. -/
theorem backendStep_of_slimBuffer {O : Type} {now : Instant} {g : Globals} {p : Pass O}
    {buffer : BufferConfig} {status : StatusData} {b b' : SlimBuffer} (hbuffer : buffer ∈ p.buffers)
    (hshared : g.lockStatus now = b.status)
    (hb : (SlimBuffer.sharedSystem buffer status).Reachable b)
    (hstep : SlimBuffer.FillStep buffer b b' ∨ SlimBuffer.ConsumerStep b b') :
    b'.status = b.status ∨ BackendStep now g p { g with status := some b'.status } p := by
  have hfits : b'.Fits buffer := by
    rcases hstep with hfill | hconsumer
    · exact SlimBuffer.fits_of_fillStep hfill (SlimBuffer.counted hb).2
    · exact SlimBuffer.fits_of_consumerStep hconsumer (SlimBuffer.counted hb).2
  have hlen : b'.state.buf.length ≤ buffer.capacity := le_trans (Nat.le_add_right _ _) hfits
  have hreported : b.Reported b' :=
    hstep.elim SlimBuffer.reported_of_fillStep SlimBuffer.reported_of_consumerStep
  rcases hreported with hsame | hfullness | ⟨n, hreceived⟩
  · exact Or.inl hsame
  · rw [hfullness, ← hshared]
    exact Or.inr (.fullness _ hbuffer hlen)
  · rw [hreceived, ← hshared]
    exact Or.inr (.received n)

/-! ## The output buffer -/

/-- There is room in the audio buffer for what the sound server holds. -/
def OutputReport.Fits (report : OutputReport) : Prop :=
  min (report.buffered + report.queued) (2 ^ 32 - 1) ≤ report.capacity

theorem OutputReport.outputFits_apply_iff (report : OutputReport) (status : StatusData) :
    OutputFits (report.apply status) ↔ report.Fits := by
  have hcapacity : (UInt32.ofNat report.capacity).toNat = report.capacity :=
    UInt32.toNat_ofNat_of_lt' report.capacity_lt
  have hfullness : (UInt32.ofNat (min (report.buffered + report.queued) (2 ^ 32 - 1))).toNat =
      min (report.buffered + report.queued) (2 ^ 32 - 1) := by
    refine UInt32.toNat_ofNat_of_lt' ?_
    exact lt_of_le_of_lt (min_le_right _ _) (by decide)
  unfold OutputFits OutputReport.Fits
  rw [UInt32.le_iff_toNat_le]
  simp only [apply, StatusData.setOutputBufferSize, StatusData.setOutputBufferFullness, hcapacity,
    hfullness]

section Main

variable {O : Type} {s t : Process O}

/-- The step is this report of a callback. -/
def IsReport (report : OutputReport) (s t : Process O) : Prop :=
  t = { s with
    globals := { s.globals with status := some (report.apply (s.globals.lockStatus s.now)) } }

/-- The step is the making of a stream buffer. -/
def MakesBuffer (s t : Process O) : Prop :=
  ∃ k, (s.passes k).buffers.length < (t.passes k).buffers.length

/-- A callback that reports finds room for what the sound server holds, and a stream buffer is made
when the previous one has been emptied. -/
structure Fitting (s t : Process O) : Prop where
  report : ∀ report, IsReport report s t → report.Fits
  buffer : MakesBuffer s t → (s.globals.lockStatus s.now).fullness = 0

/-- Whatever the step is, it is none that leaves the output more than full. -/
theorem Fitting.of_outputFits (houtput : OutputFits (t.globals.lockStatus s.now))
    (hfullness : (s.globals.lockStatus s.now).fullness = 0) : Fitting s t := by
  refine ⟨?_, fun _ => hfullness⟩
  rintro report rfl
  exact (report.outputFits_apply_iff _).1 houtput

variable [AudioOutput O] {cfg : Config} {entries : List LogEntry}

omit [AudioOutput O] in
theorem outputFits_of_threadStep {k : Nat} {g' : Globals} {p' : Pass O}
    (hs : OutputFits (s.globals.lockStatus s.now))
    (h : ThreadStep cfg k s.now s.globals (s.passes k) g' p' entries)
    (hok : Fitting s (({ s.setPass k p' with globals := g' } : Process O).record entries)) :
    OutputFits (g'.lockStatus s.now) := by
  cases h with
  | proto h => cases h <;> exact hs
  | writer h => exact hs
  | connect h => cases h <;> exact hs
  | timer h =>
      cases h with
      | report hthread =>
          exact kept_outputFits.written _ _ (.jiffies _)
            (kept_outputFits.written _ _ (.elapsed _) hs)
      | _ => exact hs
  | backend h =>
      cases h with
      | report report =>
          refine (report.outputFits_apply_iff _).2 (hok.report report ?_)
          simp [IsReport, Process.record]
      | _ => exact hs

theorem outputFits (h : ((system O cfg).restrict Fitting).Reachable s) :
    s.AllReports OutputFits := by
  refine allReports kept_outputFits ?_ h
  intro s k g' p' entries _ hall hmoved hok
  exact outputFits_of_threadStep (hall.status s.now) hmoved hok

/-! ## Every report -/

/-- A new buffer says nothing about its content. -/
theorem fullness_of_makesBuffer (h : (system O cfg).step s t) (hmakes : MakesBuffer s t) :
    (t.globals.lockStatus t.now).fullness = (s.globals.lockStatus s.now).fullness := by
  rcases hmakes with ⟨k, hlonger⟩
  cases h with
  | main hmoved =>
      rcases buffers_of_mainStep hmoved k with hsame | hnone
      · exact absurd (congrArg List.length hsame) (Nat.ne_of_gt hlonger)
      · exact absurd (hnone ▸ hlonger) (Nat.not_lt_zero _)
  | thread hrun hk hmoved =>
      rcases Pass.made_or_kept hmoved with ⟨thread, _, _, hmade⟩ | ⟨hkept, _⟩
      · subst hmade
        rfl
      · exact absurd (congrArg List.length (buffers_of_setPass hkept k)) (Nat.ne_of_gt hlonger)
  | tick d => exact absurd hlonger (Nat.lt_irrefl _)

/-- **No buffer is reported as more than full**, in every run in which the callbacks find room for
what the sound server holds: of every status report on its way or written, both ratios are at most
one.  And a new stream buffer is reported as empty, when the previous one has been emptied
before. -/
theorem balanced (h : ((system O cfg).restrict Fitting).Reachable s) :
    s.AllReports Balanced ∧
      ∀ t, ((system O cfg).restrict Fitting).step s t → MakesBuffer s t →
        (t.globals.lockStatus t.now).fullness = 0 := by
  refine ⟨(streamFits h).imp ?_ (outputFits h), ?_⟩
  · intro status hstream houtput
    exact ⟨hstream.le, houtput⟩
  · rintro t ⟨hstep, hok⟩ hmakes
    exact (fullness_of_makesBuffer hstep hmakes).trans (hok.buffer hmakes)

end Main

/-! ## Three runs -/

/-- What the callback says after it has put half a buffer into the sound server. -/
def halfFull : OutputReport :=
  { capacity := 8192
    capacity_lt := by decide
    buffered := 4096
    buffered_le := by decide
    queued := 1000 }

/-- The sound server holds a second of audio. -/
def overfull : OutputReport :=
  { capacity := 8192
    capacity_lt := by decide
    buffered := 0
    buffered_le := by decide
    queued := 352800 }

section Runs

variable {g g' : Globals} {p p' : Pass PulseOutput} {pending : List Send}
  {log entries : List LogEntry}

/-- A thread takes a step that leaves the output balanced, before anything has been read. -/
theorem reachable_of_threadStep
    (h : ((system PulseOutput cliConfig).restrict Fitting).Reachable (inLoop g p pending log))
    (hmoved : ThreadStep cliConfig 0 0 g p g' p' entries)
    (houtput : OutputFits (g'.lockStatus 0)) (hfullness : (g.lockStatus 0).fullness = 0) :
    ((system PulseOutput cliConfig).restrict Fitting).Reachable
      (inLoop g' p' pending (log ++ entries)) := by
  rw [inLoop, ← setPass_eq_firstPass]
  exact h.step ⟨.thread nofun le_rfl hmoved, .of_outputFits houtput hfullness⟩

/-- `main` takes such a step. -/
theorem reachable_of_mainStep {t : Process PulseOutput}
    (h : ((system PulseOutput cliConfig).restrict Fitting).Reachable (inLoop g p pending log))
    (hmoved : MainStep cliConfig (inLoop g p pending log) t entries)
    (houtput : OutputFits (t.globals.lockStatus 0)) (hfullness : (g.lockStatus 0).fullness = 0)
    (hreconnect : t.reconnect = false) (hcurrent : t.current = 0) :
    ((system PulseOutput cliConfig).restrict Fitting).Reachable
      (.firstPass t.now t.globals (t.passes 0) (Pass.start cliConfig 0 "Vibe" false) t.main
        (log ++ entries)) :=
  reachable_firstPass_of_mainStep h hmoved ⟨.main hmoved, .of_outputFits houtput hfullness⟩
    hreconnect hcurrent

end Runs

/-- The program takes a step of `main` in its first pass. -/
theorem Process.reachable_main {t : Process PulseOutput} {g : Globals} {p : Pass PulseOutput}
    {pending : List Send} {log entries : List LogEntry}
    (h : (system PulseOutput cliConfig).Reachable (inLoop g p pending log))
    (hmoved : MainStep cliConfig (inLoop g p pending log) t entries)
    (hreconnect : t.reconnect = false) (hcurrent : t.current = 0) :
    (system PulseOutput cliConfig).Reachable
      (.firstPass t.now t.globals (t.passes 0) (Pass.start cliConfig 0 "Vibe" false) t.main
        (log ++ entries)) :=
  reachable_firstPass_of_mainStep h hmoved (.main hmoved) hreconnect hcurrent

/-- A stream is connected and gets its buffer, a callback reports, and the server is told of it. -/
theorem balanced_connected : ∃ (s : Process PulseOutput) (conn : Connection) (sender : Nat)
    (code : String) (status : StatusData),
    ((system PulseOutput cliConfig).restrict Fitting).Reachable s ∧
      .wrote conn sender (.stat code status) ∈ s.log ∧ status.bufferSize = 2097152 ∧
      status.outputBufferFullness = 5096 ∧ Balanced status := by
  have hslim : 0 < SLIM_CAPACITY := by decide
  have hstream : 0 < STREAM_CAPACITY := by decide
  have hwire : ∀ msg ∈ [ServerMessage.stream ownStream], msg.OnWire :=
    List.forall_mem_singleton.2 (ServerMessage.onWire_of_representable representable_ownStream)
  have h0 : ((system PulseOutput cliConfig).restrict Fitting).Reachable
      (Process.start cliConfig 0 none) := .init ⟨0, none, rfl⟩
  rw [start_eq_firstPass] at h0
  have h1 := reachable_of_threadStep h0 (.proto (.hello rfl)) (by decide) rfl
  have h2 := reachable_of_threadStep h1 (.proto (.takeCli rfl rfl rfl)) (by decide) rfl
  have h3 := reachable_of_threadStep h2 (.proto (.connect rfl)) (by decide) rfl
  have h4 := reachable_of_threadStep h3 (.proto (.received [.stream ownStream] rfl hwire))
      (by decide) rfl
  have h5 := reachable_of_threadStep h4 (.proto (.forward rfl id (.queued rfl hslim)))
      (by decide) rfl
  have h6 := reachable_of_mainStep h5 (.serverMessage none rfl rfl rfl) (by decide) rfl rfl rfl
  have h7 := reachable_of_threadStep h6 (.connect (.dial rfl (.mk [] []))) (by decide) rfl
  have h8 := reachable_of_threadStep h7
    (.connect (.postConnected rfl (.queued rfl hstream) (.mk [] []))) (by decide) rfl
  have h9 := reachable_of_threadStep h8 (.connect (.createBuffer rfl (.mk [] []))) (by decide) rfl
  have h10 := reachable_of_threadStep h9 (.backend (.report halfFull)) (by decide) rfl
  have h11 := reachable_of_mainStep h10 (.playerMessage rfl rfl rfl) (by decide) rfl rfl rfl
  have h12 := reachable_of_mainStep h11 (.sendToServer rfl (.queued (Or.inl nofun) hslim))
    (by decide) rfl rfl rfl
  have h13 := reachable_of_threadStep h12 (.writer (.take rfl (.mk [] []))) (by decide) rfl
  have h14 := reachable_of_threadStep h13 (.writer (.written (.mk [] []))) (by decide) rfl
  exact ⟨_, _, _, _, _, h14, List.mem_append_right _ (List.mem_singleton_self _), rfl, rfl,
    (balanced h14).1.wrote _ _ _ (List.mem_append_right _ (List.mem_singleton_self _))⟩

/-- While a stream plays, the sound server holds a second of audio, and the server asks for the
status. -/
theorem exists_overfull : ∃ (s : Process PulseOutput) (conn : Connection) (sender : Nat)
    (code : String) (status : StatusData), (system PulseOutput cliConfig).Reachable s ∧
      .wrote conn sender (.stat code status) ∈ s.log ∧ ¬Balanced status := by
  have hslim : 0 < SLIM_CAPACITY := by decide
  have hwire : ∀ msg ∈ [ServerMessage.status (Duration.fromMillis 0)], msg.OnWire :=
    forall_onWire _ (List.forall_mem_singleton.2 ⟨0, by decide, rfl⟩)
  rcases allows_system.exists_playing hwire with ⟨g, log, h0, _⟩
  have h1 := reachable_firstPass_of_threadRun h0 Step.thread nofun
    (.cons (.backend (.report overfull)) <|
      .cons (.proto (.forward rfl id (.queued rfl hslim))) .nil)
  have h2 := Process.reachable_main h1 (.serverMessage none rfl rfl rfl) rfl rfl
  have h3 := Process.reachable_main h2 (.sendToServer rfl (.queued (Or.inl nofun) hslim)) rfl rfl
  have h4 := reachable_firstPass_of_threadRun h3 Step.thread nofun
    (.cons (.writer (.take rfl (.mk [] []))) <| .cons (.writer (.written (.mk [] []))) .nil)
  refine ⟨_, _, _, _, _, h4, List.mem_append_right _ (List.mem_singleton_self _), ?_⟩
  intro hbalanced
  have hle : (352800 : UInt32) ≤ 8192 := hbalanced.output
  exact absurd hle (by decide)

/-- The buffer of the next stream is made with 1000 bytes of this one still unread. -/
theorem exists_stale : ∃ s t : Process PulseOutput, (system PulseOutput cliConfig).Reachable s ∧
    (system PulseOutput cliConfig).step s t ∧ MakesBuffer s t ∧
    (t.globals.lockStatus t.now).fullness = 1000 := by
  have hslim : 0 < SLIM_CAPACITY := by decide
  have hstream : 0 < STREAM_CAPACITY := by decide
  have hwire : ∀ msg ∈ [ServerMessage.stop, .stream ownStream], msg.OnWire :=
    forall_onWire _
      (List.forall_mem_cons.2 ⟨trivial, List.forall_mem_singleton.2 representable_ownStream⟩)
  rcases allows_system.exists_playing hwire with ⟨g, log, h0, _⟩
  have h1 := reachable_firstPass_of_threadRun h0 Step.thread nofun
    (.cons (.backend (.fullness 1000 (List.mem_singleton_self _) (by decide))) <|
      .cons (.proto (.forward rfl id (.queued rfl hslim))) .nil)
  have h2 := Process.reachable_main h1 (.serverMessage none rfl rfl rfl) rfl rfl
  have h3 := Process.reachable_main h2 (.sendToServer rfl (.queued (Or.inl nofun) hslim)) rfl rfl
  have h4 := reachable_firstPass_of_threadRun h3 Step.thread nofun
    (.cons (.proto (.forward rfl id (.queued rfl hslim))) .nil)
  have h5 := Process.reachable_main h4 (.serverMessage none rfl rfl rfl) rfl rfl
  have h6 := reachable_firstPass_of_threadRun h5 Step.thread nofun
    (.cons (.connect (.dial rfl (.mk [] []))) <|
      .cons (.connect (.postConnected rfl (.queued rfl hstream) (.mk [] []))) .nil)
  exact ⟨_, _, h6, .thread nofun le_rfl (.connect (.createBuffer rfl (.mk [] []))),
    ⟨0, Nat.lt_succ_self _⟩, rfl⟩

end Vibe
end LmsPlayer
