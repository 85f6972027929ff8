import LmsPlayer.LmsProto.Frames.Reassembly
import Mathlib.Data.List.TakeWhile

/-!
# Frames.Faults — short frames and malformed messages

What the receiver does when the stream is not a sequence of good frames.

* A complete frame without a whole opcode makes it panic: `ShortFree` says, of the bytes alone, that
  no such frame ever becomes complete, and the receiver never panics exactly on those streams.
* A malformed message makes it drop its buffer together with the messages decoded in the same
  batch: `CutBeforeError` says that some read ends between the last good frame and the end of the
  malformed one, and all good frames are returned exactly then.
-/

namespace LmsPlayer
namespace LmsProto

open ServerMessage (Malformed)
open StreamSplitting (ItemReader)

/-! ## Short frames -/

/-- The first payload of a batch that cannot be delivered as a message. -/
def firstFault (payloads : List Bytes) : Option Bytes :=
  payloads.find? fun payload => payload.length < 4 ∨ Malformed payload

theorem scan_eq_of_firstFault (payloads : List Bytes) :
    (firstFault payloads = none → ∃ messages, scan payloads = .clean messages) ∧
      ∀ payload, firstFault payloads = some payload →
        scan payloads = if payload.length < 4 then .panicked else .corrupted := by
  induction payloads with
  | nil => exact ⟨fun _ => ⟨[], rfl⟩, fun _ h => by cases h⟩
  | cons payload payloads ih =>
      unfold firstFault at ih ⊢
      by_cases hshort : payload.length < 4
      · -- No opcode: the conversion panics.
        have hpanic : ServerMessage.fromBytes payload = none := by
          rcases h : ServerMessage.fromBytes payload with _ | msg
          · rfl
          · have hsome := (ServerMessage.isSome_fromBytes_iff payload).1 (by simp [h])
            omega
        rw [List.find?_cons_of_pos (by simp [hshort])]
        refine ⟨fun h => (by cases h), fun p hp => ?_⟩
        injection hp with hp
        simp only [scan, hpanic]
        rw [← hp, if_pos hshort]
      · have herror := ServerMessage.fromBytes_eq_error_iff (Nat.not_lt.1 hshort)
        by_cases hmalformed : Malformed payload
        · rw [List.find?_cons_of_pos (by simp [hmalformed])]
          refine ⟨fun h => (by cases h), fun p hp => ?_⟩
          injection hp with hp
          simp only [scan, herror.2 hmalformed]
          rw [← hp, if_neg hshort]
          rfl
        · rw [List.find?_cons_of_neg (by simp [hshort, hmalformed])]
          rcases Option.isSome_iff_exists.1
            ((ServerMessage.isSome_fromBytes_iff payload).2 (Nat.not_lt.1 hshort)) with ⟨msg, hmsg⟩
          have hne : msg ≠ .error := fun h => hmalformed (herror.1 (by rw [hmsg, h]))
          refine ⟨fun hnone => ?_, fun p hp => ?_⟩
          · rcases ih.1 hnone with ⟨messages, hscan⟩
            refine ⟨msg :: messages, ?_⟩
            simp only [scan, hmsg, hscan]
            rw [if_neg hne]
            rfl
          · simp only [scan, hmsg, ih.2 p hp]
            rw [if_neg hne]
            by_cases h : p.length < 4
            · rw [if_pos h]
              rfl
            · rw [if_neg h]
              rfl

/-- No frame of less than four bytes ever becomes complete.  `pending` is everything received since
the receiver last threw its buffer away, which it does at a malformed message. -/
def ShortFree : Bytes → List ReadResult → Prop
  | _, [] => True
  | pending, r :: script =>
      match firstFault (frameReader.split (pending ++ r.bytes)).1 with
      | none => ShortFree (pending ++ r.bytes) script
      | some payload => ¬ payload.length < 4 ∧ ShortFree [] script

theorem firstFault_append_of_none {first second : List Bytes} (h : firstFault first = none) :
    firstFault (first ++ second) = firstFault second := by
  unfold firstFault at h ⊢
  rw [List.find?_append, h]
  rfl

namespace LMSRecv

theorem panicked_cons (result : RecvResult) (c : Calls) :
    (c.cons result).panicked = c.panicked := rfl

/-- A run from a state in which nothing faulty is pending. -/
theorem panicked_eq_false_iff_of_pending (script : List ReadResult) :
    ∀ pending : Bytes, firstFault (frameReader.split pending).1 = none →
      ((calls ⟨script, (frameReader.split pending).2⟩).panicked = false ↔
        ShortFree pending script) := by
  induction script with
  | nil =>
      intro pending _
      exact ⟨fun _ => trivial, fun _ => rfl⟩
  | cons r script ih =>
      intro pending hpending
      cases r with
      | err e =>
          have hsame : ShortFree pending (.err e :: script) ↔ ShortFree pending script := by
            simp [ShortFree, ReadResult.bytes, hpending]
          by_cases hretry : e.kind = .wouldBlock ∨ e.kind = .interrupted
          · rw [hsame, calls_cons_of_again (turn_of_retry _ hretry)]
            exact ih pending hpending
          · rw [hsame, calls_cons_of_returned (turn_of_failure _ hretry), panicked_cons]
            exact ih pending hpending
      | ok chunk fits =>
          by_cases hchunk : chunk = []
          · have hsame :
                ShortFree pending (.ok chunk fits :: script) ↔ ShortFree pending script := by
              simp [ShortFree, ReadResult.bytes, hchunk, hpending]
            have hturn : turn (frameReader.split pending).2 (.ok chunk fits) =
                .returned (.err connectionReset) (frameReader.split pending).2 := by
              rw [turn, if_pos hchunk]
            rw [hsame, calls_cons_of_returned hturn, panicked_cons]
            exact ih pending hpending
          · -- The frames of the buffer are the new ones among those of all pending bytes.
            have hsplit := frameReader.split_append pending chunk
            have hfault : firstFault (frameReader.split (pending ++ chunk)).1 =
                firstFault
                  (frameReader.split ((frameReader.split pending).2 ++ chunk)).1 := by
              rw [hsplit]
              exact firstFault_append_of_none hpending
            have hleft : (frameReader.split (pending ++ chunk)).2 =
                (frameReader.split ((frameReader.split pending).2 ++ chunk)).2 := by
              rw [hsplit]
            have hscan := scan_eq_of_firstFault
              (frameReader.split ((frameReader.split pending).2 ++ chunk)).1
            cases hfirst : firstFault (frameReader.split (pending ++ chunk)).1 with
            | none =>
                have hsame : ShortFree pending (.ok chunk fits :: script) ↔
                    ShortFree (pending ++ chunk) script := by
                  simp [ShortFree, ReadResult.bytes, hfirst]
                rcases hscan.1 (hfault.symm.trans hfirst) with ⟨messages, hclean⟩
                have hturn := @turn_of_clean _ _ fits _ hchunk hclean
                rw [hsame, ← ih (pending ++ chunk) hfirst, hleft]
                by_cases hmessages : messages = []
                · rw [if_pos hmessages] at hturn
                  rw [calls_cons_of_again hturn]
                · rw [if_neg hmessages] at hturn
                  rw [calls_cons_of_returned hturn, panicked_cons]
            | some payload =>
                have hbad := hscan.2 payload (hfault.symm.trans hfirst)
                by_cases hshort : payload.length < 4
                · rw [if_pos hshort] at hbad
                  rw [calls_cons_of_panicked (turn_of_panicked hchunk hbad)]
                  simp [ShortFree, ReadResult.bytes, hfirst, hshort, Calls.panicked]
                · rw [if_neg hshort] at hbad
                  have hsame : ShortFree pending (.ok chunk fits :: script) ↔
                      ShortFree [] script := by
                    simp only [ShortFree, ReadResult.bytes, hfirst]
                    exact and_iff_right hshort
                  rw [hsame, calls_cons_of_returned (turn_of_corrupted hchunk hbad),
                    panicked_cons]
                  exact ih [] rfl

/-- **The receiver never panics exactly on the streams without short frames**; parsing a payload
needs its four opcode bytes and nothing more. -/
theorem panicked_eq_false_iff (script : List ReadResult) :
    (∀ payload : Bytes, (ServerMessage.fromBytes payload).isSome ↔ 4 ≤ payload.length) ∧
      ((calls (new script)).panicked = false ↔ ShortFree [] script) :=
  ⟨ServerMessage.isSome_fromBytes_iff, panicked_eq_false_iff_of_pending script [] rfl⟩

/-- Three zero bytes: a frame that declares no payload. -/
theorem panicked_zero_frame :
    (calls (new [.ok [0, 0, 0] (by decide)])).panicked = true := by
  decide

end LMSRecv

/-! ## Malformed messages -/

/-- The messages that successive calls return before the first `InvalidData` error. -/
def returnedBefore : List RecvResult → List ServerMessage
  | [] => []
  | .ok messages :: results => messages ++ returnedBefore results
  | .err e :: results => if e.kind = .invalidData then [] else returnedBefore results

namespace Frame

/-- The frames in front of the first malformed one. -/
def beforeError (fs : List Frame) : List Frame := fs.takeWhile fun f => f.message ≠ .error

/-- Length of the stream up to the end of the frames in front of the first malformed one. -/
def goodLength (fs : List Frame) : Nat := ((beforeError fs).flatMap encode).length

/-- Length of the stream up to the end of the first malformed frame. -/
def badLength (fs : List Frame) : Nat :=
  ((fs.take ((beforeError fs).length + 1)).flatMap encode).length

/-- No frame is malformed, or some number of reads ends behind the last good frame and in front of
the end of the malformed one. -/
def CutBeforeError (fs : List Frame) (script : List ReadResult) : Prop :=
  (∀ f ∈ fs, f.message ≠ .error) ∨
    ∃ n, goodLength fs ≤ (delivered (script.take n)).length ∧
      (delivered (script.take n)).length < badLength fs

theorem within_length_of_le {fs : List Frame} {n : Nat} (h : (fs.flatMap encode).length ≤ n) :
    within fs n = fs := by
  induction fs generalizing n with
  | nil => rfl
  | cons f fs ih =>
      rw [List.flatMap_cons, List.length_append] at h
      rw [within, if_pos (by omega), ih (by omega)]

/-- All frames lie within the first `n` bytes only when their encodings do. -/
theorem length_le_of_within_eq {fs : List Frame} {n : Nat} (h : within fs n = fs) :
    (fs.flatMap encode).length ≤ n := by
  induction fs generalizing n with
  | nil => exact Nat.zero_le n
  | cons f fs ih =>
      by_cases hlen : f.encode.length ≤ n
      · rw [within, if_pos hlen] at h
        have hrest := ih (List.cons.inj h).2
        rw [List.flatMap_cons, List.length_append]
        omega
      · rw [within, if_neg hlen] at h
        cases h

/-- A stream with a malformed frame splits into the good frames, the malformed one and the rest. -/
theorem exists_error {fs : List Frame} (h : ¬ ∀ f ∈ fs, f.message ≠ .error) :
    ∃ bad rest, fs = beforeError fs ++ bad :: rest ∧ bad.message = .error := by
  induction fs with
  | nil => exact absurd (by simp) h
  | cons f fs ih =>
      by_cases hf : f.message = .error
      · exact ⟨f, fs, by simp [beforeError, hf], hf⟩
      · have hrest : ¬ ∀ g ∈ fs, g.message ≠ .error := by
          intro hall
          exact h fun g hg => by
            rcases List.mem_cons.1 hg with rfl | hg
            · exact hf
            · exact hall g hg
        rcases ih hrest with ⟨bad, rest, hfs, hbad⟩
        refine ⟨bad, rest, ?_, hbad⟩
        have hcons : beforeError (f :: fs) = f :: beforeError fs := by
          simp [beforeError, hf]
        rw [hcons, List.cons_append, ← hfs]

/-- The beginning of a stream that is shorter than its frames up to `bad` ends inside `bad`. -/
theorem prefix_dropLast {bytes stream : Bytes} {good : List Frame} {bad : Frame}
    (hstream : (good ++ [bad]).flatMap encode <+: stream) (hbytes : bytes <+: stream)
    (hlt : bytes.length < ((good ++ [bad]).flatMap encode).length) :
    bytes <+: good.flatMap encode ++ bad.encode.dropLast := by
  have hframes : good.flatMap encode ++ bad.encode <+: stream := by simpa using hstream
  have hwhole : bytes <+: good.flatMap encode ++ bad.encode := by
    refine List.prefix_of_prefix_length_le hbytes hframes ?_
    simp at hlt ⊢
    omega
  refine List.prefix_of_prefix_length_le hwhole
    ((List.prefix_append_right_inj _).2 (List.dropLast_prefix _)) ?_
  simp at hlt ⊢
  omega

theorem beforeError_ne_error (fs : List Frame) : ∀ f ∈ beforeError fs, f.message ≠ .error := by
  intro f hf
  have hsatisfied := List.all_takeWhile (l := fs) (p := fun f => f.message ≠ .error)
  simpa using List.all_eq_true.1 hsatisfied f hf

end Frame

theorem returnedBefore_append (batches : List (List ServerMessage)) (results : List RecvResult) :
    returnedBefore (batches.map .ok ++ results) = batches.flatten ++ returnedBefore results := by
  induction batches with
  | nil => rfl
  | cons batch batches ih =>
      rw [List.map_cons, List.cons_append, returnedBefore, ih, List.flatten_cons,
        List.append_assoc]

/-- The read that takes what has been delivered to `n` bytes or beyond. -/
theorem exists_crossing {script : List ReadResult} {n : Nat} (hpos : 0 < n)
    (h : n ≤ (delivered script).length) :
    ∃ before r after, script = before ++ r :: after ∧ (delivered before).length < n ∧
      n ≤ (delivered (before ++ [r])).length := by
  induction script using List.reverseRecOn with
  | nil =>
      have hzero : (delivered []).length = 0 := rfl
      omega
  | append_singleton script r ih =>
      by_cases hbefore : n ≤ (delivered script).length
      · rcases ih hbefore with ⟨before, r', after, hscript, hlt, hle⟩
        exact ⟨before, r', after ++ [r], by simp [hscript], hlt, hle⟩
      · exact ⟨script, r, [], rfl, Nat.not_le.1 hbefore, h⟩

namespace LMSRecv

/-- The read that completes the first malformed frame ends the run with an error, and the good
frames that were completed before it are all that has been returned. -/
theorem returnedBefore_of_error {good rest : List Frame} {bad : Frame}
    {before after : List ReadResult} {r : ReadResult} (hgood : ∀ f ∈ good, f.message ≠ .error)
    (hbad : bad.message = .error) (hscript : ∀ r' ∈ before ++ r :: after, r'.Harmless)
    (hbytes : delivered (before ++ r :: after) = (good ++ bad :: rest).flatMap Frame.encode)
    (hlt : (delivered before).length < ((good ++ [bad]).flatMap Frame.encode).length)
    (hle : ((good ++ [bad]).flatMap Frame.encode).length ≤ (delivered (before ++ [r])).length) :
    returnedBefore (calls (new (before ++ r :: after))).results =
      (Frame.within good (delivered before).length).map Frame.message := by
  have hstream : delivered (before ++ r :: after) =
      good.flatMap Frame.encode ++ (bad.encode ++ rest.flatMap Frame.encode) := by
    rw [hbytes, List.flatMap_append, List.flatMap_cons]
  -- What has been delivered before the read ends inside the malformed frame.
  have htail : Frame.StrictPrefix bad.encode.dropLast bad := by
    have hpos : 0 < bad.encode.length := by
      rw [bad.length_encode]
      omega
    exact Frame.strictPrefix_of_length_lt (List.dropLast_prefix _) (by simp; omega)
  have hall : (good ++ [bad]).flatMap Frame.encode <+: delivered (before ++ r :: after) := by
    rw [hstream]
    exact ⟨rest.flatMap Frame.encode, by simp⟩
  have hearly : delivered before <+: delivered (before ++ r :: after) := by
    rw [delivered_append]
    exact List.prefix_append _ _
  have hpart : delivered before <+: good.flatMap Frame.encode ++ bad.encode.dropLast :=
    Frame.prefix_dropLast hall hearly hlt
  have hearlier : ∀ r' ∈ before, r'.Harmless := fun r' hr' => hscript r' (by simp [hr'])
  rcases calls_of_prefix hgood htail hearlier hpart with
    ⟨_, _, batches, left, hcalls, _, _, hflatten, hsplit⟩
  rcases Frame.within_prefix good (delivered before).length with ⟨missing, hmissing⟩
  cases r with
  | err e =>
      have hsame : delivered (before ++ [.err e]) = delivered before := by
        simp [delivered, ReadResult.bytes]
      rw [hsame] at hle
      omega
  | ok chunk fits =>
      have hchunk : chunk ≠ [] := hscript (.ok chunk fits) (by simp)
      -- The frames completed by the read are the missing good ones and the malformed one.
      have hread : delivered (before ++ [.ok chunk fits]) = delivered before ++ chunk := by
        simp [delivered, ReadResult.bytes]
      have hmore : (good ++ [bad]).flatMap Frame.encode <+: delivered before ++ chunk := by
        have hso : delivered before ++ chunk <+:
            delivered (before ++ .ok chunk fits :: after) := by
          rw [← hread]
          exact ⟨delivered after, by simp [← delivered_append]⟩
        exact List.prefix_of_prefix_length_le hall hso (hread ▸ hle)
      rcases hmore with ⟨more, hmore⟩
      have hframes := ItemReader.split_flatMap_append
        (fun f (_ : f ∈ good ++ [bad]) => f.encodes) more
      rw [hmore, frameReader.split_append, hsplit] at hframes
      have hnew : (frameReader.split (left ++ chunk)).1 =
          missing.map Frame.payload ++ bad.payload :: (frameReader.split more).1 := by
        have hgoodmap : good.map Frame.payload =
            (Frame.within good (delivered before).length).map Frame.payload ++
              missing.map Frame.payload := by
          rw [← List.map_append, hmissing]
        have hlists := congrArg Prod.fst hframes
        rw [List.map_append, hgoodmap, List.append_assoc, List.append_assoc] at hlists
        exact List.append_cancel_left hlists
      have hscan : scan (frameReader.split (left ++ chunk)).1 = .corrupted := by
        have hclean := @Frame.scan_map_payload missing fun f hf =>
          hgood f (hmissing ▸ List.mem_append_right _ hf)
        have hhead : scan (bad.payload :: (frameReader.split more).1) = .corrupted := by
          simp only [scan, bad.fromBytes_payload]
          rw [if_pos hbad]
        rw [hnew, scan_append, hclean, hhead]
        rfl
      have hturn := @turn_of_corrupted left chunk fits hchunk hscan
      have hgo := calls_append (.ok chunk fits :: after) (congrArg Calls.waiting hcalls)
      have hresults : (calls (new before)).results = batches.map .ok :=
        congrArg Calls.results hcalls
      calc
        returnedBefore (calls (new (before ++ .ok chunk fits :: after))).results
            = returnedBefore
                (batches.map .ok ++ (calls ⟨.ok chunk fits :: after, left⟩).results) := by
              rw [← hresults]
              exact congrArg (fun c => returnedBefore c.results) hgo
        _ = batches.flatten := by
              rw [returnedBefore_append, calls_cons_of_returned hturn]
              exact List.append_nil _
        _ = (Frame.within good (delivered before).length).map Frame.message := hflatten

theorem returnedBefore_of_clean {fs : List Frame} {script : List ReadResult}
    (hfs : ∀ f ∈ fs, f.message ≠ .error) (hscript : ∀ r ∈ script, r.Harmless)
    (hbytes : delivered script = fs.flatMap Frame.encode) :
    returnedBefore (calls (new script)).results = fs.map Frame.message := by
  have hframes := ItemReader.split_flatMap_append (fun f (_ : f ∈ fs) => f.encodes) ([] : Bytes)
  have hnil : frameReader.split [] = ([], []) := frameReader.split_of_next_eq_none rfl
  have hclean : scan (frameReader.split ([] ++ delivered script)).1 =
      .clean (fs.map Frame.message) := by
    rw [List.append_nil, ← hbytes, hnil, List.append_nil] at hframes
    rw [List.nil_append, hframes]
    exact Frame.scan_map_payload hfs
  rcases calls_of_clean hscript rfl hclean with ⟨batches, hcalls, hflatten, _⟩
  have hresults : (calls (new script)).results = batches.map .ok ++ [] := by
    rw [List.append_nil]
    exact congrArg Calls.results hcalls
  rw [hresults, returnedBefore_append, hflatten]
  exact List.append_nil _

/-- All good frames are returned exactly when a read ends behind the last of them and in front of
the end of the malformed frame. -/
theorem returnedBefore_eq_iff {fs : List Frame} {script : List ReadResult}
    (hscript : ∀ r ∈ script, r.Harmless) (hbytes : delivered script = fs.flatMap Frame.encode) :
    returnedBefore (calls (new script)).results = (Frame.beforeError fs).map Frame.message ↔
      Frame.CutBeforeError fs script := by
  by_cases hfs : ∀ f ∈ fs, f.message ≠ .error
  · have hall : Frame.beforeError fs = fs :=
      List.takeWhile_eq_self_iff.2 (by simpa using hfs)
    rw [hall]
    exact ⟨fun _ => Or.inl hfs, fun _ => returnedBefore_of_clean hfs hscript hbytes⟩
  · rcases Frame.exists_error hfs with ⟨bad, rest, hsplit, hbad⟩
    have hgood := Frame.beforeError_ne_error fs
    have hbadLength : Frame.badLength fs =
        ((Frame.beforeError fs ++ [bad]).flatMap Frame.encode).length := by
      have htake : fs.take ((Frame.beforeError fs).length + 1) = Frame.beforeError fs ++ [bad] := by
        generalize hg : Frame.beforeError fs = good at hsplit ⊢
        rw [hsplit, List.take_length_add_append]
        rfl
      rw [Frame.badLength, htake]
    have hpos : 0 < ((Frame.beforeError fs ++ [bad]).flatMap Frame.encode).length := by
      have := bad.length_encode
      simp
      omega
    have hwhole : ((Frame.beforeError fs ++ [bad]).flatMap Frame.encode).length ≤
        (delivered script).length := by
      rw [hbytes, ← hbadLength]
      refine List.IsPrefix.length_le ⟨(fs.drop ((Frame.beforeError fs).length + 1)).flatMap
        Frame.encode, ?_⟩
      rw [← List.flatMap_append, List.take_append_drop]
    rcases exists_crossing hpos hwhole with ⟨before, r, after, rfl, hlt, hle⟩
    have hreturned := returnedBefore_of_error hgood hbad hscript (by rw [hbytes, ← hsplit]) hlt hle
    rw [hreturned]
    constructor
    · intro hall
      have hwithin : Frame.within (Frame.beforeError fs) (delivered before).length =
          Frame.beforeError fs :=
        (Frame.within_prefix _ _).eq_of_length (by simpa using congrArg List.length hall)
      refine Or.inr ⟨before.length, ?_, ?_⟩
      · rw [List.take_left' rfl]
        exact Frame.length_le_of_within_eq hwithin
      · rw [List.take_left' rfl, hbadLength]
        exact hlt
    · intro hcut
      rcases hcut with hcut | ⟨n, hfrom, hto⟩
      · exact absurd hcut hfs
      · -- The cut lies no later than the read that completes the malformed frame.
        have hn : n ≤ before.length := by
          by_contra hmore
          have hpre : delivered (before ++ [r]) <+:
              delivered ((before ++ r :: after).take n) := by
            have hlist : before ++ [r] <+: (before ++ r :: after).take n := by
              refine List.prefix_of_prefix_length_le (List.prefix_append_right_inj _ |>.2
                (List.prefix_append [r] after)) (List.take_prefix _ _) ?_
              simp
              omega
            rcases hlist with ⟨more, hlist⟩
            rw [← hlist, delivered_append (before ++ [r]) more]
            exact List.prefix_append _ _
          have hlen := hpre.length_le
          omega
        have htake : (before ++ r :: after).take n = before.take n :=
          List.take_append_of_le_length hn
        have hle' : (delivered (before.take n)).length ≤ (delivered before).length := by
          refine List.IsPrefix.length_le ⟨delivered (before.drop n), ?_⟩
          rw [← delivered_append, List.take_append_drop]
        rw [htake] at hfrom
        rw [Frame.within_length_of_le (hfrom.trans hle')]

/-- **Two ways of cutting one stream agree on all frames in front of the first malformed one**
exactly when each of them has a read that ends between the last of these frames and the end of the
malformed one. -/
theorem returnedBefore_agree_iff {fs : List Frame} {script₁ script₂ : List ReadResult}
    (h₁ : ∀ r ∈ script₁, r.Harmless) (h₂ : ∀ r ∈ script₂, r.Harmless)
    (hbytes₁ : delivered script₁ = fs.flatMap Frame.encode)
    (hbytes₂ : delivered script₂ = fs.flatMap Frame.encode) :
    (returnedBefore (calls (new script₁)).results =
        returnedBefore (calls (new script₂)).results ∧
      returnedBefore (calls (new script₁)).results =
        (Frame.beforeError fs).map Frame.message) ↔
      Frame.CutBeforeError fs script₁ ∧ Frame.CutBeforeError fs script₂ := by
  have hone := returnedBefore_eq_iff h₁ hbytes₁
  have htwo := returnedBefore_eq_iff h₂ hbytes₂
  constructor
  · rintro ⟨hsame, hall⟩
    exact ⟨hone.1 hall, htwo.1 (hsame.symm.trans hall)⟩
  · rintro ⟨hcut₁, hcut₂⟩
    exact ⟨(hone.2 hcut₁).trans (htwo.2 hcut₂).symm, hone.2 hcut₁⟩

/-- A query for the name, and a message without its address. -/
def queryThenShortServ : List Frame :=
  [⟨[115, 101, 116, 100, 0], by decide, by decide⟩, ⟨[115, 101, 114, 118], by decide, by decide⟩]

/-- The two frames in one read, and in a read for each. -/
def oneRead : List ReadResult :=
  [.ok [0, 5, 115, 101, 116, 100, 0, 0, 4, 115, 101, 114, 118] (by decide)]

def twoReads : List ReadResult :=
  [.ok [0, 5, 115, 101, 116, 100, 0] (by decide), .ok [0, 4, 115, 101, 114, 118] (by decide)]

theorem returnedBefore_agree_twoReads :
    returnedBefore (calls (new twoReads)).results = [.queryname] := by
  have hcut : Frame.CutBeforeError queryThenShortServ twoReads :=
    Or.inr ⟨1, by decide, by decide⟩
  exact ((@returnedBefore_agree_iff queryThenShortServ twoReads twoReads (by decide) (by decide)
    (by decide) (by decide)).2 ⟨hcut, hcut⟩).2

/-- In one read the good message is lost together with the malformed one. -/
theorem returnedBefore_oneRead :
    (∀ r ∈ oneRead ++ twoReads, r.Harmless) ∧
      delivered oneRead = queryThenShortServ.flatMap Frame.encode ∧
      delivered twoReads = queryThenShortServ.flatMap Frame.encode ∧
      returnedBefore (calls (new oneRead)).results = [] ∧
      returnedBefore (calls (new twoReads)).results = [.queryname] ∧
      (Frame.beforeError queryThenShortServ).map Frame.message = [.queryname] := by
  decide

end LMSRecv

end LmsProto
end LmsPlayer
