import LmsPlayer.LmsProto.Frames.Recv

/-!
# Frames.Reassembly — what the receiver does to a stream of frames

The receiver is compared with splitting the whole stream at once (`frameReader`).  A decode is the
split of the buffer followed by parsing each payload, up to the first fault (`scan`).  From one read
(`turn_ok`) we get a whole run:

* without a fault, the messages returned so far are the frames delivered so far, whatever the reads
  were;
* a frame without a whole opcode makes the receiver panic, and nothing else does;
* a malformed message costs the messages that were decoded together with it, so what is returned
  before the error depends on where the reads were cut.
-/

namespace LmsPlayer
namespace LmsProto

open StreamSplitting (ItemReader)

/-! ## Frames -/

/-- Take one frame off a buffer: a big-endian `u16` size and that many bytes of payload.  The
receiver does not look at a buffer of two bytes or less. -/
def readFrame (buf : Bytes) : Option (Bytes × Bytes) :=
  let frameSize := BigEndian.ofBytes (buf.take 2)
  if buf.length ≤ 2 then none
  else if buf.length < frameSize + 2 then none
  else some ((buf.drop 2).take frameSize, (buf.drop 2).drop frameSize)

theorem readFrame_append {buf rest payload : Bytes} (more : Bytes)
    (h : readFrame buf = some (payload, rest)) :
    readFrame (buf ++ more) = some (payload, rest ++ more) := by
  unfold readFrame at h ⊢
  dsimp only at h ⊢
  split_ifs at h with htwo hshort
  have hsize : (buf ++ more).take 2 = buf.take 2 := List.take_append_of_le_length (by omega)
  have hpayload := (Prod.mk.inj (Option.some.inj h)).1
  have hrest := (Prod.mk.inj (Option.some.inj h)).2
  have hlen : (buf.drop 2).length = buf.length - 2 := List.length_drop
  rw [hsize, if_neg (by simp; omega), if_neg (by simp; omega),
    List.drop_append_of_le_length (by omega), List.take_append_of_le_length (by omega),
    List.drop_append_of_le_length (by omega), hpayload, hrest]

theorem length_lt_of_readFrame {buf rest payload : Bytes}
    (h : readFrame buf = some (payload, rest)) : rest.length < buf.length := by
  unfold readFrame at h
  dsimp only at h
  split_ifs at h with htwo hshort
  have hrest := (Prod.mk.inj (Option.some.inj h)).2
  rw [← hrest, List.length_drop, List.length_drop]
  omega

/-- The reader of the server stream. -/
def frameReader : ItemReader UInt8 Bytes :=
  { next := readFrame
    shrinks := length_lt_of_readFrame
    stable := readFrame_append }

/-- A frame that holds at least an opcode and whose size fits its length field. -/
structure Frame where
  payload : Bytes
  lower : 4 ≤ payload.length
  upper : payload.length ≤ 65535
  deriving DecidableEq, Repr

namespace Frame

/-- The bytes of a frame on the wire. -/
def encode (f : Frame) : Bytes := BigEndian.toBytes 2 f.payload.length ++ f.payload

/-- What the payload parses to. -/
def message (f : Frame) : ServerMessage :=
  (ServerMessage.fromBytes f.payload).get
    ((ServerMessage.isSome_fromBytes_iff f.payload).2 f.lower)

theorem fromBytes_payload (f : Frame) :
    ServerMessage.fromBytes f.payload = some f.message :=
  (Option.some_get _).symm

theorem length_encode (f : Frame) : f.encode.length = f.payload.length + 2 := by
  simp [encode, Nat.add_comm]

/-- A frame is taken off the stream as it was put on it. -/
theorem encodes (f : Frame) : frameReader.Encodes encode payload f := by
  intro rest
  have hsize : BigEndian.ofBytes (BigEndian.toBytes 2 f.payload.length) = f.payload.length :=
    BigEndian.ofBytes_toBytes_of_lt (by have := f.upper; omega)
  have htwo : (BigEndian.toBytes 2 f.payload.length).length = 2 := BigEndian.length_toBytes 2 _
  have hlower := f.lower
  have hbuf : f.encode ++ rest =
      BigEndian.toBytes 2 f.payload.length ++ (f.payload ++ rest) := by
    simp [encode]
  have hlen : (f.encode ++ rest).length = f.payload.length + 2 + rest.length := by
    rw [List.length_append, length_encode]
  show readFrame (f.encode ++ rest) = some (f.payload, rest)
  unfold readFrame
  dsimp only
  rw [if_neg (by omega), hbuf, List.take_left' htwo, hsize, ← hbuf, if_neg (by omega), hbuf,
    List.drop_left' htwo, List.take_left' rfl, List.drop_left' rfl]

end Frame

/-! ## Decoding is splitting and parsing -/

/-- The payloads of a batch parsed in order, up to the first fault. -/
inductive Scan where
  | clean (messages : List ServerMessage)
  | corrupted
  | panicked
  deriving DecidableEq

def Scan.cons (msg : ServerMessage) : Scan → Scan
  | .clean messages => .clean (msg :: messages)
  | .corrupted => .corrupted
  | .panicked => .panicked

def Scan.append : Scan → Scan → Scan
  | .clean messages, .clean more => .clean (messages ++ more)
  | .clean _, .corrupted => .corrupted
  | .clean _, .panicked => .panicked
  | .corrupted, _ => .corrupted
  | .panicked, _ => .panicked

theorem Scan.cons_append (msg : ServerMessage) (s t : Scan) :
    (s.cons msg).append t = (s.append t).cons msg := by
  cases s <;> cases t <;> rfl

def scan : List Bytes → Scan
  | [] => .clean []
  | payload :: payloads =>
      match ServerMessage.fromBytes payload with
      | none => .panicked
      | some msg => if msg = .error then .corrupted else (scan payloads).cons msg

/-- What the loop of `decode` makes of a batch, with the messages in front of it and the rest of the
buffer behind it. -/
def Scan.Decodes (messages : List ServerMessage) (left : Bytes) (r : Decoded × Bytes) :
    Scan → Prop
  | .clean more =>
      r = if messages ++ more = [] then (.none, left) else (.some (messages ++ more), left)
  | .corrupted => r = (.err dataCorrupted, [])
  | .panicked => r.1 = .panicked

theorem decodeLoop_spec (buf : Bytes) :
    ∀ (fuel : Nat) (messages : List ServerMessage), buf.length ≤ fuel →
      2 < buf.length ∨ messages ≠ [] →
        (scan (frameReader.split buf).1).Decodes messages (frameReader.split buf).2
          (decodeLoop fuel messages buf) := by
  induction buf using frameReader.split_induction with
  | done buf hnone =>
      intro fuel messages hfuel hstart
      rw [frameReader.split_of_next_eq_none hnone]
      show _ = if messages ++ [] = [] then _ else _
      rw [List.append_nil]
      cases fuel with
      | zero =>
          have hmessages : messages ≠ [] := by
            rcases hstart with h | h
            · omega
            · exact h
          rw [if_neg hmessages]
          rfl
      | succ fuel =>
          have hread : readFrame buf = none := hnone
          unfold readFrame at hread
          unfold decodeLoop
          by_cases htwo : buf.length ≤ 2
          · have hmessages : messages ≠ [] := by
              rcases hstart with h | h
              · omega
              · exact h
            rw [if_pos htwo, if_neg hmessages]
          · dsimp only at hread ⊢
            rw [if_neg htwo] at hread ⊢
            by_cases hshort : buf.length < BigEndian.ofBytes (buf.take 2) + 2
            · rw [if_pos hshort]
              cases messages with
              | nil => rfl
              | cons msg messages => rfl
            · rw [if_neg hshort] at hread
              cases hread
  | item buf payload rest hsome ih =>
      intro fuel messages hfuel hstart
      have hlt : rest.length < buf.length := length_lt_of_readFrame hsome
      cases fuel with
      | zero => omega
      | succ fuel =>
          have hread : readFrame buf = some (payload, rest) := hsome
          unfold readFrame at hread
          dsimp only at hread
          split_ifs at hread with htwo hshort
          have hpayload := (Prod.mk.inj (Option.some.inj hread)).1
          have hrest := (Prod.mk.inj (Option.some.inj hread)).2
          rw [frameReader.split_of_next_eq_some hsome]
          unfold decodeLoop scan
          dsimp only
          rw [if_neg htwo, if_neg hshort, hpayload, hrest]
          cases hparse : ServerMessage.fromBytes payload with
          | none => rfl
          | some msg =>
              dsimp only
              by_cases herror : msg = .error
              · rw [if_pos herror, if_pos herror]
                rfl
              · rw [if_neg herror, if_neg herror]
                have hgo := ih fuel (messages ++ [msg]) (by omega) (Or.inr (by simp))
                cases hscan : scan (frameReader.split rest).1 with
                | clean more =>
                    simp only [hscan, Scan.Decodes, List.append_assoc,
                      List.singleton_append] at hgo
                    exact hgo
                | corrupted =>
                    rw [hscan] at hgo
                    exact hgo
                | panicked =>
                    rw [hscan] at hgo
                    exact hgo

/-- Decoding is splitting the buffer and parsing its frames. -/
theorem decode_spec (buf : Bytes) :
    (scan (frameReader.split buf).1).Decodes [] (frameReader.split buf).2 (decode buf) := by
  unfold decode
  by_cases htwo : buf.length ≤ 2
  · have hnone : readFrame buf = none := by
      unfold readFrame
      exact if_pos htwo
    rw [if_pos htwo, frameReader.split_of_next_eq_none hnone]
    rfl
  · rw [if_neg htwo]
    exact decodeLoop_spec buf buf.length [] le_rfl (Or.inl (by omega))

/-! ## One read -/

namespace ReadResult

/-- The bytes a read delivers. -/
def bytes : ReadResult → Bytes
  | .ok chunk _ => chunk
  | .err _ => []

/-- A read that delivers something, or that only has to be repeated. -/
def Harmless : ReadResult → Prop
  | .ok chunk _ => chunk ≠ []
  | .err e => e.kind = .wouldBlock ∨ e.kind = .interrupted

instance : DecidablePred Harmless
  | .ok chunk _ => inferInstanceAs (Decidable (chunk ≠ []))
  | .err e => inferInstanceAs (Decidable (e.kind = .wouldBlock ∨ e.kind = .interrupted))

end ReadResult

/-- Everything the reads deliver. -/
def delivered (script : List ReadResult) : Bytes := script.flatMap ReadResult.bytes

namespace LMSRecv

theorem turn_of_retry {e : IoError} (buf : Bytes)
    (h : e.kind = .wouldBlock ∨ e.kind = .interrupted) : turn buf (.err e) = .again buf := by
  rcases h with h | h <;> simp [turn, h]

/-- Another error is passed on and leaves the buffer as it was. -/
theorem turn_of_failure {e : IoError} (buf : Bytes)
    (h : ¬ (e.kind = .wouldBlock ∨ e.kind = .interrupted)) :
    turn buf (.err e) = .returned (.err (failedToRead e)) buf := by
  cases hkind : e.kind with
  | wouldBlock => exact absurd (Or.inl hkind) h
  | interrupted => exact absurd (Or.inr hkind) h
  | connectionReset => simp [turn, hkind]
  | timedOut => simp [turn, hkind]
  | invalidData => simp [turn, hkind]
  | other => simp [turn, hkind]

section Chunk

variable {buf chunk : Bytes} {fits : chunk.length ≤ INITIAL_CAPACITY}

/-- The messages completed by a chunk are returned at once; without one the call reads on. -/
theorem turn_of_clean {messages : List ServerMessage} (hchunk : chunk ≠ [])
    (h : scan (frameReader.split (buf ++ chunk)).1 = .clean messages) :
    turn buf (.ok chunk fits) =
      if messages = [] then .again (frameReader.split (buf ++ chunk)).2
      else .returned (.ok messages) (frameReader.split (buf ++ chunk)).2 := by
  have hdecode := decode_spec (buf ++ chunk)
  rw [h] at hdecode
  simp only [Scan.Decodes, List.nil_append] at hdecode
  rw [turn, if_neg hchunk, hdecode]
  by_cases hmessages : messages = []
  · rw [if_pos hmessages, if_pos hmessages]
  · rw [if_neg hmessages, if_neg hmessages]

/-- A malformed message discards the whole buffer and the messages decoded before it. -/
theorem turn_of_corrupted (hchunk : chunk ≠ [])
    (h : scan (frameReader.split (buf ++ chunk)).1 = .corrupted) :
    turn buf (.ok chunk fits) = .returned (.err dataCorrupted) [] := by
  have hdecode := decode_spec (buf ++ chunk)
  rw [h] at hdecode
  simp only [Scan.Decodes] at hdecode
  rw [turn, if_neg hchunk, hdecode]

theorem turn_of_panicked (hchunk : chunk ≠ [])
    (h : scan (frameReader.split (buf ++ chunk)).1 = .panicked) :
    turn buf (.ok chunk fits) = .panicked := by
  have hdecode := decode_spec (buf ++ chunk)
  rw [h] at hdecode
  simp only [Scan.Decodes] at hdecode
  rw [turn, if_neg hchunk]
  rcases hresult : decode (buf ++ chunk) with ⟨result, left⟩
  rw [hresult] at hdecode
  have hpanic : result = .panicked := hdecode
  rw [hpanic]

end Chunk

end LMSRecv

/-! ## Runs without a fault -/

theorem scan_append (first second : List Bytes) :
    scan (first ++ second) = (scan first).append (scan second) := by
  induction first with
  | nil =>
      rw [List.nil_append]
      cases h : scan second <;> rfl
  | cons payload first ih =>
      rw [List.cons_append]
      cases hparse : ServerMessage.fromBytes payload with
      | none =>
          simp only [scan, hparse]
          rfl
      | some msg =>
          simp only [scan, hparse]
          by_cases herror : msg = .error
          · rw [if_pos herror, if_pos herror]
            rfl
          · rw [if_neg herror, if_neg herror, ih, Scan.cons_append]

/-- A clean batch is clean in both of its parts. -/
theorem scan_append_clean {first second : List Bytes} {messages : List ServerMessage}
    (h : scan (first ++ second) = .clean messages) :
    ∃ before after, scan first = .clean before ∧ scan second = .clean after ∧
      messages = before ++ after := by
  rw [scan_append] at h
  cases hfirst : scan first with
  | clean before =>
      cases hsecond : scan second with
      | clean after =>
          rw [hfirst, hsecond] at h
          injection h with h
          exact ⟨before, after, rfl, rfl, h.symm⟩
      | corrupted =>
          rw [hfirst, hsecond] at h
          cases h
      | panicked =>
          rw [hfirst, hsecond] at h
          cases h
  | corrupted =>
      rw [hfirst] at h
      cases h
  | panicked =>
      rw [hfirst] at h
      cases h

namespace LMSRecv

/-- **A run over clean frames**: whatever the reads were, the returned batches together are the
messages of the delivered frames, no batch is empty, and the receiver waits with what is left of the
stream behind them. -/
theorem calls_of_clean {script : List ReadResult} (hscript : ∀ r ∈ script, r.Harmless) :
    ∀ {buf : Bytes} {messages : List ServerMessage}, frameReader.next buf = none →
      scan (frameReader.split (buf ++ delivered script)).1 = .clean messages →
        ∃ batches : List (List ServerMessage),
          calls ⟨script, buf⟩ =
            { results := batches.map .ok
              waiting := some (frameReader.split (buf ++ delivered script)).2 } ∧
          batches.flatten = messages ∧ ∀ batch ∈ batches, batch ≠ [] := by
  induction script with
  | nil =>
      intro buf messages hbuf hscan
      have hsplit : frameReader.split (buf ++ delivered []) = ([], buf) := by
        simpa [delivered] using frameReader.split_of_next_eq_none hbuf
      rw [hsplit] at hscan ⊢
      have hnil : messages = [] := by
        simpa [scan] using hscan.symm
      exact ⟨[], calls_nil buf, hnil.symm, by simp⟩
  | cons r script ih =>
      intro buf messages hbuf hscan
      have hrest : ∀ r' ∈ script, r'.Harmless := fun r' hr' => hscript r' (by simp [hr'])
      cases r with
      | err e =>
          have hretry : e.kind = .wouldBlock ∨ e.kind = .interrupted := hscript (.err e) (by simp)
          have hsame : delivered (.err e :: script) = delivered script := rfl
          rw [hsame] at hscan ⊢
          rw [calls_cons_of_again (turn_of_retry buf hretry)]
          exact ih hrest hbuf hscan
      | ok chunk fits =>
          have hchunk : chunk ≠ [] := hscript (.ok chunk fits) (by simp)
          have hbytes : buf ++ delivered (.ok chunk fits :: script) =
              (buf ++ chunk) ++ delivered script := by
            simp [delivered, ReadResult.bytes]
          rw [hbytes, frameReader.split_append] at hscan ⊢
          rcases scan_append_clean hscan with ⟨before, after, hbefore, hafter, hmessages⟩
          rcases ih hrest (frameReader.next_split_snd (buf ++ chunk)) hafter with
            ⟨batches, hcalls, hflatten, hne⟩
          have hturn := @turn_of_clean buf chunk fits before hchunk hbefore
          by_cases hnil : before = []
          · -- Nothing complete yet: the call reads on.
            rw [if_pos hnil] at hturn
            rw [calls_cons_of_again hturn]
            exact ⟨batches, hcalls, by rw [hflatten, hmessages, hnil]; rfl, hne⟩
          · rw [if_neg hnil] at hturn
            rw [calls_cons_of_returned hturn, hcalls]
            refine ⟨before :: batches, rfl, ?_, ?_⟩
            · rw [List.flatten_cons, hflatten, hmessages]
            · intro batch hbatch
              rcases List.mem_cons.1 hbatch with rfl | hbatch
              · exact hnil
              · exact hne batch hbatch

end LMSRecv

/-! ## Streams of frames -/

namespace Frame

/-- The frames that lie completely within the first `n` bytes of a stream. -/
def within : List Frame → Nat → List Frame
  | [], _ => []
  | f :: fs, n => if f.encode.length ≤ n then f :: within fs (n - f.encode.length) else []

theorem within_prefix (fs : List Frame) (n : Nat) : within fs n <+: fs := by
  induction fs generalizing n with
  | nil => exact List.prefix_rfl
  | cons f fs ih =>
      unfold within
      by_cases h : f.encode.length ≤ n
      · rw [if_pos h]
        exact List.prefix_cons_inj f |>.2 (ih _)
      · rw [if_neg h]
        exact List.nil_prefix

/-- A buffer that holds a strict prefix of one frame, and so nothing to return. -/
def StrictPrefix (buf : Bytes) (f : Frame) : Prop := buf <+: f.encode ∧ buf ≠ f.encode

theorem length_lt_of_strictPrefix {buf : Bytes} {f : Frame} (h : StrictPrefix buf f) :
    buf.length < f.encode.length := by
  refine lt_of_le_of_ne h.1.length_le fun hlen => h.2 ?_
  exact h.1.eq_of_length hlen

theorem strictPrefix_of_length_lt {buf : Bytes} {f : Frame} (hpre : buf <+: f.encode)
    (hlt : buf.length < f.encode.length) : StrictPrefix buf f := by
  refine ⟨hpre, fun heq => ?_⟩
  rw [heq] at hlt
  exact Nat.lt_irrefl _ hlt

theorem split_of_strictPrefix {buf : Bytes} {f : Frame} (h : StrictPrefix buf f) :
    frameReader.split buf = ([], buf) :=
  frameReader.split_of_next_eq_none
    (ItemReader.next_eq_none_of_prefix f.encodes h.1 h.2)

/-- Splitting a part of a stream gives the frames within it, and leaves a strict prefix of the
next one. -/
theorem split_of_prefix {fs : List Frame} {next : Frame} {tail : Bytes}
    (htail : StrictPrefix tail next) :
    ∀ {part : Bytes}, part <+: fs.flatMap encode ++ tail →
      ∃ f ∈ fs ++ [next], ∃ left, StrictPrefix left f ∧
        frameReader.split part = ((within fs part.length).map payload, left) := by
  induction fs with
  | nil =>
      intro part hpart
      rw [List.flatMap_nil, List.nil_append] at hpart
      have hstrict : StrictPrefix part next :=
        strictPrefix_of_length_lt (hpart.trans htail.1)
          (lt_of_le_of_lt hpart.length_le (length_lt_of_strictPrefix htail))
      exact ⟨next, by simp, part, hstrict, split_of_strictPrefix hstrict⟩
  | cons f fs ih =>
      intro part hpart
      rw [List.flatMap_cons, List.append_assoc] at hpart
      by_cases hlen : f.encode.length ≤ part.length
      · -- The whole of `f` has arrived; go on behind it.
        have hf : f.encode <+: part :=
          List.prefix_of_prefix_length_le (List.prefix_append _ _) hpart hlen
        rcases hf with ⟨rest, hrest⟩
        rw [← hrest] at hpart
        rcases ih ((List.prefix_append_right_inj _).1 hpart) with ⟨g, hg, left, hleft, hsplit⟩
        refine ⟨g, by simp at hg ⊢; exact Or.inr hg, left, hleft, ?_⟩
        rw [← hrest, frameReader.split_of_next_eq_some (f.encodes rest), hsplit]
        simp [within]
      · have hf : part <+: f.encode := by
          rcases List.prefix_or_prefix_of_prefix hpart (List.prefix_append f.encode _) with h | h
          · exact h
          · exact absurd h.length_le hlen
        have hstrict : StrictPrefix part f :=
          strictPrefix_of_length_lt hf (Nat.not_le.1 hlen)
        refine ⟨f, by simp, part, hstrict, ?_⟩
        rw [split_of_strictPrefix hstrict, within, if_neg hlen]
        rfl

/-- Frames without an `Error` among them are a clean batch. -/
theorem scan_map_payload {fs : List Frame} (h : ∀ f ∈ fs, f.message ≠ .error) :
    scan (fs.map payload) = .clean (fs.map message) := by
  induction fs with
  | nil => rfl
  | cons f fs ih =>
      have hrest := ih fun g hg => h g (by simp [hg])
      rw [List.map_cons]
      simp only [scan, f.fromBytes_payload, hrest]
      rw [if_neg (h f (by simp))]
      rfl

end Frame

theorem delivered_append (first second : List ReadResult) :
    delivered (first ++ second) = delivered first ++ delivered second :=
  List.flatMap_append

namespace LMSRecv

/-- A run over a part of a stream: the frames that have arrived completely have been returned, and
the receiver waits with a strict prefix of the next one. -/
theorem calls_of_prefix {fs : List Frame} {next : Frame} {tail : Bytes}
    {script : List ReadResult} (hfs : ∀ f ∈ fs, f.message ≠ .error)
    (htail : Frame.StrictPrefix tail next) (hscript : ∀ r ∈ script, r.Harmless)
    (hbytes : delivered script <+: fs.flatMap Frame.encode ++ tail) :
    ∃ f ∈ fs ++ [next], ∃ (batches : List (List ServerMessage)) (left : Bytes),
      calls (new script) = { results := batches.map .ok, waiting := some left } ∧
      Frame.StrictPrefix left f ∧ (∀ batch ∈ batches, batch ≠ []) ∧
      batches.flatten = (Frame.within fs (delivered script).length).map Frame.message ∧
      frameReader.split (delivered script) =
        ((Frame.within fs (delivered script).length).map Frame.payload, left) := by
  rcases Frame.split_of_prefix htail hbytes with ⟨f, hf, left, hleft, hsplit⟩
  have hclean : scan (frameReader.split ([] ++ delivered script)).1 =
      .clean ((Frame.within fs (delivered script).length).map Frame.message) := by
    rw [List.nil_append, hsplit]
    exact Frame.scan_map_payload fun g hg => hfs g ((Frame.within_prefix fs _).subset hg)
  have hempty : frameReader.next [] = none := rfl
  rcases calls_of_clean hscript hempty hclean with ⟨batches, hcalls, hflatten, hne⟩
  rw [List.nil_append, hsplit] at hcalls
  exact ⟨f, hf, batches, left, hcalls, hleft, hne, hflatten, hsplit⟩

/-- **The receiver reassembles the stream.**  Frames without an `Error` among them, followed by a
strict prefix of one more frame, arrive in reads of any sizes with retries in between.  Then the
batches returned by the successive calls together are the messages in order, and none is empty.
After any number `n` of reads the calls that have returned have returned exactly the frames whose
last byte has been read, and the one that is about to read again holds a strict prefix of a single
frame. -/
theorem calls_reassemble {fs : List Frame} {next : Frame} {tail : Bytes}
    {script : List ReadResult} (hfs : ∀ f ∈ fs, f.message ≠ .error)
    (htail : Frame.StrictPrefix tail next) (hscript : ∀ r ∈ script, r.Harmless)
    (hbytes : delivered script = fs.flatMap Frame.encode ++ tail) :
    ∃ batches : List (List ServerMessage),
      (calls (new script)).results = batches.map .ok ∧
      batches.flatten = fs.map Frame.message ∧
      (∀ batch ∈ batches, batch ≠ []) ∧
      ∀ n, ∃ k, ∃ buf, ∃ f ∈ fs ++ [next],
        calls (new (script.take n)) =
          { results := (batches.take k).map .ok, waiting := some buf } ∧
        (batches.take k).flatten =
          (Frame.within fs (delivered (script.take n)).length).map Frame.message ∧
        Frame.StrictPrefix buf f := by
  have hwhole : delivered script <+: fs.flatMap Frame.encode ++ tail := by
    rw [hbytes]
  rcases calls_of_prefix hfs htail hscript hwhole with
    ⟨_, _, batches, left, hcalls, _, hne, hflatten, hsplit⟩
  have hall : Frame.within fs (delivered script).length = fs := by
    have hframes := ItemReader.split_flatMap_append (fun f (_ : f ∈ fs) => f.encodes) tail
    rw [← hbytes, hsplit, Frame.split_of_strictPrefix htail, List.append_nil] at hframes
    have hlen := congrArg (fun p => p.1.length) hframes
    simp only [List.length_map] at hlen
    exact (Frame.within_prefix fs _).eq_of_length hlen
  refine ⟨batches, by rw [hcalls], by rw [hflatten, hall], hne, fun n => ?_⟩
  have hpart : delivered (script.take n) <+: fs.flatMap Frame.encode ++ tail := by
    rw [← hbytes]
    refine ⟨delivered (script.drop n), ?_⟩
    rw [← delivered_append, List.take_append_drop]
  have hsome : ∀ r ∈ script.take n, r.Harmless := fun r hr => hscript r (List.mem_of_mem_take hr)
  rcases calls_of_prefix hfs htail hsome hpart with
    ⟨f, hf, early, buf, hearly, hbuf, _, hreturned, _⟩
  -- The run goes on from there, so what has been returned is a prefix of all that will be.
  have hgo := calls_append (script.drop n) (congrArg Calls.waiting hearly)
  rw [List.take_append_drop] at hgo
  have hresults : batches.map RecvResult.ok =
      early.map RecvResult.ok ++ (calls ⟨script.drop n, buf⟩).results := by
    have hbefore : (calls ⟨script.take n, []⟩).results = early.map RecvResult.ok :=
      congrArg Calls.results hearly
    rw [← hbefore]
    exact (congrArg Calls.results hcalls).symm.trans (congrArg Calls.results hgo)
  have htake : batches.take early.length = early := by
    have hmap := congrArg (List.take early.length) hresults
    rw [← List.map_take, List.take_left' (by simp)] at hmap
    exact List.map_injective_iff.2 (fun a b hab => by injection hab) hmap
  refine ⟨early.length, buf, f, hf, ?_, ?_, hbuf⟩
  · rw [htake, hearly]
  · rw [htake, hreturned]

/-- Two frames and the beginning of a third, cut inside a payload and inside a length field. -/
theorem calls_reassemble_setd :
    ∃ batches : List (List ServerMessage),
      (calls (new
        [.ok [0, 5, 115, 101] (by decide), .err ⟨.interrupted, "again"⟩,
          .ok [116, 100, 4, 0] (by decide), .ok [5, 115, 101, 116, 100, 0, 0, 5, 115]
          (by decide)])).results = batches.map .ok ∧
      batches.flatten = [.disableDac, .queryname] := by
  rcases @calls_reassemble
      [⟨[115, 101, 116, 100, 4], by decide, by decide⟩,
        ⟨[115, 101, 116, 100, 0], by decide, by decide⟩]
      ⟨[115, 101, 116, 100, 0], by decide, by decide⟩ [0, 5, 115]
      [.ok [0, 5, 115, 101] (by decide), .err ⟨.interrupted, "again"⟩,
        .ok [116, 100, 4, 0] (by decide), .ok [5, 115, 101, 116, 100, 0, 0, 5, 115] (by decide)]
      (by decide) ⟨by decide, by decide⟩ (by decide) (by decide) with
    ⟨batches, hresults, hflatten, _⟩
  exact ⟨batches, hresults, hflatten⟩

end LMSRecv

end LmsProto
end LmsPlayer
