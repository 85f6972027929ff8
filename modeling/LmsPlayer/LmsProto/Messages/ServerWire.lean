import LmsPlayer.LmsProto.Messages.Server
import Mathlib.Tactic.FieldSimp

/-!
# Messages.ServerWire — what the server's format says

Two readings of the format that do not mention the parser:

* `Malformed` — the payloads that are too short for their opcode, and the stream commands with a
  byte outside the set of its field;
* `referenceEncoding` — a message written field by field at its protocol offsets, with any bytes in
  the places the format does not use.

The parser answers `ServerMessage::Error` on exactly the malformed payloads, panics on exactly the
payloads without a whole opcode, and reads every representable message back from its encoding.
-/

namespace LmsPlayer
namespace LmsProto
namespace ServerMessage

open ByteCursor (Cursor Outcome)
open ByteCursor.Cursor
open ByteLayout
open Utf8 (utf8Bytes)

/-! ## Malformed payloads -/

/-- Some field of a `strm` body holds a byte that stands for no value. -/
def OutOfSet (body : Bytes) : Prop :=
  byteAt body 1 ∉ utf8Bytes "0123" ∨
    byteAt body 2 ∉ utf8Bytes "pmfwoal" ∨
    byteAt body 3 ∉ utf8Bytes "0123?" ∨
    byteAt body 4 ∉ utf8Bytes "0123456789?" ∨
    byteAt body 5 ∉ utf8Bytes "12?" ∨
    byteAt body 6 ∉ utf8Bytes "01?" ∨
    byteAt body 8 ∉ [0, 1, 2] ∨
    byteAt body 10 ∉ utf8Bytes "01234"

/-- The payloads that are no message. -/
def Malformed (payload : Bytes) : Prop :=
  let opcode := payload.take 4
  let body := payload.drop 4
  (opcode = utf8Bytes "serv" ∧ body.length < 4) ∨
    (opcode = utf8Bytes "strm" ∧ body.length < 24) ∨
    (opcode = utf8Bytes "aude" ∧ body.length < 2) ∨
    (opcode = utf8Bytes "audg" ∧ body.length < 18) ∨
    (opcode = utf8Bytes "setd" ∧ body.length < 1) ∨
    (opcode = utf8Bytes "strm" ∧ byteAt body 0 = byte 's' ∧ OutOfSet body)

instance (body : Bytes) : Decidable (OutOfSet body) := by
  unfold OutOfSet
  infer_instance

instance : DecidablePred Malformed := by
  intro payload
  unfold Malformed
  infer_instance

/-! ## One lemma for each part of the parser -/

/-- The parser answers `Error` in the case `bad`, and otherwise yields another message. -/
def Decides (o : Outcome ServerMessage) (bad : Prop) : Prop :=
  (bad → o = .reject) ∧ (¬ bad → ∃ msg rest, o = .ok msg rest ∧ msg ≠ error)

variable {buf : Bytes} {n k : Nat} {α : Type}

theorem runAt_bind_requireLen (f : Unit → Cursor α) :
    (requireLen n >>= f).runAt buf k =
      if buf.length - k < n then .reject else (f ()).runAt buf k := by
  by_cases h : buf.length - k < n
  · rw [if_pos h]
    apply run_bind_of_reject
    show (remaining >>= _).runAt buf k = .reject
    rw [runAt_bind_remaining, if_pos h]
    rfl
  · rw [if_neg h]
    apply run_bind_of_ok
    show (remaining >>= _).runAt buf k = _
    rw [runAt_bind_remaining, if_neg h]
    rfl

theorem runAt_bind_getField_of_some {table : List (UInt8 × α)} {a : α} {β : Type}
    (f : α → Cursor β) (hk : k < buf.length) (h : table.lookup (byteAt buf k) = some a) :
    (getField table >>= f).runAt buf k = (f a).runAt buf (k + 1) := by
  apply run_bind_of_ok
  show (getByte >>= _).runAt buf k = _
  rw [runAt_bind_getByte _ hk, h]
  rfl

theorem runAt_bind_getIpv4 (f : Ipv4Addr → Cursor α) (h : k + 4 ≤ buf.length) :
    (getIpv4 >>= f).runAt buf k =
      (f { bits := UInt32.ofNat (uintAt buf k 4) }).runAt buf (k + 4) := by
  apply run_bind_of_ok
  show (getUInt 4 >>= _).runAt buf k = _
  rw [runAt_bind_getUInt _ h]
  rfl

theorem runAt_bind_parseTimestamp (f : Duration → Cursor α) (h : k + 17 ≤ buf.length) :
    (parseTimestamp >>= f).runAt buf k =
      (f (Duration.fromMillis (uintAt buf (k + 13) 4))).runAt buf (k + 17) := by
  apply run_bind_of_ok
  show (advance 13 >>= _).runAt buf k = _
  rw [runAt_bind_advance _ (by omega), runAt_bind_getUInt _ (by omega)]
  rfl

/-- A byte has no entry in a table when it is not one of the table's bytes. -/
theorem lookup_eq_none_iff {table : List (UInt8 × α)} {b : UInt8} :
    table.lookup b = none ↔ b ∉ table.map Prod.fst := by
  induction table with
  | nil => simp
  | cons p table ih =>
      by_cases h : b = p.1
      · simp [h]
      · have hbeq : (b == p.1) = false := beq_false_of_ne h
        rw [List.lookup_cons, hbeq]
        simp [ih, h]

theorem lookup_eq_some_of_mem (table : List (UInt8 × α)) {b : UInt8}
    (h : b ∈ table.map Prod.fst) : ∃ a, table.lookup b = some a := by
  cases hlookup : table.lookup b with
  | none => exact absurd h (lookup_eq_none_iff.1 hlookup)
  | some a => exact ⟨a, rfl⟩

/-- Reading a table field rejects when its byte is in no entry, or when what follows rejects. -/
theorem runAt_bind_getField_eq_reject {table : List (UInt8 × α)} {β : Type} {f : α → Cursor β}
    (hk : k < buf.length)
    (h : byteAt buf k ∈ table.map Prod.fst → ∀ a, (f a).runAt buf (k + 1) = .reject) :
    (getField table >>= f).runAt buf k = .reject := by
  cases hlookup : table.lookup (byteAt buf k) with
  | none =>
      apply run_bind_of_reject
      show (getByte >>= _).runAt buf k = _
      rw [runAt_bind_getByte _ hk, hlookup]
      rfl
  | some a =>
      have hmem : byteAt buf k ∈ table.map Prod.fst := by
        by_contra hnot
        exact absurd hlookup (by simp [lookup_eq_none_iff.2 hnot])
      rw [runAt_bind_getField_of_some f hk hlookup]
      exact h hmem a

/-- The message of a stream command whose eight table fields have been looked up. -/
theorem run_parseStream {body : Bytes} {autostart : AutoStart} {format : Format}
    {pcmsamplesize : PcmSampleSize} {pcmsamplerate : PcmSampleRate} {pcmchannels : PcmChannels}
    {pcmendian : PcmEndian} {spdifEnable : SpdifEnable} {transType : TransType}
    (hlen : 24 ≤ body.length)
    (hautostart : AutoStart.table.lookup (byteAt body 1) = some autostart)
    (hformat : Format.table.lookup (byteAt body 2) = some format)
    (hsize : PcmSampleSize.table.lookup (byteAt body 3) = some pcmsamplesize)
    (hrate : PcmSampleRate.table.lookup (byteAt body 4) = some pcmsamplerate)
    (hchannels : PcmChannels.table.lookup (byteAt body 5) = some pcmchannels)
    (hendian : PcmEndian.table.lookup (byteAt body 6) = some pcmendian)
    (hspdif : SpdifEnable.table.lookup (byteAt body 8) = some spdifEnable)
    (htrans : TransType.table.lookup (byteAt body 10) = some transType) :
    parseStream.runAt body 1 =
      .ok (stream
        { autostart := autostart
          format := format
          pcmsamplesize := pcmsamplesize
          pcmsamplerate := pcmsamplerate
          pcmchannels := pcmchannels
          pcmendian := pcmendian
          threshold := (byteAt body 7).toUInt32 * 1024
          spdifEnable := spdifEnable
          transPeriod := Duration.fromSecs (byteAt body 9).toNat
          transType := transType
          flags := (StreamFlags.fromBits (byteAt body 11)).getD StreamFlags.empty
          outputThreshold := Duration.fromMillis ((byteAt body 12).toNat * 100)
          replayGain := gainFactor (uintAt body 14 4)
          serverPort := UInt16.ofNat (uintAt body 18 2)
          serverIp := { bits := UInt32.ofNat (uintAt body 20 4) }
          httpHeaders :=
            if (restAt body 24).isEmpty then none
            else some (Utf8.fromUtf8Lossy (restAt body 24)) }) [] := by
  unfold parseStream
  rw [runAt_bind_getField_of_some _ (by omega) hautostart,
    runAt_bind_getField_of_some _ (by omega) hformat,
    runAt_bind_getField_of_some _ (by omega) hsize,
    runAt_bind_getField_of_some _ (by omega) hrate,
    runAt_bind_getField_of_some _ (by omega) hchannels,
    runAt_bind_getField_of_some _ (by omega) hendian,
    runAt_bind_getByte _ (by omega),
    runAt_bind_getField_of_some _ (by omega) hspdif,
    runAt_bind_getByte _ (by omega),
    runAt_bind_getField_of_some _ (by omega) htrans,
    runAt_bind_getByte _ (by omega), runAt_bind_getByte _ (by omega),
    runAt_bind_advance _ (by omega), runAt_bind_getUInt _ (by omega),
    runAt_bind_getUInt _ (by omega), runAt_bind_getIpv4 _ (by omega), runAt_bind_takeRest,
    runAt_pure, List.drop_length]

theorem decides_parseStream {body : Bytes} (hlen : 24 ≤ body.length) :
    Decides (parseStream.runAt body 1) (OutOfSet body) := by
  constructor
  · intro hbad
    unfold parseStream
    -- The fields are looked up in order; the first one outside its set ends the parse.
    refine runAt_bind_getField_eq_reject (by omega) fun h1 _ => ?_
    refine runAt_bind_getField_eq_reject (by omega) fun h2 _ => ?_
    refine runAt_bind_getField_eq_reject (by omega) fun h3 _ => ?_
    refine runAt_bind_getField_eq_reject (by omega) fun h4 _ => ?_
    refine runAt_bind_getField_eq_reject (by omega) fun h5 _ => ?_
    refine runAt_bind_getField_eq_reject (by omega) fun h6 _ => ?_
    rw [runAt_bind_getByte _ (by omega)]
    refine runAt_bind_getField_eq_reject (by omega) fun h8 _ => ?_
    rw [runAt_bind_getByte _ (by omega)]
    refine runAt_bind_getField_eq_reject (by omega) fun h10 _ => ?_
    rcases hbad with h | h | h | h | h | h | h | h
    · exact absurd h1 h
    · exact absurd h2 h
    · exact absurd h3 h
    · exact absurd h4 h
    · exact absurd h5 h
    · exact absurd h6 h
    · exact absurd h8 h
    · exact absurd h10 h
  · intro hgood
    simp only [OutOfSet, not_or, not_not] at hgood
    rcases hgood with ⟨h1, h2, h3, h4, h5, h6, h8, h10⟩
    rcases lookup_eq_some_of_mem AutoStart.table h1 with ⟨_, h1⟩
    rcases lookup_eq_some_of_mem Format.table h2 with ⟨_, h2⟩
    rcases lookup_eq_some_of_mem PcmSampleSize.table h3 with ⟨_, h3⟩
    rcases lookup_eq_some_of_mem PcmSampleRate.table h4 with ⟨_, h4⟩
    rcases lookup_eq_some_of_mem PcmChannels.table h5 with ⟨_, h5⟩
    rcases lookup_eq_some_of_mem PcmEndian.table h6 with ⟨_, h6⟩
    rcases lookup_eq_some_of_mem SpdifEnable.table h8 with ⟨_, h8⟩
    rcases lookup_eq_some_of_mem TransType.table h10 with ⟨_, h10⟩
    exact ⟨_, _, run_parseStream hlen h1 h2 h3 h4 h5 h6 h8 h10, by simp⟩

theorem parseServ_runAt {body : Bytes} (hlen : 4 ≤ body.length) :
    parseServ.runAt body 0 =
      .ok (serv { bits := UInt32.ofNat (uintAt body 0 4) }
        (if (restAt body 4).isEmpty then none else some (latin1 (restAt body 4)))) [] := by
  unfold parseServ
  rw [runAt_bind_requireLen, if_neg (by omega), runAt_bind_getIpv4 _ (by omega),
    runAt_bind_takeRest, runAt_pure, List.drop_length]

theorem decides_parseServ (body : Bytes) :
    Decides (parseServ.runAt body 0) (body.length < 4) := by
  constructor
  · intro hshort
    unfold parseServ
    rw [runAt_bind_requireLen, if_pos (by omega)]
  · intro hlen
    exact ⟨_, _, parseServ_runAt (by omega), by simp⟩

theorem parseAude_runAt {body : Bytes} (hlen : 2 ≤ body.length) :
    parseAude.runAt body 0 =
      .ok (enable (byteAt body 0 ≠ 0) (byteAt body 1 ≠ 0)) (body.drop 2) := by
  unfold parseAude
  rw [runAt_bind_requireLen, if_neg (by omega), runAt_bind_getByte _ (by omega),
    runAt_bind_getByte _ (by omega), runAt_pure]

theorem decides_parseAude (body : Bytes) :
    Decides (parseAude.runAt body 0) (body.length < 2) := by
  constructor
  · intro hshort
    unfold parseAude
    rw [runAt_bind_requireLen, if_pos (by omega)]
  · intro hlen
    exact ⟨_, _, parseAude_runAt (by omega), by simp⟩

theorem parseAudg_runAt {body : Bytes} (hlen : 18 ≤ body.length) :
    parseAudg.runAt body 0 =
      .ok (gain (gainFactor (uintAt body 10 4)) (gainFactor (uintAt body 14 4)))
        (body.drop 18) := by
  unfold parseAudg
  rw [runAt_bind_requireLen, if_neg (by omega), runAt_bind_advance _ (by omega),
    runAt_bind_getUInt _ (by omega), runAt_bind_getUInt _ (by omega), runAt_pure]

theorem decides_parseAudg (body : Bytes) :
    Decides (parseAudg.runAt body 0) (body.length < 18) := by
  constructor
  · intro hshort
    unfold parseAudg
    rw [runAt_bind_requireLen, if_pos (by omega)]
  · intro hlen
    exact ⟨_, _, parseAudg_runAt (by omega), by simp⟩

/-- The message of a `setd` body. -/
def setdMessage (body : Bytes) : ServerMessage :=
  if byteAt body 0 = 0 then
    if (restAt body 1).isEmpty then queryname
    else setname ((Utf8.fromUtf8 (restAt body 1).dropLast).getD "")
  else if byteAt body 0 = 4 then disableDac
  else unrecognised ("This SETD is unused: " ++ toString (byteAt body 0).toNat)

theorem parseSetd_runAt {body : Bytes} (hlen : 1 ≤ body.length) :
    ∃ rest, parseSetd.runAt body 0 = .ok (setdMessage body) rest := by
  unfold parseSetd setdMessage
  rw [runAt_bind_requireLen, if_neg (by omega), runAt_bind_getByte _ (by omega)]
  by_cases h0 : byteAt body 0 = 0
  · rw [if_pos h0, if_pos h0, runAt_bind_takeRest]
    by_cases hrest : (restAt body 1).isEmpty
    · rw [if_pos hrest, if_pos hrest]
      exact ⟨_, rfl⟩
    · rw [if_neg hrest, if_neg hrest]
      exact ⟨_, rfl⟩
  · rw [if_neg h0, if_neg h0]
    by_cases h4 : byteAt body 0 = 4
    · rw [if_pos h4, if_pos h4]
      exact ⟨_, rfl⟩
    · rw [if_neg h4, if_neg h4]
      exact ⟨_, rfl⟩

theorem setdMessage_ne_error (body : Bytes) : setdMessage body ≠ error := by
  unfold setdMessage
  split_ifs <;> simp

theorem decides_parseSetd (body : Bytes) :
    Decides (parseSetd.runAt body 0) (body.length < 1) := by
  constructor
  · intro hshort
    unfold parseSetd
    rw [runAt_bind_requireLen, if_pos (by omega)]
  · intro hlen
    rcases @parseSetd_runAt body (by omega) with ⟨rest, hrun⟩
    exact ⟨_, rest, hrun, setdMessage_ne_error body⟩

/-- The message of a `strm` body whose command is not `s`. -/
def strmMessage (msg : String) (body : Bytes) : ServerMessage :=
  let timestamp := Duration.fromMillis (uintAt body 14 4)
  if byteAt body 0 = byte 't' then status timestamp
  else if byteAt body 0 = byte 'q' then stop
  else if byteAt body 0 = byte 'f' then flush
  else if byteAt body 0 = byte 'p' then pause timestamp
  else if byteAt body 0 = byte 'u' then unpause timestamp
  else if byteAt body 0 = byte 'a' then skip timestamp
  else unrecognised ((msg.push '_').push (Char.ofNat (byteAt body 0).toNat))

theorem parseStrm_runAt {msg : String} {body : Bytes} (hlen : 24 ≤ body.length)
    (hs : byteAt body 0 ≠ byte 's') :
    ∃ rest, (parseStrm msg).runAt body 0 = .ok (strmMessage msg body) rest := by
  have htimestamp : ∀ f : Duration → Cursor ServerMessage,
      (parseTimestamp >>= f).runAt body 1 =
        (f (Duration.fromMillis (uintAt body 14 4))).runAt body 18 :=
    fun f => runAt_bind_parseTimestamp f (by omega)
  unfold parseStrm strmMessage
  rw [runAt_bind_requireLen, if_neg (by omega), runAt_bind_getByte _ (by omega)]
  dsimp only
  rw [if_neg hs]
  split_ifs
  · rw [htimestamp]
    exact ⟨_, rfl⟩
  · exact ⟨_, rfl⟩
  · exact ⟨_, rfl⟩
  · rw [htimestamp]
    exact ⟨_, rfl⟩
  · rw [htimestamp]
    exact ⟨_, rfl⟩
  · rw [htimestamp]
    exact ⟨_, rfl⟩
  · exact ⟨_, rfl⟩

theorem parseStrm_runAt_stream {msg : String} {body : Bytes} (hlen : 24 ≤ body.length)
    (hs : byteAt body 0 = byte 's') :
    (parseStrm msg).runAt body 0 = parseStream.runAt body 1 := by
  have ht : byteAt body 0 ≠ byte 't' := by
    rw [hs]
    decide
  unfold parseStrm
  rw [runAt_bind_requireLen, if_neg (by omega), runAt_bind_getByte _ (by omega), if_neg ht,
    if_pos hs]

theorem strmMessage_ne_error (msg : String) (body : Bytes) : strmMessage msg body ≠ error := by
  unfold strmMessage
  dsimp only
  split_ifs <;> simp

theorem decides_parseStrm (msg : String) (body : Bytes) :
    Decides ((parseStrm msg).runAt body 0)
      (body.length < 24 ∨ (byteAt body 0 = byte 's' ∧ OutOfSet body)) := by
  by_cases hlen : body.length < 24
  · refine ⟨fun _ => ?_, fun hgood => absurd (Or.inl hlen) hgood⟩
    unfold parseStrm
    rw [runAt_bind_requireLen, if_pos (by omega)]
  · by_cases hs : byteAt body 0 = byte 's'
    · rw [parseStrm_runAt_stream (by omega) hs]
      have hstream := @decides_parseStream body (by omega)
      refine ⟨fun hbad => hstream.1 ?_, fun hgood => hstream.2 ?_⟩
      · rcases hbad with h | h
        · exact absurd h hlen
        · exact h.2
      · exact fun h => hgood (Or.inr ⟨hs, h⟩)
    · rcases @parseStrm_runAt msg body (by omega) hs with ⟨rest, hrun⟩
      refine ⟨fun hbad => ?_, fun _ => ⟨_, rest, hrun, strmMessage_ne_error msg body⟩⟩
      rcases hbad with h | h
      · exact absurd h hlen
      · exact absurd h.1 hs

/-! ## The whole parser -/

/-- A four-letter opcode is recognised by its bytes, although it is compared as lossy text. -/
theorem fromUtf8Lossy_eq_iff {opcode : Bytes} {s : String} (hs : Utf8.replacement ∉ s.toList) :
    Utf8.fromUtf8Lossy opcode = s ↔ opcode = utf8Bytes s := by
  constructor
  · intro h
    exact Utf8.eq_utf8Bytes_of_fromUtf8Lossy_eq h hs
  · intro h
    rw [h, Utf8.fromUtf8Lossy_utf8Bytes]

/-- Which part of the parser an opcode selects. -/
theorem parse_run {payload : Bytes} (hlen : 4 ≤ payload.length) :
    parse.run payload =
      let opcode := payload.take 4
      let body := payload.drop 4
      if opcode = utf8Bytes "serv" then parseServ.runAt body 0
      else if opcode = utf8Bytes "strm" then (parseStrm "strm").runAt body 0
      else if opcode = utf8Bytes "aude" then parseAude.runAt body 0
      else if opcode = utf8Bytes "audg" then parseAudg.runAt body 0
      else if opcode = utf8Bytes "setd" then parseSetd.runAt body 0
      else .ok (unrecognised (Utf8.fromUtf8Lossy opcode)) body := by
  have hserv := @fromUtf8Lossy_eq_iff (payload.take 4) "serv" (by decide)
  have hstrm := @fromUtf8Lossy_eq_iff (payload.take 4) "strm" (by decide)
  have haude := @fromUtf8Lossy_eq_iff (payload.take 4) "aude" (by decide)
  have haudg := @fromUtf8Lossy_eq_iff (payload.take 4) "audg" (by decide)
  have hsetd := @fromUtf8Lossy_eq_iff (payload.take 4) "setd" (by decide)
  have hop : fieldAt payload 0 4 = payload.take 4 := rfl
  unfold parse
  rw [run_eq_runAt_zero, runAt_bind_splitTo _ (by omega), hop]
  dsimp only
  simp only [hserv, hstrm, haude, haudg, hsetd]
  split_ifs with h1 h2 h3 h4 h5
  · exact (runAt_drop _ payload 4 0).symm
  · rw [hstrm.2 h2]
    exact (runAt_drop _ payload 4 0).symm
  · exact (runAt_drop _ payload 4 0).symm
  · exact (runAt_drop _ payload 4 0).symm
  · exact (runAt_drop _ payload 4 0).symm
  · exact runAt_pure _

theorem Decides.congr {o : Outcome ServerMessage} {bad bad' : Prop} (h : Decides o bad)
    (hiff : bad' ↔ bad) : Decides o bad' :=
  ⟨fun hbad => h.1 (hiff.1 hbad), fun hgood => h.2 fun hbad => hgood (hiff.2 hbad)⟩

theorem decides_parse {payload : Bytes} (hlen : 4 ≤ payload.length) :
    Decides (parse.run payload) (Malformed payload) := by
  have hserv : utf8Bytes "serv" = [115, 101, 114, 118] := by decide
  have hstrm : utf8Bytes "strm" = [115, 116, 114, 109] := by decide
  have haude : utf8Bytes "aude" = [97, 117, 100, 101] := by decide
  have haudg : utf8Bytes "audg" = [97, 117, 100, 103] := by decide
  have hsetd : utf8Bytes "setd" = [115, 101, 116, 100] := by decide
  rw [parse_run hlen]
  unfold Malformed
  dsimp only
  -- Every opcode leaves the cases of `Malformed` that name it.
  by_cases h1 : payload.take 4 = utf8Bytes "serv"
  · rw [if_pos h1]
    exact (decides_parseServ _).congr (by simp [h1, hserv, hstrm, haude, haudg, hsetd])
  rw [if_neg h1]
  by_cases h2 : payload.take 4 = utf8Bytes "strm"
  · rw [if_pos h2]
    exact (decides_parseStrm _ _).congr (by simp [h2, hserv, hstrm, haude, haudg, hsetd])
  rw [if_neg h2]
  by_cases h3 : payload.take 4 = utf8Bytes "aude"
  · rw [if_pos h3]
    exact (decides_parseAude _).congr (by simp [h3, hserv, hstrm, haude, haudg, hsetd])
  rw [if_neg h3]
  by_cases h4 : payload.take 4 = utf8Bytes "audg"
  · rw [if_pos h4]
    exact (decides_parseAudg _).congr (by simp [h4, hserv, hstrm, haude, haudg, hsetd])
  rw [if_neg h4]
  by_cases h5 : payload.take 4 = utf8Bytes "setd"
  · rw [if_pos h5]
    exact (decides_parseSetd _).congr (by simp [h5, hserv, hstrm, haude, haudg, hsetd])
  rw [if_neg h5]
  refine ⟨fun hbad => ?_, fun _ => ⟨_, _, rfl, by simp⟩⟩
  simp [h1, h2, h3, h4, h5] at hbad

theorem fromBytes_eq_error_iff {payload : Bytes} (hlen : 4 ≤ payload.length) :
    fromBytes payload = some error ↔ Malformed payload := by
  have hdecides := decides_parse hlen
  unfold fromBytes
  by_cases hbad : Malformed payload
  · simp [hdecides.1 hbad, hbad]
  · rcases hdecides.2 hbad with ⟨msg, rest, hrun, hne⟩
    simp [hrun, hbad, hne]

/-- The conversion panics exactly on the payloads without a whole opcode. -/
theorem isSome_fromBytes_iff (payload : Bytes) :
    (fromBytes payload).isSome ↔ 4 ≤ payload.length := by
  unfold fromBytes
  by_cases hlen : 4 ≤ payload.length
  · have hdecides := decides_parse hlen
    by_cases hbad : Malformed payload
    · simp [hdecides.1 hbad, hlen]
    · rcases hdecides.2 hbad with ⟨msg, rest, hrun, _⟩
      simp [hrun, hlen]
  · have hpanic : parse.run payload = .panic := by
      unfold parse
      apply run_bind_of_panic
      exact runAt_splitTo_of_lt (k := 0) (by omega) (by decide)
    simp [hpanic, hlen]

end ServerMessage

/-! ## The reference encoding -/

def AutoStart.wireByte : AutoStart → UInt8
  | .none => byte '0'
  | .auto => byte '1'
  | .direct => byte '2'
  | .autoDirect => byte '3'

def Format.wireByte : Format → UInt8
  | .pcm => byte 'p'
  | .mp3 => byte 'm'
  | .flac => byte 'f'
  | .wma => byte 'w'
  | .ogg => byte 'o'
  | .aac => byte 'a'
  | .alac => byte 'l'

def PcmSampleSize.wireByte : PcmSampleSize → UInt8
  | .eight => byte '0'
  | .sixteen => byte '1'
  | .twenty => byte '2'
  | .thirtyTwo => byte '3'
  | .selfDescribing => byte '?'

/-- The sample rates of the protocol, in the order of their digits. -/
def PcmSampleRate.wireRates : List UInt32 :=
  [11000, 22000, 32000, 44100, 48000, 8000, 12000, 16000, 24000, 96000]

def PcmSampleRate.wireByte : PcmSampleRate → UInt8
  | .rate hz => byte '0' + UInt8.ofNat (wireRates.idxOf hz)
  | .selfDescribing => byte '?'

def PcmChannels.wireByte : PcmChannels → UInt8
  | .mono => byte '1'
  | .stereo => byte '2'
  | .selfDescribing => byte '?'

def PcmEndian.wireByte : PcmEndian → UInt8
  | .big => byte '0'
  | .little => byte '1'
  | .selfDescribing => byte '?'

def SpdifEnable.wireByte : SpdifEnable → UInt8
  | .auto => 0
  | .on => 1
  | .off => 2

def TransType.wireByte : TransType → UInt8
  | .none => byte '0'
  | .crossfade => byte '1'
  | .fadeIn => byte '2'
  | .fadeOut => byte '3'
  | .fadeInOut => byte '4'

theorem AutoStart.lookup_wireByte (v : AutoStart) : table.lookup v.wireByte = some v := by
  cases v <;> rfl

theorem Format.lookup_wireByte (v : Format) : table.lookup v.wireByte = some v := by
  cases v <;> rfl

theorem PcmSampleSize.lookup_wireByte (v : PcmSampleSize) :
    table.lookup v.wireByte = some v := by
  cases v <;> rfl

theorem PcmSampleRate.lookup_wireByte {v : PcmSampleRate}
    (h : ∀ hz, v = .rate hz → hz ∈ wireRates) : table.lookup v.wireByte = some v := by
  have hrates : wireRates.all
      (fun hz => table.lookup (wireByte (.rate hz)) == some (.rate hz)) = true := by
    decide
  cases v with
  | rate hz => exact eq_of_beq (List.all_eq_true.1 hrates hz (h hz rfl))
  | selfDescribing => rfl

theorem PcmChannels.lookup_wireByte (v : PcmChannels) : table.lookup v.wireByte = some v := by
  cases v <;> rfl

theorem PcmEndian.lookup_wireByte (v : PcmEndian) : table.lookup v.wireByte = some v := by
  cases v <;> rfl

theorem SpdifEnable.lookup_wireByte (v : SpdifEnable) : table.lookup v.wireByte = some v := by
  cases v <;> rfl

theorem TransType.lookup_wireByte (v : TransType) : table.lookup v.wireByte = some v := by
  cases v <;> rfl

namespace ServerMessage

open ByteCursor (Cursor Outcome)
open ByteCursor.Cursor
open ByteLayout
open Utf8 (utf8Bytes)

/-- The bytes the format does not use, from offset `lo` of the body up to `hi`. -/
def gap (unused : Nat → UInt8) (lo hi : Nat) : Bytes :=
  (List.range (hi - lo)).map fun i => unused (lo + i)

@[simp] theorem length_gap (unused : Nat → UInt8) (lo hi : Nat) :
    (gap unused lo hi).length = hi - lo := by
  simp [gap]

/-- A gain as 16.16 fixed point. -/
def fixedPoint (g : ℚ) : Nat := (g * 65536).num.toNat

def boolByte (b : Bool) : UInt8 := if b then 1 else 0

/-- A `strm` body that carries a timestamp only: command at 0, milliseconds at 14. -/
def timestampBody (unused : Nat → UInt8) (cmd : Char) (timestamp : Duration) : Bytes :=
  byte cmd :: (gap unused 1 14 ++ (BigEndian.toBytes 4 timestamp.asMillis ++ gap unused 18 24))

/-- What follows the fourteen single-byte fields of a stream body: gain, port, address, headers. -/
def streamTail (f : StreamFields) : Bytes :=
  BigEndian.toBytes 4 (fixedPoint f.replayGain) ++
    (BigEndian.toBytes 2 f.serverPort.toNat ++
      (BigEndian.toBytes 4 f.serverIp.bits.toNat ++ (f.httpHeaders.map utf8Bytes).getD []))

/-- A `strm` body that starts a stream. -/
def streamBody (unused : Nat → UInt8) (f : StreamFields) : Bytes :=
  byte 's' ::
    f.autostart.wireByte ::
    f.format.wireByte ::
    f.pcmsamplesize.wireByte ::
    f.pcmsamplerate.wireByte ::
    f.pcmchannels.wireByte ::
    f.pcmendian.wireByte ::
    UInt8.ofNat (f.threshold.toNat / 1024) ::
    f.spdifEnable.wireByte ::
    UInt8.ofNat f.transPeriod.asSecs ::
    f.transType.wireByte ::
    f.flags.bits ::
    UInt8.ofNat (f.outputThreshold.asMillis / 100) ::
    unused 13 ::
    streamTail f

/-- A message as the server writes it; `Unrecognised` and `Error` are not messages of the
format. -/
def referenceEncoding (unused : Nat → UInt8) : ServerMessage → Bytes
  | serv ipAddress syncGroupId =>
      utf8Bytes "serv" ++ (BigEndian.toBytes 4 ipAddress.bits.toNat ++
        (syncGroupId.map fun group => group.toList.map byte).getD [])
  | status timestamp => utf8Bytes "strm" ++ timestampBody unused 't' timestamp
  | stream fields => utf8Bytes "strm" ++ streamBody unused fields
  | gain left right =>
      utf8Bytes "audg" ++ (gap unused 0 10 ++ (BigEndian.toBytes 4 (fixedPoint left) ++
        BigEndian.toBytes 4 (fixedPoint right)))
  | enable spdif dac => utf8Bytes "aude" ++ [boolByte spdif, boolByte dac]
  | flush => utf8Bytes "strm" ++ byte 'f' :: gap unused 1 24
  | stop => utf8Bytes "strm" ++ byte 'q' :: gap unused 1 24
  | pause timestamp => utf8Bytes "strm" ++ timestampBody unused 'p' timestamp
  | unpause timestamp => utf8Bytes "strm" ++ timestampBody unused 'u' timestamp
  | queryname => utf8Bytes "setd" ++ [0]
  | setname name => utf8Bytes "setd" ++ 0 :: (utf8Bytes name ++ [0])
  | disableDac => utf8Bytes "setd" ++ [4]
  | skip timestamp => utf8Bytes "strm" ++ timestampBody unused 'a' timestamp
  | unrecognised _ => []
  | error => []

/-- Whole milliseconds in a `u32`. -/
def MillisTimestamp (d : Duration) : Prop := ∃ ms < 2 ^ 32, d = Duration.fromMillis ms

/-- A gain of 16.16 fixed point. -/
def FixedPointGain (g : ℚ) : Prop := ∃ v : Nat, v < 2 ^ 32 ∧ g = (v : ℚ) / 65536

/-- The messages whose fields fit their places on the wire. -/
def Representable : ServerMessage → Prop
  | serv _ syncGroupId =>
      ∀ group ∈ syncGroupId, group ≠ "" ∧ ∀ c ∈ group.toList, c.toNat < 256
  | status timestamp => MillisTimestamp timestamp
  | stream f =>
      (∀ hz, f.pcmsamplerate = .rate hz → hz ∈ PcmSampleRate.wireRates) ∧
        (∃ kib < 256, f.threshold.toNat = kib * 1024) ∧
        (∃ secs < 256, f.transPeriod = Duration.fromSecs secs) ∧
        (∃ tenths < 256, f.outputThreshold = Duration.fromMillis (tenths * 100)) ∧
        FixedPointGain f.replayGain ∧
        ∀ headers ∈ f.httpHeaders, headers ≠ ""
  | gain left right => FixedPointGain left ∧ FixedPointGain right
  | pause timestamp => MillisTimestamp timestamp
  | unpause timestamp => MillisTimestamp timestamp
  | skip timestamp => MillisTimestamp timestamp
  | unrecognised _ => False
  | error => False
  | enable _ _ | flush | stop | queryname | setname _ | disableDac => True

/-! ## Reading the encoding back -/

theorem fixedPoint_of_div (v : Nat) : fixedPoint ((v : ℚ) / 65536) = v := by
  have hmul : (v : ℚ) / 65536 * 65536 = ((v : Int) : ℚ) := by
    field_simp
    rfl
  unfold fixedPoint
  rw [hmul]
  rfl

theorem uintAt_fixedPoint_append {g : ℚ} (h : FixedPointGain g) (rest : Bytes) :
    gainFactor (uintAt (BigEndian.toBytes 4 (fixedPoint g) ++ rest) 0 4) = g := by
  rcases h with ⟨v, hv, rfl⟩
  rw [fixedPoint_of_div, uintAt_toBytes_append hv]
  rfl

theorem fromMillis_asMillis {d : Duration} (h : MillisTimestamp d) :
    Duration.fromMillis d.asMillis = d ∧ d.asMillis < 2 ^ 32 := by
  rcases h with ⟨ms, hms, rfl⟩
  rw [Duration.asMillis_fromMillis]
  exact ⟨rfl, hms⟩

theorem fromBytes_of_run {payload rest : Bytes} {msg : ServerMessage}
    (h : parse.run payload = .ok msg rest) : fromBytes payload = some msg := by
  unfold fromBytes
  rw [h]

/-- Behind its opcode a body is parsed from its own offset zero. -/
theorem parse_run_append {opcode : Bytes} (hop : opcode.length = 4) (body : Bytes) :
    parse.run (opcode ++ body) =
      if opcode = utf8Bytes "serv" then parseServ.runAt body 0
      else if opcode = utf8Bytes "strm" then (parseStrm "strm").runAt body 0
      else if opcode = utf8Bytes "aude" then parseAude.runAt body 0
      else if opcode = utf8Bytes "audg" then parseAudg.runAt body 0
      else if opcode = utf8Bytes "setd" then parseSetd.runAt body 0
      else .ok (unrecognised (Utf8.fromUtf8Lossy opcode)) body := by
  have hrun := @parse_run (opcode ++ body) (by simp [hop])
  rw [List.take_left' hop, List.drop_left' hop] at hrun
  exact hrun

theorem parse_run_strm (body : Bytes) :
    parse.run (utf8Bytes "strm" ++ body) = (parseStrm "strm").runAt body 0 := by
  rw [parse_run_append (by decide), if_neg (by decide), if_pos rfl]

theorem fromBytes_serv (ipAddress : Ipv4Addr) {syncGroupId : Option String}
    (h : ∀ group ∈ syncGroupId, group ≠ "" ∧ ∀ c ∈ group.toList, c.toNat < 256)
    (unused : Nat → UInt8) :
    fromBytes (referenceEncoding unused (serv ipAddress syncGroupId)) =
      some (serv ipAddress syncGroupId) := by
  apply fromBytes_of_run
  unfold referenceEncoding
  rw [parse_run_append (by decide), if_pos rfl, parseServ_runAt (by simp),
    uintAt_toBytes_append ipAddress.bits.toNat_lt,
    restAt_append (BigEndian.length_toBytes 4 _) (le_refl 4), restAt_zero, UInt32.ofNat_toNat]
  cases syncGroupId with
  | none => rfl
  | some group =>
      rcases h group rfl with ⟨hne, hlatin⟩
      have hback : latin1 (group.toList.map byte) = group := by
        have hchars : group.toList.map (fun c => Char.ofNat (byte c).toNat) = group.toList := by
          refine (List.map_congr_left fun c hc => ?_).trans (List.map_id _)
          have hc256 := hlatin c hc
          simp [byte, Nat.mod_eq_of_lt hc256]
        unfold latin1
        rw [List.map_map]
        exact (congrArg String.ofList hchars).trans String.ofList_toList
      have hnonempty : (group.toList.map byte).isEmpty = false := by
        simpa using hne
      simp [hnonempty, hback]

/-- The timestamp of a timestamp body is read back. -/
theorem uintAt_timestampBody (unused : Nat → UInt8) (cmd : Char) {timestamp : Duration}
    (h : MillisTimestamp timestamp) :
    Duration.fromMillis (uintAt (timestampBody unused cmd timestamp) 14 4) = timestamp := by
  rcases fromMillis_asMillis h with ⟨hback, hlt⟩
  have hpeel : uintAt (timestampBody unused cmd timestamp) 14 4 =
      uintAt (gap unused 1 14 ++
        (BigEndian.toBytes 4 timestamp.asMillis ++ gap unused 18 24)) 13 4 := rfl
  rw [hpeel, uintAt_append_right (length_gap unused 1 14) (le_refl 13),
    uintAt_toBytes_append hlt, hback]

/-- A `strm` body with another command than `s` is read by its command byte. -/
theorem fromBytes_strm {cmd : UInt8} {rest : Bytes} (hlen : 23 ≤ rest.length)
    (hs : cmd ≠ byte 's') :
    fromBytes (utf8Bytes "strm" ++ cmd :: rest) = some (strmMessage "strm" (cmd :: rest)) := by
  rcases @parseStrm_runAt "strm" (cmd :: rest) (by simp; omega) hs with ⟨left, hrun⟩
  refine @fromBytes_of_run _ left _ ?_
  rw [parse_run_strm, hrun]


/-- Every field of a stream body is read back from its offset. -/
theorem fromBytes_stream (unused : Nat → UInt8) {f : StreamFields}
    (h : Representable (stream f)) :
    fromBytes (referenceEncoding unused (stream f)) = some (stream f) := by
  rcases h with ⟨hrate, ⟨kib, hkib, hkibs⟩, ⟨secs, hsecs, hperiods⟩,
    ⟨tenths, htenths, houtputs⟩, hgain, hheaders⟩
  have hlen : 24 ≤ (streamBody unused f).length := by
    simp [streamBody, streamTail]
    omega
  have hrun := run_parseStream hlen (AutoStart.lookup_wireByte f.autostart)
    (Format.lookup_wireByte f.format) (PcmSampleSize.lookup_wireByte f.pcmsamplesize)
    (PcmSampleRate.lookup_wireByte hrate) (PcmChannels.lookup_wireByte f.pcmchannels)
    (PcmEndian.lookup_wireByte f.pcmendian) (SpdifEnable.lookup_wireByte f.spdifEnable)
    (TransType.lookup_wireByte f.transType)
  have hthreshold : (byteAt (streamBody unused f) 7).toUInt32 * 1024 = f.threshold := by
    have hbyte : byteAt (streamBody unused f) 7 = UInt8.ofNat kib := by
      show UInt8.ofNat (f.threshold.toNat / 1024) = UInt8.ofNat kib
      rw [hkibs, Nat.mul_div_cancel kib (by decide)]
    apply UInt32.toNat_inj.1
    rw [hbyte, hkibs]
    simp
    omega
  have hperiod :
      Duration.fromSecs (byteAt (streamBody unused f) 9).toNat = f.transPeriod := by
    have hbyte : byteAt (streamBody unused f) 9 = UInt8.ofNat secs := by
      show UInt8.ofNat f.transPeriod.asSecs = UInt8.ofNat secs
      rw [hperiods, Duration.asSecs_fromSecs]
    rw [hbyte, hperiods, UInt8.toNat_ofNat_of_lt' hsecs]
  have hflags :
      (StreamFlags.fromBits (byteAt (streamBody unused f) 11)).getD StreamFlags.empty =
        f.flags := by
    show (StreamFlags.fromBits f.flags.bits).getD StreamFlags.empty = f.flags
    rw [StreamFlags.fromBits_bits]
    rfl
  have houtput :
      Duration.fromMillis ((byteAt (streamBody unused f) 12).toNat * 100) =
        f.outputThreshold := by
    have hbyte : byteAt (streamBody unused f) 12 = UInt8.ofNat tenths := by
      show UInt8.ofNat (f.outputThreshold.asMillis / 100) = UInt8.ofNat tenths
      rw [houtputs, Duration.asMillis_fromMillis, Nat.mul_div_cancel tenths (by decide)]
    rw [hbyte, houtputs, UInt8.toNat_ofNat_of_lt' htenths]
  have hreplay : gainFactor (uintAt (streamBody unused f) 14 4) = f.replayGain :=
    uintAt_fixedPoint_append hgain _
  -- Port, address and headers follow the four bytes of the gain.
  have hport : UInt16.ofNat (uintAt (streamBody unused f) 18 2) = f.serverPort := by
    have htail : uintAt (streamBody unused f) 18 2 = uintAt (streamTail f) 4 2 := rfl
    unfold streamTail at htail
    rw [htail, uintAt_append_right (BigEndian.length_toBytes 4 _) (by decide),
      uintAt_toBytes_append f.serverPort.toNat_lt, UInt16.ofNat_toNat]
  have hip : UInt32.ofNat (uintAt (streamBody unused f) 20 4) = f.serverIp.bits := by
    have htail : uintAt (streamBody unused f) 20 4 = uintAt (streamTail f) 6 4 := rfl
    unfold streamTail at htail
    rw [htail, uintAt_append_right (BigEndian.length_toBytes 4 _) (by decide),
      uintAt_append_right (BigEndian.length_toBytes 2 _) (by decide),
      uintAt_toBytes_append f.serverIp.bits.toNat_lt, UInt32.ofNat_toNat]
  have hrest : restAt (streamBody unused f) 24 = (f.httpHeaders.map utf8Bytes).getD [] := by
    have htail : restAt (streamBody unused f) 24 = restAt (streamTail f) 10 := rfl
    unfold streamTail at htail
    rw [htail, restAt_append (BigEndian.length_toBytes 4 _) (by decide),
      restAt_append (BigEndian.length_toBytes 2 _) (by decide),
      restAt_append (BigEndian.length_toBytes 4 _) (by decide), restAt_zero]
  have hheader :
      (if (restAt (streamBody unused f) 24).isEmpty then none
        else some (Utf8.fromUtf8Lossy (restAt (streamBody unused f) 24))) = f.httpHeaders := by
    rw [hrest]
    cases hsome : f.httpHeaders with
    | none => rfl
    | some headers =>
        have hne : (utf8Bytes headers).isEmpty = false := by
          have hheaders' := hheaders headers (by simp [hsome])
          cases hbytes : utf8Bytes headers with
          | nil => exact absurd (Utf8.utf8Bytes_injective (t := "") hbytes) hheaders'
          | cons b bs => rfl
        simp [hne, Utf8.fromUtf8Lossy_utf8Bytes]
  rw [hthreshold, hperiod, hflags, houtput, hreplay, hport, hip, hheader] at hrun
  refine @fromBytes_of_run _ [] _ ?_
  show parse.run (utf8Bytes "strm" ++ streamBody unused f) = _
  rw [parse_run_strm, parseStrm_runAt_stream hlen rfl]
  exact hrun

theorem fromBytes_gain {left right : ℚ} (hleft : FixedPointGain left)
    (hright : FixedPointGain right) (unused : Nat → UInt8) :
    fromBytes (referenceEncoding unused (gain left right)) = some (gain left right) := by
  unfold referenceEncoding
  have hl : gainFactor (uintAt (gap unused 0 10 ++ (BigEndian.toBytes 4 (fixedPoint left) ++
      BigEndian.toBytes 4 (fixedPoint right))) 10 4) = left := by
    rw [uintAt_append_right (length_gap unused 0 10) (by decide)]
    exact uintAt_fixedPoint_append hleft _
  have hr : gainFactor (uintAt (gap unused 0 10 ++ (BigEndian.toBytes 4 (fixedPoint left) ++
      BigEndian.toBytes 4 (fixedPoint right))) 14 4) = right := by
    rw [uintAt_append_right (length_gap unused 0 10) (by decide),
      uintAt_append_right (BigEndian.length_toBytes 4 _) (by decide)]
    have hback := uintAt_fixedPoint_append hright []
    rw [List.append_nil] at hback
    exact hback
  apply fromBytes_of_run
  rw [parse_run_append (by decide), if_neg (by decide), if_neg (by decide), if_neg (by decide),
    if_pos rfl, parseAudg_runAt (by simp), hl, hr]

theorem fromBytes_enable (spdif dac : Bool) (unused : Nat → UInt8) :
    fromBytes (referenceEncoding unused (enable spdif dac)) = some (enable spdif dac) := by
  cases spdif <;> cases dac <;> rfl

/-- A `setd` body is read by its first byte. -/
theorem fromBytes_setd {body : Bytes} (hlen : 1 ≤ body.length) :
    fromBytes (utf8Bytes "setd" ++ body) = some (setdMessage body) := by
  rcases parseSetd_runAt hlen with ⟨rest, hrun⟩
  refine @fromBytes_of_run _ rest _ ?_
  rw [parse_run_append (by decide), if_neg (by decide), if_neg (by decide), if_neg (by decide),
    if_neg (by decide), if_pos rfl, hrun]

theorem fromBytes_setname (name : String) (unused : Nat → UInt8) :
    fromBytes (referenceEncoding unused (setname name)) = some (setname name) := by
  have hmsg : setdMessage (0 :: (utf8Bytes name ++ [0])) = setname name := by
    have hrest : restAt (0 :: (utf8Bytes name ++ [0])) 1 = utf8Bytes name ++ [0] := rfl
    unfold setdMessage
    rw [byteAt_cons_zero, hrest]
    simp [Utf8.fromUtf8_utf8Bytes]
  exact (@fromBytes_setd (0 :: (utf8Bytes name ++ [0])) (by simp)).trans (congrArg some hmsg)

/-- Every representable message is read back from its encoding. -/
theorem fromBytes_referenceEncoding (unused : Nat → UInt8) {msg : ServerMessage}
    (h : Representable msg) : fromBytes (referenceEncoding unused msg) = some msg := by
  have hcommand : ∀ (cmd : Char) (timestamp : Duration), byte cmd ≠ byte 's' →
      fromBytes (utf8Bytes "strm" ++ timestampBody unused cmd timestamp) =
        some (strmMessage "strm" (timestampBody unused cmd timestamp)) :=
    fun cmd timestamp hs => fromBytes_strm (by simp) hs
  cases msg with
  | serv ipAddress syncGroupId => exact fromBytes_serv ipAddress h unused
  | status timestamp =>
      refine (hcommand 't' timestamp (by decide)).trans (congrArg some ?_)
      exact congrArg status (uintAt_timestampBody unused 't' h)
  | stream fields => exact fromBytes_stream unused h
  | gain left right => exact fromBytes_gain h.1 h.2 unused
  | enable spdif dac => exact fromBytes_enable spdif dac unused
  | flush => exact fromBytes_strm (by simp) (by decide)
  | stop => exact fromBytes_strm (by simp) (by decide)
  | pause timestamp =>
      refine (hcommand 'p' timestamp (by decide)).trans (congrArg some ?_)
      exact congrArg pause (uintAt_timestampBody unused 'p' h)
  | unpause timestamp =>
      refine (hcommand 'u' timestamp (by decide)).trans (congrArg some ?_)
      exact congrArg unpause (uintAt_timestampBody unused 'u' h)
  | queryname => exact fromBytes_setd (by simp)
  | setname name => exact fromBytes_setname name unused
  | disableDac => exact fromBytes_setd (by simp)
  | skip timestamp =>
      refine (hcommand 'a' timestamp (by decide)).trans (congrArg some ?_)
      exact congrArg skip (uintAt_timestampBody unused 'a' h)
  | unrecognised what => exact absurd h (by simp [Representable])
  | error => exact absurd h (by simp [Representable])

theorem onWire_of_representable {msg : ServerMessage} (h : Representable msg) : msg.OnWire := by
  refine ⟨?_, _, fromBytes_referenceEncoding (fun _ => 0) h⟩
  rintro rfl
  exact h

/-! ## The threshold of a stream -/

/-- If the message is a Stream command, its threshold is at most 255 KiB. -/
def ThresholdFits (msg : ServerMessage) : Prop :=
  ∀ fields, msg = .stream fields → fields.threshold.toNat ≤ 255 * 1024

theorem toNat_kibibytes_le (b : UInt8) : (b.toUInt32 * 1024).toNat ≤ 255 * 1024 := by
  have hlt : b.toNat < 256 := b.toNat_lt
  have hmul : (b.toUInt32 * 1024).toNat = b.toNat * 1024 % 2 ^ 32 := by simp
  rw [hmul]
  omega

/-- What the parser yields outside `parseStream`. -/
theorem yields_pure_other {msg : ServerMessage} (h : ∀ fields, msg = .stream fields → False) :
    Yields ThresholdFits (pure msg) :=
  yields_pure fun fields hmsg => (h fields hmsg).elim

theorem yields_timestamp {f : Duration → ServerMessage}
    (h : ∀ timestamp fields, f timestamp = .stream fields → False) :
    Yields ThresholdFits (parseTimestamp >>= fun timestamp => pure (f timestamp)) :=
  yields_bind fun timestamp => yields_pure_other (h timestamp)

theorem yields_parseStream : Yields ThresholdFits parseStream := by
  unfold parseStream
  iterate 6 refine yields_bind fun _ => ?_
  refine yields_bind fun threshold => ?_
  iterate 10 refine yields_bind fun _ => ?_
  refine yields_pure ?_
  intro fields hfields
  cases hfields
  exact toNat_kibibytes_le threshold

theorem yields_parseStrm (msg : String) : Yields ThresholdFits (parseStrm msg) := by
  unfold parseStrm
  refine yields_bind fun _ => yields_bind fun cmd => ?_
  split_ifs
  · exact yields_timestamp fun _ _ h => ServerMessage.noConfusion h
  · exact yields_parseStream
  · exact yields_pure_other fun _ h => ServerMessage.noConfusion h
  · exact yields_pure_other fun _ h => ServerMessage.noConfusion h
  · exact yields_timestamp fun _ _ h => ServerMessage.noConfusion h
  · exact yields_timestamp fun _ _ h => ServerMessage.noConfusion h
  · exact yields_timestamp fun _ _ h => ServerMessage.noConfusion h
  · exact yields_pure_other fun _ h => ServerMessage.noConfusion h

theorem yields_parseSetd : Yields ThresholdFits parseSetd := by
  unfold parseSetd
  refine yields_bind fun _ => yields_bind fun id => ?_
  split_ifs
  · refine yields_bind fun buf => ?_
    split_ifs
    · exact yields_pure_other fun _ h => ServerMessage.noConfusion h
    · exact yields_pure_other fun _ h => ServerMessage.noConfusion h
  · exact yields_pure_other fun _ h => ServerMessage.noConfusion h
  · exact yields_pure_other fun _ h => ServerMessage.noConfusion h

theorem yields_parse : Yields ThresholdFits parse := by
  unfold parse
  refine yields_bind fun opcode => ?_
  dsimp only
  split_ifs
  · unfold parseServ
    iterate 3 refine yields_bind fun _ => ?_
    exact yields_pure_other fun _ h => ServerMessage.noConfusion h
  · exact yields_parseStrm _
  · unfold parseAude
    iterate 3 refine yields_bind fun _ => ?_
    exact yields_pure_other fun _ h => ServerMessage.noConfusion h
  · unfold parseAudg
    iterate 4 refine yields_bind fun _ => ?_
    exact yields_pure_other fun _ h => ServerMessage.noConfusion h
  · exact yields_parseSetd
  · exact yields_pure_other fun _ h => ServerMessage.noConfusion h

/-- The threshold takes one byte on the wire. -/
theorem thresholdFits_of_onWire {msg : ServerMessage} (h : msg.OnWire) : ThresholdFits msg := by
  rcases h with ⟨hne, payload, hparsed⟩
  unfold fromBytes at hparsed
  cases hrun : parse.run payload with
  | panic =>
      rw [hrun] at hparsed
      cases hparsed
  | reject =>
      rw [hrun] at hparsed
      exact absurd (Option.some.inj hparsed).symm hne
  | ok msg' rest =>
      rw [hrun] at hparsed
      cases hparsed
      exact yields_parse payload msg rest hrun

/-- **The parser and the format agree**: `Error` is the answer to exactly the malformed payloads,
and every representable message is the parse of its encoding. -/
theorem fromBytes_spec :
    (∀ payload : Bytes, 4 ≤ payload.length →
      (fromBytes payload = some error ↔ Malformed payload)) ∧
    ∀ (unused : Nat → UInt8) (msg : ServerMessage), Representable msg →
      fromBytes (referenceEncoding unused msg) = some msg :=
  ⟨fun _ hlen => fromBytes_eq_error_iff hlen,
    fun unused _ h => fromBytes_referenceEncoding unused h⟩

theorem fromBytes_spec_setd :
    fromBytes (utf8Bytes "setd") = some error ∧
      fromBytes (referenceEncoding (fun _ => 7) (setname "kitchen")) =
        some (setname "kitchen") := by
  have hmalformed : Malformed (utf8Bytes "setd") := by
    decide
  exact ⟨(fromBytes_spec.1 _ (by decide)).2 hmalformed, fromBytes_spec.2 _ _ trivial⟩

end ServerMessage

end LmsProto
end LmsPlayer
