import LmsPlayer.Library.ReadUntil
import LmsPlayer.LmsProto.Basic

/-!
# Vibe.HeaderLines — where the headers of a data stream end

`make_decoder` reads the lines in front of the data, up to a blank one.  What it makes of a line
depends on that line alone (`headerVerdict`), so where it stops can be told from the bytes of the
response, however they come (`SkipsTo`).

A `Response` is what a server of music sends: lines, a blank line and the data.  The loop stops in
front of the data when the lines are texts and not too long, and nowhere else (`skipsTo_body_iff`).
-/

namespace LmsPlayer
namespace Vibe

open ReadUntil (upTo beyond)
open Utf8 (utf8Bytes fromUtf8)

/-! ## The lines -/

def LF : UInt8 := byte '\n'

def CR : UInt8 := byte '\r'

/-- What `read_line` returns for a line that is not text. -/
def notUtf8 : IoError :=
  { kind := .invalidData
    message := "stream did not contain valid UTF-8" }

/-- What becomes of the loop behind a line: it goes on, or it ends. -/
def headerVerdict (line : Bytes) : Option (Except IoError Unit) :=
  match fromUtf8 line with
  | none => some (.error notUtf8)
  | some text =>
      if line.length = 0 ∨ text = "\r\n" ∨ 8 * 1024 < line.length then some (.ok ()) else none

theorem headerVerdict_of_text {line : Bytes} {text : String} (h : fromUtf8 line = some text) :
    headerVerdict line =
      if line.length = 0 ∨ text = "\r\n" ∨ 8 * 1024 < line.length then some (.ok ()) else none := by
  unfold headerVerdict
  rw [h]

/-- The loop does not go on behind a line that is empty, as it is at the end of the stream. -/
theorem headerVerdict_nil : headerVerdict [] = some (.ok ()) := by
  have htext : fromUtf8 [] = some "" := Utf8.fromUtf8_utf8Bytes ""
  rw [headerVerdict_of_text htext]
  rfl

/-- With `line` read already, the loop ends like this, in front of `rest`. -/
inductive SkipsTo : Bytes → Bytes → Except IoError Unit → Bytes → Prop where
  | stop {line input : Bytes} {result : Except IoError Unit}
      (h : headerVerdict (line ++ upTo LF input) = some result) :
      SkipsTo line input result (beyond LF input)
  | next {line input rest : Bytes} {result : Except IoError Unit}
      (h : headerVerdict (line ++ upTo LF input) = none)
      (hrest : SkipsTo [] (beyond LF input) result rest) : SkipsTo line input result rest

theorem SkipsTo.unique {line input rest rest' : Bytes} {result result' : Except IoError Unit}
    (h : SkipsTo line input result rest) (h' : SkipsTo line input result' rest') :
    result = result' ∧ rest = rest' := by
  induction h with
  | stop h =>
      cases h' with
      | stop h' => exact ⟨Option.some.inj (h.symm.trans h'), rfl⟩
      | next h' _ =>
          rw [h] at h'
          cases h'
  | next h _ ih =>
      cases h' with
      | stop h' =>
          rw [h] at h'
          cases h'
      | next _ hrest' => exact ih hrest'

/-! ## A response -/

/-- What a server of music answers. -/
structure Response where
  /-- Without their ends. -/
  lines : List Bytes
  body : Bytes
  lines_ne : ∀ line ∈ lines, line ≠ []
  notMem_lines : ∀ line ∈ lines, CR ∉ line ∧ LF ∉ line

namespace Response

/-- The lines, each with its end, a blank line and the data. -/
def encode (lines : List Bytes) (body : Bytes) : Bytes :=
  lines.flatMap (· ++ [CR, LF]) ++ ([CR, LF] ++ body)

def bytes (r : Response) : Bytes := encode r.lines r.body

/-- A line is text, and it is not cut off. -/
def LineOk (line : Bytes) : Prop := (fromUtf8 line).isSome = true ∧ line.length + 2 ≤ 8 * 1024

instance : DecidablePred LineOk := fun line =>
  inferInstanceAs (Decidable ((fromUtf8 line).isSome = true ∧ line.length + 2 ≤ 8 * 1024))

theorem encode_cons (line : Bytes) (lines : List Bytes) (body : Bytes) :
    encode (line :: lines) body = (line ++ [CR]) ++ LF :: encode lines body := by
  simp [encode]

/-- With the end of its line, a text is still one. -/
theorem isSome_fromUtf8_crlf (line : Bytes) :
    (fromUtf8 (line ++ [CR, LF])).isSome = true ↔ (fromUtf8 line).isSome = true := by
  have hend : line ++ [CR, LF] =
      (line ++ String.utf8EncodeChar '\r') ++ String.utf8EncodeChar '\n' := by
    rw [List.append_assoc]
    rfl
  rw [hend, Utf8.isSome_fromUtf8_append_encode, Utf8.isSome_fromUtf8_append_encode]

theorem headerVerdict_blank : headerVerdict [CR, LF] = some (.ok ()) := by
  have htext : fromUtf8 [CR, LF] = some "\r\n" := Utf8.fromUtf8_utf8Bytes "\r\n"
  rw [headerVerdict_of_text htext]
  rfl

theorem headerVerdict_of_lineOk {line : Bytes} (hne : line ≠ []) (h : LineOk line) :
    headerVerdict (line ++ [CR, LF]) = none := by
  obtain ⟨text, htext⟩ := Option.isSome_iff_exists.1 ((isSome_fromUtf8_crlf line).2 h.1)
  have hlength : (line ++ [CR, LF]).length = line.length + 2 := List.length_append
  have hpos := List.length_pos_of_ne_nil hne
  -- A line that is the blank one would be empty itself.
  have hblank : text ≠ "\r\n" := by
    rintro rfl
    have hbytes : (utf8Bytes "\r\n").length = (line ++ [CR, LF]).length := by
      rw [Utf8.utf8Bytes_of_fromUtf8 htext]
    rw [hlength, show (utf8Bytes "\r\n").length = 2 from rfl] at hbytes
    omega
  rw [headerVerdict_of_text htext, hlength, if_neg]
  rintro (hzero | hcrlf | hlong)
  · omega
  · exact hblank hcrlf
  · exact absurd h.2 (Nat.not_le.2 hlong)

/-- Behind any other line the loop ends. -/
theorem headerVerdict_of_not_lineOk {line : Bytes} (h : ¬LineOk line) :
    ∃ result, headerVerdict (line ++ [CR, LF]) = some result := by
  cases htext : fromUtf8 (line ++ [CR, LF]) with
  | none => exact ⟨.error notUtf8, by rw [headerVerdict, htext]⟩
  | some text =>
      have hvalid : (fromUtf8 line).isSome = true :=
        (isSome_fromUtf8_crlf line).1 (by rw [htext]; rfl)
      have hlong : 8 * 1024 < (line ++ [CR, LF]).length := by
        rw [List.length_append]
        exact Nat.not_le.1 fun hshort => h ⟨hvalid, hshort⟩
      exact ⟨.ok (), by rw [headerVerdict_of_text htext, if_pos (.inr (.inr hlong))]⟩

section Skip

variable {line : Bytes} {lines : List Bytes} {body rest : Bytes} {result : Except IoError Unit}

theorem notMem_cr (h : LF ∉ line) : LF ∉ line ++ [CR] := by
  simpa using ⟨h, by decide⟩

theorem upTo_encode_cons (h : LF ∉ line) :
    upTo LF (encode (line :: lines) body) = line ++ [CR, LF] := by
  rw [encode_cons, ReadUntil.upTo_line (notMem_cr h), List.append_assoc]
  rfl

theorem beyond_encode_cons (h : LF ∉ line) :
    beyond LF (encode (line :: lines) body) = encode lines body := by
  rw [encode_cons, ReadUntil.beyond_line (notMem_cr h)]

/-- Behind the lines comes the data. -/
theorem skipsTo_body (h : ∀ line ∈ lines, line ≠ [] ∧ LF ∉ line ∧ LineOk line) :
    SkipsTo [] (encode lines body) (.ok ()) body := by
  induction lines with
  | nil =>
      have hblank : headerVerdict ([] ++ upTo LF (encode [] body)) = some (.ok ()) :=
        headerVerdict_blank
      exact .stop hblank
  | cons line lines ih =>
      obtain ⟨⟨hne, hLF, hok⟩, hrest⟩ := List.forall_mem_cons.1 h
      refine .next ?_ ?_
      · rw [upTo_encode_cons hLF]
        exact headerVerdict_of_lineOk hne hok
      · rw [beyond_encode_cons hLF]
        exact ih hrest

/-- Where the loop ends at a line, there is more left than the data. -/
theorem body_lt_of_skipsTo (h : ∀ line ∈ lines, line ≠ [] ∧ LF ∉ line)
    (hbad : ∃ line ∈ lines, ¬LineOk line) (hskips : SkipsTo [] (encode lines body) result rest) :
    body.length < rest.length := by
  induction lines with
  | nil =>
      obtain ⟨line, hmem, -⟩ := hbad
      cases hmem
  | cons line lines ih =>
      obtain ⟨⟨hne, hLF⟩, hrest⟩ := List.forall_mem_cons.1 h
      by_cases hok : LineOk line
      · cases hskips with
        | stop hstop =>
            rw [upTo_encode_cons hLF, List.nil_append, headerVerdict_of_lineOk hne hok] at hstop
            cases hstop
        | next _ hnext =>
            rw [beyond_encode_cons hLF] at hnext
            have hbad' : ∃ line ∈ lines, ¬LineOk line := by
              rcases hbad with ⟨bad, hmem, hnot⟩
              rcases List.mem_cons.1 hmem with rfl | hmem
              · exact absurd hok hnot
              · exact ⟨bad, hmem, hnot⟩
            exact ih hrest hbad' hnext
      · cases hskips with
        | stop _ =>
            rw [beyond_encode_cons hLF]
            simp [encode]
            omega
        | next hnone _ =>
            obtain ⟨result, hstop⟩ := headerVerdict_of_not_lineOk hok
            rw [upTo_encode_cons hLF, List.nil_append, hstop] at hnone
            cases hnone

end Skip

/-- The loop ends without an error and in front of the data exactly when every line is text that is
not too long. -/
theorem skipsTo_body_iff (r : Response) {result : Except IoError Unit} {rest : Bytes}
    (h : SkipsTo [] r.bytes result rest) :
    (result = .ok () ∧ rest = r.body) ↔ ∀ line ∈ r.lines, LineOk line := by
  constructor
  · rintro ⟨-, hrest⟩ line hmem
    by_contra hbad
    have hlines : ∀ line ∈ r.lines, line ≠ [] ∧ LF ∉ line := fun line hmem =>
      ⟨r.lines_ne line hmem, (r.notMem_lines line hmem).2⟩
    have hlt := body_lt_of_skipsTo hlines ⟨line, hmem, hbad⟩ h
    rw [hrest] at hlt
    exact Nat.lt_irrefl _ hlt
  · intro hok
    have hbody : SkipsTo [] r.bytes (.ok ()) r.body := skipsTo_body fun line hmem =>
      ⟨r.lines_ne line hmem, (r.notMem_lines line hmem).2, hok line hmem⟩
    exact h.unique hbody

end Response

end Vibe
end LmsPlayer
