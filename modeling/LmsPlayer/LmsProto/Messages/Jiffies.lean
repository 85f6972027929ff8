import LmsPlayer.LmsProto.Messages.ClientWire
import Mathlib.Data.Nat.ModEq

/-!
# Messages.Jiffies — the clock of a status report

`make_status_message` measures the time since the status block was made, and the serialization puts
its whole milliseconds into 32 bits.  The two sit in different files: what is measured has no bound,
and what does not fit is not wrapped around but replaced by zero.

So the field is the elapsed time for the first `2 ^ 32` milliseconds, about fifty days, and zero
from then on.
-/

namespace LmsPlayer
namespace LmsProto

open ByteLayout
open Utf8 (utf8Bytes)
open ClientMessage

/-- The whole milliseconds since the block was made. -/
def StatusData.elapsedAt (s : StatusData) (now : Instant) : Nat :=
  Duration.asMillis (now - s.start)

/-- The jiffies field of an encoded STAT message: four bytes, behind the opcode, the length, the
event code and the fields from `crlf` to `sig_strength`. -/
def jiffiesField (msg : Bytes) : Nat := uintAt msg 33 4

/-! ## What the field says -/

/-- What is left of a number of milliseconds in 32 bits. -/
def shown (millis : Nat) : Nat := if millis < 2 ^ 32 then millis else 0

theorem toNat_tryIntoU32_eq (v : Nat) : (tryIntoU32 v).toNat = shown v := by
  unfold shown
  by_cases hfits : v < 2 ^ 32
  · rw [if_pos hfits, toNat_tryIntoU32 hfits]
  · rw [if_neg hfits]
    unfold tryIntoU32
    rw [if_neg hfits]
    rfl

theorem jiffiesField_stat {eventCode : String} (s : StatusData)
    (hcode : (utf8Bytes eventCode).length = 4) :
    jiffiesField (ClientMessage.stat eventCode s).toBytes = shown s.jiffies.asMillis := by
  unfold jiffiesField uintAt
  rw [toBytes_eq]
  simp only [body, List.append_assoc,
    fieldAt_append_right (length_opcode _),
    fieldAt_append_right (BigEndian.length_toBytes 4 _), fieldAt_append_right hcode,
    fieldAt_append_right (length_putU8 _), fieldAt_append_right (length_putU16 _),
    fieldAt_append_right (length_putU32 _), fieldAt_append_right (length_putU64 _),
    fieldAt_append_left (length_putU32 _), ofBytes_putU32, toNat_tryIntoU32_eq,
    Nat.reduceSub, Nat.reduceLeDiff]

theorem jiffiesField_makeStatusMessage (s : StatusData) (now : Instant) (code : StatusCode) :
    jiffiesField (s.makeStatusMessage now code).1.toBytes = shown (s.elapsedAt now) :=
  jiffiesField_stat (s.setJiffies (now - s.start)) code.length_utf8Bytes_toString

/-! ## When it counts -/

/-- The elapsed times at which two reports show the difference: none of the two is too large; or the
later one is too large and a multiple of `2 ^ 32`; or both are, and what is cut off hides
nothing. -/
def Counts (earlier later : Nat) : Prop :=
  later < 2 ^ 32 ∨ earlier < 2 ^ 32 ∧ 2 ^ 32 ∣ later ∨
    2 ^ 32 ≤ earlier ∧ earlier ≡ later [MOD 2 ^ 32]

/-- What a report shows differs from the elapsed time by a multiple of `2 ^ 32` if and only if the
time fits or is such a multiple itself. -/
theorem shown_modEq_iff {earlier later : Nat} (hle : earlier ≤ later) :
    shown later ≡ shown earlier + (later - earlier) [MOD 2 ^ 32] ↔ Counts earlier later := by
  unfold Counts
  by_cases hlater : later < 2 ^ 32
  · -- Both times are shown.
    have hearlier : earlier < 2 ^ 32 := lt_of_le_of_lt hle hlater
    refine iff_of_true ?_ (Or.inl hlater)
    unfold shown
    rw [if_pos hlater, if_pos hearlier, Nat.add_sub_cancel' hle]
  · have hzero : shown later = 0 := if_neg hlater
    rw [hzero]
    by_cases hearlier : earlier < 2 ^ 32
    · have hshown : shown earlier = earlier := if_pos hearlier
      rw [hshown, Nat.add_sub_cancel' hle]
      constructor
      · intro hmod
        exact Or.inr (Or.inl ⟨hearlier, (Nat.modEq_zero_iff_dvd).1 hmod.symm⟩)
      · rintro (hfits | ⟨-, hdvd⟩ | ⟨hlarge, -⟩)
        · exact absurd hfits hlater
        · exact ((Nat.modEq_zero_iff_dvd).2 hdvd).symm
        · exact absurd hearlier (Nat.not_lt.2 hlarge)
    · have hshown : shown earlier = 0 := if_neg hearlier
      rw [hshown, Nat.zero_add]
      constructor
      · intro hmod
        have hdvd : 2 ^ 32 ∣ later - earlier := (Nat.modEq_zero_iff_dvd).1 hmod.symm
        exact Or.inr (Or.inr ⟨Nat.not_lt.1 hearlier, (Nat.modEq_iff_dvd' hle).2 hdvd⟩)
      · rintro (hfits | ⟨hfits, -⟩ | ⟨-, hmod⟩)
        · exact absurd hfits hlater
        · exact absurd hfits hearlier
        · exact ((Nat.modEq_zero_iff_dvd).2 ((Nat.modEq_iff_dvd' hle).1 hmod)).symm

theorem StatusData.elapsedAt_mono (s : StatusData) {t1 t2 : Instant} (h : t1 ≤ t2) :
    s.elapsedAt t1 ≤ s.elapsedAt t2 :=
  Nat.div_le_div_right (Nat.sub_le_sub_right h s.start)

/-- **The jiffies of two reports differ by the time between them, modulo 2^32, exactly when that
time is not lost in the narrowing**: the block may have been written to in between, as long as it is
the same block. -/
theorem jiffies_counts_iff {s s' : StatusData} {t1 t2 : Instant} (code code' : StatusCode)
    (hstart : s'.start = s.start) (hle : t1 ≤ t2) :
    jiffiesField (s'.makeStatusMessage t2 code').1.toBytes ≡
        jiffiesField (s.makeStatusMessage t1 code).1.toBytes +
          (s.elapsedAt t2 - s.elapsedAt t1) [MOD 2 ^ 32] ↔
      Counts (s.elapsedAt t1) (s.elapsedAt t2) := by
  have hsame : s'.elapsedAt t2 = s.elapsedAt t2 := by
    unfold StatusData.elapsedAt
    rw [hstart]
  rw [jiffiesField_makeStatusMessage, jiffiesField_makeStatusMessage, hsame]
  exact shown_modEq_iff (s.elapsedAt_mono hle)

/-- Seven seconds after the start, and three seconds later. -/
theorem jiffies_counts_timer :
    let s := StatusData.default 0
    let t1 := Duration.fromMillis 7000
    let t2 := Duration.fromMillis 10000
    jiffiesField (s.makeStatusMessage t2 .timer).1.toBytes ≡
      jiffiesField (s.makeStatusMessage t1 .connect).1.toBytes +
        (s.elapsedAt t2 - s.elapsedAt t1) [MOD 2 ^ 32] := by
  intro s t1 t2
  exact (jiffies_counts_iff .connect .timer rfl (by decide)).2 (Or.inl (by decide))

/-- The last millisecond that is shown, and five milliseconds later: the field says 4294967295, and
then zero, as if only one had passed. -/
theorem jiffies_stop :
    let s := StatusData.default 0
    let t1 := Duration.fromMillis 4294967295
    let t2 := Duration.fromMillis 4294967300
    s.start ≤ t1 ∧ t1 ≤ t2 ∧ s.elapsedAt t2 - s.elapsedAt t1 = 5 ∧
      jiffiesField (s.makeStatusMessage t1 .timer).1.toBytes = 4294967295 ∧
      jiffiesField (s.makeStatusMessage t2 .timer).1.toBytes = 0 ∧
      ¬jiffiesField (s.makeStatusMessage t2 .timer).1.toBytes ≡
        jiffiesField (s.makeStatusMessage t1 .timer).1.toBytes +
          (s.elapsedAt t2 - s.elapsedAt t1) [MOD 2 ^ 32] := by
  intro s t1 t2
  have hfirst : jiffiesField (s.makeStatusMessage t1 .timer).1.toBytes = 4294967295 :=
    (jiffiesField_makeStatusMessage s t1 .timer).trans (by decide)
  have hsecond : jiffiesField (s.makeStatusMessage t2 .timer).1.toBytes = 0 :=
    (jiffiesField_makeStatusMessage s t2 .timer).trans (by decide)
  have hapart : s.elapsedAt t2 - s.elapsedAt t1 = 5 := by decide
  refine ⟨by decide, by decide, hapart, hfirst, hsecond, ?_⟩
  rw [hfirst, hsecond, hapart]
  decide

end LmsProto
end LmsPlayer
