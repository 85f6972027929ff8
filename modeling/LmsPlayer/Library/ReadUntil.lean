import Mathlib.Data.List.Basic

/-!
# ReadUntil — reading up to a delimiter, piece by piece

`upTo` is what a reader gets who reads up to a delimiter, and `beyond` is what it leaves.  A
buffered reader gets there in rounds: it is shown a piece of the input, looks for the delimiter in
it, and says how much of the piece it has used.  Whatever the pieces are, the rounds come to the
same (`round_done`, `round_not_done`).
-/

namespace ReadUntil

universe u

variable {α : Type u} [DecidableEq α] {delim : α} {xs ys : List α}

/-! ## At once -/

/-- The input up to the delimiter, which is included, or to its end. -/
def upTo (delim : α) (xs : List α) : List α := xs.take (xs.idxOf delim + 1)

/-- What is left of the input. -/
def beyond (delim : α) (xs : List α) : List α := xs.drop (xs.idxOf delim + 1)

@[simp] theorem upTo_nil : upTo delim [] = [] := rfl

@[simp] theorem beyond_nil : beyond delim [] = [] := rfl

theorem upTo_append_of_notMem (h : delim ∉ xs) : upTo delim (xs ++ ys) = xs ++ upTo delim ys := by
  unfold upTo
  rw [List.idxOf_append_of_notMem h, Nat.add_assoc, List.take_length_add_append]

theorem beyond_append_of_notMem (h : delim ∉ xs) : beyond delim (xs ++ ys) = beyond delim ys := by
  unfold beyond
  rw [List.idxOf_append_of_notMem h, Nat.add_assoc, List.drop_length_add_append]

theorem upTo_append_of_mem (h : delim ∈ xs) : upTo delim (xs ++ ys) = upTo delim xs := by
  unfold upTo
  rw [List.idxOf_append_of_mem h, List.take_append_of_le_length (List.idxOf_lt_length_of_mem h)]

/-- A line and its delimiter. -/
theorem upTo_line (h : delim ∉ xs) : upTo delim (xs ++ delim :: ys) = xs ++ [delim] := by
  rw [upTo_append_of_notMem h, upTo, List.idxOf_cons_self]
  rfl

theorem beyond_line (h : delim ∉ xs) : beyond delim (xs ++ delim :: ys) = ys := by
  rw [beyond_append_of_notMem h, beyond, List.idxOf_cons_self]
  rfl

/-! ## In rounds -/

/-- What a round leaves: what has been read, how much of the piece has been used, and whether the
reader is done. -/
structure Round (α : Type u) where
  read : List α
  used : Nat
  done : Bool
  deriving DecidableEq, Repr

/-- One round of a reader that has read `line` and is shown `available`.  No bytes mean the end. -/
def round (delim : α) (line available : List α) : Round α :=
  match available.idxOf? delim with
  | some i =>
      { read := line ++ available.take (i + 1)
        used := i + 1
        done := true }
  | none =>
      { read := line ++ available
        used := available.length
        done := available.isEmpty }

theorem idxOf?_of_mem (h : delim ∈ xs) : xs.idxOf? delim = some (xs.idxOf delim) := by
  induction xs with
  | nil => cases h
  | cons x xs ih =>
      by_cases hx : x = delim
      · simp [List.idxOf?_cons, hx]
      · have hmem : delim ∈ xs := (List.mem_cons.1 h).resolve_left (Ne.symm hx)
        simp [List.idxOf?_cons, List.idxOf_cons_ne, hx, ih hmem]

theorem round_of_mem (h : delim ∈ xs) (line : List α) :
    round delim line xs =
      { read := line ++ upTo delim xs
        used := xs.idxOf delim + 1
        done := true } := by
  rw [round, idxOf?_of_mem h]
  rfl

theorem round_of_notMem (h : delim ∉ xs) (line : List α) :
    round delim line xs =
      { read := line ++ xs
        used := xs.length
        done := xs.isEmpty } := by
  rw [round, List.idxOf?_eq_none_iff.2 h]

theorem used_round_le (delim : α) (line available : List α) :
    (round delim line available).used ≤ available.length := by
  by_cases h : delim ∈ available
  · rw [round_of_mem h]
    exact List.idxOf_lt_length_of_mem h
  · exact Nat.le_of_eq (congrArg Round.used (round_of_notMem h line))

section Round

variable {line available : List α}

/-- Nothing is used only when nothing is shown. -/
theorem read_of_used_eq_zero (h : (round delim line available).used = 0) :
    (round delim line available).read = line := by
  by_cases hmem : delim ∈ available
  · rw [round_of_mem hmem] at h
    cases h
  · rw [round_of_notMem hmem] at h ⊢
    rw [List.eq_nil_of_length_eq_zero h]
    exact List.append_nil line

/-- A reader that is done has read what it would have read at once.  If it is shown nothing, there
has to be nothing left. -/
theorem round_done {more : List α} (hend : available = [] → more = [])
    (hdone : (round delim line available).done = true) :
    (round delim line available).read = line ++ upTo delim (available ++ more) ∧
      (available ++ more).drop (round delim line available).used =
        beyond delim (available ++ more) := by
  by_cases h : delim ∈ available
  · rw [round_of_mem h, upTo_append_of_mem h]
    refine ⟨rfl, ?_⟩
    rw [beyond, List.idxOf_append_of_mem h]
  · rw [round_of_notMem h] at hdone ⊢
    have hnil : available = [] := List.isEmpty_iff.1 hdone
    rw [hend hnil, hnil]
    exact ⟨rfl, rfl⟩

/-- A reader that is not done has used the whole piece, and what it will have read is the same. -/
theorem round_not_done (more : List α) (hdone : (round delim line available).done = false) :
    (round delim line available).used = available.length ∧ available ≠ [] ∧
      (round delim line available).read ++ upTo delim more =
        line ++ upTo delim (available ++ more) ∧
      beyond delim more = beyond delim (available ++ more) := by
  by_cases h : delim ∈ available
  · rw [round_of_mem h] at hdone
    cases hdone
  · rw [round_of_notMem h] at hdone ⊢
    refine ⟨rfl, ?_, ?_, (beyond_append_of_notMem h).symm⟩
    · rintro rfl
      cases hdone
    · rw [upTo_append_of_notMem h, List.append_assoc]

end Round

end ReadUntil
