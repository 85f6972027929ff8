import Mathlib.Data.List.Infix

/-!
# StreamSplitting — self-delimiting items in a stream

A stream of symbols carries items back to back.  An `ItemReader` takes one item off the front of a
buffer, and only needs two laws: taking an item shortens the buffer, and symbols that arrive later
never change an item that was already complete.

We define

* `ItemReader.split` — all complete items of a buffer, with the symbols left over;
* `ItemReader.split_append` — splitting is incremental: the leftover of a first split is all that
  has to be kept until more symbols arrive;
* `ItemReader.Encodes` — an encoder whose output the reader takes back off, and the fact that a
  concatenation of encodings splits into exactly the encoded items.
-/

namespace StreamSplitting

universe u v w

/-- Takes one complete item off the front of a buffer, if there is one. -/
structure ItemReader (α : Type u) (β : Type v) where
  next : List α → Option (β × List α)
  shrinks : ∀ {xs rest : List α} {b : β}, next xs = some (b, rest) → rest.length < xs.length
  stable : ∀ {xs rest : List α} {b : β} (ys : List α),
    next xs = some (b, rest) → next (xs ++ ys) = some (b, rest ++ ys)

namespace ItemReader

variable {α : Type u} {β : Type v} {γ : Type w}

/-! ## Splitting a buffer -/

/-- `split` with the number of items still allowed; the buffer's length is always enough. -/
def splitUpTo (R : ItemReader α β) : Nat → List α → List β × List α
  | 0, xs => ([], xs)
  | n + 1, xs =>
      match R.next xs with
      | none => ([], xs)
      | some (b, rest) =>
          let r := splitUpTo R n rest
          (b :: r.1, r.2)

/-- The complete items of a buffer in order, and what follows the last of them. -/
def split (R : ItemReader α β) (xs : List α) : List β × List α :=
  splitUpTo R xs.length xs

variable (R : ItemReader α β)

theorem splitUpTo_eq_of_le {n m : Nat} {xs : List α} (hn : xs.length ≤ n) (hm : xs.length ≤ m) :
    splitUpTo R n xs = splitUpTo R m xs := by
  induction n generalizing m xs with
  | zero =>
      have hnone : R.next xs = none := by
        cases h : R.next xs with
        | none => rfl
        | some p => exact absurd (R.shrinks h) (by omega)
      cases m with
      | zero => rfl
      | succ m => simp [splitUpTo, hnone]
  | succ n ih =>
      cases m with
      | zero =>
          have hnone : R.next xs = none := by
            cases h : R.next xs with
            | none => rfl
            | some p => exact absurd (R.shrinks h) (by omega)
          simp [splitUpTo, hnone]
      | succ m =>
          cases h : R.next xs with
          | none => simp [splitUpTo, h]
          | some p =>
              have hlt := R.shrinks h
              have hrest : splitUpTo R n p.2 = splitUpTo R m p.2 := ih (by omega) (by omega)
              simp [splitUpTo, h, hrest]

theorem split_of_next_eq_none {xs : List α} (h : R.next xs = none) : R.split xs = ([], xs) := by
  unfold split
  cases xs.length with
  | zero => rfl
  | succ n => simp [splitUpTo, h]

theorem split_of_next_eq_some {xs rest : List α} {b : β} (h : R.next xs = some (b, rest)) :
    R.split xs = (b :: (R.split rest).1, (R.split rest).2) := by
  have hlt := R.shrinks h
  obtain ⟨n, hn⟩ : ∃ n, xs.length = n + 1 := ⟨xs.length - 1, by omega⟩
  have hrest : splitUpTo R n rest = R.split rest := splitUpTo_eq_of_le R (by omega) le_rfl
  unfold split at hrest ⊢
  rw [hn]
  simp [splitUpTo, h, hrest]

/-- Induction along the items of a buffer. -/
theorem split_induction {P : List α → Prop}
    (done : ∀ xs, R.next xs = none → P xs)
    (item : ∀ xs b rest, R.next xs = some (b, rest) → P rest → P xs) (xs : List α) : P xs := by
  induction hlen : xs.length using Nat.strong_induction_on generalizing xs with
  | _ n ih =>
      cases h : R.next xs with
      | none => exact done xs h
      | some p => exact item xs p.1 p.2 h (ih _ (hlen ▸ R.shrinks h) p.2 rfl)

/-- Nothing complete is left over. -/
theorem next_split_snd (xs : List α) : R.next (R.split xs).2 = none := by
  induction xs using R.split_induction with
  | done xs h => simpa [R.split_of_next_eq_none h] using h
  | item xs b rest h ih => simpa [R.split_of_next_eq_some h] using ih

/-- The leftover of a split, followed by later symbols, splits into the later items. -/
theorem split_append (xs ys : List α) :
    R.split (xs ++ ys) =
      ((R.split xs).1 ++ (R.split ((R.split xs).2 ++ ys)).1,
        (R.split ((R.split xs).2 ++ ys)).2) := by
  induction xs using R.split_induction with
  | done xs h => simp [R.split_of_next_eq_none h]
  | item xs b rest h ih =>
      rw [R.split_of_next_eq_some (R.stable ys h), R.split_of_next_eq_some h, ih]
      rfl

/-! ## Encoders -/

/-- `enc` writes an item so that the reader takes `item` back off, whatever follows. -/
def Encodes (enc : γ → List α) (item : γ → β) (c : γ) : Prop :=
  ∀ rest, R.next (enc c ++ rest) = some (item c, rest)

variable {R} {enc : γ → List α} {item : γ → β}

theorem split_flatMap_append {cs : List γ} (h : ∀ c ∈ cs, R.Encodes enc item c) (tail : List α) :
    R.split (cs.flatMap enc ++ tail) = (cs.map item ++ (R.split tail).1, (R.split tail).2) := by
  induction cs with
  | nil => simp
  | cons c cs ih =>
      have hc := h c (by simp)
      have hcs : ∀ c' ∈ cs, R.Encodes enc item c' := fun c' hc' => h c' (by simp [hc'])
      rw [List.flatMap_cons, List.append_assoc, R.split_of_next_eq_some (hc _), ih hcs]
      rfl

/-- A proper prefix of an encoding is not a complete item. -/
theorem next_eq_none_of_prefix {c : γ} (h : R.Encodes enc item c) {tail : List α}
    (hpre : tail <+: enc c) (hne : tail ≠ enc c) : R.next tail = none := by
  cases hnext : R.next tail with
  | none => rfl
  | some p =>
      obtain ⟨more, hmore⟩ := hpre
      have hlong := R.stable more hnext
      have hwhole := h []
      rw [hmore] at hlong
      rw [List.append_nil, hlong] at hwhole
      have hnil : p.2 ++ more = [] := congrArg Prod.snd (Option.some.inj hwhole)
      have : more = [] := (List.append_eq_nil_iff.1 hnil).2
      exact absurd (by simpa [this] using hmore) hne

end ItemReader

end StreamSplitting
