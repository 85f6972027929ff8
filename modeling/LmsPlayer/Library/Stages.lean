import LmsPlayer.Library.ThreadPool
import Mathlib.Order.Nat

/-!
# Stages — workers that go through the stages of one course

Each worker of a pool goes through the same stages, in the same order, and posts every stage as it
comes to it; a worker may give up at any point.  All of them post into one sequence.  `before x` is
the stage that a worker has posted just before `x`, when there is one.

* No prefix of the sequence has more of a stage than of the stage before it (`Leads`).
* What has been posted of a stage, and the workers that post it next, are no more than what has been
  posted of the stage before it, or than the workers that have begun (`Accounted`).
-/

namespace Stages

open ThreadPool (Replace)

universe u

variable {σ : Type u} [DecidableEq σ]

/-- In every prefix of the sequence, `x` is no more frequent than `y`. -/
def Leads (y x : σ) (posted : List σ) : Prop :=
  ∀ early, early <+: posted → early.count x ≤ early.count y

namespace Leads

variable {y x : σ} {posted : List σ}

theorem nil (y x : σ) : Leads y x [] := by
  intro early hearly
  rw [List.prefix_nil.1 hearly]
  exact le_rfl

theorem count_le (h : Leads y x posted) : posted.count x ≤ posted.count y :=
  h posted List.prefix_rfl

theorem of_early (h : Leads y x posted) {early : List σ} (hearly : early <+: posted) :
    Leads y x early := by
  intro earlier hearlier
  exact h earlier (hearlier.trans hearly)

/-- One more stage is posted. -/
theorem concat (h : Leads y x posted) {z : σ} (hz : z = x → posted.count x < posted.count y) :
    Leads y x (posted ++ [z]) := by
  intro early hearly
  rcases List.prefix_concat_iff.1 hearly with rfl | hold
  · rw [List.count_append, List.count_append]
    by_cases hzx : z = x
    · calc
        posted.count x + [z].count x ≤ posted.count x + 1 :=
          Nat.add_le_add_left List.count_le_length _
        _ ≤ posted.count y := hz hzx
        _ ≤ posted.count y + [z].count y := Nat.le_add_right _ _
    · have hnone : [z].count x = 0 := List.count_eq_zero.2 fun hmem =>
        hzx (List.mem_singleton.1 hmem).symm
      rw [hnone]
      exact Nat.add_le_add h.count_le (Nat.zero_le _)
  · exact h early hold

/-- What does not concern the two stages may be left out. -/
theorem filter (h : Leads y x posted) {keep : σ → Bool} (hx : keep x = true) (hy : keep y = true) :
    Leads y x (posted.filter keep) := by
  intro early hearly
  rcases List.prefix_filter_iff.1 hearly with ⟨whole, hwhole, rfl⟩
  rw [List.count_filter hx, List.count_filter hy]
  exact h whole hwhole

end Leads

variable (before : σ → Option σ)

/-- How many workers can have come to the stage. -/
def supply (begun : Nat) (posted : List σ) (x : σ) : Nat :=
  match before x with
  | none => begun
  | some y => posted.count y

/-- The workers are given by the stage that each of them posts next, if it goes on. -/
structure Accounted (begun : Nat) (next : List (Option σ)) (posted : List σ) : Prop where
  leads : ∀ x y, before x = some y → Leads y x posted
  supplied : ∀ x, posted.count x + next.count (some x) ≤ supply before begun posted x

variable {before} {begun : Nat} {next next' : List (Option σ)} {posted : List σ}

theorem supply_concat_le (begun : Nat) (posted : List σ) (x z : σ) :
    supply before begun posted x ≤ supply before begun (posted ++ [z]) x := by
  unfold supply
  cases before x with
  | none => exact le_rfl
  | some y =>
      dsimp only
      rw [List.count_append]
      exact Nat.le_add_right _ _

namespace Accounted

theorem nil (before : σ → Option σ) (begun : Nat) : Accounted before begun [] [] := by
  refine ⟨fun x y _ => Leads.nil y x, ?_⟩
  intro x
  exact Nat.zero_le _

/-- What has been posted of a stage. -/
theorem count_le (h : Accounted before begun next posted) (x : σ) :
    posted.count x ≤ supply before begun posted x :=
  (Nat.le_add_right _ _).trans (h.supplied x)

/-- A worker begins. -/
theorem begin (h : Accounted before begun next posted) {x : σ} (hx : before x = none) :
    Accounted before (begun + 1) (next ++ [some x]) posted := by
  refine ⟨h.leads, ?_⟩
  intro z
  have hz := h.supplied z
  rw [List.count_append]
  by_cases hzx : z = x
  · subst hzx
    have hsupply : ∀ n, supply before n posted z = n := by
      intro n
      unfold supply
      rw [hx]
    rw [hsupply] at hz
    rw [hsupply, List.count_singleton_self]
    omega
  · have hnone : [some x].count (some z) = 0 := List.count_eq_zero.2 fun hmem =>
      hzx (Option.some.inj (List.mem_singleton.1 hmem))
    rw [hnone, Nat.add_zero]
    refine hz.trans ?_
    unfold supply
    cases before z with
    | none => exact Nat.le_succ _
    | some y => exact le_rfl

/-- A worker gives up, or takes its time. -/
theorem quit (h : Accounted before begun next posted)
    (hnext : ∀ x, next'.count (some x) ≤ next.count (some x)) :
    Accounted before begun next' posted := by
  refine ⟨h.leads, ?_⟩
  intro x
  exact (Nat.add_le_add_left (hnext x) _).trans (h.supplied x)

/-- The sequence is cut short, and nobody is going to post any more. -/
theorem cut (h : Accounted before begun next posted) {early : List σ} (hearly : early <+: posted) :
    Accounted before begun [] early := by
  refine ⟨fun x y hbefore => (h.leads x y hbefore).of_early hearly, ?_⟩
  intro x
  have hcount := h.count_le x
  rw [List.count_nil, Nat.add_zero]
  unfold supply at hcount ⊢
  cases hbefore : before x with
  | none =>
      rw [hbefore] at hcount
      exact (hearly.sublist.count_le _).trans hcount
  | some y => exact h.leads x y hbefore early hearly

/-- A worker posts its stage, and goes on to the next one or ends. -/
theorem post (h : Accounted before begun next posted) {x : σ} {after : Option (Option σ)}
    (hworker : Replace (some x) after next next') (hself : before x ≠ some x)
    (hafter : ∀ z, after = some (some z) → before z = some x) :
    Accounted before begun next' (posted ++ [x]) := by
  have hcount : ∀ z, next'.count (some z) + [some x].count (some z) =
      next.count (some z) + after.toList.count (some z) := by
    intro z
    have hmoved := hworker.count_add (some z)
    omega
  have hone : next'.count (some x) + 1 = next.count (some x) := by
    have hx := hcount x
    have hnone : after.toList.count (some x) = 0 := List.count_eq_zero.2 fun hmem =>
      hself (hafter x (Option.mem_toList.1 hmem))
    rw [List.count_singleton_self, hnone] at hx
    exact hx
  refine ⟨?_, ?_⟩
  · intro z y hbefore
    refine (h.leads z y hbefore).concat ?_
    rintro rfl
    -- It is supplied for: the stage before it has been posted once more.
    have hsupplied := h.supplied x
    have hsupply : supply before begun posted x = posted.count y := by
      unfold supply
      rw [hbefore]
    rw [hsupply] at hsupplied
    omega
  · intro z
    have hsupplied := h.supplied z
    have hgrown : supply before begun posted z ≤ supply before begun (posted ++ [x]) z :=
      supply_concat_le begun posted z x
    rw [List.count_append]
    by_cases hzx : z = x
    · subst hzx
      rw [List.count_singleton_self]
      omega
    · have hposted : [x].count z = 0 := List.count_eq_zero.2 fun hmem =>
        hzx (List.mem_singleton.1 hmem)
      have hother : [some x].count (some z) = 0 := List.count_eq_zero.2 fun hmem =>
        hzx (Option.some.inj (List.mem_singleton.1 hmem))
      have hz := hcount z
      rw [hother, Nat.add_zero] at hz
      rw [hposted, Nat.add_zero, hz]
      by_cases hnext : after = some (some z)
      · -- The worker has come to `z`, for which it has posted `x`.
        have hsupply : ∀ sequence, supply before begun sequence z = sequence.count x := by
          intro sequence
          unfold supply
          rw [hafter z hnext]
        rw [hsupply] at hsupplied
        rw [hsupply, hnext, List.count_append, List.count_singleton_self]
        have hlist : (some (some z)).toList.count (some z) = 1 := List.count_singleton_self
        omega
      · have hlist : after.toList.count (some z) = 0 := List.count_eq_zero.2 fun hmem =>
          hnext (Option.mem_toList.1 hmem)
        omega

end Accounted

end Stages
