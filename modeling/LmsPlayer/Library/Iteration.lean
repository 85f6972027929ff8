import Mathlib.Logic.Relation

/-!
# Iteration — loops that may not end

A loop is given by what one round does: go on with another state, or leave with a result.  `run`
executes at most the given number of rounds, and `Returns` hides that number.

* `Returns.invariant` — what every round keeps holds of the result;
* `GoesOn.invariant` — and of every state the loop comes by;
* `Terminates.of_rank` — a loop ends when every round that goes on lowers a rank;
* `Terminates.of_count` — or when it counts up to a round that cannot go on;
* `not_terminates_of_invariant` — it does not when an invariant makes every round go on;
* `Returns.of_liftRel` — two loops whose rounds go on and leave together;
* `andThen` — a loop whose rounds first do what those of an inner loop do.
-/

namespace Iteration

universe u v w u' v'

variable {σ : Type u} {ρ : Type v} {τ : Type w}

def run (round : σ → σ ⊕ ρ) : Nat → σ → Option ρ
  | 0, _ => none
  | fuel + 1, s =>
      match round s with
      | .inl t => run round fuel t
      | .inr r => some r

/-- The loop started in `s` leaves with `r`. -/
def Returns (round : σ → σ ⊕ ρ) (s : σ) (r : ρ) : Prop := ∃ fuel, run round fuel s = some r

def Terminates (round : σ → σ ⊕ ρ) (s : σ) : Prop := ∃ r, Returns round s r

/-- The loop started in `s` comes by `t`. -/
def GoesOn (round : σ → σ ⊕ ρ) : σ → σ → Prop := Relation.ReflTransGen fun a b => round a = .inl b

variable {round : σ → σ ⊕ ρ} {s t : σ} {r : ρ}

/-! ## One round -/

theorem returns_of_inl (h : round s = .inl t) : Returns round s r ↔ Returns round t r := by
  constructor
  · rintro ⟨fuel, hrun⟩
    cases fuel with
    | zero => cases hrun
    | succ fuel => exact ⟨fuel, by simpa [run, h] using hrun⟩
  · rintro ⟨fuel, hrun⟩
    exact ⟨fuel + 1, by simpa [run, h] using hrun⟩

theorem returns_of_inr {r' : ρ} (h : round s = .inr r') : Returns round s r ↔ r' = r := by
  constructor
  · rintro ⟨fuel, hrun⟩
    cases fuel with
    | zero => cases hrun
    | succ fuel => simpa [run, h] using hrun
  · intro heq
    exact ⟨1, by simp [run, h, heq]⟩

/-! ## Invariants -/

/-- A loop is left from a state it has come by. -/
theorem Returns.exists_goesOn (h : Returns round s r) :
    ∃ t, GoesOn round s t ∧ round t = .inr r := by
  obtain ⟨fuel, hrun⟩ := h
  induction fuel generalizing s with
  | zero => cases hrun
  | succ fuel ih =>
      cases hround : round s with
      | inl t =>
          obtain ⟨t', hgoes, hlast⟩ := ih (s := t) (by simpa [run, hround] using hrun)
          exact ⟨t', .head hround hgoes, hlast⟩
      | inr r' =>
          have heq : r' = r := by simpa [run, hround] using hrun
          exact ⟨s, .refl, by rw [hround, heq]⟩

/-- What a state has and every round that goes on keeps, every state has that the loop comes by. -/
theorem GoesOn.invariant (P : σ → Prop) (hgoes : GoesOn round s t) (hs : P s)
    (hinl : ∀ a b, P a → round a = .inl b → P b) : P t := by
  induction hgoes with
  | refl => exact hs
  | tail _ hround ih => exact hinl _ _ ih hround

theorem Returns.invariant (P : σ → Prop) (Q : ρ → Prop) (h : Returns round s r) (hs : P s)
    (hinl : ∀ a b, P a → round a = .inl b → P b) (hinr : ∀ a q, P a → round a = .inr q → Q q) :
    Q r := by
  obtain ⟨t, hgoes, hlast⟩ := h.exists_goesOn
  exact hinr t r (hgoes.invariant P hs hinl) hlast

/-- A loop leaves with at most one result. -/
theorem Returns.unique {r' : ρ} (h : Returns round s r) (h' : Returns round s r') : r = r' := by
  refine Returns.invariant (fun t => Returns round t r') (fun q => q = r') h h' ?_ ?_
  · intro a b ha hround
    exact (returns_of_inl hround).1 ha
  · intro a q ha hround
    exact (returns_of_inr hround).1 ha

/-- What is made of the result, with rounds enough. -/
theorem Returns.exists_map_eq_some_iff {f : ρ → τ} (h : Returns round s r) {x : τ} :
    (∃ fuel, (run round fuel s).map f = some x) ↔ f r = x := by
  constructor
  · rintro ⟨fuel, hmap⟩
    obtain ⟨r', hrun, hx⟩ := Option.map_eq_some_iff.1 hmap
    rw [h.unique ⟨fuel, hrun⟩]
    exact hx
  · intro hx
    obtain ⟨fuel, hrun⟩ := h
    exact ⟨fuel, Option.map_eq_some_iff.2 ⟨r, hrun, hx⟩⟩

/-! ## Termination -/

/-- A rank that every round lowers bounds the number of rounds. -/
theorem exists_run_of_rank (round : σ → σ ⊕ ρ) (rank : σ → Nat)
    (hrank : ∀ a b, round a = .inl b → rank b < rank a) {fuel : Nat} (hfuel : rank s < fuel) :
    ∃ r, run round fuel s = some r := by
  induction fuel generalizing s with
  | zero => exact absurd hfuel (Nat.not_lt_zero _)
  | succ fuel ih =>
      cases hround : round s with
      | inl t =>
          have hlt : rank t < fuel :=
            Nat.lt_of_lt_of_le (hrank s t hround) (Nat.le_of_lt_succ hfuel)
          simpa [run, hround] using ih hlt
      | inr r => exact ⟨r, by simp [run, hround]⟩

theorem Terminates.of_rank (rank : σ → Nat)
    (hrank : ∀ a b, round a = .inl b → rank b < rank a) (s : σ) : Terminates round s := by
  obtain ⟨r, hrun⟩ := exists_run_of_rank round rank hrank (Nat.lt_succ_self (rank s))
  exact ⟨r, rank s + 1, hrun⟩

/-- A loop that counts its rounds ends at a round that cannot go on. -/
theorem Terminates.of_count (count : σ → Nat) (again : Nat → Prop)
    (hround : ∀ a b, round a = .inl b → again (count a) ∧ count b = count a + 1) {k : Nat}
    (hk : ¬again k) {s : σ} (hs : count s ≤ k) : Terminates round s := by
  obtain ⟨n, hn⟩ := Nat.exists_eq_add_of_le hs
  -- By the number of rounds that are left.
  induction n generalizing s with
  | zero =>
      cases hnext : round s with
      | inl t => exact absurd (hn ▸ (hround s t hnext).1) hk
      | inr r => exact ⟨r, (returns_of_inr hnext).2 rfl⟩
  | succ n ih =>
      cases hnext : round s with
      | inl t =>
          have hcount : k = count t + n := by
            rw [hn, (hround s t hnext).2, Nat.add_right_comm, Nat.add_assoc]
          obtain ⟨r, hreturns⟩ := ih (hcount ▸ Nat.le_add_right _ _) hcount
          exact ⟨r, (returns_of_inl hnext).2 hreturns⟩
      | inr r => exact ⟨r, (returns_of_inr hnext).2 rfl⟩

theorem not_terminates_of_invariant (P : σ → Prop) (hs : P s)
    (hgoes : ∀ a, P a → ∃ b, round a = .inl b ∧ P b) : ¬Terminates round s := by
  rintro ⟨r, hreturns⟩
  obtain ⟨t, ht, hlast⟩ := hreturns.exists_goesOn
  have hP : P t := by
    refine ht.invariant P hs ?_
    intro a b ha hround
    obtain ⟨c, hc, hPc⟩ := hgoes a ha
    obtain rfl : c = b := Sum.inl.inj (hc.symm.trans hround)
    exact hPc
  obtain ⟨b, hround, -⟩ := hgoes t hP
  rw [hround] at hlast
  cases hlast

/-! ## Two loops -/

section TwoLoops

variable {σ' : Type u'} {ρ' : Type v'} {round' : σ' → σ' ⊕ ρ'} {s' : σ'} {r' : ρ'}
variable {R : σ → σ' → Prop} {Q : ρ → ρ' → Prop}

/-- Where one loop leaves, the other one leaves as well, with a result that fits. -/
theorem Returns.of_liftRel (hround : ∀ a b, R a b → Sum.LiftRel R Q (round a) (round' b))
    (hs : R s s') (h : Returns round s r) : ∃ r', Returns round' s' r' ∧ Q r r' := by
  obtain ⟨fuel, hrun⟩ := h
  induction fuel generalizing s s' with
  | zero => cases hrun
  | succ fuel ih =>
      have hboth := hround s s' hs
      cases hleft : round s with
      | inl t =>
          rw [hleft] at hboth
          rcases hright : round' s' with t' | q
          · rw [hright] at hboth
            have ht : R t t' := Sum.liftRel_inl_inl.1 hboth
            obtain ⟨r', hreturns, hQ⟩ := ih ht (by simpa [run, hleft] using hrun)
            exact ⟨r', (returns_of_inl hright).2 hreturns, hQ⟩
          · rw [hright] at hboth
            cases hboth
      | inr q =>
          rw [hleft] at hboth
          have hq : q = r := by simpa [run, hleft] using hrun
          rcases hright : round' s' with t' | q'
          · rw [hright] at hboth
            cases hboth
          · rw [hright] at hboth
            exact ⟨q', (returns_of_inr hright).2 rfl, hq ▸ Sum.liftRel_inr_inr.1 hboth⟩

/-- The same from the other side. -/
theorem Returns.of_liftRel_right (hround : ∀ a b, R a b → Sum.LiftRel R Q (round a) (round' b))
    (hs : R s s') (h : Returns round' s' r') : ∃ r, Returns round s r ∧ Q r r' := by
  refine Returns.of_liftRel (R := fun b a => R a b) (Q := fun q' q => Q q q') ?_ hs h
  intro b a hab
  have hboth := hround a b hab
  generalize round a = x, round' b = y at hboth ⊢
  cases hboth with
  | inl hR => exact .inl hR
  | inr hQ => exact .inr hQ

end TwoLoops

/-! ## Nested loops -/

/-- Where the rounds of the inner loop leave it, `next` says whether to go on all the same. -/
def andThen (round : σ → σ ⊕ ρ) (next : ρ → σ ⊕ τ) (s : σ) : σ ⊕ τ :=
  match round s with
  | .inl t => .inl t
  | .inr r => next r

variable {next : ρ → σ ⊕ τ}

theorem andThen_of_inl (h : round s = .inl t) : andThen round next s = .inl t := by
  simp [andThen, h]

theorem andThen_of_inr (h : round s = .inr r) : andThen round next s = next r := by
  simp [andThen, h]

/-- The outer loop first runs the inner one. -/
theorem returns_andThen_of_inl (h : Returns round s r) (hnext : next r = .inl t) {q : τ} :
    Returns (andThen round next) s q ↔ Returns (andThen round next) t q := by
  obtain ⟨a, hgoes, hlast⟩ := h.exists_goesOn
  clear h
  induction hgoes using Relation.ReflTransGen.head_induction_on with
  | refl => exact returns_of_inl ((andThen_of_inr hlast).trans hnext)
  | head hround _ ih => rw [returns_of_inl (andThen_of_inl hround), ih]

theorem returns_andThen_of_inr (h : Returns round s r) {q' : τ} (hnext : next r = .inr q') {q : τ} :
    Returns (andThen round next) s q ↔ q' = q := by
  obtain ⟨a, hgoes, hlast⟩ := h.exists_goesOn
  clear h
  induction hgoes using Relation.ReflTransGen.head_induction_on with
  | refl => exact returns_of_inr ((andThen_of_inr hlast).trans hnext)
  | head hround _ ih => rw [returns_of_inl (andThen_of_inl hround), ih]

end Iteration
