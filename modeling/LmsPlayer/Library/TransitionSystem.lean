import Mathlib.Logic.Relation

/-!
# TransitionSystem — runs, invariants and simulations

A system is a set of initial states and a step relation.  We package the inductions that every
development over such a system needs:

* `Reachable.invariant` — what holds initially and is kept by steps holds in every reachable state;
* `Steps` — finite runs from a given state, and `Steps.invariant` along them;
* `restrict` — the runs all of whose steps meet a condition;
* `Inevitable` — what every run comes to that goes on as long as it can;
* `Simulation` — a map to a more abstract system under which every step is an abstract step or
  leaves the abstract state alone.
-/

namespace TransitionSystem

universe u v

structure System (σ : Type u) where
  init : σ → Prop
  step : σ → σ → Prop

namespace System

variable {σ : Type u} {τ : Type v} {S : System σ} {T : System τ}

/-! ## Reachable states -/

/-- The states at the end of a finite run. -/
inductive Reachable (S : System σ) : σ → Prop where
  | init {s : σ} (h : S.init s) : Reachable S s
  | step {s t : σ} (hs : Reachable S s) (h : S.step s t) : Reachable S t

/-- The induction behind every safety property. -/
theorem Reachable.invariant (P : σ → Prop) (hinit : ∀ s, S.init s → P s)
    (hstep : ∀ s t, S.Reachable s → P s → S.step s t → P t) {s : σ} (h : S.Reachable s) : P s := by
  induction h with
  | init h => exact hinit _ h
  | step hs h ih => exact hstep _ _ hs ih h

/-! ## Runs -/

/-- `t` is reached from `s` by finitely many steps. -/
def Steps (S : System σ) (s t : σ) : Prop := Relation.ReflTransGen S.step s t

theorem Steps.refl (s : σ) : S.Steps s s := Relation.ReflTransGen.refl

theorem Steps.trans {s t r : σ} (h : S.Steps s t) (h' : S.Steps t r) : S.Steps s r :=
  Relation.ReflTransGen.trans h h'

theorem Steps.head {s t r : σ} (h : S.step s t) (h' : S.Steps t r) : S.Steps s r :=
  Relation.ReflTransGen.head h h'

/-- What holds in a state and is kept by steps holds along every run from there. -/
theorem Steps.invariant (P : σ → Prop) {s t : σ} (hrun : S.Steps s t) (hs : P s)
    (hstep : ∀ a b, P a → S.step a b → P b) : P t := by
  induction hrun with
  | refl => exact hs
  | tail _ h ih => exact hstep _ _ ih h

theorem Reachable.steps {s t : σ} (hs : S.Reachable s) (h : S.Steps s t) : S.Reachable t := by
  refine Steps.invariant S.Reachable h hs ?_
  intro a b ha hab
  exact .step ha hab

/-! ## Restricted systems -/

/-- The system in which every step also meets `ok`. -/
def restrict (S : System σ) (ok : σ → σ → Prop) : System σ :=
  { init := S.init
    step := fun s t => S.step s t ∧ ok s t }

theorem Reachable.of_restrict {ok : σ → σ → Prop} {s : σ} (h : (S.restrict ok).Reachable s) :
    S.Reachable s := by
  refine Reachable.invariant S.Reachable ?_ ?_ h
  · intro s hs
    exact .init hs
  · intro s t _ hs hst
    exact .step hs hst.1

/-! ## Inevitable states -/

/-- Every run from here that goes on as long as it can comes to a state in `goal`. -/
inductive Inevitable (S : System σ) (goal : σ → Prop) : σ → Prop where
  | now {s : σ} (h : goal s) : Inevitable S goal s
  | later {s : σ} (hmove : ∃ t, S.step s t) (hnext : ∀ t, S.step s t → Inevitable S goal t) :
      Inevitable S goal s

/-- A goal is inevitable when every step towards it lowers a rank, and there is always one more step
to take. -/
theorem Inevitable.of_rank {goal P : σ → Prop} (rank : σ → Nat)
    (hkept : ∀ s t, P s → S.step s t → P t)
    (hrank : ∀ s t, P s → S.step s t → rank t < rank s)
    (hmove : ∀ s, P s → ¬goal s → ∃ t, S.step s t) {s : σ} (hs : P s) : S.Inevitable goal s := by
  induction hn : rank s using Nat.strongRecOn generalizing s with
  | ind n ih =>
      by_cases hgoal : goal s
      · exact .now hgoal
      · refine .later (hmove s hs hgoal) ?_
        intro t hstep
        exact ih (rank t) (hn ▸ hrank s t hs hstep) (hkept s t hs hstep) rfl

/-- What is inevitable is possible. -/
theorem Inevitable.exists_steps {goal : σ → Prop} {s : σ} (h : S.Inevitable goal s) :
    ∃ t, S.Steps s t ∧ goal t := by
  induction h with
  | now h => exact ⟨_, .refl _, h⟩
  | later hmove _ ih =>
      obtain ⟨t, hstep⟩ := hmove
      obtain ⟨r, hrun, hgoal⟩ := ih t hstep
      exact ⟨r, .head hstep hrun, hgoal⟩

/-- A run of the restricted system is one of the whole system. -/
theorem Steps.of_restrict {ok : σ → σ → Prop} {s t : σ} (h : (S.restrict ok).Steps s t) :
    S.Steps s t := by
  refine Steps.invariant (fun t => S.Steps s t) h (.refl s) ?_
  intro a b ha hab
  exact ha.trans (.head hab.1 (.refl b))

end System

/-! ## Simulations -/

/-- A map of states under which `S` does nothing that `T` could not do. -/
structure Simulation {σ : Type u} {τ : Type v} (S : System σ) (T : System τ) where
  abs : σ → τ
  init : ∀ s, S.init s → T.init (abs s)
  step : ∀ s t, S.Reachable s → S.step s t → abs t = abs s ∨ T.step (abs s) (abs t)

/-- Reachable states are mapped to reachable states, so invariants of the abstract system hold of
the concrete one. -/
theorem Simulation.reachable {σ : Type u} {τ : Type v} {S : System σ} {T : System τ}
    (R : Simulation S T) {s : σ} (h : S.Reachable s) : T.Reachable (R.abs s) := by
  induction h with
  | init h => exact .init (R.init _ h)
  | step hs h ih =>
      rcases R.step _ _ hs h with hsame | hstep
      · rw [hsame]
        exact ih
      · exact .step ih hstep

end TransitionSystem
