import Mathlib.Data.List.Basic

/-!
# ThreadPool — a list of threads of which one takes a step

`Replace x x' pool pool'` says that `pool'` is `pool` after one of its threads went from `x` to
`x'`, or ended when there is no `x'`.
-/

namespace ThreadPool

universe u v

variable {α : Type u} {x : α} {x' : Option α} {pool pool' : List α}

inductive Replace (x : α) (x' : Option α) : List α → List α → Prop where
  | mk (before after : List α) :
      Replace x x' (before ++ x :: after) (before ++ x'.toList ++ after)

namespace Replace

theorem mem (h : Replace x x' pool pool') : x ∈ pool := by
  cases h with
  | mk before after => exact List.mem_append_right _ (List.mem_cons_self ..)

/-- Any thread of the pool can take a step. -/
theorem exists_of_mem (h : x ∈ pool) (x' : Option α) : ∃ pool', Replace x x' pool pool' := by
  rcases List.append_of_mem h with ⟨before, after, rfl⟩
  exact ⟨_, .mk before after⟩

theorem mem_of_some {y : α} (h : Replace x (some y) pool pool') : y ∈ pool' := by
  cases h with
  | mk before after => simp

/-- What holds of every thread still does when it holds of the thread after its step. -/
theorem forall_mem {P : α → Prop} (h : Replace x x' pool pool') (hpool : ∀ y ∈ pool, P y)
    (hx : ∀ y, x' = some y → P y) : ∀ y ∈ pool', P y := by
  cases h with
  | mk before after =>
      intro y hy
      rcases List.mem_append.1 hy with hmoved | hafter
      · rcases List.mem_append.1 hmoved with hbefore | hself
        · exact hpool y (List.mem_append_left _ hbefore)
        · exact hx y (Option.mem_toList.1 hself)
      · exact hpool y (List.mem_append_right _ (List.mem_cons_of_mem _ hafter))

theorem ne_nil {y : α} (h : Replace x (some y) pool pool') : pool' ≠ [] := by
  cases h with
  | mk before after => simp

/-- A step changes the count of the two states of its thread, and no other. -/
theorem count_add [BEq α] (h : Replace x x' pool pool') (y : α) :
    pool'.count y + [x].count y = pool.count y + x'.toList.count y := by
  cases h with
  | mk before after =>
      simp only [List.count_append, List.count_cons, List.count_nil]
      omega

theorem map {β : Type v} (f : α → β) (h : Replace x x' pool pool') :
    Replace (f x) (x'.map f) (pool.map f) (pool'.map f) := by
  cases h with
  | mk before after =>
      have hmoved := @Replace.mk β (f x) (x'.map f) (before.map f) (after.map f)
      cases x' <;> simpa using hmoved

theorem length_eq (h : Replace x none pool pool') : pool.length = pool'.length + 1 := by
  cases h with
  | mk before after => simp [Nat.add_assoc]

/-- The pool is empty only when its one thread has ended. -/
theorem eq_singleton (h : Replace x none pool pool') (hempty : pool' = []) : pool = [x] := by
  cases h with
  | mk before after =>
      rw [Option.toList_none, List.append_nil] at hempty
      rcases List.append_eq_nil_iff.1 hempty with ⟨rfl, rfl⟩
      rfl

end Replace

end ThreadPool
