import Mathlib.Data.List.Basic

/-!
# InTurn — machines that run one after another

Machines stand in a line.  The first one moves, and when it has come to its end it leaves and the
next one is the first.  The line keeps an account of the machines that have left, and of what the
machines have done.

* `Line.Ordered` — the ones that have left have ended, the ones behind the first have not begun, and
  what has been done was done by one machine after the other.
* `Line.Ordered.join`, `Line.Ordered.move`, `Line.Ordered.leave` — whatever happens to a line keeps
  this.
-/

namespace InTurn

universe u v

/-- The stages of a machine, and what it has done. -/
structure Machines (σ : Type u) (β : Type v) where
  Fresh : σ → Prop
  Running : σ → Prop
  Ended : σ → Prop
  record : σ → List β
  running_of_fresh : ∀ s, Fresh s → Running s
  record_of_fresh : ∀ s, Fresh s → record s = []

structure Line (σ : Type u) (β : Type v) where
  past : List σ
  waiting : List σ
  done : List β

variable {σ : Type u} {β : Type v}

namespace Line

def empty : Line σ β :=
  { past := []
    waiting := []
    done := [] }

/-- All machines, in the order in which they have joined. -/
def all (l : Line σ β) : List σ := l.past ++ l.waiting

def join (l : Line σ β) (s : σ) : Line σ β := { l with waiting := l.waiting ++ [s] }

/-- The first machine moves. -/
def move (l : Line σ β) (t : σ) (done : List β) : Line σ β :=
  { l with
    waiting := t :: l.waiting.tail
    done := l.done ++ done }

/-- The first machine moves for the last time. -/
def leave (l : Line σ β) (t : σ) (done : List β) : Line σ β :=
  { past := l.past ++ [t]
    waiting := l.waiting.tail
    done := l.done ++ done }

variable {l : Line σ β} {s t : σ} {rest : List σ} {done : List β}

@[simp] theorem all_join : (l.join s).all = l.all ++ [s] := by
  simp [all, join]

theorem all_move (h : l.waiting = s :: rest) : (l.move t done).all = l.past ++ t :: rest := by
  simp [all, move, h]

theorem all_leave (h : l.waiting = s :: rest) : (l.leave t done).all = l.past ++ t :: rest := by
  simp [all, leave, h]

/-! ## One after the other -/

variable (M : Machines σ β)

structure Ordered (l : Line σ β) : Prop where
  past : ∀ s ∈ l.past, M.Ended s
  first : ∀ s ∈ l.waiting.head?, M.Running s
  behind : ∀ s ∈ l.waiting.tail, M.Fresh s
  done : l.done = l.all.flatMap M.record

variable {M}

theorem ordered_empty : (empty : Line σ β).Ordered M := ⟨nofun, nofun, nofun, rfl⟩

/-- What has not begun has done nothing. -/
theorem flatMap_record_of_fresh {ss : List σ} (h : ∀ s ∈ ss, M.Fresh s) :
    ss.flatMap M.record = [] := by
  refine List.flatMap_eq_nil_iff.2 ?_
  intro s hs
  exact M.record_of_fresh s (h s hs)

namespace Ordered

theorem join (h : l.Ordered M) (hs : M.Fresh s) : (l.join s).Ordered M := by
  refine ⟨h.past, ?_, ?_, ?_⟩
  · intro t ht
    cases hwaiting : l.waiting with
    | nil =>
        -- The machine is the only one, and so it is the first.
        have heq : s = t := by simpa [Line.join, hwaiting] using ht
        exact heq ▸ M.running_of_fresh s hs
    | cons first rest =>
        have heq : first = t := by simpa [Line.join, hwaiting] using ht
        exact h.first t (by simp [hwaiting, heq])
  · intro t ht
    cases hwaiting : l.waiting with
    | nil => simp [Line.join, hwaiting] at ht
    | cons first rest =>
        have hmem : t ∈ rest ∨ t = s := by simpa [Line.join, hwaiting] using ht
        rcases hmem with hold | rfl
        · exact h.behind t (by simpa [hwaiting] using hold)
        · exact hs
  · rw [all_join, List.flatMap_append, ← h.done]
    simp [Line.join, M.record_of_fresh s hs]

/-- What the first machine does comes behind everything else. -/
theorem done_append (h : l.Ordered M) (hwaiting : l.waiting = s :: rest)
    (hrecord : M.record t = M.record s ++ done) :
    l.done ++ done = (l.past ++ t :: rest).flatMap M.record := by
  have hrest : rest.flatMap M.record = [] := by
    refine flatMap_record_of_fresh ?_
    intro r hr
    exact h.behind r (by simpa [hwaiting] using hr)
  calc
    l.done ++ done = (l.past ++ s :: rest).flatMap M.record ++ done := by rw [h.done, all, hwaiting]
    _ = l.past.flatMap M.record ++ (M.record s ++ done) := by simp [hrest]
    _ = (l.past ++ t :: rest).flatMap M.record := by simp [hrest, hrecord]

theorem move (h : l.Ordered M) (hwaiting : l.waiting = s :: rest) (ht : M.Running t)
    (hrecord : M.record t = M.record s ++ done) : (l.move t done).Ordered M := by
  refine ⟨h.past, ?_, ?_, ?_⟩
  · intro t' ht'
    have heq : t = t' := by simpa [Line.move] using ht'
    exact heq ▸ ht
  · intro r hr
    exact h.behind r (by simpa [Line.move] using hr)
  · rw [all_move hwaiting]
    exact h.done_append hwaiting hrecord

theorem leave (h : l.Ordered M) (hwaiting : l.waiting = s :: rest) (ht : M.Ended t)
    (hrecord : M.record t = M.record s ++ done) : (l.leave t done).Ordered M := by
  have hfresh : ∀ r ∈ rest, M.Fresh r := by
    intro r hr
    exact h.behind r (by simpa [hwaiting] using hr)
  refine ⟨?_, ?_, ?_, ?_⟩
  · intro r hr
    rcases List.mem_append.1 hr with hold | hnew
    · exact h.past r hold
    · rw [List.mem_singleton.1 hnew]
      exact ht
  · intro r hr
    -- The next machine has not begun.
    have hhead : r ∈ rest.head? := by simpa [Line.leave, hwaiting] using hr
    exact M.running_of_fresh r (hfresh r (List.mem_of_mem_head? hhead))
  · intro r hr
    have htail : r ∈ rest.tail := by simpa [Line.leave, hwaiting] using hr
    exact hfresh r (List.mem_of_mem_tail htail)
  · rw [all_leave hwaiting]
    exact h.done_append hwaiting hrecord

end Ordered

end Line

end InTurn
