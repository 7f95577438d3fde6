/-
  CpuSim.Lib.Sweep

  One pass over an array that empties the cells that pass a test and steps a counter
  for each.  The pass visits every cell once, so the test sees the array as it was.
-/

import Mathlib.Data.List.Range
import Mathlib.Logic.Function.Iterate

namespace CpuSim.Lib

variable {α κ : Type _} {test : α → Bool} {blank : α} {next : κ → κ}

/-- The pass at cell `i`. -/
def sweep (test : α → Bool) (blank : α) (next : κ → κ) (s : κ × (Nat → α)) (i : Nat) :
    κ × (Nat → α) :=
  if test (s.2 i) then (next s.1, Function.update s.2 i blank) else s

/-- The cells below `n` that pass the test. -/
def hits (test : α → Bool) (a : Nat → α) (n : Nat) : List Nat :=
  (List.range n).filter fun i => test (a i)

theorem mem_hits {a : Nat → α} {n i : Nat} :
    i ∈ hits test a n ↔ i < n ∧ test (a i) = true := by
  rw [hits, List.mem_filter, List.mem_range]

theorem hits_succ (a : Nat → α) (n : Nat) :
    hits test a (n + 1) = hits test a n ++ if test (a n) then [n] else [] := by
  rw [hits, List.range_succ, List.filter_append, List.filter_singleton, Bool.cond_eq_ite]
  rfl

theorem length_hits_le (a : Nat → α) (n : Nat) : (hits test a n).length ≤ n := by
  have hle := List.length_filter_le (fun i => test (a i)) (List.range n)
  rw [List.length_range] at hle
  exact hle

/-- After `n` cells: the cells that passed are empty, and the counter has stepped once for
    each of them. -/
theorem foldl_sweep (c : κ) (a : Nat → α) (n : Nat) :
    (List.range n).foldl (sweep test blank next) (c, a) =
      (next^[(hits test a n).length] c,
        fun i => if i < n ∧ test (a i) = true then blank else a i) := by
  induction n with
  | zero => simp [hits]
  | succ n ih =>
      -- the pass has not reached cell `n`, which is as it was
      have hfresh : ¬(n < n ∧ test (a n) = true) := by omega
      have hkeep : ∀ i, i ≠ n → (i < n + 1 ↔ i < n) := by omega
      rw [List.range_succ, List.foldl_append, ih, List.foldl_cons, List.foldl_nil, sweep]
      simp only [if_neg hfresh]
      by_cases ht : test (a n) = true
      · rw [if_pos ht, hits_succ, if_pos ht, List.length_append, List.length_singleton,
          Function.iterate_succ_apply']
        congr 1
        funext i
        rw [Function.update_apply]
        by_cases hi : i = n
        · subst hi
          rw [if_pos rfl, if_pos ⟨Nat.lt_succ_self i, ht⟩]
        · rw [if_neg hi]
          simp only [hkeep i hi]
      · rw [if_neg ht, hits_succ, if_neg ht, List.append_nil]
        congr 1
        funext i
        by_cases hi : i = n
        · subst hi
          simp only [ht, Bool.false_eq_true, and_false, if_false]
        · simp only [hkeep i hi]

/-- A number of hits beside another counter. -/
theorem iterate_counters {β : Type _} (f : β → β) (k : Nat) (c : Nat × β) :
    (fun c : Nat × β => (c.1 + 1, f c.2))^[k] c = (c.1 + k, f^[k] c.2) := by
  induction k generalizing c with
  | zero => rfl
  | succ k ih =>
      rw [Function.iterate_succ_apply, ih, Function.iterate_succ_apply]
      congr 1
      omega

end CpuSim.Lib
