/-
  CpuSim.Lib.Paced

  Machines that work through a sequence of items, each in a known number of steps, and halt
  behind the first item that is a last one.  The loop that steps such a machine until it has
  halted, or until a bound, makes exactly the steps of the items up to that one.
-/

import Mathlib.Algebra.BigOperators.Group.Finset.Basic
import Mathlib.Algebra.Order.BigOperators.Group.Finset

namespace CpuSim.Lib

variable {σ : Type _}

/-! ## Bounded runs -/

/-- `while (!halted && c < max) { step; ++c; }`: the state the loop leaves. -/
def runFor (step : σ → σ) (halted : σ → Bool) : Nat → σ → σ
  | 0, s => s
  | n + 1, s => if halted s then s else runFor step halted n (step s)

/-- The number of times the loop steps. -/
def elapsed (step : σ → σ) (halted : σ → Bool) : Nat → σ → Nat
  | 0, _ => 0
  | n + 1, s => if halted s then 0 else elapsed step halted n (step s) + 1

section Loop

variable {step : σ → σ} {halted : σ → Bool} {s : σ}

/-- The loop leaves the state behind its steps. -/
theorem runFor_eq (n : Nat) (s : σ) :
    runFor step halted n s = step^[elapsed step halted n s] s := by
  induction n generalizing s with
  | zero => rfl
  | succ n ih =>
      rw [runFor, elapsed]
      split
      · rfl
      · rw [ih, Function.iterate_succ_apply]

/-- Until the machine halts the loop makes all its steps. -/
theorem elapsed_of_busy {n : Nat} (h : ∀ j < n, halted (step^[j] s) = false) :
    elapsed step halted n s = n := by
  induction n generalizing s with
  | zero => rfl
  | succ n ih =>
      have hrest : ∀ j < n, halted (step^[j] (step s)) = false := by
        intro j hj
        rw [← Function.iterate_succ_apply]
        exact h (j + 1) (by omega)
      have hfirst : halted s = false := h 0 (by omega)
      rw [elapsed, hfirst, ih hrest]
      rfl

/-- It stops where the machine halts first. -/
theorem elapsed_of_halted {k n : Nat} (h : ∀ j < k, halted (step^[j] s) = false)
    (hk : halted (step^[k] s) = true) (hn : k ≤ n) : elapsed step halted n s = k := by
  induction k generalizing s n with
  | zero =>
      have hs : halted s = true := hk
      cases n with
      | zero => rfl
      | succ n => rw [elapsed, if_pos hs]
  | succ k ih =>
      obtain ⟨m, rfl⟩ : ∃ m, n = m + 1 := ⟨n - 1, by omega⟩
      have hfirst : halted s = false := h 0 (by omega)
      have hrest : elapsed step halted m (step s) = k := by
        apply ih _ _ (by omega)
        · intro j hj
          rw [← Function.iterate_succ_apply]
          exact h (j + 1) (by omega)
        · rw [← Function.iterate_succ_apply]
          exact hk
      rw [elapsed, hfirst, hrest]
      rfl

end Loop

/-! ## Items -/

/-- A machine whose state `Begins` item `k` is busy for `cost k` steps; then it begins the next
    item, or it has halted and is `Done`. -/
structure Paced (step : σ → σ) (halted : σ → Bool) (Begins Done : Nat → σ → Prop)
    (cost : Nat → Nat) (last : Nat → Prop) : Prop where
  cost_pos (k : Nat) : 0 < cost k
  busy {k : Nat} {s : σ} (h : Begins k s) : ∀ j < cost k, halted (step^[j] s) = false
  next {k : Nat} {s : σ} (h : Begins k s) (hk : ¬last k) : Begins (k + 1) (step^[cost k] s)
  stop {k : Nat} {s : σ} (h : Begins k s) (hk : last k) :
    halted (step^[cost k] s) = true ∧ Done k (step^[cost k] s)

namespace Paced

variable {step : σ → σ} {halted : σ → Bool} {Begins Done : Nat → σ → Prop} {cost : Nat → Nat}
  {last : Nat → Prop} {s : σ}

theorem iterate_sum_succ (step : σ → σ) (cost : Nat → Nat) (k : Nat) (s : σ) :
    step^[∑ j ∈ Finset.range (k + 1), cost j] s =
      step^[cost k] (step^[∑ j ∈ Finset.range k, cost j] s) := by
  rw [Finset.sum_range_succ, Nat.add_comm, Function.iterate_add_apply]

/-- The items before `k` done, the machine begins item `k`. -/
theorem begins (h : Paced step halted Begins Done cost last) (hs : Begins 0 s) {k : Nat}
    (hk : ∀ j < k, ¬last j) : Begins k (step^[∑ j ∈ Finset.range k, cost j] s) := by
  induction k with
  | zero => exact hs
  | succ k ih =>
      have hprev := ih fun j hj => hk j (by omega)
      rw [iterate_sum_succ]
      exact h.next hprev (hk k (by omega))

/-- Until then it is busy: a step belongs to an item before `k`, by induction on `k`. -/
theorem not_halted (h : Paced step halted Begins Done cost last) (hs : Begins 0 s) {k : Nat}
    (hk : ∀ j < k, ¬last j) {n : Nat} (hn : n < ∑ j ∈ Finset.range (k + 1), cost j) :
    halted (step^[n] s) = false := by
  induction k generalizing n with
  | zero =>
      rw [Finset.sum_range_one] at hn
      exact h.busy hs n hn
  | succ k ih =>
      rcases Nat.lt_or_ge n (∑ j ∈ Finset.range (k + 1), cost j) with hlt | hge
      · exact ih (fun j hj => hk j (by omega)) hlt
      · obtain ⟨m, rfl⟩ := Nat.exists_eq_add_of_le hge
        rw [Finset.sum_range_succ _ (k + 1)] at hn
        rw [Nat.add_comm, Function.iterate_add_apply]
        exact h.busy (h.begins hs hk) m (by omega)

/-- Behind the first last item it has halted. -/
theorem halts (h : Paced step halted Begins Done cost last) (hs : Begins 0 s) {k : Nat}
    (hk : ∀ j < k, ¬last j) (hlast : last k) :
    halted (step^[∑ j ∈ Finset.range (k + 1), cost j] s) = true ∧
      Done k (step^[∑ j ∈ Finset.range (k + 1), cost j] s) := by
  rw [iterate_sum_succ]
  exact h.stop (h.begins hs hk) hlast

/-- The loop makes the steps of the items up to the first last one, unless its bound comes
    first, and leaves the machine done. -/
theorem run (h : Paced step halted Begins Done cost last) (hs : Begins 0 s) {k : Nat}
    (hk : ∀ j < k, ¬last j) (hlast : last k) (n : Nat) :
    elapsed step halted n s = min n (∑ j ∈ Finset.range (k + 1), cost j) ∧
      (halted (runFor step halted n s) = true ↔ ∑ j ∈ Finset.range (k + 1), cost j ≤ n) ∧
      (∑ j ∈ Finset.range (k + 1), cost j ≤ n → Done k (runFor step halted n s)) := by
  have hbusy := fun m hm => h.not_halted hs hk (n := m) hm
  obtain ⟨hhalted, hdone⟩ := h.halts hs hk hlast
  rcases Nat.lt_or_ge n (∑ j ∈ Finset.range (k + 1), cost j) with hlt | hge
  · have hall : elapsed step halted n s = n :=
      elapsed_of_busy fun j hj => hbusy j (Nat.lt_trans hj hlt)
    rw [runFor_eq, hall, Nat.min_eq_left (Nat.le_of_lt hlt), hbusy n hlt]
    exact ⟨rfl, ⟨nofun, fun hle => absurd hle (Nat.not_le.mpr hlt)⟩,
      fun hle => absurd hle (Nat.not_le.mpr hlt)⟩
  · have hstop := elapsed_of_halted hbusy hhalted hge
    rw [runFor_eq, hstop, Nat.min_eq_right hge]
    exact ⟨rfl, ⟨fun _ => hge, fun _ => hhalted⟩, fun _ => hdone⟩

/-- Without a last item the machine never halts: each item takes a step at least. -/
theorem run_forever (h : Paced step halted Begins Done cost last) (hs : Begins 0 s)
    (hnone : ∀ k, ¬last k) (n : Nat) :
    elapsed step halted n s = n ∧ halted (runFor step halted n s) = false := by
  have hgrow : ∀ k, k ≤ ∑ j ∈ Finset.range k, cost j := by
    intro k
    induction k with
    | zero => exact Nat.zero_le _
    | succ k ih =>
        have hpos := h.cost_pos k
        rw [Finset.sum_range_succ]
        omega
  have hbusy : ∀ m, halted (step^[m] s) = false := fun m =>
    h.not_halted hs (fun j _ => hnone j) (k := m) (Nat.lt_of_lt_of_le (Nat.lt_succ_self m)
      (hgrow (m + 1)))
  have hall : elapsed step halted n s = n := elapsed_of_busy fun j _ => hbusy j
  rw [runFor_eq, hall]
  exact ⟨rfl, hbusy n⟩

end Paced

end CpuSim.Lib
