/-
  CpuSim.Lib.Triple

  Pre- and postconditions of a deterministic machine, with the exact number of steps between
  them, what these steps cost, and a condition that every state on the way meets.
-/

import Mathlib.Algebra.BigOperators.Group.Finset.Basic

namespace CpuSim.Lib

variable {σ A : Type _} [AddCommMonoid A]

/-- From every state in `P`, `n` steps lead to a state in `Q`; the states before it are `safe`,
    and their charges add up to `c`. -/
def Triple (step : σ → σ) (safe : σ → Prop) (charge : σ → A) (n : Nat) (c : A)
    (P Q : σ → Prop) : Prop :=
  ∀ s, P s → (∀ j < n, safe (step^[j] s)) ∧
    ∑ j ∈ Finset.range n, charge (step^[j] s) = c ∧ Q (step^[n] s)

namespace Triple

variable {step : σ → σ} {safe : σ → Prop} {charge : σ → A} {m n : Nat} {a b c : A}
  {P P' Q Q' R : σ → Prop}

/-- No step. -/
theorem entails (h : ∀ s, P s → Q s) : Triple step safe charge 0 0 P Q := by
  intro s hs
  refine ⟨?_, rfl, h s hs⟩
  intro j hj
  exact absurd hj (Nat.not_lt_zero j)

/-- One step. -/
theorem single (h : ∀ s, P s → safe s ∧ charge s = c ∧ Q (step s)) :
    Triple step safe charge 1 c P Q := by
  intro s hs
  obtain ⟨hsafe, hcharge, hpost⟩ := h s hs
  refine ⟨?_, ?_, hpost⟩
  · intro j hj
    obtain rfl : j = 0 := by omega
    exact hsafe
  · rw [Finset.sum_range_one]
    exact hcharge

/-- One stretch after another. -/
theorem trans (h : Triple step safe charge m a P Q) (h' : Triple step safe charge n b Q R) :
    Triple step safe charge (m + n) (a + b) P R := by
  intro s hs
  obtain ⟨hsafe, hcharge, hmid⟩ := h s hs
  obtain ⟨hsafe', hcharge', hpost⟩ := h' _ hmid
  have hsplit : ∀ j, step^[m + j] s = step^[j] (step^[m] s) := by
    intro j
    rw [Nat.add_comm, Function.iterate_add_apply]
  refine ⟨?_, ?_, by rw [hsplit]; exact hpost⟩
  · intro j hj
    rcases Nat.lt_or_ge j m with hlt | hge
    · exact hsafe j hlt
    · obtain ⟨i, rfl⟩ := Nat.exists_eq_add_of_le hge
      rw [hsplit]
      exact hsafe' i (by omega)
  · rw [Finset.sum_range_add, hcharge]
    simp only [hsplit]
    rw [hcharge']

/-- A stronger precondition and a weaker postcondition. -/
theorem consequence (h : Triple step safe charge n c P Q) (hpre : ∀ s, P' s → P s)
    (hpost : ∀ s, Q s → Q' s) : Triple step safe charge n c P' Q' := by
  intro s hs
  obtain ⟨hsafe, hcharge, hq⟩ := h s (hpre s hs)
  exact ⟨hsafe, hcharge, hpost _ hq⟩

/-- A loop whose invariant counts down: the pass from `k + 1` takes `time k` steps and costs
    `cost k`. -/
theorem countdown {I : Nat → σ → Prop} {time : Nat → Nat} {cost : Nat → A}
    (h : ∀ k < m, Triple step safe charge (time k) (cost k) (I (k + 1)) (I k)) :
    Triple step safe charge (∑ k ∈ Finset.range m, time k) (∑ k ∈ Finset.range m, cost k)
      (I m) (I 0) := by
  induction m with
  | zero => exact entails fun _ hs => hs
  | succ m ih =>
      rw [Finset.sum_range_succ, Finset.sum_range_succ, Nat.add_comm _ (time m),
        add_comm _ (cost m)]
      exact (h m (Nat.lt_succ_self m)).trans (ih fun k hk => h k (by omega))

/-- If the machine stays where the postcondition holds, every state of the run is safe or meets
    it. -/
theorem run (h : Triple step safe charge n c P Q) (hend : ∀ s, Q s → step s = s) {s : σ}
    (hs : P s) (k : Nat) : safe (step^[k] s) ∨ Q (step^[k] s) := by
  obtain ⟨hbefore, -, hq⟩ := h s hs
  rcases Nat.lt_or_ge k n with hlt | hge
  · exact Or.inl (hbefore k hlt)
  · obtain ⟨i, rfl⟩ := Nat.exists_eq_add_of_le hge
    rw [Nat.add_comm, Function.iterate_add_apply, Function.iterate_fixed (hend _ hq) i]
    exact Or.inr hq

end Triple

end CpuSim.Lib
