/-
  CpuSim.Lib.WindowRank

  The work left in a bounded window of entries that are closed one by one, in any order, while
  the window grows at the back and may be cut behind an entry that closes.  The entries in
  front weigh most, so closing one counts for more than whatever becomes of those behind it.
-/

import Mathlib.Tactic.Ring

namespace CpuSim.Lib

variable {α : Type _} (closed : α → Bool)

/-- The rank of a window with room for `n` entries, a number of `n` digits in base 3 with the
    front entry first: 0 for a closed entry, 1 for an open one, 2 for a free place. -/
def windowRank : Nat → List α → Nat
  | 0, _ => 0
  | n + 1, [] => 3 ^ (n + 1) - 1
  | n + 1, e :: es => (if closed e then 0 else 3 ^ n) + windowRank n es

variable {closed}

@[simp] theorem windowRank_nil (n : Nat) : windowRank closed n [] = 3 ^ n - 1 := by
  cases n with
  | zero => rfl
  | succ n => rfl

theorem windowRank_lt (n : Nat) (es : List α) : windowRank closed n es < 3 ^ n := by
  induction n generalizing es with
  | zero => exact Nat.one_pos
  | succ n ih =>
      have hpow : 3 ^ (n + 1) = 3 * 3 ^ n := by ring
      cases es with
      | nil =>
          rw [windowRank_nil]
          have hpos : 0 < 3 ^ (n + 1) := Nat.pow_pos (by omega)
          omega
      | cons e es =>
          have := ih es
          rw [windowRank, hpow]
          split <;> omega

/-- An entry in the window takes a free place. -/
theorem windowRank_cons_lt (n : Nat) (e : α) (es : List α) :
    windowRank closed (n + 1) (e :: es) < windowRank closed (n + 1) [] := by
  have hrest := @windowRank_lt _ closed n es
  have hpow : 3 ^ (n + 1) = 3 * 3 ^ n := by ring
  have hpos : 0 < 3 ^ n := Nat.pow_pos (by omega)
  rw [windowRank_nil, windowRank, hpow]
  split <;> omega

/-- The window grows at the back. -/
theorem windowRank_append_le (n : Nat) (es es' : List α) :
    windowRank closed n (es ++ es') ≤ windowRank closed n es := by
  induction n generalizing es with
  | zero => exact Nat.le_refl 0
  | succ n ih =>
      cases es with
      | nil =>
          have := @windowRank_lt _ closed (n + 1) es'
          rw [List.nil_append, windowRank_nil]
          omega
      | cons e es =>
          rw [List.cons_append, windowRank, windowRank]
          exact Nat.add_le_add_left (ih es) _

/-- Closing an entry, whatever becomes of those behind it. -/
theorem windowRank_close_lt {n : Nat} {pre post post' : List α} {e e' : α}
    (hn : pre.length < n) (hopen : closed e = false) (hclosed : closed e' = true) :
    windowRank closed n (pre ++ e' :: post') < windowRank closed n (pre ++ e :: post) := by
  induction pre generalizing n with
  | nil =>
      obtain ⟨n, rfl⟩ := Nat.exists_eq_succ_of_ne_zero (Nat.ne_of_gt hn)
      have := @windowRank_lt _ closed n post'
      simp only [List.nil_append, windowRank, hopen, hclosed, if_true, Bool.false_eq_true,
        if_false]
      omega
  | cons x pre ih =>
      obtain ⟨n, rfl⟩ := Nat.exists_eq_succ_of_ne_zero (Nat.ne_of_gt (Nat.zero_lt_of_lt hn))
      rw [List.cons_append, List.cons_append, windowRank, windowRank]
      exact Nat.add_lt_add_left (ih (Nat.lt_of_succ_lt_succ hn)) _

/-- A window of lower rank than the empty one is not empty. -/
theorem ne_nil_of_windowRank_lt {n : Nat} {es : List α}
    (h : windowRank closed n es < windowRank closed n []) : es ≠ [] := by
  rintro rfl
  exact Nat.lt_irrefl _ h

/-! ## Machines whose rank falls -/

/-- A machine whose rank falls in every step until it has halted, halts within its rank. -/
theorem halts_of_rank {halted : Nat → Bool} {rank : Nat → Nat}
    (h : ∀ n, halted n = false → halted (n + 1) = true ∨ rank (n + 1) < rank n) :
    ∃ n ≤ rank 0 + 1, halted n = true := by
  by_contra hnever
  push Not at hnever
  -- so after `n` steps at least `n` of the rank is gone
  have hspent : ∀ n ≤ rank 0 + 1, rank n + n ≤ rank 0 := by
    intro n
    induction n with
    | zero => exact fun _ => Nat.le_refl _
    | succ n ih =>
        intro hn
        have hprev := ih (Nat.le_of_succ_le hn)
        rcases h n (eq_false_of_ne_true (hnever n (Nat.le_of_succ_le hn))) with hhalt | hfall
        · exact absurd hhalt (hnever (n + 1) hn)
        · omega
  have := hspent (rank 0 + 1) (Nat.le_refl _)
  omega

end CpuSim.Lib
