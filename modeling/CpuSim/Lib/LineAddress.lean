/-
  CpuSim.Lib.LineAddress

  Addresses of a direct-mapped cache.  A word address splits into a tag, the index of a
  line and an offset in the line; the words of a line are those with its tag and index.
-/

import Mathlib.Tactic.Common

namespace CpuSim.Lib.LineAddress

variable {W L : Nat}

/-- The word of its line an address names, with `W` words in a line. -/
def offset (W a : Nat) : Nat := a % W

/-- The line an address falls into, of `L` lines. -/
def index (W L a : Nat) : Nat := a / W % L

/-- What tells the addresses of one line and offset apart. -/
def tag (W L a : Nat) : Nat := a / (W * L)

/-- The first word of line `i` under tag `t`. -/
def base (W L t i : Nat) : Nat := (t * L + i) * W

theorem offset_lt (hW : 0 < W) (a : Nat) : offset W a < W := Nat.mod_lt a hW

theorem index_lt (hL : 0 < L) (a : Nat) : index W L a < L := Nat.mod_lt _ hL

theorem tag_le (W L a : Nat) : tag W L a ≤ a := Nat.div_le_self a _

/-- An address is its offset behind the first word of its line. -/
theorem base_add_offset (W L a : Nat) :
    base W L (tag W L a) (index W L a) + offset W a = a := by
  rw [base, tag, index, offset, ← Nat.div_div_eq_div_mul, Nat.div_add_mod', Nat.div_add_mod']

theorem base_eq (W L a : Nat) : base W L (tag W L a) (index W L a) = a / W * W := by
  rw [base, tag, index, ← Nat.div_div_eq_div_mul, Nat.div_add_mod']

/-- The words of a line are the addresses with its tag and index. -/
theorem mem_line_iff (hW : 0 < W) {i : Nat} (hi : i < L) (t a : Nat) :
    (base W L t i ≤ a ∧ a < base W L t i + W) ↔ index W L a = i ∧ tag W L a = t := by
  have hq : (base W L t i ≤ a ∧ a < base W L t i + W) ↔ a / W = t * L + i := by
    rw [base, Nat.div_eq_iff hW]
    constructor
    · rintro ⟨h1, h2⟩
      exact ⟨h1, by omega⟩
    · rintro ⟨h1, h2⟩
      exact ⟨h1, by omega⟩
  rw [hq, index, tag, ← Nat.div_div_eq_div_mul]
  constructor
  · intro h
    have hL : 0 < L := by omega
    rw [h]
    constructor
    · rw [Nat.mul_add_mod_self_right, Nat.mod_eq_of_lt hi]
    · rw [Nat.mul_comm, Nat.mul_add_div hL, Nat.div_eq_of_lt hi, Nat.add_zero]
  · rintro ⟨rfl, rfl⟩
    exact (Nat.div_add_mod' (a / W) L).symm

end CpuSim.Lib.LineAddress
