/-
  CpuSim.Lib.Ring

  Index arithmetic of a circular buffer: `slot cap head j` is the array index of
  the `j`-th element counted from `head`.  Inside one turn of the ring the map
  is injective and onto, and stepping an index by one steps the position by one.
-/

import Mathlib.Data.List.Nodup
import Mathlib.Data.List.Range
import Mathlib.Data.Nat.ModEq

namespace CpuSim.Lib.Ring

variable {cap head i j k n : Nat}

/-- Array index of the `j`-th element from `head`. -/
def slot (cap head j : Nat) : Nat := (head + j) % cap

theorem slot_lt (hcap : 0 < cap) : slot cap head j < cap := Nat.mod_lt _ hcap

@[simp] theorem slot_zero (h : head < cap) : slot cap head 0 = head := Nat.mod_eq_of_lt h

/-- Advancing an index advances the position. -/
theorem slot_succ : (slot cap head j + 1) % cap = slot cap head (j + 1) := by
  simp only [slot, Nat.mod_add_mod, Nat.add_assoc]

/-- Counting from the next head shifts the positions by one. -/
theorem slot_next_head : slot cap ((head + 1) % cap) j = slot cap head (j + 1) := by
  simp only [slot, Nat.mod_add_mod]
  congr 1
  omega

/-- Two positions within one turn share a slot only when they are equal. -/
theorem slot_inj (hj : j < cap) (hk : k < cap) (h : slot cap head j = slot cap head k) :
    j = k := by
  have hmod : Nat.ModEq cap j k := Nat.ModEq.add_left_cancel' head h
  rwa [Nat.ModEq, Nat.mod_eq_of_lt hj, Nat.mod_eq_of_lt hk] at hmod

/-- Every index is the slot of some position. -/
theorem exists_slot (hhead : head < cap) (hi : i < cap) : ∃ j < cap, slot cap head j = i := by
  by_cases h : head ≤ i
  · refine ⟨i - head, by omega, ?_⟩
    rw [slot, show head + (i - head) = i by omega, Nat.mod_eq_of_lt hi]
  · refine ⟨cap + i - head, by omega, ?_⟩
    rw [slot, show head + (cap + i - head) = i + cap by omega, Nat.add_mod_right,
      Nat.mod_eq_of_lt hi]

/-- The slots of the first `n` positions. -/
def slots (cap head n : Nat) : List Nat := (List.range n).map (slot cap head)

@[simp] theorem length_slots : (slots cap head n).length = n := by simp [slots]

theorem mem_slots : i ∈ slots cap head n ↔ ∃ j < n, slot cap head j = i := by
  simp [slots]

theorem nodup_slots (hn : n ≤ cap) : (slots cap head n).Nodup := by
  refine List.Nodup.map_on ?_ List.nodup_range
  intro j hj k hk h
  rw [List.mem_range] at hj hk
  exact slot_inj (by omega) (by omega) h

theorem slots_succ : slots cap head (n + 1) = slots cap head n ++ [slot cap head n] := by
  simp [slots, List.range_succ]

/-- Dropping the first slot is counting from the next head. -/
theorem slots_succ_head (h : head < cap) :
    slots cap head (n + 1) = head :: slots cap ((head + 1) % cap) n := by
  simp only [slots, List.range_succ_eq_map, List.map_cons, List.map_map, slot_zero h]
  congr 1
  apply List.map_congr_left
  intro j _
  simp only [Function.comp, slot_next_head]

end CpuSim.Lib.Ring
