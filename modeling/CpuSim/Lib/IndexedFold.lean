/-
  CpuSim.Lib.IndexedFold

  Tables that are updated one cell at a time.  After a sequence of updates a cell holds
  the fold of the updates addressed to it; a cell that is overwritten holds what the last
  write put there.
-/

import Mathlib.Data.List.Induction
import Mathlib.Logic.Function.Basic

namespace CpuSim.Lib

section Cells

variable {ι α υ : Type _} [DecidableEq ι] {key : υ → ι} {f : α → υ → α}

/-- Apply an update to the cell it addresses. -/
def updateCell (key : υ → ι) (f : α → υ → α) (t : ι → α) (u : υ) : ι → α :=
  Function.update t (key u) (f (t (key u)) u)

/-- Each cell folds the updates addressed to it, in order. -/
theorem foldl_updateCell (t : ι → α) (us : List υ) (i : ι) :
    us.foldl (updateCell key f) t i = (us.filter fun u => key u = i).foldl f (t i) := by
  induction us generalizing t with
  | nil => rfl
  | cons u us ih =>
      rw [List.foldl_cons, ih, updateCell, List.filter_cons]
      by_cases h : key u = i
      · subst h
        rw [Function.update_self, if_pos (decide_eq_true rfl), List.foldl_cons]
      · have hother : ¬decide (key u = i) = true := by simpa using h
        rw [Function.update_of_ne (Ne.symm h), if_neg hother]

end Cells

section Overwrite

variable {α υ : Type _} {writes : υ → Bool} {g : υ → α}

/-- The updates that write, all others leave the cell. -/
def overwrite (writes : υ → Bool) (g : υ → α) (a : α) (u : υ) : α :=
  if writes u then g u else a

/-- The last write decides. -/
theorem foldl_overwrite (a : α) (us : List υ) :
    us.foldl (overwrite writes g) a = ((us.reverse.find? writes).map g).getD a := by
  induction us using List.reverseRecOn with
  | nil => rfl
  | append_singleton us u ih =>
      rw [List.foldl_append, ih, List.foldl_cons, List.foldl_nil, overwrite,
        List.reverse_concat, List.find?_cons]
      split
      · next hw => rw [hw, Option.map_some, Option.getD_some]
      · next hw => rw [eq_false_of_ne_true hw]

/-- The last element that passes a test, with nothing behind it that does. -/
theorem find?_reverse_eq_some {p : υ → Bool} {us : List υ} {u : υ} :
    us.reverse.find? p = some u ↔
      ∃ before after, us = before ++ u :: after ∧ p u = true ∧ ∀ w ∈ after, p w = false := by
  rw [List.find?_eq_some_iff_append]
  constructor
  · rintro ⟨hp, after, before, hus, hnone⟩
    refine ⟨before.reverse, after.reverse, ?_, hp, ?_⟩
    · rw [← List.reverse_reverse us, hus, List.reverse_append, List.reverse_cons,
        List.append_assoc, List.singleton_append]
    · intro w hw
      exact (Bool.not_eq_true' _).mp (hnone w (List.mem_reverse.mp hw))
  · rintro ⟨before, after, rfl, hp, hnone⟩
    refine ⟨hp, after.reverse, before.reverse, ?_, ?_⟩
    · rw [List.reverse_append, List.reverse_cons, List.append_assoc, List.singleton_append]
    · intro w hw
      exact (Bool.not_eq_true' _).mpr (hnone w (List.mem_reverse.mp hw))

end Overwrite

end CpuSim.Lib
