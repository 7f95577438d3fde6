/-
  CpuSim.Lib.FirstMatch

  Queues whose elements carry a key and are looked up by it, first match first.
  While no key occurs twice, changing the first match is a map, erasing it is a
  filter, and the order of the keys is the whole state of the queue.
-/

import Mathlib.Data.List.Forall2
import Mathlib.Data.List.Nodup
import Mathlib.Data.List.Perm.Basic

namespace CpuSim.Lib

variable {α K : Type _}

/-- Apply `f` to the first element satisfying `p`: the effect of a loop that changes its
    first match and stops. -/
def updateFirst (p : α → Bool) (f : α → α) : List α → List α
  | [] => []
  | x :: xs => if p x then f x :: xs else x :: updateFirst p f xs

theorem updateFirst_cons (p : α → Bool) (f : α → α) (x : α) (xs : List α) :
    updateFirst p f (x :: xs) = if p x then f x :: xs else x :: updateFirst p f xs := rfl

section Related

/-- A related list splits where the first one does. -/
theorem forall₂_split {β : Type _} {R : α → β → Prop} {xs zs : List α} {y : α} {ws : List β}
    (h : List.Forall₂ R (xs ++ y :: zs) ws) :
    ∃ xs' y' zs', ws = xs' ++ y' :: zs' ∧ List.Forall₂ R xs xs' ∧ R y y' ∧
      List.Forall₂ R zs zs' := by
  induction xs generalizing ws with
  | nil =>
      obtain ⟨y', zs', hy, hzs, rfl⟩ := List.forall₂_cons_left_iff.mp h
      exact ⟨[], y', zs', rfl, .nil, hy, hzs⟩
  | cons x xs ih =>
      obtain ⟨x', ws', hx, hrest, rfl⟩ := List.forall₂_cons_left_iff.mp h
      obtain ⟨xs', y', zs', rfl, hxs, hy, hzs⟩ := ih hrest
      exact ⟨x' :: xs', y', zs', rfl, .cons hx hxs, hy, hzs⟩

/-- A related list splits where the second one does. -/
theorem forall₂_split_right {β : Type _} {R : β → α → Prop} {xs zs : List α} {y : α} {ws : List β}
    (h : List.Forall₂ R ws (xs ++ y :: zs)) :
    ∃ xs' y' zs', ws = xs' ++ y' :: zs' ∧ List.Forall₂ R xs' xs ∧ R y' y ∧
      List.Forall₂ R zs' zs := by
  obtain ⟨xs', y', zs', hws, hxs, hy, hzs⟩ := forall₂_split (List.Forall₂.flip (R := flip R) h)
  exact ⟨xs', y', zs', hws, hxs.flip, hy, hzs.flip⟩

/-- An element of the second list is related to one of the first. -/
theorem forall₂_mem_right {β : Type _} {R : β → α → Prop} {xs : List α} {ws : List β}
    (h : List.Forall₂ R ws xs) {x : α} (hx : x ∈ xs) : ∃ w ∈ ws, R w x := by
  obtain ⟨pre, post, rfl⟩ := List.append_of_mem hx
  obtain ⟨pre', w, post', rfl, -, hw, -⟩ := forall₂_split_right h
  exact ⟨w, by simp, hw⟩

end Related

section FirstMatch

variable {p : α → Bool} {f : α → α} {xs : List α}

theorem mem_updateFirst {y : α} (h : y ∈ updateFirst p f xs) :
    y ∈ xs ∨ ∃ x ∈ xs, p x = true ∧ y = f x := by
  induction xs with
  | nil => exact Or.inl h
  | cons x xs ih =>
      rw [updateFirst_cons] at h
      split at h
      · rename_i hp
        rcases List.mem_cons.mp h with rfl | h
        · exact Or.inr ⟨x, List.mem_cons_self, hp, rfl⟩
        · exact Or.inl (List.mem_cons_of_mem _ h)
      · rcases List.mem_cons.mp h with rfl | h
        · exact Or.inl List.mem_cons_self
        · rcases ih h with h | ⟨z, hz, hp, rfl⟩
          · exact Or.inl (List.mem_cons_of_mem _ h)
          · exact Or.inr ⟨z, List.mem_cons_of_mem _ hz, hp, rfl⟩

/-- A change that keeps the keys keeps their order. -/
theorem map_updateFirst {key : α → K} (hf : ∀ x, key (f x) = key x) :
    (updateFirst p f xs).map key = xs.map key := by
  induction xs with
  | nil => rfl
  | cons x xs ih =>
      rw [updateFirst_cons]
      split
      · rw [List.map_cons, List.map_cons, hf]
      · rw [List.map_cons, List.map_cons, ih]

/-- Two changes of the first match, where the first keeps the match. -/
theorem updateFirst_updateFirst {g : α → α} (h : ∀ x ∈ xs, p x = true → p (g x) = true) :
    updateFirst p f (updateFirst p g xs) = updateFirst p (fun x => f (g x)) xs := by
  induction xs with
  | nil => rfl
  | cons x xs ih =>
      rw [updateFirst_cons, updateFirst_cons]
      split
      · rename_i hp
        rw [updateFirst_cons, if_pos (h x List.mem_cons_self hp)]
      · rename_i hp
        rw [updateFirst_cons, if_neg hp, ih fun y hy => h y (List.mem_cons_of_mem _ hy)]

/-- A match behind elements that do not match. -/
theorem updateFirst_append_right {ys : List α} (h : ∀ x ∈ ys, p x = false) :
    updateFirst p f (ys ++ xs) = ys ++ updateFirst p f xs := by
  induction ys with
  | nil => rfl
  | cons y ys ih =>
      rw [List.cons_append, updateFirst_cons, h y List.mem_cons_self, if_neg Bool.false_ne_true,
        ih fun x hx => h x (List.mem_cons_of_mem _ hx), List.cons_append]

/-- The first match, found in its place. -/
theorem updateFirst_split {ys zs : List α} {x : α} (h : ∀ y ∈ ys, p y = false) (hx : p x = true) :
    updateFirst p f (ys ++ x :: zs) = ys ++ f x :: zs := by
  rw [updateFirst_append_right h, updateFirst_cons, if_pos hx]

/-- A change that leaves every match as it is. -/
theorem updateFirst_of_fixed (h : ∀ x ∈ xs, p x = true → f x = x) : updateFirst p f xs = xs := by
  induction xs with
  | nil => rfl
  | cons x xs ih =>
      rw [updateFirst_cons]
      split
      · rename_i hp
        rw [h x List.mem_cons_self hp]
      · rw [ih fun y hy => h y (List.mem_cons_of_mem _ hy)]

/-- An element that does not match, or that the change fixes, stays in its place. -/
theorem updateFirst_getElem? {i : Nat} {x : α} (hx : xs[i]? = some x)
    (h : p x = true → f x = x) : (updateFirst p f xs)[i]? = some x := by
  induction xs generalizing i with
  | nil => cases hx
  | cons y ys ih =>
      rw [updateFirst_cons]
      rcases i with _ | i
      · obtain rfl := Option.some.inj hx
        split
        · rename_i hp
          rw [h hp, List.getElem?_cons_zero]
        · rw [List.getElem?_cons_zero]
      · rw [List.getElem?_cons_succ] at hx
        split
        · rw [List.getElem?_cons_succ, hx]
        · rw [List.getElem?_cons_succ, ih hx]

/-- Changing the first match of the second list, where that keeps the relation. -/
theorem forall₂_updateFirst {β : Type _} {R : β → α → Prop} {ys : List β}
    (h : List.Forall₂ R ys xs) (hf : ∀ y ∈ ys, ∀ x, R y x → p x = true → R y (f x)) :
    List.Forall₂ R ys (updateFirst p f xs) := by
  induction h with
  | nil => exact .nil
  | @cons y x ys xs hyx hrest ih =>
      rw [updateFirst_cons]
      split
      · rename_i hp
        exact .cons (hf y List.mem_cons_self x hyx hp) hrest
      · exact .cons hyx (ih fun z hz => hf z (List.mem_cons_of_mem _ hz))

end FirstMatch

section Keyed

variable [DecidableEq K] {key : α → K} {p : α → Bool} {f : α → α} {k : K} {xs : List α}

/-- Without duplicate keys, changing the first match changes every match. -/
theorem updateFirst_eq_map (hn : (xs.map key).Nodup) (hp : ∀ x ∈ xs, p x = decide (key x = k)) :
    updateFirst p f xs = xs.map fun x => if key x = k then f x else x := by
  induction xs with
  | nil => rfl
  | cons x xs ih =>
      rw [List.map_cons, List.nodup_cons] at hn
      rw [updateFirst_cons, List.map_cons, hp x List.mem_cons_self]
      by_cases hk : key x = k
      · rw [if_pos (decide_eq_true hk), if_pos hk]
        -- no later element has the key
        congr 1
        rw [List.map_congr_left fun y hy => if_neg fun hy' =>
          hn.1 (by rw [hk, ← hy']; exact List.mem_map_of_mem hy)]
        exact (List.map_id' xs).symm
      · rw [if_neg (by simpa using hk), if_neg hk,
          ih hn.2 fun y hy => hp y (List.mem_cons_of_mem _ hy)]

/-- Without duplicate keys, erasing the first match erases every match. -/
theorem eraseP_eq_filter (hn : (xs.map key).Nodup) (hp : ∀ x ∈ xs, p x = decide (key x = k)) :
    xs.eraseP p = xs.filter fun x => decide (key x ≠ k) := by
  induction xs with
  | nil => rfl
  | cons x xs ih =>
      rw [List.map_cons, List.nodup_cons] at hn
      rw [List.eraseP_cons, List.filter_cons, hp x List.mem_cons_self]
      by_cases hk : key x = k
      · rw [decide_eq_true hk, if_neg (by simpa using hk)]
        refine (List.filter_eq_self.mpr fun y hy => ?_).symm
        refine decide_eq_true fun hy' => hn.1 ?_
        rw [hk, ← hy']
        exact List.mem_map_of_mem hy
      · rw [decide_eq_false hk, if_pos (by simpa using hk),
          ih hn.2 fun y hy => hp y (List.mem_cons_of_mem _ hy)]
        rfl

omit [DecidableEq K] in
/-- An element is in one place. -/
theorem split_unique {pre pre' post post' : List α} {x x' : α} (hn : (xs.map key).Nodup)
    (h : xs = pre ++ x :: post) (h' : xs = pre' ++ x' :: post') (hk : key x = key x') :
    pre = pre' ∧ x = x' ∧ post = post' := by
  induction pre generalizing xs pre' with
  | nil =>
      cases pre' with
      | nil =>
          obtain ⟨hx, hpost⟩ := List.cons.inj (h.symm.trans h')
          exact ⟨rfl, hx, hpost⟩
      | cons y pre' =>
          have hmem : x' ∈ post := by
            rw [(List.cons.inj (h.symm.trans h')).2]
            simp
          rw [h, List.nil_append, List.map_cons, List.nodup_cons, hk] at hn
          exact absurd (List.mem_map_of_mem hmem) hn.1
  | cons y pre ih =>
      cases pre' with
      | nil =>
          have hmem : x ∈ post' := by
            rw [← (List.cons.inj (h.symm.trans h')).2]
            simp
          rw [h', List.nil_append, List.map_cons, List.nodup_cons, ← hk] at hn
          exact absurd (List.mem_map_of_mem hmem) hn.1
      | cons z pre' =>
          obtain ⟨rfl, htail⟩ := List.cons.inj (h.symm.trans h')
          rw [h, List.cons_append, List.map_cons, List.nodup_cons] at hn
          obtain ⟨rfl, hx, hpost⟩ := ih hn.2 rfl htail
          exact ⟨rfl, hx, hpost⟩

end Keyed

end CpuSim.Lib
