/-
  CpuSim.Lib.Chain

  Predicates along a list whose elements act on a context: `Chain adv P c xs`
  says that every element of `xs` satisfies `P` in the context obtained by
  folding `adv` over the elements in front of it.

  This is how an in-flight window is described: the context is what the machine
  would be after the older instructions (a rename map, an architectural state, a
  program counter), and the window loses elements at the front (retirement,
  which advances the initial context), gains them at the back (dispatch) and is
  truncated (squash).
-/

import Mathlib.Data.List.Basic

namespace CpuSim.Lib

variable {σ α β : Type _}

/-- Every element satisfies `P` in the context left by the elements before it. -/
def Chain (adv : σ → α → σ) (P : σ → α → Prop) : σ → List α → Prop
  | _, [] => True
  | c, x :: xs => P c x ∧ Chain adv P (adv c x) xs

namespace Chain

/-- A chain of decidable predicates can be run. -/
instance decidable {adv : σ → α → σ} {P : σ → α → Prop} [∀ c x, Decidable (P c x)] :
    ∀ c xs, Decidable (Chain adv P c xs)
  | _, [] => isTrue trivial
  | c, x :: xs =>
    @instDecidableAnd (P c x) (Chain adv P (adv c x) xs) _ (decidable (adv c x) xs)

variable {adv : σ → α → σ} {P Q : σ → α → Prop} {c : σ} {xs ys : List α} {x : α}

@[simp] theorem nil : Chain adv P c [] := trivial

@[simp] theorem cons_iff : Chain adv P c (x :: xs) ↔ P c x ∧ Chain adv P (adv c x) xs :=
  Iff.rfl

@[simp] theorem append_iff :
    Chain adv P c (xs ++ ys) ↔ Chain adv P c xs ∧ Chain adv P (xs.foldl adv c) ys := by
  induction xs generalizing c with
  | nil => simp
  | cons x xs ih => simp only [List.cons_append, cons_iff, List.foldl_cons, ih, and_assoc]

/-- Appending one element only asks for `P` in the final context. -/
theorem concat_iff :
    Chain adv P c (xs ++ [x]) ↔ Chain adv P c xs ∧ P (xs.foldl adv c) x := by
  simp

/-- The element at a split point satisfies `P` in the context of its prefix. -/
theorem at_split {pre post : List α} (h : Chain adv P c xs) (hs : xs = pre ++ x :: post) :
    P (pre.foldl adv c) x := by
  subst hs
  exact (append_iff.mp h).2.1

/-- Weaken the predicate, knowing which elements it is asked about. -/
theorem mono (h : Chain adv P c xs) (hPQ : ∀ d x, x ∈ xs → P d x → Q d x) :
    Chain adv Q c xs := by
  induction xs generalizing c with
  | nil => trivial
  | cons y ys ih =>
      refine ⟨hPQ c y (by simp) h.1, ih h.2 fun d x hx => hPQ d x (by simp [hx])⟩

/-- Conjunction of two chains over the same contexts. -/
theorem and (h : Chain adv P c xs) (h' : Chain adv Q c xs) :
    Chain adv (fun d x => P d x ∧ Q d x) c xs := by
  induction xs generalizing c with
  | nil => trivial
  | cons y ys ih => exact ⟨⟨h.1, h'.1⟩, ih h.2 h'.2⟩

/-- Rewrite every element by a function that leaves the contexts alone. -/
theorem map {adv' : σ → β → σ} {P' : σ → β → Prop} {f : α → β} (h : Chain adv P c xs)
    (hadv : ∀ d x, x ∈ xs → adv' d (f x) = adv d x)
    (hP : ∀ d x, x ∈ xs → P d x → P' d (f x)) : Chain adv' P' c (xs.map f) := by
  induction xs generalizing c with
  | nil => trivial
  | cons y ys ih =>
      refine ⟨hP c y (by simp) h.1, ?_⟩
      rw [hadv c y (by simp)]
      exact ih h.2 (fun d x hx => hadv d x (by simp [hx])) fun d x hx => hP d x (by simp [hx])

/-- An invariant of the contexts that every element preserves holds at the end. -/
theorem foldl_invariant {I : σ → Prop} (h : Chain adv P c xs) (h0 : I c)
    (hstep : ∀ d x, x ∈ xs → P d x → I d → I (adv d x)) : I (xs.foldl adv c) := by
  induction xs generalizing c with
  | nil => exact h0
  | cons y ys ih =>
      exact ih h.2 (hstep c y (by simp) h.1 h0) fun d x hx => hstep d x (by simp [hx])

end Chain

/-- Folding over a mapped list, when the map does not change the steps. -/
theorem foldl_map_eq {adv : σ → α → σ} {adv' : σ → β → σ} {f : α → β} {xs : List α}
    (h : ∀ d x, x ∈ xs → adv' d (f x) = adv d x) (c : σ) :
    (xs.map f).foldl adv' c = xs.foldl adv c := by
  induction xs generalizing c with
  | nil => rfl
  | cons y ys ih =>
      rw [List.map_cons, List.foldl_cons, List.foldl_cons, h c y (by simp)]
      exact ih (fun d x hx => h d x (by simp [hx])) _

/-- An element of a list that is not at or behind a given position is in front of it. -/
theorem split_before {xs ys pre post : List α} {x y : α} (h : xs ++ x :: ys = pre ++ y :: post)
    (hx : x ∉ y :: post) : ∃ mid, pre = xs ++ x :: mid ∧ ys = mid ++ y :: post := by
  rcases List.append_eq_append_iff.mp h with ⟨as, hpre, hrest⟩ | ⟨bs, -, hrest⟩
  · cases as with
    | nil => exact absurd ((List.cons.inj hrest).1 ▸ List.mem_cons_self) hx
    | cons a as =>
        obtain ⟨rfl, hys⟩ := List.cons.inj hrest
        exact ⟨as, hpre, hys⟩
  · exact absurd (hrest ▸ List.mem_append_right _ List.mem_cons_self) hx

/-- A position in a concatenation is in the first or in the second part. -/
theorem split_append {xs ys pre post : List α} {x : α} (h : xs ++ ys = pre ++ x :: post) :
    (∃ mid, xs = pre ++ x :: mid ∧ post = mid ++ ys) ∨
      ∃ mid, ys = mid ++ x :: post ∧ pre = xs ++ mid := by
  rcases List.append_eq_append_iff.mp h with ⟨as, hpre, hys⟩ | ⟨bs, hxs, hrest⟩
  · exact Or.inr ⟨as, hys, hpre⟩
  · cases bs with
    | nil => exact Or.inr ⟨[], hrest.symm, by rw [hxs, List.append_nil, List.append_nil]⟩
    | cons b bs =>
        obtain ⟨rfl, hpost⟩ := List.cons.inj hrest
        exact Or.inl ⟨bs, hxs, hpost⟩

theorem split_singleton {pre post : List α} {x y : α} (h : [x] = pre ++ y :: post) :
    pre = [] ∧ x = y ∧ post = [] := by
  cases pre with
  | nil => exact ⟨rfl, (List.cons.inj h).1, ((List.cons.inj h).2).symm⟩
  | cons z pre => exact absurd (List.cons.inj h).2 (by simp)

end CpuSim.Lib
