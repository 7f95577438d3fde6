/-
  CpuSim.Lib.Confluence

  Normal forms of a step relation that joins in one step wherever an invariant
  holds.  Such a relation has at most one normal form below each state, and a
  strategy that steps whenever a step exists reaches it within as many rounds as
  a measure of the state allows.
-/

import Mathlib.Logic.Relation
import Mathlib.Logic.Function.Iterate

namespace CpuSim.Lib.Confluence

open Relation

variable {α β : Type _}

/-- No step leaves the state. -/
def Normal (r : α → α → Prop) (a : α) : Prop := ∀ b, ¬ r a b

/-- A relation whose steps keep `Inv`, join in one step and decrease `size`. -/
structure Confluent (r : α → α → Prop) (Inv : α → Prop) (size : α → Nat) : Prop where
  keeps : ∀ a b, Inv a → r a b → Inv b
  joins : ∀ a b c, Inv a → r a b → r a c → b = c ∨ ∃ d, r b d ∧ r c d
  decreases : ∀ a b, Inv a → r a b → size b < size a

namespace Confluent

variable {r : α → α → Prop} {Inv : α → Prop} {size : α → Nat} {a b c : α}

theorem keeps_many (h : Confluent r Inv size) (ha : Inv a) (hab : ReflTransGen r a b) : Inv b := by
  induction hab with
  | refl => exact ha
  | tail _ hbc ih => exact h.keeps _ _ ih hbc

/-- A run from a state with the invariant is a run of the guarded relation. -/
theorem guarded (h : Confluent r Inv size) (ha : Inv a) (hab : ReflTransGen r a b) :
    ReflTransGen (fun x y => Inv x ∧ r x y) a b := by
  induction hab with
  | refl => exact .refl
  | tail hab hbc ih => exact ih.tail ⟨h.keeps_many ha hab, hbc⟩

/-- Two normal forms of one state are equal. -/
theorem normal_unique (h : Confluent r Inv size) (ha : Inv a) (hab : ReflTransGen r a b)
    (hac : ReflTransGen r a c) (hb : Normal r b) (hc : Normal r c) : b = c := by
  have hjoin : ∀ x y z, Inv x ∧ r x y → Inv x ∧ r x z →
      ∃ d, ReflGen (fun p q => Inv p ∧ r p q) y d ∧
        ReflTransGen (fun p q => Inv p ∧ r p q) z d := by
    rintro x y z ⟨hx, hxy⟩ ⟨-, hxz⟩
    rcases h.joins x y z hx hxy hxz with rfl | ⟨d, hyd, hzd⟩
    · exact ⟨y, .refl, .refl⟩
    · exact ⟨d, .single ⟨h.keeps x y hx hxy, hyd⟩, .single ⟨h.keeps x z hx hxz, hzd⟩⟩
  obtain ⟨d, hbd, hcd⟩ := church_rosser hjoin (h.guarded ha hab) (h.guarded ha hac)
  -- a normal form has no successor but itself
  have hstuck : ∀ x, Normal r x → ReflTransGen (fun p q => Inv p ∧ r p q) x d → x = d := by
    intro x hx hxd
    rcases hxd.cases_head with heq | ⟨y, hxy, -⟩
    · exact heq
    · exact absurd hxy.2 (hx y)
  exact (hstuck b hb hbd).trans (hstuck c hc hcd).symm

theorem size_le (h : Confluent r Inv size) (ha : Inv a) (hab : ReflTransGen r a b) :
    size b ≤ size a := by
  induction hab with
  | refl => exact Nat.le_refl _
  | tail hab hbc ih =>
      have hlt := h.decreases _ _ (h.keeps_many ha hab) hbc
      omega

theorem size_lt (h : Confluent r Inv size) (ha : Inv a) (hab : TransGen r a b) :
    size b < size a := by
  obtain ⟨c, hac, hcb⟩ := TransGen.head'_iff.mp hab
  exact Nat.lt_of_le_of_lt (h.size_le (h.keeps a c ha hac) hcb) (h.decreases a c ha hac)

/-- A strategy on states `β` over `α` that steps whenever a step exists is exhausted
    after as many rounds as the measure allows. -/
theorem iterate_normal (h : Confluent r Inv size) {p : β → α} {f : β → β}
    (hf : ∀ x, Inv (p x) → TransGen r (p x) (p (f x)) ∨ (p (f x) = p x ∧ Normal r (p x)))
    {x : β} (hx : Inv (p x)) {n : Nat} (hn : size (p x) ≤ n) :
    ReflTransGen r (p x) (p (f^[n] x)) ∧ Normal r (p (f^[n] x)) := by
  -- once exhausted, the strategy stands still
  have hstay : ∀ (k : Nat) (y : β), Inv (p y) → Normal r (p y) → p (f^[k] y) = p y := by
    intro k
    induction k with
    | zero => exact fun y _ _ => rfl
    | succ k ih =>
        intro y hy hnormal
        rw [Function.iterate_succ_apply]
        rcases hf y hy with hstep | ⟨heq, -⟩
        · obtain ⟨z, hz, -⟩ := TransGen.head'_iff.mp hstep
          exact absurd hz (hnormal z)
        · rw [ih (f y) (by rw [heq]; exact hy) (by rw [heq]; exact hnormal), heq]
  induction n generalizing x with
  | zero =>
      refine ⟨.refl, fun b hb => ?_⟩
      have hlt := h.decreases _ _ hx hb
      omega
  | succ n ih =>
      rcases hf x hx with hstep | ⟨-, hnormal⟩
      · have hlt := h.size_lt hx hstep
        have hnext := h.keeps_many hx hstep.to_reflTransGen
        rw [Function.iterate_succ_apply]
        obtain ⟨hrun, hnormal⟩ := ih (x := f x) hnext (by omega)
        exact ⟨hstep.to_reflTransGen.trans hrun, hnormal⟩
      · rw [hstay (n + 1) x hx hnormal]
        exact ⟨.refl, hnormal⟩

end Confluent

end CpuSim.Lib.Confluence
