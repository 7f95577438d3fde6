/-
  CpuSim.Lib.Refinement

  Components driven by calls.  A component answers each call and changes its state; a
  specification says which answers and which next states a call may have.  If every
  call refines the specification along a relation between the states, every sequence
  of calls does.
-/

import Mathlib.Tactic.Common

namespace CpuSim.Lib

variable {S A C R : Type _}

/-- The answers to a sequence of calls, and the state behind them. -/
def trace (call : S → C → R × S) : S → List C → List R × S
  | s, [] => ([], s)
  | s, c :: cs =>
    let rest := trace call (call s c).2 cs
    ((call s c).1 :: rest.1, rest.2)

/-- The specification allows the answers to the calls, ending in the last state. -/
inductive Allows (spec : A → C → R → A → Prop) : A → List C → List R → A → Prop
  | nil (a : A) : Allows spec a [] [] a
  | cons {a b z : A} {c : C} {r : R} {cs : List C} {rs : List R} (h : spec a c r b)
      (hs : Allows spec b cs rs z) : Allows spec a (c :: cs) (r :: rs) z

/-- Every call of the component is allowed, and keeps the states related. -/
def Refines (call : S → C → R × S) (spec : A → C → R → A → Prop) (rel : S → A → Prop) : Prop :=
  ∀ s a c, rel s a → ∃ b, spec a c (call s c).1 b ∧ rel (call s c).2 b

section Trace

variable {call : S → C → R × S} {spec : A → C → R → A → Prop} {rel : S → A → Prop}

@[simp] theorem trace_nil (s : S) : trace call s [] = ([], s) := rfl

@[simp] theorem trace_cons (s : S) (c : C) (cs : List C) :
    trace call s (c :: cs) =
      ((call s c).1 :: (trace call (call s c).2 cs).1, (trace call (call s c).2 cs).2) := rfl

theorem trace_append (s : S) (cs ds : List C) :
    trace call s (cs ++ ds) =
      ((trace call s cs).1 ++ (trace call (trace call s cs).2 ds).1,
        (trace call (trace call s cs).2 ds).2) := by
  induction cs generalizing s with
  | nil => rfl
  | cons c cs ih => rw [List.cons_append, trace_cons, trace_cons, ih, List.cons_append]

@[simp] theorem length_trace (s : S) (cs : List C) : (trace call s cs).1.length = cs.length := by
  induction cs generalizing s with
  | nil => rfl
  | cons c cs ih => rw [trace_cons, List.length_cons, List.length_cons, ih]

/-- The answer to call `k` is given in the state behind the calls before it. -/
theorem trace_getElem? (s : S) (cs : List C) (k : Nat) :
    (trace call s cs).1[k]? = cs[k]?.map fun c => (call (trace call s (cs.take k)).2 c).1 := by
  induction cs generalizing s k with
  | nil => rfl
  | cons c cs ih =>
      rw [trace_cons]
      cases k with
      | zero => rfl
      | succ k => rw [List.getElem?_cons_succ, List.getElem?_cons_succ, List.take_succ_cons, ih,
          trace_cons]

theorem trace_take_succ (s : S) {cs : List C} {k : Nat} {c : C} (hc : cs[k]? = some c) :
    (trace call s (cs.take (k + 1))).2 = (call (trace call s (cs.take k)).2 c).2 := by
  rw [List.take_add_one, hc, Option.toList_some, trace_append, trace_cons, trace_nil]

/-- A sequence of calls refines the specification. -/
theorem Refines.trace (h : Refines call spec rel) {s : S} {a : A} (hrel : rel s a)
    (cs : List C) :
    ∃ z, Allows spec a cs (trace call s cs).1 z ∧ rel (trace call s cs).2 z := by
  induction cs generalizing s a with
  | nil => exact ⟨a, Allows.nil a, hrel⟩
  | cons c cs ih =>
      obtain ⟨b, hspec, hnext⟩ := h s a c hrel
      obtain ⟨z, hallows, hz⟩ := ih hnext
      exact ⟨z, Allows.cons hspec hallows, hz⟩

/-- When the specification is itself a component, the answers are its answers. -/
theorem allows_call {call' : A → C → R × A} {a z : A} {cs : List C} {rs : List R}
    (h : Allows (fun a c r b => call' a c = (r, b)) a cs rs z) :
    Lib.trace call' a cs = (rs, z) := by
  induction h with
  | nil => rfl
  | cons hstep _ ih => rw [trace_cons, hstep, ih]

end Trace

end CpuSim.Lib
