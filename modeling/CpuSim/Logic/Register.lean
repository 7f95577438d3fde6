/-
  CpuSim.Logic.Register

  What the datapaths rely on from the external logic library: `logic::Register`
  is a D register that captures its input while the clock is LOW and drives the
  captured value from the rising edge on, and `logic::Mux` selects its second
  input when the select wire is HIGH.  Wires carry `Bool`s (HIGH is `true`).
-/

import Mathlib.Tactic.Common

namespace CpuSim.Logic

/-- `logic::Mux`: `a` when the select is LOW, `b` when it is HIGH. -/
def mux {α : Type _} (a b : α) (select : Bool) : α := if select then b else a

/-- `logic::Register`: the master latch, the driven output and the last clock
    level seen. -/
structure Register (α : Type _) where
  captured : α
  output : α
  clockHigh : Bool := false
  deriving DecidableEq, Repr

namespace Register

variable {α : Type _}

/-- One `evaluate()` with the given clock level and input. -/
def evaluate (r : Register α) (clock : Bool) (input : α) : Register α :=
  if !clock then { r with captured := input, clockHigh := false }
  else if !r.clockHigh then { r with output := r.captured, clockHigh := true }
  else r

@[simp] theorem evaluate_low (r : Register α) (input : α) :
    r.evaluate false input = { r with captured := input, clockHigh := false } := rfl

@[simp] theorem evaluate_rising (c o input : α) :
    (Register.mk c o false).evaluate true input = ⟨c, c, true⟩ := rfl

@[simp] theorem evaluate_high (c o input : α) :
    (Register.mk c o true).evaluate true input = ⟨c, o, true⟩ := rfl

/-- Without an edge a register keeps what it captured and what it drives. -/
theorem evaluate_of_high {r : Register α} (h : r.clockHigh = true) (input : α) :
    r.evaluate true input = r := by
  rw [evaluate, h]
  rfl

/-- What a HIGH evaluation drives: a register that last saw the clock LOW has an edge coming. -/
def settled (r : Register α) : α := if r.clockHigh then r.output else r.captured

theorem settled_evaluate_low (r : Register α) (input : α) :
    (r.evaluate false input).settled = input := rfl

theorem output_evaluate_high (r : Register α) (input : α) :
    (r.evaluate true input).output = r.settled := by
  cases h : r.clockHigh with
  | true => rw [evaluate_of_high h, settled, if_pos h]
  | false =>
      rw [evaluate, settled, h]
      rfl

theorem settled_evaluate_high (r : Register α) (input : α) :
    (r.evaluate true input).settled = r.settled := by
  cases h : r.clockHigh with
  | true => rw [evaluate_of_high h]
  | false =>
      rw [evaluate, settled, settled, h]
      rfl

end Register

end CpuSim.Logic
