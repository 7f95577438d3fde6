/-
  CpuSim.Lib.TwoPhase

  Components clocked in two phases.  While the clock is LOW their registers follow their
  inputs and drive nothing new; while it is HIGH they drive what they followed last.  However
  often each phase is evaluated, a cycle takes one step.
-/

import Mathlib.Data.List.Basic

namespace CpuSim.Lib

/-- A clocked component.  `settled` is what it drives once the clock is HIGH. -/
structure TwoPhase (State Input Output : Type _) where
  evaluate : State → Bool → Input → State
  output : State → Output
  settled : State → Output
  next : Input → Output → Output
  output_low (s : State) (u : Input) : output (evaluate s false u) = output s
  settled_low (s : State) (u : Input) : settled (evaluate s false u) = next u (output s)
  output_high (s : State) (u : Input) : output (evaluate s true u) = settled s
  settled_high (s : State) (u : Input) : settled (evaluate s true u) = settled s

namespace TwoPhase

variable {State Input Output : Type _} (M : TwoPhase State Input Output)

/-- A sequence of evaluations, each at its clock level. -/
def run (s : State) (steps : List (Bool × Input)) : State :=
  steps.foldl (fun s step => M.evaluate s step.1 step.2) s

/-- Evaluations at one clock level. -/
def phase (s : State) (clock : Bool) (us : List Input) : State :=
  us.foldl (fun s u => M.evaluate s clock u) s

/-- The clock goes LOW and then HIGH; both phases are evaluated at least once. -/
structure Cycle (Input : Type _) where
  earlier : List Input
  low : Input
  high : Input
  later : List Input

/-- One cycle. -/
def cycle (s : State) (c : Cycle Input) : State :=
  M.phase (M.phase s false (c.earlier ++ [c.low])) true (c.high :: c.later)

theorem output_phase_low (s : State) (us : List Input) :
    M.output (M.phase s false us) = M.output s := by
  induction us generalizing s with
  | nil => rfl
  | cons u us ih =>
      show M.output (M.phase (M.evaluate s false u) false us) = M.output s
      rw [ih, M.output_low]

/-- The last LOW evaluation decides. -/
theorem settled_phase_low (s : State) (us : List Input) (u : Input) :
    M.settled (M.phase s false (us ++ [u])) = M.next u (M.output s) := by
  have hsplit : M.phase s false (us ++ [u]) = M.evaluate (M.phase s false us) false u := by
    rw [phase, List.foldl_append]
    rfl
  rw [hsplit, M.settled_low, M.output_phase_low]

theorem output_phase_high (s : State) (u : Input) (us : List Input) :
    M.output (M.phase s true (u :: us)) = M.settled s := by
  induction us generalizing s u with
  | nil => exact M.output_high s u
  | cons v us ih =>
      show M.output (M.phase (M.evaluate s true u) true (v :: us)) = M.settled s
      rw [ih, M.settled_high]

/-- A cycle is one step of the registers. -/
theorem output_cycle (s : State) (c : Cycle Input) :
    M.output (M.cycle s c) = M.next c.low (M.output s) := by
  rw [cycle, output_phase_high, settled_phase_low]

/-- What a component drives, and what it will drive, satisfies an invariant of its step. -/
def Holds (P : Output → Prop) (s : State) : Prop := P (M.output s) ∧ P (M.settled s)

/-- One evaluation keeps an invariant of the step. -/
theorem holds_evaluate {P : Output → Prop} {s : State} (h : M.Holds P s) (clock : Bool)
    {u : Input} (hnext : ∀ o, P o → P (M.next u o)) : M.Holds P (M.evaluate s clock u) := by
  cases clock with
  | false =>
      constructor
      · rw [M.output_low]
        exact h.1
      · rw [M.settled_low]
        exact hnext _ h.1
  | true =>
      constructor
      · rw [M.output_high]
        exact h.2
      · rw [M.settled_high]
        exact h.2

/-- So does every sequence of evaluations, whatever the clock does. -/
theorem holds_run {P : Output → Prop} {s : State} (h : M.Holds P s)
    {steps : List (Bool × Input)} (hnext : ∀ step ∈ steps, ∀ o, P o → P (M.next step.2 o)) :
    M.Holds P (M.run s steps) := by
  induction steps generalizing s with
  | nil => exact h
  | cons step steps ih =>
      have hstep := M.holds_evaluate h step.1 (hnext step List.mem_cons_self)
      exact ih hstep fun step' hmem => hnext step' (List.mem_cons_of_mem step hmem)

/-- From a state that only drives what it should: the first evaluation is LOW. -/
theorem holds_run_low {P : Output → Prop} {s : State} (h : P (M.output s)) {u : Input}
    {steps : List (Bool × Input)}
    (hnext : ∀ step ∈ (false, u) :: steps, ∀ o, P o → P (M.next step.2 o)) :
    M.Holds P (M.run s ((false, u) :: steps)) := by
  have hfirst : M.Holds P (M.evaluate s false u) := by
    constructor
    · rw [M.output_low]
      exact h
    · rw [M.settled_low]
      exact hnext (false, u) List.mem_cons_self _ h
  exact M.holds_run hfirst fun step hmem => hnext step (List.mem_cons_of_mem _ hmem)

end TwoPhase

end CpuSim.Lib
