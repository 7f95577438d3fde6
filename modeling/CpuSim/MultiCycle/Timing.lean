/-
  CpuSim.MultiCycle.Timing

  Whole programs on the multi-cycle CPU: `run` makes the cycles of the instructions up to the
  first `HALT`, each as many as its path through the states has, and `step_instruction` goes
  through the same states one instruction at a time.
-/

import CpuSim.Lib.Paced
import CpuSim.MultiCycle.InstructionCycle

namespace CpuSim.MultiCycle.MultiCycleDatapath

open CpuSim.Lib (Paced elapsed runFor)

variable {w : Nat} {writable : Nat → Bool} {d e : MultiCycleDatapath w writable} {k : Nat}

/-! ## One instruction at a time -/

/-- The loop of `step_instruction()`, with a bound on its passes. -/
def instructionLoop : Nat → MultiCycleDatapath w writable → MultiCycleDatapath w writable
  | 0, d => d
  | fuel + 1, d =>
    let d := d.stepCycle
    if d.fsm.currentState != .FETCH && !d.fsm.isHalted then instructionLoop fuel d else d

/-- `step_instruction()`. -/
def stepInstruction (fuel : Nat) (d : MultiCycleDatapath w writable) :
    MultiCycleDatapath w writable :=
  if d.fsm.isHalted then d else instructionLoop fuel d

/-- `fsm_.is_halted()`, the condition of `run`. -/
def fsmHalted (d : MultiCycleDatapath w writable) : Bool := d.fsm.isHalted

theorem cyclesOf_le (op : Opcode) : cyclesOf op ≤ 5 := by
  unfold cyclesOf
  split <;> decide

theorem cycles_eq_iterate (d : MultiCycleDatapath w writable) (n : Nat) :
    d.cycles n = stepCycle^[n] d := by
  induction n with
  | zero => rfl
  | succ n ih => rw [cycles, ih, Function.iterate_succ_apply']

/-- The loop goes on until the state machine is in `FETCH` or `HALT`. -/
theorem instructionLoop_eq {n fuel : Nat} (hpos : 0 < n) (hfuel : n ≤ fuel)
    (hbusy : ∀ j, 0 < j → j < n →
      (stepCycle^[j] d).fsm.currentState ≠ .FETCH ∧ (stepCycle^[j] d).fsm.currentState ≠ .HALT)
    (hend : (stepCycle^[n] d).fsm.currentState = .FETCH ∨
      (stepCycle^[n] d).fsm.currentState = .HALT) :
    instructionLoop fuel d = stepCycle^[n] d := by
  induction n generalizing d fuel with
  | zero => exact absurd hpos (Nat.lt_irrefl 0)
  | succ n ih =>
      obtain ⟨m, rfl⟩ : ∃ m, fuel = m + 1 := ⟨fuel - 1, by omega⟩
      rw [instructionLoop]
      rcases Nat.eq_zero_or_pos n with rfl | hn
      · -- the last pass
        have hstop : (d.stepCycle.fsm.currentState != .FETCH && !d.stepCycle.fsm.isHalted) =
            false := by
          rw [FSMControlUnit.isHalted]
          rcases hend with hfetch | hhalt
          · rw [show d.stepCycle.fsm.currentState = .FETCH from hfetch]
            rfl
          · rw [show d.stepCycle.fsm.currentState = .HALT from hhalt]
            rfl
        rw [hstop]
        rfl
      · have hfetch : d.stepCycle.fsm.currentState ≠ .FETCH := (hbusy 1 (by omega) (by omega)).1
        have hhalt : d.stepCycle.fsm.currentState ≠ .HALT := (hbusy 1 (by omega) (by omega)).2
        have hgo : (d.stepCycle.fsm.currentState != .FETCH && !d.stepCycle.fsm.isHalted) =
            true := by
          rw [FSMControlUnit.isHalted, bne_iff_ne.mpr hfetch, beq_eq_false_iff_ne.mpr hhalt]
          rfl
        rw [hgo, if_pos rfl, Function.iterate_succ_apply]
        apply ih hn (by omega)
        · intro j hj hlt
          rw [← Function.iterate_succ_apply]
          exact hbusy (j + 1) (by omega) (by omega)
        · rw [← Function.iterate_succ_apply]
          exact hend

/-! ## Programs -/

/-- Instruction `k` of the sequential machine is a `HALT`. -/
def HaltAt (d : MultiCycleDatapath w writable) (k : Nat) : Prop :=
  (fetch w (d.sequential k)).opcode = .HALT

instance (d : MultiCycleDatapath w writable) (k : Nat) : Decidable (d.HaltAt k) := by
  unfold HaltAt
  infer_instance

/-- The cycles of instruction `k`. -/
def cost (d : MultiCycleDatapath w writable) (k : Nat) : Nat :=
  cyclesOf (fetch w (d.sequential k)).opcode

/-- A datapath about to fetch instruction `k` of a run of the program of `d`. -/
structure FetchingAt (d : MultiCycleDatapath w writable) (k : Nat)
    (e : MultiCycleDatapath w writable) : Prop where
  rest : e.AtRest
  state : e.fsm.currentState = .FETCH
  architecture : e.architecture = d.sequential k

/-- A datapath that has stopped at instruction `k`. -/
structure StoppedAt (d : MultiCycleDatapath w writable) (k : Nat)
    (e : MultiCycleDatapath w writable) : Prop where
  rest : e.AtRest
  state : e.fsm.currentState = .HALT
  regs : e.registerFile.read = (d.sequential k).regs
  memory : e.memory.contents = (d.sequential k).memory

theorem FetchingAt.start (hrest : d.AtRest) (hfetch : d.fsm.currentState = .FETCH) :
    d.FetchingAt 0 d := ⟨hrest, hfetch, rfl⟩

/-- The cycles of an instruction that is not `HALT` lead to the next one. -/
theorem FetchingAt.next (h : d.FetchingAt k e) (hne : ¬d.HaltAt k) :
    d.FetchingAt (k + 1) (stepCycle^[d.cost k] e) := by
  obtain ⟨harch, hstate, -, hrest⟩ := instruction_cycles h.rest h.state
  rw [cycles_eq_iterate, h.architecture] at harch hstate hrest
  refine ⟨hrest, hstate.trans ?_, harch.trans (Isa.State.step_of_ne hne).symm⟩
  unfold finalState
  split
  · next hhalt => exact absurd hhalt hne
  · rfl

/-- Those of a `HALT` stop the state machine. -/
theorem FetchingAt.stop (h : d.FetchingAt k e) (hhalt : d.HaltAt k) :
    d.StoppedAt k (stepCycle^[d.cost k] e) := by
  obtain ⟨harch, hstate, -, hrest⟩ := instruction_cycles h.rest h.state
  rw [cycles_eq_iterate, h.architecture] at harch hstate hrest
  obtain ⟨hregs, hmemory⟩ :=
    @Isa.State.exec_of_halt (machine w writable) (d.sequential k) _ hhalt
  refine ⟨hrest, hstate.trans ?_, (congrArg Isa.State.regs harch).trans hregs,
    (congrArg Isa.State.memory harch).trans hmemory⟩
  rw [show (fetch w (d.sequential k)).opcode = .HALT from hhalt]
  rfl

/-- The CPU works through the instructions of the sequential machine. -/
theorem paced (d : MultiCycleDatapath w writable) :
    Paced stepCycle fsmHalted d.FetchingAt d.StoppedAt d.cost d.HaltAt where
  cost_pos k := cyclesOf_pos _
  busy := by
    intro k e h j hj
    rw [cost, ← h.architecture] at hj
    rw [← cycles_eq_iterate]
    exact not_halted_before h.rest h.state hj
  next h hne := h.next hne
  stop h hhalt := by
    have hstop := h.stop hhalt
    exact ⟨isHalted_iff.mpr hstop.state, hstop⟩

theorem run_eq_runFor (d : MultiCycleDatapath w writable) (maxCycles : Nat) :
    d.run maxCycles = runFor stepCycle fsmHalted maxCycles d := by
  induction maxCycles generalizing d with
  | zero => rfl
  | succ n ih =>
      rw [run, runFor, ih]
      rfl

/-- The cycles up to and with a `HALT` that is instruction `k`. -/
def cyclesTo (d : MultiCycleDatapath w writable) (k : Nat) : Nat :=
  ∑ j ∈ Finset.range (k + 1), d.cost j

/-- One call of `step_instruction` is the cycles of one instruction. -/
theorem FetchingAt.stepInstruction_eq (h : d.FetchingAt k e) {fuel : Nat} (hfuel : 5 ≤ fuel) :
    stepInstruction fuel e = stepCycle^[d.cost k] e := by
  have hrun : e.fsm.isHalted = false := by
    rw [FSMControlUnit.isHalted, h.state]
    rfl
  obtain ⟨-, hstate, hbusy, -⟩ := instruction_cycles h.rest h.state
  rw [h.architecture] at hstate hbusy
  simp only [cycles_eq_iterate] at hstate hbusy
  rw [stepInstruction, if_neg (by rw [hrun]; decide)]
  apply instructionLoop_eq (cyclesOf_pos _) (Nat.le_trans (cyclesOf_le _) hfuel) hbusy
  unfold finalState at hstate
  split at hstate
  · exact Or.inr hstate
  · exact Or.inl hstate

/-- So `k` calls are the cycles of `k` instructions, as long as no `HALT` is among them. -/
theorem iterate_stepInstruction (hrest : d.AtRest) (hfetch : d.fsm.currentState = .FETCH)
    {fuel : Nat} (hfuel : 5 ≤ fuel) (hk : ∀ j < k, ¬d.HaltAt j) :
    (stepInstruction fuel)^[k] d = stepCycle^[∑ j ∈ Finset.range k, d.cost j] d := by
  induction k with
  | zero => rfl
  | succ k ih =>
      have hprev : ∀ j < k, ¬d.HaltAt j := fun j hj => hk j (by omega)
      have hat := d.paced.begins (FetchingAt.start hrest hfetch) hprev
      rw [Function.iterate_succ_apply', ih hprev, hat.stepInstruction_eq hfuel,
        Paced.iterate_sum_succ]

/-- `run` makes exactly the cycles of the instructions up to the first `HALT`, and halts, with
    the registers and the memory of the sequential machine there, exactly if its bound leaves it
    as many; `step_instruction`, called once for each of these instructions, ends in the same
    state.  Without a `HALT` all cycles are made. -/
theorem state_cycles_exact (hrest : d.AtRest) (hfetch : d.fsm.currentState = .FETCH)
    (maxCycles : Nat) :
    (∀ k, d.HaltAt k → (∀ j < k, ¬d.HaltAt j) →
      elapsed stepCycle fsmHalted maxCycles d = min maxCycles (d.cyclesTo k) ∧
        ((d.run maxCycles).fsm.isHalted = true ↔ d.cyclesTo k ≤ maxCycles) ∧
        (d.cyclesTo k ≤ maxCycles →
          (d.run maxCycles).registerFile.read = (d.sequential k).regs ∧
            (d.run maxCycles).memory.contents = (d.sequential k).memory ∧
            ∀ fuel, 5 ≤ fuel → (stepInstruction fuel)^[k + 1] d = d.run maxCycles)) ∧
      ((∀ k, ¬d.HaltAt k) →
        elapsed stepCycle fsmHalted maxCycles d = maxCycles ∧
          (d.run maxCycles).fsm.isHalted = false) := by
  have hstart := FetchingAt.start hrest hfetch
  rw [run_eq_runFor]
  constructor
  · intro k hhalt hk
    obtain ⟨helapsed, hhalted, hdone⟩ := d.paced.run hstart hk hhalt maxCycles
    refine ⟨helapsed, hhalted, fun hle => ⟨(hdone hle).regs, (hdone hle).memory, ?_⟩⟩
    intro fuel hfuel
    have hat := d.paced.begins hstart hk
    rw [Function.iterate_succ_apply', iterate_stepInstruction hrest hfetch hfuel hk,
      hat.stepInstruction_eq hfuel, ← Paced.iterate_sum_succ, Lib.runFor_eq, helapsed]
    congr 1
    exact (Nat.min_eq_right hle).symm
  · exact fun hnone => d.paced.run_forever hstart hnone maxCycles

/-- `ADDI r1, r2, 5; BEQ r0, r0, 1; NOP; SW r1, 128(r0); HALT`, constructed and reset. -/
def storeDatapath : MultiCycleDatapath 8 (Logic.Memory.upperHalf 8) :=
  resetDatapath
    { memory := { contents := fun a =>
        [0x20480005, 0x2C000001, 0x00000000, 0x28400080, 0x38000000].getD a 0 } }

/-- Four instructions in thirteen cycles: the `NOP` is branched over. -/
theorem state_cycles_exact_store :
    elapsed stepCycle fsmHalted 100 storeDatapath = 13 ∧
      (storeDatapath.run 100).memory.contents 128 = 5 := by
  have hhalt : storeDatapath.HaltAt 3 := by decide +kernel
  have hfirst : ∀ j < 3, ¬storeDatapath.HaltAt j := by decide +kernel
  have hcycles : storeDatapath.cyclesTo 3 = 13 := by decide +kernel
  have hrest : storeDatapath.AtRest := (Reached.reset (Reached.constructed _)).atRest
  obtain ⟨helapsed, -, hdone⟩ := (state_cycles_exact hrest rfl 100).1 3 hhalt hfirst
  rw [hcycles] at helapsed hdone
  obtain ⟨-, hmemory, -⟩ := hdone (by decide)
  refine ⟨helapsed, ?_⟩
  rw [hmemory]
  decide +kernel

end CpuSim.MultiCycle.MultiCycleDatapath
