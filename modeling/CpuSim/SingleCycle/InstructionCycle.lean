/-
  CpuSim.SingleCycle.InstructionCycle

  One step of the single-cycle CPU is one instruction of the sequential machine.
-/

import CpuSim.SingleCycle.Datapath

namespace CpuSim.SingleCycle

open CpuSim.Logic (mux)

/-- The single-cycle CPU as a sequential machine: branches and jumps are relative to the
    program counter. -/
def machine (w : Nat) (writable : Nat → Bool) : Isa.Machine where
  addressWidth := w
  writable := writable
  branchTarget pc immediate := pc + immediate
  jumpTarget pc immediate := pc + immediate

namespace SingleCycleDatapath

variable {iw w : Nat} {writable : Nat → Bool}

/-- The architectural state of a datapath. -/
def architecture (d : SingleCycleDatapath iw w writable) : Isa.State where
  pc := d.programCounter.output
  regs := d.registerFile.read
  memory := d.dataMem.contents

/-- The instruction memory as the fetch stage reads it. -/
def fetch (d : SingleCycleDatapath iw w writable) (s : Isa.State) : DecodedInstruction :=
  InstructionDecoder.decode ⟨d.instructionMem (Logic.Memory.wordOf iw s.pc)⟩

/-- The clock is LOW and the reset wire is LOW: the state between two steps. -/
structure AtRest (d : SingleCycleDatapath iw w writable) : Prop where
  clock : d.clock = false
  reset : d.reset = false

/-- What a cycle leaves alone, and what it decodes at its end. -/
theorem cycle_software {d : SingleCycleDatapath iw w writable} (h : d.AtRest) :
    d.cycle.AtRest ∧ d.cycle.instructionMem = d.instructionMem ∧
      d.cycle.control = ControlSignals.generate (d.fetch d.cycle.architecture) := by
  obtain ⟨hclock, hreset⟩ := h
  cases d with
  | mk clock reset pc rom rf dataMem decoded control =>
      dsimp only at hclock hreset
      subst hclock hreset
      exact ⟨⟨rfl, rfl⟩, rfl, rfl⟩

/-- The operands an instruction gives the ALU. -/
def operandB (s : Isa.State) (i : DecodedInstruction) : Word :=
  mux (s.regs i.rs2) i.immediate (ControlSignals.generate i).aluSourceImmediate

/-- The ALU result of an instruction. -/
def aluResult (s : Isa.State) (i : DecodedInstruction) : Word :=
  ALUInterface.result (ControlSignals.generate i).aluOperation (s.regs i.rs1) (operandB s i)

/-- The condition of the next-address mux for an instruction. -/
def selectsTarget (s : Isa.State) (i : DecodedInstruction) : Bool :=
  nextPcSelect (ControlSignals.generate i) i.opcode
    (ALUInterface.zero (ControlSignals.generate i).aluOperation (s.regs i.rs1) (operandB s i))

/-- The word an instruction writes back. -/
def writeData (w : Nat) (s : Isa.State) (i : DecodedInstruction) : Word :=
  mux (aluResult s i) (s.memory (Logic.Memory.wordOf w (aluResult s i)))
    (ControlSignals.generate i).memoryRead

/-- A control word that reads the memory does not write it. -/
theorem generate_read (i : DecodedInstruction)
    (h : (ControlSignals.generate i).memoryRead = true) :
    (ControlSignals.generate i).memoryWrite = false := by
  revert h
  unfold ControlSignals.generate
  cases i.opcode <;> first | exact fun _ => rfl | exact nofun

/-- A control word that writes the memory does not write a register. -/
theorem generate_write (i : DecodedInstruction)
    (h : (ControlSignals.generate i).memoryWrite = true) :
    (ControlSignals.generate i).registerWrite = false := by
  revert h
  unfold ControlSignals.generate
  cases i.opcode <;> first | exact fun _ => rfl | exact nofun

/-- What the storage elements drive after a cycle. -/
theorem cycle_outputs {d : SingleCycleDatapath iw w writable} (h : d.AtRest) :
    let s := d.architecture
    let i := d.fetch s
    let c := ControlSignals.generate i
    d.cycle.architecture =
      { pc := mux s.pc (mux (s.pc + 1) (s.pc + i.immediate) (selectsTarget s i)) (!c.halt)
        regs := if c.registerWrite then Function.update s.regs i.rd (writeData w s i) else s.regs
        memory :=
          if c.memoryWrite then
            Logic.Memory.write w writable s.memory (aluResult s i) (s.regs i.rs2)
          else s.memory } := by
  obtain ⟨hclock, hreset⟩ := h
  cases d with
  | mk clock reset pc rom rf dataMem decoded control =>
      dsimp only at hclock hreset
      subst hclock hreset
      intro s i c
      -- a load reads its word before the rising edge
      have hdata : mux (aluResult s i) (DataMemory.evaluate dataMem false c.memoryRead
          c.memoryWrite (aluResult s i) (s.regs i.rs2)).readData c.memoryRead =
            writeData w s i := by
        rw [writeData]
        cases hload : (ControlSignals.generate i).memoryRead with
        | false => rfl
        | true =>
            have hread : c.memoryWrite = false := generate_read i hload
            rw [hread]
            rfl
      refine Isa.State.ext rfl ?_ ?_
      · funext r
        rw [← hdata]
        exact Logic.RegisterFile.loadMux_eq rf.read c.registerWrite i.rd r _
      · refine (DataMemory.contents_rising dataMem c.memoryRead c.memoryWrite _ _ _ _).trans ?_
        cases hstore : c.memoryWrite with
        | false => rfl
        | true =>
            -- a store leaves the registers it reads after the rising edge alone
            have hkeep : c.registerWrite = false := generate_write i hstore
            show Logic.Memory.write w writable s.memory
              (ALUInterface.result c.aluOperation
                (mux (s.regs i.rs1) _ (c.registerWrite && i.rd == i.rs1))
                (mux (mux (s.regs i.rs2) _ (c.registerWrite && i.rd == i.rs2)) i.immediate
                  c.aluSourceImmediate))
              (mux (s.regs i.rs2) _ (c.registerWrite && i.rd == i.rs2)) = _
            rw [hkeep]
            rfl

/-- One cycle of the datapath is one instruction. -/
theorem cycle_architecture {d : SingleCycleDatapath iw w writable} (h : d.AtRest) :
    d.cycle.architecture = d.architecture.step (machine w writable) d.fetch := by
  rw [cycle_outputs h, Isa.State.step]
  generalize d.fetch d.architecture = i
  generalize d.architecture = s
  unfold selectsTarget writeData aluResult operandB nextPcSelect Isa.State.exec Isa.State.result
    Isa.State.nextPc ControlSignals.generate
  cases hop : i.opcode with
  | BEQ | BNE =>
      dsimp only
      rw [ALUInterface.zero_sub]
      by_cases heq : s.regs i.rs1 = s.regs i.rs2 <;> simp [heq, mux, machine]
  | _ => rfl

end SingleCycleDatapath

/-! ## Runs -/

namespace SingleCycleCPU

variable {iw w : Nat} {writable : Nat → Bool}

/-- A CPU after some steps of a run of the program of `d0`, `k` instructions on. -/
structure RunningAt (d0 : SingleCycleDatapath iw w writable) (k : Nat)
    (c : SingleCycleCPU iw w writable) : Prop where
  rest : c.datapath.AtRest
  instructionMem : c.datapath.instructionMem = d0.instructionMem
  architecture : c.datapath.architecture =
    d0.architecture.steps (machine w writable) d0.fetch k
  halted : c.halted = true → (d0.fetch c.datapath.architecture).opcode = .HALT

/-- A step is an instruction; the CPU stops in front of a `HALT`. -/
theorem RunningAt.step {d0 : SingleCycleDatapath iw w writable} {k : Nat}
    {c : SingleCycleCPU iw w writable} (h : RunningAt d0 k c) :
    RunningAt d0 (k + 1) c.step ∧
      ((d0.fetch (d0.architecture.steps (machine w writable) d0.fetch k)).opcode = .HALT →
        c.step.halted = true) := by
  have hfetch : c.datapath.fetch = d0.fetch := by
    funext s
    rw [SingleCycleDatapath.fetch, SingleCycleDatapath.fetch, h.instructionMem]
  cases hhalted : c.halted with
  | true =>
      have hhalt := h.halted hhalted
      rw [step_of_halted hhalted]
      refine ⟨⟨h.rest, h.instructionMem, ?_, h.halted⟩, fun _ => hhalted⟩
      rw [Isa.State.steps, ← h.architecture, Isa.State.step_of_halt hhalt]
  | false =>
      obtain ⟨hrest, hrom, hcontrol⟩ := SingleCycleDatapath.cycle_software h.rest
      have harch := SingleCycleDatapath.cycle_architecture h.rest
      have hdatapath : c.step.datapath = c.datapath.cycle := by
        rw [SingleCycleCPU.step, if_neg (Bool.not_eq_true _ ▸ hhalted)]
      have hstop : c.step.halted =
          decide ((d0.fetch c.datapath.cycle.architecture).opcode = .HALT) := by
        rw [SingleCycleCPU.step, if_neg (Bool.not_eq_true _ ▸ hhalted)]
        show (if c.datapath.cycle.control.halt = true then true else c.halted) = _
        rw [hhalted, hcontrol, hfetch]
        unfold ControlSignals.generate
        cases (d0.fetch c.datapath.cycle.architecture).opcode <;> rfl
      have hnext : c.datapath.cycle.architecture =
          d0.architecture.steps (machine w writable) d0.fetch (k + 1) := by
        rw [harch, hfetch, h.architecture]
        rfl
      refine ⟨⟨?_, ?_, ?_, ?_⟩, ?_⟩
      · rw [hdatapath]
        exact hrest
      · rw [hdatapath, hrom, h.instructionMem]
      · rw [hdatapath]
        exact hnext
      · intro hhalt
        rw [hdatapath]
        rw [hstop] at hhalt
        exact of_decide_eq_true hhalt
      · intro hhalt
        rw [hstop, hnext, Isa.State.steps, Isa.State.step_of_halt hhalt]
        exact decide_eq_true hhalt

/-- Every number of steps is that number of instructions. -/
theorem steps_runningAt {c : SingleCycleCPU iw w writable} (h : c.datapath.AtRest)
    (hrun : c.halted = false) (n : Nat) : RunningAt c.datapath n (c.steps n) := by
  induction n with
  | zero => exact ⟨h, rfl, rfl, fun hhalted => absurd (hrun.symm.trans hhalted) (by decide)⟩
  | succ n ih => exact ih.step.1

/-- The CPU halts one step after the sequential machine is at a `HALT`. -/
theorem steps_halted {c : SingleCycleCPU iw w writable} (h : c.datapath.AtRest)
    (hrun : c.halted = false) {k : Nat}
    (hk : (c.datapath.fetch (c.datapath.architecture.steps (machine w writable)
      c.datapath.fetch k)).opcode = .HALT) : (c.steps (k + 1)).halted = true :=
  (steps_runningAt h hrun k).step.2 hk

end SingleCycleCPU

end CpuSim.SingleCycle
