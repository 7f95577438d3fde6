/-
  CpuSim.SingleCycle.Datapath

  `ControlUnit`, `SingleCycleDatapath` evaluated wire by wire, and `SingleCycleCPU` with its
  own halted flag.
-/

import CpuSim.Components.Alu
import CpuSim.Components.ProgramCounter
import CpuSim.Isa.Sequential

namespace CpuSim.SingleCycle

open CpuSim.Logic (mux)

/-! ## Control -/

/-- `ControlSignals`. -/
structure ControlSignals where
  registerWrite : Bool := false
  aluSourceImmediate : Bool := false
  aluOperation : ALUOperation := .ADD
  memoryRead : Bool := false
  memoryWrite : Bool := false
  branch : Bool := false
  jump : Bool := false
  halt : Bool := false
  deriving DecidableEq, Repr

/-- `ControlUnit::generate(instruction)`. -/
def ControlSignals.generate (instruction : DecodedInstruction) : ControlSignals :=
  match instruction.opcode with
  | .NOP => {}
  | .ADD => { registerWrite := true, aluOperation := .ADD }
  | .SUB => { registerWrite := true, aluOperation := .SUB }
  | .AND => { registerWrite := true, aluOperation := .AND }
  | .OR => { registerWrite := true, aluOperation := .OR }
  | .XOR => { registerWrite := true, aluOperation := .XOR }
  | .NOT => { registerWrite := true, aluOperation := .NOT }
  | .LI => { registerWrite := true, aluSourceImmediate := true, aluOperation := .PASS_B }
  | .ADDI => { registerWrite := true, aluSourceImmediate := true, aluOperation := .ADD }
  | .LW =>
    { registerWrite := true, aluSourceImmediate := true, aluOperation := .ADD, memoryRead := true }
  | .SW => { aluSourceImmediate := true, aluOperation := .ADD, memoryWrite := true }
  | .BEQ | .BNE => { aluOperation := .SUB, branch := true }
  | .J => { jump := true }
  | .HALT => { halt := true }
  | .undefined _ => {}

/-! ## Datapath -/

/-- `SingleCycleDatapath<32, 32, 32, 4, InstructionMemoryAddressWidth,
    DataMemoryAddressWidth>`. -/
structure SingleCycleDatapath (InstructionMemoryAddressWidth DataMemoryAddressWidth : Nat)
    (writable : Nat → Bool) where
  clock : Bool := false
  reset : Bool := false
  programCounter : Logic.Register Word := ⟨0, 0, false⟩
  instructionMem : Nat → Word := fun _ => 0
  registerFile : Logic.RegisterFile := {}
  dataMem : Logic.Memory DataMemoryAddressWidth writable := {}
  decodedInstruction : DecodedInstruction := {}
  control : ControlSignals := {}

namespace SingleCycleDatapath

variable {iw w : Nat} {writable : Nat → Bool}

/-- The branch or jump condition. -/
def nextPcSelect (control : ControlSignals) (opcode : Opcode) (aluZero : Bool) : Bool :=
  if control.branch then
    match opcode with
    | .BEQ => aluZero
    | .BNE => !aluZero
    | _ => false
  else control.jump

/-- `evaluate()`. -/
def evaluate (d : SingleCycleDatapath iw w writable) : SingleCycleDatapath iw w writable :=
  let pc := d.programCounter.output
  let decoded := InstructionDecoder.decode ⟨d.instructionMem (Logic.Memory.wordOf iw pc)⟩
  let control := ControlSignals.generate decoded
  let pcEnable := !control.halt
  -- the operands are read with the write enable LOW
  let registerFile := d.registerFile.evaluate d.clock d.reset false decoded.rd 0
  let rs1Data := registerFile.read decoded.rs1
  let rs2Data := registerFile.read decoded.rs2
  let aluOperandB := mux rs2Data decoded.immediate control.aluSourceImmediate
  let aluResult := ALUInterface.result control.aluOperation rs1Data aluOperandB
  let aluZero := ALUInterface.zero control.aluOperation rs1Data aluOperandB
  let dataMem :=
    DataMemory.evaluate d.dataMem d.clock control.memoryRead control.memoryWrite aluResult rs2Data
  let registerWriteData := mux aluResult dataMem.readData control.memoryRead
  let registerFile :=
    registerFile.evaluate d.clock d.reset control.registerWrite decoded.rd registerWriteData
  let branchTarget := pc + decoded.immediate
  let branchTaken := nextPcSelect control decoded.opcode aluZero
  let pcIncrement := pc + 1
  let pcNext := mux pcIncrement branchTarget branchTaken
  { d with
    programCounter := enabledRegister d.programCounter d.clock d.reset pcEnable pcNext
    registerFile := registerFile
    dataMem := dataMem
    decodedInstruction := decoded
    control := control }

/-- `clock_.tick()`. -/
def tick (d : SingleCycleDatapath iw w writable) : SingleCycleDatapath iw w writable :=
  { d with clock := !d.clock }

/-- The evaluations and clock edges of one `step()` of the CPU. -/
def cycle (d : SingleCycleDatapath iw w writable) : SingleCycleDatapath iw w writable :=
  d.evaluate.tick.evaluate.tick.evaluate

/-- `load_instructions(instructions)`. -/
def loadInstructions (d : SingleCycleDatapath iw w writable) (instructions : List Word) :
    SingleCycleDatapath iw w writable :=
  { d with instructionMem := fun a => instructions.getD a 0 }

end SingleCycleDatapath

/-! ## The CPU -/

/-- `SingleCycleCPU`. -/
structure SingleCycleCPU (InstructionMemoryAddressWidth DataMemoryAddressWidth : Nat)
    (writable : Nat → Bool) where
  datapath :
    SingleCycleDatapath InstructionMemoryAddressWidth DataMemoryAddressWidth writable := {}
  halted : Bool := false

namespace SingleCycleCPU

variable {iw w : Nat} {writable : Nat → Bool}

/-- `reset()`.  No clock edge is driven. -/
def reset (c : SingleCycleCPU iw w writable) : SingleCycleCPU iw w writable :=
  let d : SingleCycleDatapath iw w writable := { c.datapath with reset := true }
  let d : SingleCycleDatapath iw w writable := { d.evaluate with reset := false }
  { datapath := d.evaluate, halted := false }

/-- `step()`. -/
def step (c : SingleCycleCPU iw w writable) : SingleCycleCPU iw w writable :=
  if c.halted then c
  else
    let d := c.datapath.cycle
    { datapath := d, halted := if d.control.halt then true else c.halted }

/-- The state after `n` calls of `step()`. -/
def steps (c : SingleCycleCPU iw w writable) : Nat → SingleCycleCPU iw w writable
  | 0 => c
  | n + 1 => (steps c n).step

/-- `run(max_cycles)`. -/
def run (c : SingleCycleCPU iw w writable) : Nat → SingleCycleCPU iw w writable
  | 0 => c
  | maxCycles + 1 => if c.halted then c else run c.step maxCycles

/-- A halted CPU does not step. -/
theorem step_of_halted {c : SingleCycleCPU iw w writable} (h : c.halted = true) : c.step = c := by
  rw [step, h]
  rfl

theorem steps_succ (c : SingleCycleCPU iw w writable) (n : Nat) :
    c.steps (n + 1) = c.step.steps n := by
  induction n with
  | zero => rfl
  | succ n ih =>
      rw [steps, ih]
      rfl

theorem steps_of_halted {c : SingleCycleCPU iw w writable} (h : c.halted = true) (n : Nat) :
    c.steps n = c := by
  induction n with
  | zero => rfl
  | succ n ih => rw [steps, ih, step_of_halted h]

/-- `run` is a number of steps: a halted CPU stays as it is. -/
theorem run_eq_steps (c : SingleCycleCPU iw w writable) (maxCycles : Nat) :
    c.run maxCycles = c.steps maxCycles := by
  induction maxCycles generalizing c with
  | zero => rfl
  | succ n ih =>
      rw [run]
      split
      · next h => rw [steps_of_halted h]
      · rw [ih, steps_succ]

/-- `load_program(instructions)`. -/
def loadProgram (c : SingleCycleCPU iw w writable) (instructions : List Word) :
    SingleCycleCPU iw w writable :=
  { c with datapath := c.datapath.loadInstructions instructions }

/-- `pc()`. -/
def pc (c : SingleCycleCPU iw w writable) : Word := c.datapath.programCounter.output

end SingleCycleCPU

end CpuSim.SingleCycle
