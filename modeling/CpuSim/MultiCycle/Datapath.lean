/-
  CpuSim.MultiCycle.Datapath

  `MultiCycleDatapath` evaluated wire by wire, its clocked steps and the CPU around it.
-/

import CpuSim.Components.ProgramCounter
import CpuSim.Isa.Sequential
import CpuSim.MultiCycle.ControlUnit

namespace CpuSim

open CpuSim.Logic (mux)

namespace MultiCycle

/-- `MultiCycleDatapath<32, 32, 32, 4, MemoryAddressWidth>`.  The buses that
    `evaluate_datapath` drives before it reads them are not state. -/
structure MultiCycleDatapath (MemoryAddressWidth : Nat) (writable : Nat → Bool) where
  clock : Bool := false
  reset : Bool := false
  programCounter : Logic.Register Word := ⟨0, 0, false⟩
  instructionRegister : Logic.Register Word := ⟨0, 0, false⟩
  memoryDataRegister : Logic.Register Word := ⟨0, 0, false⟩
  operandA : Logic.Register Word := ⟨0, 0, false⟩
  operandB : Logic.Register Word := ⟨0, 0, false⟩
  aluOut : Logic.Register Word := ⟨0, 0, false⟩
  registerFile : Logic.RegisterFile := {}
  memory : Logic.Memory MemoryAddressWidth writable := {}
  control : ControlSignals := {}
  decodedInstruction : DecodedInstruction := {}
  fsm : FSMControlUnit := {}

namespace MultiCycleDatapath

variable {w : Nat} {writable : Nat → Bool}

/-- `alu_src_b_mux_`; the shift amount of the fourth input is the constant 0. -/
def srcB (control : ControlSignals) (operandB immediate : Word) : Word :=
  match control.aluSrcB with
  | .regB => operandB
  | .constant => 1
  | .sign_extend => immediate
  | .shifted => immediate <<< 0

/-- `pc_source_mux_`. -/
def pcNext (control : ControlSignals) (aluResult aluOut jumpTarget : Word) : Word :=
  match control.pcSource with
  | .aluResult => aluResult
  | .aluOut => aluOut
  | .jumpTarget => jumpTarget

/-- `drive_pc_enable()`. -/
def pcEnable (control : ControlSignals) (aluZero : Bool) : Bool :=
  let takeBranch := control.pcWriteCond && (if control.bne then !aluZero else aluZero)
  !control.halt && (control.pcWrite || takeBranch)

/-- `evaluate_datapath()`. -/
def evaluateDatapath (d : MultiCycleDatapath w writable) : MultiCycleDatapath w writable :=
  let control := d.control
  let decoded := InstructionDecoder.decode ⟨d.instructionRegister.output⟩
  let rd := mux decoded.rs2 decoded.rd control.regDst
  let writeData :=
    mux d.aluOut.output d.memoryDataRegister.output (control.writebackSource == .memoryData)
  -- the register file is read with its write enable LOW
  let registerFile := d.registerFile.evaluate d.clock d.reset false rd writeData
  let rs1Data := registerFile.read decoded.rs1
  let rs2Data := registerFile.read decoded.rs2
  let srcA := mux d.programCounter.output d.operandA.output (control.aluSrcA == .RegA)
  let srcB := srcB control d.operandB.output decoded.immediate
  let aluResult := ALUInterface.result control.aluOperation srcA srcB
  let aluZero := ALUInterface.zero control.aluOperation srcA srcB
  let memoryAddress := mux d.programCounter.output d.aluOut.output control.iorD
  let memory :=
    DataMemory.evaluate d.memory d.clock control.memRead control.memWrite memoryAddress
      d.operandB.output
  let pcNext := pcNext control aluResult d.aluOut.output decoded.immediate
  let register (r : Logic.Register Word) (enable : Bool) (next : Word) : Logic.Register Word :=
    enabledRegister r d.clock d.reset enable next
  { d with
    programCounter := register d.programCounter (pcEnable control aluZero) pcNext
    instructionRegister := register d.instructionRegister control.irWrite memory.readData
    memoryDataRegister := register d.memoryDataRegister control.mdrWrite memory.readData
    operandA := register d.operandA control.aWrite rs1Data
    operandB := register d.operandB control.bWrite rs2Data
    aluOut := register d.aluOut control.aluOutWrite aluResult
    registerFile := registerFile.evaluate d.clock d.reset control.regWrite rd writeData
    memory := memory
    decodedInstruction := decoded }

/-- `clock_.tick()`. -/
def tick (d : MultiCycleDatapath w writable) : MultiCycleDatapath w writable :=
  { d with clock := !d.clock }

/-- `step()`. -/
def step (d : MultiCycleDatapath w writable) : MultiCycleDatapath w writable :=
  d.evaluateDatapath.tick.evaluateDatapath.tick.evaluateDatapath

/-- `reset()`. -/
def resetDatapath (d : MultiCycleDatapath w writable) : MultiCycleDatapath w writable :=
  let d := { d with fsm := d.fsm.reset, reset := true }
  let d := d.evaluateDatapath.tick.evaluateDatapath.tick
  { d with reset := false }.evaluateDatapath

/-- `step_cycle()`. -/
def stepCycle (d : MultiCycleDatapath w writable) : MultiCycleDatapath w writable :=
  let d := { d with control := d.fsm.generate d.decodedInstruction }.step
  { d with fsm := d.fsm.step d.decodedInstruction }

/-- The state after `n` calls of `step_cycle()`. -/
def cycles (d : MultiCycleDatapath w writable) : Nat → MultiCycleDatapath w writable
  | 0 => d
  | n + 1 => (cycles d n).stepCycle

/-- `run(max_cycles)`. -/
def run (d : MultiCycleDatapath w writable) : Nat → MultiCycleDatapath w writable
  | 0 => d
  | maxCycles + 1 => if d.fsm.isHalted then d else run d.stepCycle maxCycles

/-- `halted()`. -/
def halted (d : MultiCycleDatapath w writable) : Bool := d.control.halt || d.fsm.isHalted

/-- `load_instructions(instructions)`: the words of the ROM half. -/
def loadInstructions (d : MultiCycleDatapath w writable) (instructions : List Word) :
    MultiCycleDatapath w writable :=
  { d with
    memory :=
      { d.memory with
        contents := fun a => if writable a then d.memory.contents a else instructions.getD a 0 } }

end MultiCycleDatapath

/-- `MultiCycleCPU::step()`. -/
def MultiCycleCPU.step {w : Nat} {writable : Nat → Bool} (d : MultiCycleDatapath w writable) :
    MultiCycleDatapath w writable :=
  if d.halted then d else d.stepCycle

end MultiCycle

end CpuSim
