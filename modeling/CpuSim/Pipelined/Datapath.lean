/-
  CpuSim.Pipelined.Datapath

  `PipelinedCycleDatapath` evaluated wire by wire, its clocked steps with the opcodes it
  tracks beside the pipeline registers, and the CPU around it.
-/

import CpuSim.Components.ProgramCounter
import CpuSim.Isa.Sequential
import CpuSim.Pipelined.HazardUnit

namespace CpuSim.Pipelined

open CpuSim.Logic (mux)

/-- `PipelinedCycleDatapath<32, 32, 32, 4, InstructionMemoryAddressWidth,
    DataMemoryAddressWidth>`.  The wires that `evaluate` drives before it reads them are not
    state, those that `step` reads are. -/
structure PipelinedCycleDatapath (InstructionMemoryAddressWidth DataMemoryAddressWidth : Nat)
    (writable : Nat → Bool) where
  clock : Bool := false
  reset : Bool := false
  programCounter : Logic.Register Word := ⟨0, 0, false⟩
  instructionMem : Nat → Word := fun _ => 0
  ifId : Logic.Register IF_ID := ⟨{}, {}, false⟩
  registerFile : Logic.RegisterFile := {}
  idEx : Logic.Register ID_EX := ⟨{}, {}, false⟩
  exMem : Logic.Register EX_MEM := ⟨{}, {}, false⟩
  dataMem : Logic.Memory DataMemoryAddressWidth writable := {}
  memWb : Logic.Register MEM_WB := ⟨{}, {}, false⟩
  decodedInstruction : DecodedInstruction := {}
  stallD : Bool := false
  flushD : Bool := false
  flushE : Bool := false
  wbOpcode : Opcode := .NOP
  memOpcode : Opcode := .NOP
  exOpcode : Opcode := .NOP
  idOpcode : Opcode := .NOP

namespace PipelinedCycleDatapath

variable {iw w : Nat} {writable : Nat → Bool}

/-- `writeback_mux_`. -/
def resultW (memWb : MEM_WB) : Word :=
  mux memWb.aluResult memWb.readData memWb.controls.memToReg

/-- A register operand of the decode stage, past the write-before-read bypass. -/
def operandD (registers : Register → Word) (memWb : MEM_WB) (source : Register) : Word :=
  if memWb.controls.regWrite && memWb.rd == source then resultW memWb else registers source

/-- The outputs of the execute stage. -/
structure Execute where
  writeData : Word
  aluResult : Word
  branchTarget : Word
  branchTaken : Bool
  deriving DecidableEq, Repr

/-- The inputs of the hazard unit. -/
def hazardInputs (decoded : DecodedInstruction) (idEx : ID_EX) (exMem : EX_MEM) (memWb : MEM_WB)
    (branchTaken : Bool) : HazardInputs where
  ra1D := decoded.rs1
  ra2D := decoded.rs2
  ra1E := idEx.rs
  ra2E := idEx.rt
  wa3E := idEx.rd
  memToRegE := idEx.controls.memToReg
  branchTakenE := branchTaken
  wa3M := exMem.rd
  regWriteM := exMem.controls.regWrite
  wa3W := memWb.rd
  regWriteW := memWb.controls.regWrite

/-- Branch condition resolution, by the opcode tracked for the execute stage. -/
def resolveBranch (branch : Bool) (exOpcode : Opcode) (zero : Bool) : Bool :=
  if branch then
    match exOpcode with
    | .BEQ => zero
    | .BNE => !zero
    | .J => true
    | _ => zero
  else false

/-- The execute stage. -/
def execute (exOpcode : Opcode) (hazard : HazardOutputs) (idEx : ID_EX) (exMem : EX_MEM)
    (memWb : MEM_WB) : Execute :=
  let srcA := forwardMux idEx.readData1 (resultW memWb) exMem.aluResult hazard.forwardAE
  let writeData := forwardMux idEx.readData2 (resultW memWb) exMem.aluResult hazard.forwardBE
  let srcB := mux writeData idEx.immediate idEx.controls.aluSrc
  { writeData := writeData
    aluResult := ALUInterface.result idEx.controls.aluOp srcA srcB
    branchTarget := idEx.pcplus4 + idEx.immediate
    branchTaken :=
      resolveBranch idEx.controls.branch exOpcode
        (ALUInterface.zero idEx.controls.aluOp srcA srcB) }

/-- `halt_fetched`. -/
def haltFetched (branchTaken : Bool) (decoded id ex mem wb : Opcode) : Bool :=
  !branchTaken &&
    (decoded == .HALT || id == .HALT || ex == .HALT || mem == .HALT || wb == .HALT)

/-- What a taken branch passes on to the memory stage. -/
def controlsM (controls : ControlSignals) (branchTaken : Bool) : ControlSignals :=
  if branchTaken then { controls with regWrite := false, memWrite := false, memRead := false }
  else controls

/-- `evaluate()`. -/
def evaluate (d : PipelinedCycleDatapath iw w writable) : PipelinedCycleDatapath iw w writable :=
  -- writeback stage; R15 written there redirects the program counter
  let memWb := d.memWb.output
  let pcSrcW := memWb.controls.regWrite && memWb.rd == 15
  let writeBack (f : Logic.RegisterFile) : Logic.RegisterFile :=
    f.evaluate d.clock d.reset memWb.controls.regWrite memWb.rd (resultW memWb)
  let registerFile := writeBack d.registerFile
  -- memory stage
  let exMem := d.exMem.output
  let dataMem :=
    DataMemory.evaluate d.dataMem d.clock exMem.controls.memRead exMem.controls.memWrite
      exMem.aluResult exMem.readData2
  -- decode stage
  let decoded := InstructionDecoder.decode ⟨d.ifId.output.instruction⟩
  let registerFile := writeBack registerFile
  let rd1Data := operandD registerFile.read memWb decoded.rs1
  let rd2Data := operandD registerFile.read memWb decoded.rs2
  -- execute stage; the forwarding selects do not depend on the branch
  let forwarding := (hazardInputs decoded d.idEx.output exMem memWb false).evaluate
  let execute := execute d.exOpcode forwarding d.idEx.output exMem memWb
  let hazard := (hazardInputs decoded d.idEx.output exMem memWb execute.branchTaken).evaluate
  -- pipeline control lines
  let haltFetched :=
    haltFetched execute.branchTaken decoded.opcode d.idOpcode d.exOpcode d.memOpcode d.wbOpcode
  let pcEnable := (execute.branchTaken || !haltFetched) && !hazard.stallF
  -- fetch stage
  let pcplus4 := d.programCounter.output + 1
  let branchOrPcplus4 := mux pcplus4 execute.branchTarget execute.branchTaken
  let pcPrime := mux branchOrPcplus4 (resultW memWb) pcSrcW
  let instructionF := d.instructionMem (Logic.Memory.wordOf iw d.programCounter.output)
  -- pipeline registers, each reading the outputs of the one evaluated before it
  let programCounter := enabledRegister d.programCounter d.clock d.reset pcEnable pcPrime
  let ifId :=
    pipelineRegister {} d.ifId d.clock (d.reset || hazard.flushD) (!hazard.stallD)
      { instruction := instructionF, pcplus4 := pcplus4 }
  let idEx :=
    pipelineRegister {} d.idEx d.clock (d.reset || hazard.flushE) true
      { pcplus4 := ifId.output.pcplus4, readData1 := rd1Data, readData2 := rd2Data
        immediate := decoded.immediate, rs := decoded.rs1, rt := decoded.rs2, rd := decoded.rd
        controls := ControlSignals.generate decoded }
  let exMem :=
    pipelineRegister {} d.exMem d.clock d.reset true
      { aluResult := execute.aluResult, readData2 := execute.writeData, rd := idEx.output.rd
        controls := (controlsM idEx.output.controls execute.branchTaken).exMem }
  let memWb :=
    pipelineRegister {} d.memWb d.clock d.reset true
      { readData := dataMem.readData, aluResult := exMem.output.aluResult, rd := exMem.output.rd
        controls := exMem.output.controls.memWb }
  { d with
    programCounter := programCounter
    ifId := ifId
    registerFile := registerFile
    idEx := idEx
    exMem := exMem
    dataMem := dataMem
    memWb := memWb
    decodedInstruction := decoded
    stallD := hazard.stallD
    flushD := hazard.flushD
    flushE := hazard.flushE }

/-- `clock_.tick()`. -/
def tick (d : PipelinedCycleDatapath iw w writable) : PipelinedCycleDatapath iw w writable :=
  { d with clock := !d.clock }

/-- `halted()`. -/
def halted (d : PipelinedCycleDatapath iw w writable) : Bool := d.wbOpcode == .HALT

/-- The opcode updates at the end of `step()`; the flushes are those of the HIGH evaluation. -/
def updateOpcodes (d : PipelinedCycleDatapath iw w writable) (flushedD flushedE : Bool) :
    PipelinedCycleDatapath iw w writable :=
  { d with
    wbOpcode := d.memOpcode
    memOpcode := d.exOpcode
    exOpcode := if flushedE then .NOP else d.idOpcode
    idOpcode :=
      if flushedD then .NOP
      else if !d.stallD then d.decodedInstruction.opcode
      else d.idOpcode }

/-- `step()`. -/
def step (d : PipelinedCycleDatapath iw w writable) : PipelinedCycleDatapath iw w writable :=
  if d.halted then d
  else
    let high := d.evaluate.tick.evaluate
    high.tick.evaluate.updateOpcodes high.flushD high.flushE

/-- `reset()`. -/
def resetDatapath (d : PipelinedCycleDatapath iw w writable) :
    PipelinedCycleDatapath iw w writable :=
  let d : PipelinedCycleDatapath iw w writable := { d with reset := true }
  let d := d.evaluate.tick.evaluate.tick
  let d : PipelinedCycleDatapath iw w writable := { d with reset := false }
  let d := d.evaluate
  { d with idOpcode := .NOP, exOpcode := .NOP, memOpcode := .NOP, wbOpcode := .NOP }

/-- The state after `n` calls of `step()`. -/
def steps (d : PipelinedCycleDatapath iw w writable) : Nat → PipelinedCycleDatapath iw w writable
  | 0 => d
  | n + 1 => (steps d n).step

/-- `run(max_cycles)`. -/
def run (d : PipelinedCycleDatapath iw w writable) : Nat → PipelinedCycleDatapath iw w writable
  | 0 => d
  | maxCycles + 1 => if d.halted then d else run d.step maxCycles

/-- A halted pipeline does not step. -/
theorem step_of_halted {d : PipelinedCycleDatapath iw w writable} (h : d.halted = true) :
    d.step = d := by
  rw [step, h]
  rfl

theorem steps_succ (d : PipelinedCycleDatapath iw w writable) (n : Nat) :
    d.steps (n + 1) = d.step.steps n := by
  induction n with
  | zero => rfl
  | succ n ih =>
      rw [steps, ih]
      rfl

theorem steps_add (d : PipelinedCycleDatapath iw w writable) (m n : Nat) :
    d.steps (m + n) = (d.steps m).steps n := by
  induction n with
  | zero => rfl
  | succ n ih =>
      rw [← Nat.add_assoc, steps, ih]
      rfl

theorem steps_of_halted {d : PipelinedCycleDatapath iw w writable} (h : d.halted = true)
    (n : Nat) : d.steps n = d := by
  induction n with
  | zero => rfl
  | succ n ih => rw [steps, ih, step_of_halted h]

/-- `run` is a number of steps: a halted pipeline stays as it is. -/
theorem run_eq_steps (d : PipelinedCycleDatapath iw w writable) (maxCycles : Nat) :
    d.run maxCycles = d.steps maxCycles := by
  induction maxCycles generalizing d with
  | zero => rfl
  | succ n ih =>
      rw [run]
      split
      · next h => rw [steps_of_halted h]
      · rw [ih, steps_succ]

/-- `load_instructions(instructions)`. -/
def loadInstructions (d : PipelinedCycleDatapath iw w writable) (instructions : List Word) :
    PipelinedCycleDatapath iw w writable :=
  { d with instructionMem := fun a => instructions.getD a 0 }

end PipelinedCycleDatapath

end CpuSim.Pipelined
