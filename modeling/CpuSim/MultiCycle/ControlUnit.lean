/-
  CpuSim.MultiCycle.ControlUnit

  `FSMControlUnit`: the states of the multi-cycle CPU, the control word of each and the
  transitions between them.
-/

import CpuSim.Components.Alu

namespace CpuSim.MultiCycle

/-! ## Control words -/

inductive ALUSrcA where
  | pc | RegA
  deriving DecidableEq, Repr

inductive ALUSrcB where
  | regB | constant | sign_extend | shifted
  deriving DecidableEq, Repr

inductive PCSource where
  | aluResult | aluOut | jumpTarget
  deriving DecidableEq, Repr

inductive WriteBackSource where
  | aluOut | memoryData
  deriving DecidableEq, Repr

/-- `MultiCycleControlSignals`. -/
structure ControlSignals where
  pcWrite : Bool := false
  pcWriteCond : Bool := false
  bne : Bool := false
  irWrite : Bool := false
  mdrWrite : Bool := false
  aWrite : Bool := false
  bWrite : Bool := false
  aluOutWrite : Bool := false
  regWrite : Bool := false
  memWrite : Bool := false
  memRead : Bool := false
  iorD : Bool := false
  regDst : Bool := true
  halt : Bool := false
  aluSrcA : ALUSrcA := .pc
  aluSrcB : ALUSrcB := .regB
  pcSource : PCSource := .aluResult
  writebackSource : WriteBackSource := .aluOut
  aluOperation : ALUOperation := .ADD
  deriving DecidableEq, Repr

/-! ## The state machine -/

/-- `FSMControlUnit::State`. -/
inductive State where
  | FETCH | DECODE | MEM_ADDR | MEM_READ | MEM_WB | MEM_WRITE | EXECUTE_R | ALU_WB | EXECUTE_I
  | BRANCH | JUMP | HALT
  deriving DecidableEq, Repr

/-- `FSMControlUnit`. -/
structure FSMControlUnit where
  currentState : State := .FETCH
  nextState : State := .FETCH
  deriving DecidableEq, Repr

namespace FSMControlUnit

/-- `reset()`. -/
def reset (_ : FSMControlUnit) : FSMControlUnit := {}

/-- `is_halted()`. -/
def isHalted (f : FSMControlUnit) : Bool := f.currentState == .HALT

/-- `to_alu_operation(opcode)`. -/
def toAluOperation : Opcode → ALUOperation
  | .ADD => .ADD
  | .SUB => .SUB
  | .AND => .AND
  | .OR => .OR
  | .XOR => .XOR
  | .NOT => .NOT
  | _ => .ADD

/-- `generate(instruction)`: the control word of the current state. -/
def generate (f : FSMControlUnit) (instruction : DecodedInstruction) : ControlSignals :=
  match f.currentState with
  | .FETCH =>
    { memRead := true, irWrite := true, iorD := false, aluSrcA := .pc, aluSrcB := .constant,
      aluOperation := .ADD, pcWrite := true, pcSource := .aluResult }
  | .DECODE =>
    { aWrite := true, bWrite := true, aluOutWrite := true, aluSrcA := .pc,
      aluSrcB := .sign_extend, aluOperation := .ADD }
  | .MEM_ADDR =>
    { aluSrcA := .RegA, aluSrcB := .sign_extend, aluOperation := .ADD, aluOutWrite := true }
  | .MEM_READ => { memRead := true, mdrWrite := true, iorD := true }
  | .MEM_WB => { regWrite := true, regDst := true, writebackSource := .memoryData }
  | .MEM_WRITE => { memWrite := true, iorD := true }
  | .EXECUTE_R =>
    { aluSrcA := .RegA, aluSrcB := .regB, aluOperation := toAluOperation instruction.opcode,
      aluOutWrite := true }
  | .EXECUTE_I =>
    { aluSrcA := .RegA, aluSrcB := .sign_extend,
      aluOperation := if instruction.opcode = .LI then .PASS_B else .ADD, aluOutWrite := true }
  | .ALU_WB => { regWrite := true, regDst := true, writebackSource := .aluOut }
  | .BRANCH =>
    { aluSrcA := .RegA, aluSrcB := .regB, aluOperation := .SUB, pcWriteCond := true,
      bne := decide (instruction.opcode = .BNE), pcSource := .aluOut }
  | .JUMP => { pcWrite := true, pcSource := .jumpTarget }
  | .HALT => { halt := true }

/-- The state `DECODE` moves to. -/
def decodeNext : Opcode → State
  | .ADD | .SUB | .AND | .OR | .XOR | .NOT => .EXECUTE_R
  | .LW | .SW => .MEM_ADDR
  | .LI | .ADDI => .EXECUTE_I
  | .BEQ | .BNE => .BRANCH
  | .J => .JUMP
  | .HALT => .HALT
  | .NOP | .undefined _ => .FETCH

/-- `update_next_state(instruction)`. -/
def updateNextState (f : FSMControlUnit) (instruction : DecodedInstruction) : FSMControlUnit :=
  { f with
    nextState :=
      match f.currentState with
      | .FETCH => .DECODE
      | .DECODE => decodeNext instruction.opcode
      | .MEM_ADDR => if instruction.opcode = .LW then .MEM_READ else .MEM_WRITE
      | .MEM_READ => .MEM_WB
      | .MEM_WB | .MEM_WRITE | .ALU_WB | .BRANCH | .JUMP => .FETCH
      | .EXECUTE_R | .EXECUTE_I => .ALU_WB
      | .HALT => .HALT }

/-- `clock()`. -/
def clock (f : FSMControlUnit) : FSMControlUnit := { f with currentState := f.nextState }

/-- `step(instruction)`. -/
def step (f : FSMControlUnit) (instruction : DecodedInstruction) : FSMControlUnit :=
  (f.updateNextState instruction).clock

end FSMControlUnit

end CpuSim.MultiCycle
