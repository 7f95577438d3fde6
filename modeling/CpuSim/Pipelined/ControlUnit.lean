/-
  CpuSim.Pipelined.ControlUnit

  `PipelinedControlSignals`, `PipelinedControlUnit` and the contents of the four pipeline
  registers.
-/

import CpuSim.Components.Alu

namespace CpuSim.Pipelined

/-! ## Control signals -/

/-- `PipelinedControlSignals`. -/
structure ControlSignals where
  regDst : Bool := false
  aluSrc : Bool := false
  aluOp : ALUOperation := .ADD
  branch : Bool := false
  memRead : Bool := false
  memWrite : Bool := false
  regWrite : Bool := false
  memToReg : Bool := false
  deriving DecidableEq, Repr

/-- `PipelinedControlUnit::generate(instruction)`. -/
def ControlSignals.generate (instruction : DecodedInstruction) : ControlSignals :=
  match instruction.opcode with
  | .NOP => {}
  | .ADD => { regDst := true, aluSrc := false, aluOp := .ADD, regWrite := true }
  | .SUB => { regDst := true, aluSrc := false, aluOp := .SUB, regWrite := true }
  | .AND => { regDst := true, aluSrc := false, aluOp := .AND, regWrite := true }
  | .OR => { regDst := true, aluSrc := false, aluOp := .OR, regWrite := true }
  | .XOR => { regDst := true, aluSrc := false, aluOp := .XOR, regWrite := true }
  | .NOT => { regDst := true, aluSrc := false, aluOp := .NOT, regWrite := true }
  | .LI => { regDst := true, aluSrc := true, aluOp := .PASS_B, regWrite := true }
  | .ADDI => { regDst := true, aluSrc := true, aluOp := .ADD, regWrite := true }
  | .LW =>
    { regDst := true, aluSrc := true, aluOp := .ADD, memRead := true, regWrite := true,
      memToReg := true }
  | .SW => { regDst := false, aluSrc := true, aluOp := .ADD, memWrite := true, regWrite := false }
  | .BEQ | .BNE =>
    { regDst := false, aluSrc := false, aluOp := .SUB, branch := true, regWrite := false }
  | .J => { regDst := false, aluSrc := false, branch := true, regWrite := false }
  | .HALT => { regDst := false, regWrite := false }
  | .undefined _ => {}

/-! ## Pipeline registers -/

/-- The outputs of `IF_ID`. -/
structure IF_ID where
  instruction : Word := 0
  pcplus4 : Word := 0
  deriving DecidableEq, Repr

/-- The outputs of `ID_EX`. -/
structure ID_EX where
  pcplus4 : Word := 0
  readData1 : Word := 0
  readData2 : Word := 0
  immediate : Word := 0
  rs : Register := 0
  rt : Register := 0
  rd : Register := 0
  controls : ControlSignals := {}
  deriving DecidableEq, Repr

/-- The control signals `EX_MEM` registers; `controls()` reads the others as defaults. -/
def ControlSignals.exMem (c : ControlSignals) : ControlSignals :=
  { branch := c.branch, memRead := c.memRead, memWrite := c.memWrite, regWrite := c.regWrite,
    memToReg := c.memToReg }

/-- The outputs of `EX_MEM`. -/
structure EX_MEM where
  aluResult : Word := 0
  readData2 : Word := 0
  rd : Register := 0
  controls : ControlSignals := {}
  deriving DecidableEq, Repr

/-- The control signals `MEM_WB` registers. -/
def ControlSignals.memWb (c : ControlSignals) : ControlSignals :=
  { regWrite := c.regWrite, memToReg := c.memToReg }

/-- The outputs of `MEM_WB`. -/
structure MEM_WB where
  readData : Word := 0
  aluResult : Word := 0
  rd : Register := 0
  controls : ControlSignals := {}
  deriving DecidableEq, Repr

end CpuSim.Pipelined
