/-
  CpuSim.SuperScalar.Decode

  `DecodeUnit`: one fetched word becomes a `DecodeBundle`.  Field extraction is
  the shared `InstructionDecoder`; the control part is `decode_control`.
-/

import CpuSim.Components.Alu

namespace CpuSim.SuperScalar

/-- `DecodeTypes.hpp`. -/
inductive OperandSource where
  | NONE | REGISTER | IMMEDIATE | PC
  deriving DecidableEq, Repr

/-- `DecodeTypes.hpp`. -/
inductive ControlFlow where
  | NONE | BRANCH | JUMP
  deriving DecidableEq, Repr

/-- Prediction carried with a branch through rename and dispatch. -/
structure PredictionInfo where
  valid : Bool := false
  predictedTaken : Bool := false
  predictedTarget : Word := 0
  deriving DecidableEq, Repr

/-- `DecodeBundle.hpp`. -/
structure DecodeBundle where
  valid : Bool := false
  pc : Word := 0
  instruction : Word := 0
  opcode : Opcode := .NOP
  format : InstructionFormat := .I_TYPE
  rd : Register := 0
  rs1 : Register := 0
  rs2 : Register := 0
  immediate : Word := 0
  aluOperation : ALUOperation := .NONE
  operandA : OperandSource := .NONE
  operandB : OperandSource := .NONE
  registerWrite : Bool := false
  memoryRead : Bool := false
  memoryWrite : Bool := false
  controlFlow : ControlFlow := .NONE
  prediction : PredictionInfo := {}
  halt : Bool := false
  deriving DecidableEq, Repr

namespace DecodeUnit

/-- The control fields shared by the five two-register ALU operations. -/
def aluControl (operation : ALUOperation) (bundle : DecodeBundle) : DecodeBundle :=
  { bundle with
    aluOperation := operation, operandA := .REGISTER, operandB := .REGISTER,
    registerWrite := true }

/-- The control fields shared by `BEQ` and `BNE`. -/
def branchControl (bundle : DecodeBundle) : DecodeBundle :=
  { bundle with
    aluOperation := .SUB, operandA := .REGISTER, operandB := .REGISTER,
    registerWrite := false, controlFlow := .BRANCH }

/-- `DecodeUnit::decode_control`.  The `switch` has no default: an undefined
    opcode leaves every control field at its initial value. -/
def decodeControl (opcode : Opcode) (bundle : DecodeBundle) : DecodeBundle :=
  match opcode with
  | .NOP => bundle
  | .ADD => aluControl .ADD bundle
  | .SUB => aluControl .SUB bundle
  | .AND => aluControl .AND bundle
  | .OR => aluControl .OR bundle
  | .XOR => aluControl .XOR bundle
  | .NOT =>
    { bundle with
      aluOperation := .NOT, operandA := .REGISTER, operandB := .NONE, registerWrite := true }
  | .LI =>
    { bundle with
      aluOperation := .ADD, operandA := .NONE, operandB := .IMMEDIATE, registerWrite := true }
  | .ADDI =>
    { bundle with
      aluOperation := .ADD, operandA := .REGISTER, operandB := .IMMEDIATE,
      registerWrite := true }
  | .LW =>
    { bundle with
      aluOperation := .ADD, operandA := .REGISTER, operandB := .IMMEDIATE,
      registerWrite := true, memoryRead := true }
  | .SW =>
    { bundle with
      aluOperation := .ADD, operandA := .REGISTER, operandB := .IMMEDIATE,
      registerWrite := false, memoryWrite := true }
  | .BEQ => branchControl bundle
  | .BNE => branchControl bundle
  | .J => { bundle with registerWrite := false, controlFlow := .JUMP }
  | .HALT => { bundle with halt := true }
  | .undefined _ => bundle

/-- `DecodeUnit::decode` of one lane; an invalid lane is a bubble. -/
def decode (pc rawInstruction : Word) (valid : Bool) : DecodeBundle :=
  let bundle : DecodeBundle := { valid := valid, pc := pc, instruction := rawInstruction }
  if !valid then bundle
  else
    let decoded := InstructionDecoder.decode ⟨rawInstruction⟩
    decodeControl decoded.opcode
      { bundle with
        opcode := decoded.opcode, format := decoded.format, rd := decoded.rd,
        rs1 := decoded.rs1, rs2 := decoded.rs2, immediate := decoded.immediate }

end DecodeUnit

/-! ## The control fields by opcode -/

/-- The bundle `DecodeUnit` makes of a word at an address. -/
abbrev decodeWord (pc instruction : Word) : DecodeBundle :=
  DecodeUnit.decode pc instruction true

/-- The opcodes `decode_control` gives a destination register. -/
def writesRegister : Opcode → Bool
  | .ADD | .SUB | .AND | .OR | .XOR | .NOT | .LI | .ADDI | .LW => true
  | _ => false

/-- The control-flow class `decode_control` gives an opcode. -/
def controlFlowOf : Opcode → ControlFlow
  | .BEQ | .BNE => .BRANCH
  | .J => .JUMP
  | _ => .NONE

/-- The operation `decode_control` gives an opcode. -/
def aluOperationOf : Opcode → ALUOperation
  | .ADD | .LI | .ADDI | .LW | .SW => .ADD
  | .SUB | .BEQ | .BNE => .SUB
  | .AND => .AND
  | .OR => .OR
  | .XOR => .XOR
  | .NOT => .NOT
  | _ => .NONE

/-- The first ALU operand `decode_control` selects for an opcode. -/
def operandAOf : Opcode → OperandSource
  | .ADD | .SUB | .AND | .OR | .XOR | .NOT | .ADDI | .LW | .SW | .BEQ | .BNE => .REGISTER
  | _ => .NONE

/-- The second ALU operand `decode_control` selects for an opcode. -/
def operandBOf : Opcode → OperandSource
  | .ADD | .SUB | .AND | .OR | .XOR | .BEQ | .BNE => .REGISTER
  | .LI | .ADDI | .LW | .SW => .IMMEDIATE
  | _ => .NONE

section DecodeWord

variable (pc w : Word)

/-- The bundle `decode` hands to `decode_control`. -/
def rawBundle (opcode : Opcode) (pc instruction : Word) : DecodeBundle :=
  { valid := true, pc := pc, instruction := instruction, opcode := opcode,
    format := (InstructionDecoder.decode ⟨instruction⟩).format,
    rd := (InstructionDecoder.decode ⟨instruction⟩).rd,
    rs1 := (InstructionDecoder.decode ⟨instruction⟩).rs1,
    rs2 := (InstructionDecoder.decode ⟨instruction⟩).rs2,
    immediate := (InstructionDecoder.decode ⟨instruction⟩).immediate }

theorem decodeWord_eq :
    decodeWord pc w =
      DecodeUnit.decodeControl (InstructionDecoder.decode ⟨w⟩).opcode
        (rawBundle (InstructionDecoder.decode ⟨w⟩).opcode pc w) := rfl

@[simp] theorem decodeWord_valid : (decodeWord pc w).valid = true := by
  rw [decodeWord_eq]
  cases (InstructionDecoder.decode ⟨w⟩).opcode <;> rfl

@[simp] theorem decode_valid (v : Bool) : (DecodeUnit.decode pc w v).valid = v := by
  cases v with
  | false => rfl
  | true => exact decodeWord_valid pc w

@[simp] theorem decodeWord_pc : (decodeWord pc w).pc = pc := by
  rw [decodeWord_eq]
  cases (InstructionDecoder.decode ⟨w⟩).opcode <;> rfl

@[simp] theorem decode_pc (v : Bool) : (DecodeUnit.decode pc w v).pc = pc := by
  cases v with
  | false => rfl
  | true => exact decodeWord_pc pc w

@[simp] theorem decodeWord_instruction : (decodeWord pc w).instruction = w := by
  rw [decodeWord_eq]
  cases (InstructionDecoder.decode ⟨w⟩).opcode <;> rfl

theorem decodeWord_opcode :
    (decodeWord pc w).opcode = (InstructionDecoder.decode ⟨w⟩).opcode := by
  rw [decodeWord_eq]
  cases (InstructionDecoder.decode ⟨w⟩).opcode <;> rfl

theorem decodeWord_rd : (decodeWord pc w).rd = (InstructionDecoder.decode ⟨w⟩).rd := by
  rw [decodeWord_eq]
  cases (InstructionDecoder.decode ⟨w⟩).opcode <;> rfl

theorem decodeWord_rs1 : (decodeWord pc w).rs1 = (InstructionDecoder.decode ⟨w⟩).rs1 := by
  rw [decodeWord_eq]
  cases (InstructionDecoder.decode ⟨w⟩).opcode <;> rfl

theorem decodeWord_rs2 : (decodeWord pc w).rs2 = (InstructionDecoder.decode ⟨w⟩).rs2 := by
  rw [decodeWord_eq]
  cases (InstructionDecoder.decode ⟨w⟩).opcode <;> rfl

theorem decodeWord_immediate :
    (decodeWord pc w).immediate = (InstructionDecoder.decode ⟨w⟩).immediate := by
  rw [decodeWord_eq]
  cases (InstructionDecoder.decode ⟨w⟩).opcode <;> rfl

theorem decodeWord_registerWrite :
    (decodeWord pc w).registerWrite = writesRegister (decodeWord pc w).opcode := by
  rw [decodeWord_eq]
  cases (InstructionDecoder.decode ⟨w⟩).opcode <;> rfl

theorem decodeWord_memoryRead :
    (decodeWord pc w).memoryRead = ((decodeWord pc w).opcode == .LW) := by
  rw [decodeWord_eq]
  cases (InstructionDecoder.decode ⟨w⟩).opcode <;> rfl

theorem decodeWord_memoryWrite :
    (decodeWord pc w).memoryWrite = ((decodeWord pc w).opcode == .SW) := by
  rw [decodeWord_eq]
  cases (InstructionDecoder.decode ⟨w⟩).opcode <;> rfl

theorem decodeWord_halt : (decodeWord pc w).halt = ((decodeWord pc w).opcode == .HALT) := by
  rw [decodeWord_eq]
  cases (InstructionDecoder.decode ⟨w⟩).opcode <;> rfl

theorem decodeWord_controlFlow :
    (decodeWord pc w).controlFlow = controlFlowOf (decodeWord pc w).opcode := by
  rw [decodeWord_eq]
  cases (InstructionDecoder.decode ⟨w⟩).opcode <;> rfl

theorem decodeWord_aluOperation :
    (decodeWord pc w).aluOperation = aluOperationOf (decodeWord pc w).opcode := by
  rw [decodeWord_eq]
  cases (InstructionDecoder.decode ⟨w⟩).opcode <;> rfl

theorem decodeWord_operandA :
    (decodeWord pc w).operandA = operandAOf (decodeWord pc w).opcode := by
  rw [decodeWord_eq]
  cases (InstructionDecoder.decode ⟨w⟩).opcode <;> rfl

theorem decodeWord_operandB :
    (decodeWord pc w).operandB = operandBOf (decodeWord pc w).opcode := by
  rw [decodeWord_eq]
  cases (InstructionDecoder.decode ⟨w⟩).opcode <;> rfl

theorem decodeWord_prediction : (decodeWord pc w).prediction = {} := by
  rw [decodeWord_eq]
  cases (InstructionDecoder.decode ⟨w⟩).opcode <;> rfl

end DecodeWord

end CpuSim.SuperScalar
