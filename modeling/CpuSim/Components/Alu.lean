/-
  CpuSim.Components.Alu

  `ALUOperation` and `ALUInterface`, the ALU the datapaths share.  The external
  `logic::ALU` is exact modulo 2^32 and raises `zero` when its result is 0.
-/

import CpuSim.Isa.Instruction

namespace CpuSim

/-- `ControlSignals.hpp`. -/
inductive ALUOperation where
  | ADD | SUB | AND | OR | XOR | NOT | PASS_A | PASS_B | NONE
  deriving DecidableEq, Repr

namespace ALUInterface

/-- `encode_operation`: a bubble drives the encoding of `ADD`. -/
def encodeOperation : ALUOperation → BitVec 3
  | .ADD => 0b000
  | .SUB => 0b001
  | .AND => 0b010
  | .OR => 0b011
  | .XOR => 0b100
  | .NOT => 0b101
  | .PASS_A => 0b110
  | .PASS_B => 0b111
  | .NONE => 0b000

/-- The result `logic::ALU` drives for an operation code. -/
def aluResult (opcode : BitVec 3) (a b : Word) : Word :=
  match opcode.toNat with
  | 0 => a + b
  | 1 => a - b
  | 2 => a &&& b
  | 3 => a ||| b
  | 4 => a ^^^ b
  | 5 => ~~~a
  | 6 => a
  | _ => b

/-- The result bus after `evaluate()`. -/
def result (operation : ALUOperation) (a b : Word) : Word :=
  aluResult (encodeOperation operation) a b

/-- The `zero` wire after `evaluate()`. -/
def zero (operation : ALUOperation) (a b : Word) : Bool := result operation a b == 0

@[simp] theorem result_add (a b : Word) : result .ADD a b = a + b := rfl

@[simp] theorem result_sub (a b : Word) : result .SUB a b = a - b := rfl

@[simp] theorem result_and (a b : Word) : result .AND a b = a &&& b := rfl

@[simp] theorem result_or (a b : Word) : result .OR a b = a ||| b := rfl

@[simp] theorem result_xor (a b : Word) : result .XOR a b = a ^^^ b := rfl

@[simp] theorem result_not (a b : Word) : result .NOT a b = ~~~a := rfl

@[simp] theorem result_passB (a b : Word) : result .PASS_B a b = b := rfl

/-- A subtraction raises `zero` exactly for equal operands. -/
@[simp] theorem zero_sub (a b : Word) : zero .SUB a b = (a == b) := by
  rw [zero, result_sub, Bool.eq_iff_iff, beq_iff_eq, beq_iff_eq]
  constructor
  · intro h
    bv_omega
  · rintro rfl
    exact BitVec.sub_self a

end ALUInterface

end CpuSim
