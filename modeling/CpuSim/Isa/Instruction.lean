/-
  CpuSim.Isa.Instruction

  The instruction set shared by every CPU organisation: the raw 32-bit
  `Instruction` with its bit-field accessors and the `InstructionDecoder`
  that selects a format from the opcode and routes the fields to `rd`, `rs1`,
  `rs2` and the sign-extended immediate.
-/

import Mathlib.Data.BitVec

namespace CpuSim

/-- A 32-bit machine word.  `std::int32_t` values are kept as their
    two's-complement word. -/
abbrev Word := BitVec 32

/-- The sixteen architectural registers `R0`..`R15`. -/
abbrev Register := Fin 16

instance Register.neZero : NeZero 16 := ⟨by decide⟩

/-- Opcodes of `Opcode.hpp`.  `static_cast<Opcode>` accepts all 64 values of the
    six opcode bits, so the undefined ones are kept with their code. -/
inductive Opcode where
  | NOP | ADD | SUB | AND | OR | XOR | NOT | LI | ADDI | LW | SW | BEQ | BNE | J | HALT
  | undefined (code : BitVec 6)
  deriving DecidableEq, Repr

/-- `static_cast<Opcode>(bits)`. -/
def Opcode.ofBits (bits : BitVec 6) : Opcode :=
  match bits.toNat with
  | 0x00 => .NOP
  | 0x01 => .ADD
  | 0x02 => .SUB
  | 0x03 => .AND
  | 0x04 => .OR
  | 0x05 => .XOR
  | 0x06 => .NOT
  | 0x07 => .LI
  | 0x08 => .ADDI
  | 0x09 => .LW
  | 0x0A => .SW
  | 0x0B => .BEQ
  | 0x0C => .BNE
  | 0x0D => .J
  | 0x0E => .HALT
  | _ => .undefined bits

/-- `InstructionFormat.hpp`; the first enumerator is the value-initialised one. -/
inductive InstructionFormat where
  | R_TYPE | I_TYPE | S_TYPE | B_TYPE | J_TYPE
  deriving DecidableEq, Repr

/-! ## Raw instruction fields -/

/-- A raw 32-bit instruction. -/
structure Instruction where
  raw : Word
  deriving DecidableEq, Repr

namespace Instruction

/-- Bits 31..26. -/
def opcode (i : Instruction) : Opcode :=
  Opcode.ofBits (i.raw.extractLsb' 26 6)

/-- Bits 25..22 (rd in R/I format, rs2 in S format, rs1 in B format). -/
def rd (i : Instruction) : Register :=
  ⟨(i.raw.extractLsb' 22 4).toNat, (i.raw.extractLsb' 22 4).isLt⟩

/-- Bits 21..18 (rs1 in R/I/S format, rs2 in B format). -/
def rs1 (i : Instruction) : Register :=
  ⟨(i.raw.extractLsb' 18 4).toNat, (i.raw.extractLsb' 18 4).isLt⟩

/-- Bits 17..14 (rs2 in R format). -/
def rs2 (i : Instruction) : Register :=
  ⟨(i.raw.extractLsb' 14 4).toNat, (i.raw.extractLsb' 14 4).isLt⟩

/-- Bits 17..0 with bit 17 fanned out to bits 18..31. -/
def immediate (i : Instruction) : Word :=
  (i.raw.extractLsb' 0 18).signExtend 32

end Instruction

/-! ## Decoding -/

/-- `DecodedInstruction.hpp`; the defaults are those of `DecodedInstruction{}`. -/
structure DecodedInstruction where
  opcode : Opcode := .NOP
  format : InstructionFormat := .R_TYPE
  rd : Register := 0
  rs1 : Register := 0
  rs2 : Register := 0
  immediate : Word := 0
  deriving DecidableEq, Repr

namespace InstructionDecoder

/-- First `switch` of `decode`: the format of an opcode.  No case matches an
    undefined opcode, which keeps the value-initialised `R_TYPE`. -/
def formatOf : Opcode → InstructionFormat
  | .ADD | .SUB | .AND | .OR | .XOR | .NOT => .R_TYPE
  | .LI | .ADDI | .LW | .NOP | .HALT => .I_TYPE
  | .SW => .S_TYPE
  | .BEQ | .BNE => .B_TYPE
  | .J => .J_TYPE
  | .undefined _ => .R_TYPE

/-- The 26-bit immediate of a jump: mask, then extend the sign bit by `|=`. -/
def jumpImmediate (raw : Word) : Word :=
  let immediate := raw &&& 0x03FFFFFF#32
  if immediate &&& 0x02000000#32 ≠ 0#32 then immediate ||| ~~~0x03FFFFFF#32 else immediate

/-- `InstructionDecoder::decode`. -/
def decode (i : Instruction) : DecodedInstruction :=
  let decoded : DecodedInstruction :=
    { opcode := i.opcode, format := formatOf i.opcode, rd := 0, rs1 := 0, rs2 := 0,
      immediate := 0 }
  match decoded.format with
  | .R_TYPE => { decoded with rd := i.rd, rs1 := i.rs1, rs2 := i.rs2 }
  | .I_TYPE => { decoded with rd := i.rd, rs1 := i.rs1, immediate := i.immediate }
  | .S_TYPE => { decoded with rs2 := i.rd, rs1 := i.rs1, immediate := i.immediate }
  | .B_TYPE => { decoded with rs1 := i.rd, rs2 := i.rs1, immediate := i.immediate }
  | .J_TYPE => { decoded with immediate := jumpImmediate i.raw }

/-- Decoding never changes the opcode field. -/
@[simp] theorem decode_opcode (i : Instruction) : (decode i).opcode = i.opcode := by
  simp only [decode]
  split <;> rfl

end InstructionDecoder

end CpuSim
