/-
  CpuSim.Assembler.Encoding

  The instruction words the assembler builds, and what the decoder makes of them.
-/

import CpuSim.Isa.Instruction

namespace CpuSim

/-- `static_cast<std::uint32_t>(op)`. -/
def Opcode.code : Opcode → BitVec 6
  | .NOP => 0x00
  | .ADD => 0x01
  | .SUB => 0x02
  | .AND => 0x03
  | .OR => 0x04
  | .XOR => 0x05
  | .NOT => 0x06
  | .LI => 0x07
  | .ADDI => 0x08
  | .LW => 0x09
  | .SW => 0x0A
  | .BEQ => 0x0B
  | .BNE => 0x0C
  | .J => 0x0D
  | .HALT => 0x0E
  | .undefined code => code

namespace Assembler

/-! ## The encoders -/

/-- A field of four bits as a word. -/
def registerBits (r : Register) : Word := BitVec.ofNat 32 r.val

/-- A word with an opcode, two register fields and eighteen low bits. -/
def fields (op : Opcode) (a b : Register) (low : Word) : Word :=
  (op.code.setWidth 32 <<< 26) ||| (registerBits a <<< 22) ||| (registerBits b <<< 18) ||| low

/-- `encode_r`. -/
def encodeR (op : Opcode) (rd rs1 rs2 : Register) : Word :=
  fields op rd rs1 (registerBits rs2 <<< 14)

/-- `encode_i`. -/
def encodeI (op : Opcode) (rd rs1 : Register) (imm : Word) : Word :=
  fields op rd rs1 (imm &&& 0x3FFFF#32)

/-- `encode_s`. -/
def encodeS (op : Opcode) (rs2 rs1 : Register) (imm : Word) : Word :=
  fields op rs2 rs1 (imm &&& 0x3FFFF#32)

/-- `encode_b`. -/
def encodeB (op : Opcode) (rs1 rs2 : Register) (imm : Word) : Word :=
  fields op rs1 rs2 (imm &&& 0x3FFFF#32)

/-- `encode_j`. -/
def encodeJ (op : Opcode) (imm : Word) : Word :=
  (op.code.setWidth 32 <<< 26) ||| (imm &&& 0x03FFFFFF#32)

/-! ## Decoding the fields -/

/-- The opcodes the assembler emits. -/
def Defined (op : Opcode) : Prop := Opcode.ofBits op.code = op

/-- The layout of the four formats with two register fields: the fields do not overlap. -/
theorem toNat_fields (op : Opcode) (a b : Register) {low : Word} (hlow : low.toNat < 2 ^ 18) :
    (fields op a b low).toNat =
      op.code.toNat * 2 ^ 26 + a.val * 2 ^ 22 + b.val * 2 ^ 18 + low.toNat := by
  have hop : op.code.toNat < 2 ^ 6 := op.code.isLt
  have ha : a.val < 2 ^ 4 := a.isLt
  have hb : b.val < 2 ^ 4 := b.isLt
  have hcode : (op.code.setWidth 32 <<< 26 : Word).toNat = 2 ^ 26 * op.code.toNat := by
    rw [BitVec.toNat_shiftLeft, BitVec.toNat_setWidth, Nat.shiftLeft_eq]
    omega
  have hfirst : (registerBits a <<< 22 : Word).toNat = 2 ^ 22 * a.val := by
    rw [BitVec.toNat_shiftLeft, registerBits, BitVec.toNat_ofNat, Nat.shiftLeft_eq]
    omega
  have hsecond : (registerBits b <<< 18 : Word).toNat = 2 ^ 18 * b.val := by
    rw [BitVec.toNat_shiftLeft, registerBits, BitVec.toNat_ofNat, Nat.shiftLeft_eq]
    omega
  rw [fields, BitVec.toNat_or, BitVec.toNat_or, BitVec.toNat_or, hcode, hfirst, hsecond]
  -- from the top down, each field lies below the ones before it
  have htop : 2 ^ 26 * op.code.toNat ||| 2 ^ 22 * a.val =
      2 ^ 22 * (2 ^ 4 * op.code.toNat + a.val) := by
    rw [← Nat.two_pow_add_eq_or_of_lt (by omega : 2 ^ 22 * a.val < 2 ^ 26)]
    omega
  have hmid : 2 ^ 22 * (2 ^ 4 * op.code.toNat + a.val) ||| 2 ^ 18 * b.val =
      2 ^ 18 * (2 ^ 8 * op.code.toNat + 2 ^ 4 * a.val + b.val) := by
    rw [← Nat.two_pow_add_eq_or_of_lt (by omega : 2 ^ 18 * b.val < 2 ^ 22)]
    omega
  rw [htop, hmid, ← Nat.two_pow_add_eq_or_of_lt hlow]
  omega

/-- What the field accessors read from such a word. -/
structure HasFields (w : Word) (op : Opcode) (a b : Register) (low : Nat) : Prop where
  opcode : (Instruction.mk w).opcode = op
  rd : (Instruction.mk w).rd = a
  rs1 : (Instruction.mk w).rs1 = b
  low : w.toNat % 2 ^ 18 = low

theorem hasFields (op : Opcode) (hop : Defined op) (a b : Register) {low : Word}
    (hlow : low.toNat < 2 ^ 18) :
    HasFields (fields op a b low) op a b low.toNat := by
  have hnat := toNat_fields op a b hlow
  have hcode : op.code.toNat < 2 ^ 6 := op.code.isLt
  have ha : a.val < 2 ^ 4 := a.isLt
  have hb : b.val < 2 ^ 4 := b.isLt
  refine ⟨?_, ?_, ?_, ?_⟩
  · rw [Instruction.opcode]
    have hbits : BitVec.extractLsb' 26 6 (fields op a b low) = op.code := by
      apply BitVec.eq_of_toNat_eq
      rw [BitVec.extractLsb'_toNat, hnat, Nat.shiftRight_eq_div_pow]
      omega
    rw [hbits]
    exact hop
  · apply Fin.ext
    show (BitVec.extractLsb' 22 4 _).toNat = a.val
    rw [BitVec.extractLsb'_toNat, hnat, Nat.shiftRight_eq_div_pow]
    omega
  · apply Fin.ext
    show (BitVec.extractLsb' 18 4 _).toNat = b.val
    rw [BitVec.extractLsb'_toNat, hnat, Nat.shiftRight_eq_div_pow]
    omega
  · rw [hnat]
    omega

/-- The immediate a word with the low bits `low` decodes to. -/
def lowImmediate (low : Nat) : Word := (BitVec.ofNat 18 low).signExtend 32

theorem HasFields.immediate {w : Word} {op : Opcode} {a b : Register} {low : Nat}
    (h : HasFields w op a b low) : (Instruction.mk w).immediate = lowImmediate low := by
  rw [Instruction.immediate, lowImmediate, ← h.low]
  congr 1
  apply BitVec.eq_of_toNat_eq
  rw [BitVec.extractLsb'_toNat, BitVec.toNat_ofNat, Nat.shiftRight_zero, Nat.mod_mod]

theorem toNat_masked (imm : Word) : (imm &&& 0x3FFFF#32).toNat = imm.toNat % 2 ^ 18 := by
  rw [BitVec.toNat_and]
  exact Nat.and_two_pow_sub_one_eq_mod imm.toNat 18

theorem masked_lt (imm : Word) : (imm &&& 0x3FFFF#32).toNat < 2 ^ 18 := by
  rw [toNat_masked]
  omega

/-! ## Decoding the words -/

open InstructionDecoder (decode formatOf)

/-- A word of the B format decodes to the branch it was built from. -/
theorem decode_encodeB {op : Opcode} (hop : Defined op) (hformat : formatOf op = .B_TYPE)
    (rs1 rs2 : Register) (imm : Word) :
    decode ⟨encodeB op rs1 rs2 imm⟩ =
      { opcode := op, format := .B_TYPE, rs1 := rs1, rs2 := rs2
        immediate := lowImmediate (imm.toNat % 2 ^ 18) } := by
  have h := hasFields op hop rs1 rs2 (masked_lt imm)
  rw [toNat_masked] at h
  unfold decode
  rw [show (Instruction.mk (encodeB op rs1 rs2 imm)).opcode = op from h.opcode]
  simp only [hformat]
  rw [show (Instruction.mk (encodeB op rs1 rs2 imm)).rd = rs1 from h.rd,
    show (Instruction.mk (encodeB op rs1 rs2 imm)).rs1 = rs2 from h.rs1,
    show (Instruction.mk (encodeB op rs1 rs2 imm)).immediate = _ from h.immediate]

/-- An immediate that fits is the one decoded. -/
theorem lowImmediate_of_fits {imm : Int} (hlow : -(2 ^ 17) ≤ imm) (hhigh : imm < 2 ^ 17) :
    lowImmediate ((BitVec.ofInt 32 (imm % 2 ^ 18)).toNat % 2 ^ 18) = BitVec.ofInt 32 imm := by
  have hnat : (BitVec.ofNat 18 ((BitVec.ofInt 32 (imm % 2 ^ 18)).toNat % 2 ^ 18)) =
      BitVec.ofInt 18 imm := by
    apply BitVec.eq_of_toNat_eq
    rw [BitVec.toNat_ofNat, BitVec.toNat_ofInt, BitVec.toNat_ofInt]
    omega
  rw [lowImmediate, hnat, BitVec.signExtend, BitVec.toInt_ofInt]
  congr 1
  rw [Int.bmod_eq_of_le] <;> omega

end Assembler

end CpuSim
