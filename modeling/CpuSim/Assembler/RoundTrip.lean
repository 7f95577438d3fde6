/-
  CpuSim.Assembler.RoundTrip

  Encoding and decoding are inverse to each other: a word decodes to what its encoder was
  given, and a word whose unused bits are zero is encoded again from what it decodes to.
-/

import CpuSim.Assembler.Encoding

namespace CpuSim

/-- The opcodes with a name in `Opcode.hpp`. -/
def Opcode.isDefined : Opcode → Bool
  | .undefined _ => false
  | _ => true

/-- A code is read back from its opcode. -/
theorem Opcode.code_ofBits (bits : BitVec 6) : (Opcode.ofBits bits).code = bits := by
  unfold Opcode.ofBits
  split
  -- the numbered cases; in the last one the opcode holds the code
  all_goals
    first
    | rfl
    | (apply BitVec.eq_of_toNat_eq
       symm
       assumption)

namespace Assembler

open InstructionDecoder (decode formatOf)

theorem defined_of_isDefined {op : Opcode} (h : op.isDefined = true) : Defined op := by
  cases op with
  | undefined code => cases h
  | _ => rfl

/-! ## What is encoded -/

/-- The word of an instruction, by the encoder of its format. -/
def encode (i : DecodedInstruction) : Word :=
  match formatOf i.opcode with
  | .R_TYPE => encodeR i.opcode i.rd i.rs1 i.rs2
  | .I_TYPE => encodeI i.opcode i.rd i.rs1 i.immediate
  | .S_TYPE => encodeS i.opcode i.rs2 i.rs1 i.immediate
  | .B_TYPE => encodeB i.opcode i.rs1 i.rs2 i.immediate
  | .J_TYPE => encodeJ i.opcode i.immediate

/-- The instruction with the operands that the format of its opcode has. -/
def instructionOf (op : Opcode) (rd rs1 rs2 : Register) (immediate : Word) :
    DecodedInstruction :=
  match formatOf op with
  | .R_TYPE => { opcode := op, format := .R_TYPE, rd := rd, rs1 := rs1, rs2 := rs2 }
  | .I_TYPE => { opcode := op, format := .I_TYPE, rd := rd, rs1 := rs1, immediate := immediate }
  | .S_TYPE => { opcode := op, format := .S_TYPE, rs1 := rs1, rs2 := rs2, immediate := immediate }
  | .B_TYPE => { opcode := op, format := .B_TYPE, rs1 := rs1, rs2 := rs2, immediate := immediate }
  | .J_TYPE => { opcode := op, format := .J_TYPE, immediate := immediate }

/-- A signed number of `n` bits. -/
def Fits (n : Nat) (immediate : Word) : Prop :=
  -(2 ^ (n - 1)) ≤ immediate.toInt ∧ immediate.toInt < 2 ^ (n - 1)

/-- The immediate has a place in the format. -/
def Representable : InstructionFormat → Word → Prop
  | .R_TYPE, _ => True
  | .I_TYPE, immediate | .S_TYPE, immediate | .B_TYPE, immediate => Fits 18 immediate
  | .J_TYPE, immediate => Fits 26 immediate

/-- The bits of a word that its format does not use are zero. -/
def UnusedZero (i : Instruction) : Prop :=
  match formatOf i.opcode with
  | .R_TYPE => i.raw.toNat % 2 ^ 14 = 0
  | _ => True

/-! ## Immediates -/

/-- Sign extension recovers a number from its low bits. -/
theorem signExtend_of_fits {n : Nat} (hn : 0 < n) (hle : n ≤ 32) {immediate : Word}
    (h : Fits n immediate) : (immediate.setWidth n).signExtend 32 = immediate := by
  obtain ⟨hlow, hhigh⟩ := h
  have htwo : ((2 ^ n : Nat) : Int) = 2 ^ (n - 1) * 2 := by
    rw [← Int.pow_succ, Nat.succ_eq_add_one, Nat.sub_add_cancel hn, Int.natCast_pow]
    rfl
  apply BitVec.eq_of_toInt_eq
  rw [BitVec.toInt_signExtend_of_le hle, ← BitVec.signExtend_eq_setWidth_of_le _ hle,
    BitVec.toInt_signExtend_eq_toInt_bmod_of_le _ hle]
  apply Int.bmod_eq_of_le_mul_two
  · omega
  · omega

/-- The eighteen low bits of an immediate that fits decode to it. -/
theorem lowImmediate_masked {immediate : Word} (h : Fits 18 immediate) :
    lowImmediate (immediate &&& 0x3FFFF#32).toNat = immediate := by
  have hlow : BitVec.ofNat 18 (immediate.toNat % 2 ^ 18) = immediate.setWidth 18 := by
    apply BitVec.eq_of_toNat_eq
    rw [BitVec.toNat_ofNat, BitVec.toNat_setWidth, Nat.mod_mod]
  rw [lowImmediate, toNat_masked, hlow]
  exact signExtend_of_fits (by omega) (by omega) h

/-- The mask of a jump keeps the bits below the opcode. -/
theorem getLsbD_jumpMask {i : Nat} (hi : i < 32) :
    (0x03FFFFFF#32).getLsbD i = decide (i < 26) := by
  have hall : ∀ j : Fin 32, (0x03FFFFFF#32).getLsbD j.val = decide (j.val < 26) := by decide
  exact hall ⟨i, hi⟩

/-- The immediate of a jump is the sign extension of its 26 low bits. -/
theorem jumpImmediate_eq (raw : Word) :
    InstructionDecoder.jumpImmediate raw = (raw.setWidth 26).signExtend 32 := by
  have hsign : (raw &&& 0x03FFFFFF#32) &&& 0x02000000#32 =
      if raw.getLsbD 25 then 0x02000000#32 else 0#32 := by
    rw [BitVec.and_assoc]
    exact BitVec.and_twoPow raw 25
  have hmsb : (raw.setWidth 26).msb = raw.getLsbD 25 := by
    rw [BitVec.msb_eq_getLsbD_last, BitVec.getLsbD_setWidth]
    rfl
  apply BitVec.eq_of_getLsbD_eq
  intro i hi
  rw [BitVec.getLsbD_signExtend, BitVec.getLsbD_setWidth, hmsb, InstructionDecoder.jumpImmediate,
    hsign]
  -- bit 25 is the sign
  cases hbit : raw.getLsbD 25 with
  | true =>
      rw [if_pos rfl, if_pos (by decide), BitVec.getLsbD_or, BitVec.getLsbD_and,
        BitVec.getLsbD_not, getLsbD_jumpMask hi]
      by_cases hlow : i < 26 <;> simp [hlow, hi]
  | false =>
      rw [if_neg Bool.false_ne_true, if_neg (by decide), BitVec.getLsbD_and,
        getLsbD_jumpMask hi]
      by_cases hlow : i < 26 <;> simp [hlow, hi]

/-! ## Decoding what was encoded -/

/-- The fields of a word with an immediate. -/
theorem fields_masked {op : Opcode} (hop : Defined op) (a b : Register) {immediate : Word}
    (h : Fits 18 immediate) {word : Word}
    (hword : word = fields op a b (immediate &&& 0x3FFFF#32)) :
    (Instruction.mk word).opcode = op ∧ (Instruction.mk word).rd = a ∧
      (Instruction.mk word).rs1 = b ∧ (Instruction.mk word).immediate = immediate := by
  have hfields := hasFields op hop a b (masked_lt immediate)
  rw [← hword] at hfields
  refine ⟨hfields.opcode, hfields.rd, hfields.rs1, ?_⟩
  rw [hfields.immediate, lowImmediate_masked h]

/-- The fields of a word of three registers. -/
theorem fields_encodeR {op : Opcode} (hop : Defined op) (rd rs1 rs2 : Register) {word : Word}
    (hword : word = encodeR op rd rs1 rs2) :
    (Instruction.mk word).opcode = op ∧ (Instruction.mk word).rd = rd ∧
      (Instruction.mk word).rs1 = rs1 ∧ (Instruction.mk word).rs2 = rs2 := by
  have hlow : (registerBits rs2 <<< 14 : Word).toNat = rs2.val * 2 ^ 14 := by
    have hrs2 : rs2.val < 2 ^ 4 := rs2.isLt
    rw [BitVec.toNat_shiftLeft, registerBits, BitVec.toNat_ofNat, Nat.shiftLeft_eq]
    omega
  have hlt : (registerBits rs2 <<< 14 : Word).toNat < 2 ^ 18 := by
    have hrs2 : rs2.val < 2 ^ 4 := rs2.isLt
    omega
  have hfields := hasFields op hop rd rs1 hlt
  have hnat := toNat_fields op rd rs1 hlt
  rw [hlow] at hnat
  rw [← show word = fields op rd rs1 (registerBits rs2 <<< 14) from hword] at hfields hnat
  refine ⟨hfields.opcode, hfields.rd, hfields.rs1, ?_⟩
  apply Fin.ext
  show (BitVec.extractLsb' 14 4 word).toNat = rs2.val
  have hrs2 : rs2.val < 2 ^ 4 := rs2.isLt
  rw [BitVec.extractLsb'_toNat, hnat, Nat.shiftRight_eq_div_pow]
  omega

/-- A jump is its opcode above its 26 low bits. -/
theorem toNat_encodeJ (op : Opcode) (immediate : Word) :
    (encodeJ op immediate).toNat = op.code.toNat * 2 ^ 26 + immediate.toNat % 2 ^ 26 := by
  have hop : op.code.toNat < 2 ^ 6 := op.code.isLt
  have hcode : (op.code.setWidth 32 <<< 26 : Word).toNat = 2 ^ 26 * op.code.toNat := by
    rw [BitVec.toNat_shiftLeft, BitVec.toNat_setWidth, Nat.shiftLeft_eq]
    omega
  have hlow : (immediate &&& 0x03FFFFFF#32).toNat = immediate.toNat % 2 ^ 26 := by
    rw [BitVec.toNat_and]
    exact Nat.and_two_pow_sub_one_eq_mod immediate.toNat 26
  rw [encodeJ, BitVec.toNat_or, hcode, hlow,
    ← Nat.two_pow_add_eq_or_of_lt (Nat.mod_lt _ (by omega))]
  omega

/-- The opcode of a jump is read back. -/
theorem opcode_encodeJ {op : Opcode} (hop : Defined op) (immediate : Word) :
    (Instruction.mk (encodeJ op immediate)).opcode = op := by
  have hcode : op.code.toNat < 2 ^ 6 := op.code.isLt
  rw [Instruction.opcode]
  have hbits : BitVec.extractLsb' 26 6 (encodeJ op immediate) = op.code := by
    apply BitVec.eq_of_toNat_eq
    rw [BitVec.extractLsb'_toNat, toNat_encodeJ, Nat.shiftRight_eq_div_pow]
    omega
  rw [hbits]
  exact hop

/-- So is its immediate, if it fits. -/
theorem jumpImmediate_encodeJ (op : Opcode) {immediate : Word} (h : Fits 26 immediate) :
    InstructionDecoder.jumpImmediate (encodeJ op immediate) = immediate := by
  have hlow : (encodeJ op immediate).setWidth 26 = immediate.setWidth 26 := by
    apply BitVec.eq_of_toNat_eq
    rw [BitVec.toNat_setWidth, BitVec.toNat_setWidth, toNat_encodeJ]
    omega
  rw [jumpImmediate_eq, hlow]
  exact signExtend_of_fits (by omega) (by omega) h

/-- A word decodes to what its encoder was given. -/
theorem decode_encode {op : Opcode} (hop : Defined op) (rd rs1 rs2 : Register) {immediate : Word}
    (h : Representable (formatOf op) immediate) :
    decode ⟨encode (instructionOf op rd rs1 rs2 immediate)⟩ =
      instructionOf op rd rs1 rs2 immediate := by
  have hopcode : (instructionOf op rd rs1 rs2 immediate).opcode = op := by
    unfold instructionOf
    split <;> rfl
  unfold encode
  rw [hopcode]
  unfold instructionOf decode
  cases hformat : formatOf op with
  | R_TYPE =>
      obtain ⟨h1, h2, h3, h4⟩ := fields_encodeR hop rd rs1 rs2 rfl
      simp only [h1, h2, h3, h4, hformat]
  | I_TYPE =>
      rw [hformat] at h
      obtain ⟨h1, h2, h3, h4⟩ := fields_masked hop rd rs1 h
        (rfl : encodeI op rd rs1 immediate = _)
      simp only [h1, h2, h3, h4, hformat]
  | S_TYPE =>
      rw [hformat] at h
      obtain ⟨h1, h2, h3, h4⟩ := fields_masked hop rs2 rs1 h
        (rfl : encodeS op rs2 rs1 immediate = _)
      simp only [h1, h2, h3, h4, hformat]
  | B_TYPE =>
      rw [hformat] at h
      obtain ⟨h1, h2, h3, h4⟩ := fields_masked hop rs1 rs2 h
        (rfl : encodeB op rs1 rs2 immediate = _)
      simp only [h1, h2, h3, h4, hformat]
  | J_TYPE =>
      rw [hformat] at h
      simp only [opcode_encodeJ hop, hformat, jumpImmediate_encodeJ op h]

/-! ## Encoding what was decoded -/

/-- The fields of a word make it up. -/
theorem toNat_raw (i : Instruction) :
    i.raw.toNat =
      i.opcode.code.toNat * 2 ^ 26 + i.rd.val * 2 ^ 22 + i.rs1.val * 2 ^ 18 +
        i.raw.toNat % 2 ^ 18 := by
  have hlt : i.raw.toNat < 2 ^ 32 := i.raw.isLt
  have hcode : i.opcode.code.toNat = i.raw.toNat / 2 ^ 26 % 2 ^ 6 := by
    rw [Instruction.opcode, Opcode.code_ofBits, BitVec.extractLsb'_toNat,
      Nat.shiftRight_eq_div_pow]
  have hrd : i.rd.val = i.raw.toNat / 2 ^ 22 % 2 ^ 4 := by
    show (BitVec.extractLsb' 22 4 i.raw).toNat = _
    rw [BitVec.extractLsb'_toNat, Nat.shiftRight_eq_div_pow]
  have hrs1 : i.rs1.val = i.raw.toNat / 2 ^ 18 % 2 ^ 4 := by
    show (BitVec.extractLsb' 18 4 i.raw).toNat = _
    rw [BitVec.extractLsb'_toNat, Nat.shiftRight_eq_div_pow]
  omega

/-- A word with an immediate is its opcode, its two registers and the low bits of the
    immediate. -/
theorem fields_immediate (i : Instruction) :
    fields i.opcode i.rd i.rs1 (i.immediate &&& 0x3FFFF#32) = i.raw := by
  have hlow : (i.immediate &&& 0x3FFFF#32).toNat = i.raw.toNat % 2 ^ 18 := by
    rw [toNat_masked, Instruction.immediate, BitVec.toNat_signExtend, BitVec.toNat_setWidth,
      BitVec.extractLsb'_toNat, Nat.shiftRight_zero]
    split <;> omega
  apply BitVec.eq_of_toNat_eq
  rw [toNat_fields _ _ _ (masked_lt _), hlow]
  exact (toNat_raw i).symm

/-- A word of three registers with nothing below them is the three registers. -/
theorem encodeR_fields {i : Instruction} (h : i.raw.toNat % 2 ^ 14 = 0) :
    encodeR i.opcode i.rd i.rs1 i.rs2 = i.raw := by
  have hrs2 : i.rs2.val = i.raw.toNat / 2 ^ 14 % 2 ^ 4 := by
    show (BitVec.extractLsb' 14 4 i.raw).toNat = _
    rw [BitVec.extractLsb'_toNat, Nat.shiftRight_eq_div_pow]
  have hlow : (registerBits i.rs2 <<< 14 : Word).toNat = i.raw.toNat % 2 ^ 18 := by
    rw [BitVec.toNat_shiftLeft, registerBits, BitVec.toNat_ofNat, Nat.shiftLeft_eq]
    omega
  apply BitVec.eq_of_toNat_eq
  rw [encodeR, toNat_fields _ _ _ (by omega), hlow]
  exact (toNat_raw i).symm

/-- Sign extension leaves the 26 low bits of a jump. -/
theorem jumpImmediate_low (raw : Word) :
    (InstructionDecoder.jumpImmediate raw).toNat % 2 ^ 26 = raw.toNat % 2 ^ 26 := by
  rw [jumpImmediate_eq, BitVec.toNat_signExtend, BitVec.toNat_setWidth, BitVec.toNat_setWidth]
  split <;> omega

/-- A jump is its opcode and the low bits of its immediate. -/
theorem encodeJ_jumpImmediate (i : Instruction) :
    encodeJ i.opcode (InstructionDecoder.jumpImmediate i.raw) = i.raw := by
  have hcode : i.opcode.code.toNat = i.raw.toNat / 2 ^ 26 % 2 ^ 6 := by
    rw [Instruction.opcode, Opcode.code_ofBits, BitVec.extractLsb'_toNat,
      Nat.shiftRight_eq_div_pow]
  have hlt : i.raw.toNat < 2 ^ 32 := i.raw.isLt
  apply BitVec.eq_of_toNat_eq
  rw [toNat_encodeJ, jumpImmediate_low]
  omega

/-- A word whose unused bits are zero is encoded again from what it decodes to. -/
theorem encode_decode {i : Instruction} (h : UnusedZero i) : encode (decode i) = i.raw := by
  unfold encode
  rw [InstructionDecoder.decode_opcode]
  unfold decode
  unfold UnusedZero at h
  cases hformat : formatOf i.opcode with
  | R_TYPE =>
      rw [hformat] at h
      exact encodeR_fields h
  | I_TYPE | S_TYPE | B_TYPE => exact fields_immediate i
  | J_TYPE => exact encodeJ_jumpImmediate i

/-! ## The round trip -/

/-- Encoding and decoding are inverse to each other, for every opcode with a name. -/
theorem encoding_round_trips {op : Opcode} (hop : op.isDefined = true) :
    (∀ (rd rs1 rs2 : Register) (immediate : Word), Representable (formatOf op) immediate →
        decode ⟨encode (instructionOf op rd rs1 rs2 immediate)⟩ =
          instructionOf op rd rs1 rs2 immediate) ∧
      ∀ i : Instruction, i.opcode = op → UnusedZero i → encode (decode i) = i.raw := by
  constructor
  · intro rd rs1 rs2 immediate himmediate
    exact decode_encode (defined_of_isDefined hop) rd rs1 rs2 himmediate
  · intro i _ hzero
    exact encode_decode hzero

/-- `SW r3, -4(r2)` there and back. -/
theorem encoding_round_trips_store :
    decode ⟨0x28CBFFFC⟩ = instructionOf .SW 0 2 3 (-4) ∧
      encode (decode ⟨0x28CBFFFC⟩) = 0x28CBFFFC := by
  obtain ⟨hdecode, hencode⟩ := encoding_round_trips (rfl : Opcode.SW.isDefined = true)
  have hword : encode (instructionOf .SW 0 2 3 (-4)) = 0x28CBFFFC := by decide
  constructor
  · rw [← hword]
    exact hdecode 0 2 3 (-4) ⟨by decide, by decide⟩
  · exact hencode ⟨0x28CBFFFC⟩ (by decide) trivial

end Assembler

end CpuSim
