/-
  CpuSim.Assembler.Operands

  What a statement says, and when `assemble_instruction` keeps to it: every operand the
  mnemonic takes is there, nothing follows the last one, and the immediate fits its field.
-/

import CpuSim.Assembler.Assembler
import CpuSim.Assembler.RoundTrip

namespace CpuSim.Assembler

open CpuSim.Lib (Text)
open InstructionDecoder (decode formatOf)

/-! ## What is written -/

/-- The operand `i` reads as `v`. -/
def ReadsAt {α : Type} (read : Text → Except String α) (args : List Text) (i : Nat) (v : α) :
    Prop :=
  ∃ arg, args[i]? = some arg ∧ read arg = .ok v

/-- No operand from `i` on: a separator at the end of a line leaves an empty text. -/
def NoMore (args : List Text) (i : Nat) : Prop := ∀ arg ∈ args.drop i, arg = []

/-- A signed number of `n` bits. -/
def InRange (n : Nat) (v : Int) : Prop := -(2 ^ (n - 1)) ≤ v ∧ v < 2 ^ (n - 1)

/-- The address the branch adder of a CPU adds the immediate to: that of the branch, or the next
    one. -/
def branchBase (architecture : Architecture) (pc : Nat) : Int :=
  match architecture with
  | .singleCycle | .superscalar => pc
  | .multiCycle | .pipelined => pc + 1

/-- An instruction with an exact immediate.  A register that is not written is `R0`. -/
structure Reading where
  opcode : Opcode
  rd : Register := 0
  rs1 : Register := 0
  rs2 : Register := 0
  immediate : Int := 0

/-- The word decodes to exactly this instruction. -/
structure Reading.Decodes (r : Reading) (word : Word) : Prop where
  opcode : (decode ⟨word⟩).opcode = r.opcode
  rd : (decode ⟨word⟩).rd = r.rd
  rs1 : (decode ⟨word⟩).rs1 = r.rs1
  rs2 : (decode ⟨word⟩).rs2 = r.rs2
  immediate : (decode ⟨word⟩).immediate.toInt = r.immediate

/-- The address of a load or a store: `imm(rs1)`, or `rs1, imm`, or `rs1` alone. -/
inductive WrittenAddress (args : List Text) : Int → Register → Prop
  | bracketed {arg offset name : Text} {imm : Int} {rs1 : Register}
      (harg : args[1]? = some arg) (hgroups : matchMemoryOperand arg = some (offset, name))
      (hwhole : arg = offset ++ '(' :: (name ++ [')'])) (himm : parseInt offset = .ok imm)
      (hrs1 : parseReg name = .ok rs1) (hend : NoMore args 2) : WrittenAddress args imm rs1
  | separate {arg : Text} {imm : Int} {rs1 : Register} (harg : args[1]? = some arg)
      (hplain : '(' ∉ arg) (hrs1 : parseReg arg = .ok rs1) (himm : ReadsAt parseInt args 2 imm)
      (hend : NoMore args 3) : WrittenAddress args imm rs1
  | base {arg : Text} {rs1 : Register} (harg : args[1]? = some arg) (hplain : '(' ∉ arg)
      (hrs1 : parseReg arg = .ok rs1) (hend : args.length ≤ 2) : WrittenAddress args 0 rs1

section Statement

variable (pc : Nat) (symbols : Symbols) (architecture : Architecture)

/-- The distance a branch target names. -/
def targetDistance (target : Text) : Except String Int :=
  match symbols.lookup target with
  | some address => .ok (address - branchBase architecture pc)
  | none => parseInt target

/-- The address a jump target names. -/
def targetAddress (target : Text) : Except String Int :=
  match symbols.lookup target with
  | some address => .ok address
  | none => parseInt target

/-- What a statement of a mnemonic says. -/
inductive Written (args : List Text) : Mnemonic → Reading → Prop
  | mv {rd rs : Register} (hrd : ReadsAt parseReg args 0 rd) (hrs : ReadsAt parseReg args 1 rs)
      (hend : NoMore args 2) : Written args .mv { opcode := .ADD, rd := rd, rs1 := rs }
  | branchZero {m : Mnemonic} {rs : Register} {imm : Int} (hm : m = .beqz ∨ m = .bnez)
      (hrs : ReadsAt parseReg args 0 rs)
      (himm : ReadsAt (targetDistance pc symbols architecture) args 1 imm)
      (hend : NoMore args 2) :
      Written args m { opcode := m.opcode, rs1 := rs, immediate := imm }
  | b {imm : Int} (himm : ReadsAt (targetDistance pc symbols architecture) args 0 imm)
      (hend : NoMore args 1) : Written args .b { opcode := .BEQ, immediate := imm }
  | bare {m : Mnemonic} (hm : m = .nop ∨ m = .halt) (hend : NoMore args 0) :
      Written args m { opcode := m.opcode }
  | registers {m : Mnemonic} {rd rs1 rs2 : Register}
      (hm : m = .add ∨ m = .sub ∨ m = .and ∨ m = .or ∨ m = .xor)
      (hrd : ReadsAt parseReg args 0 rd) (hrs1 : ReadsAt parseReg args 1 rs1)
      (hrs2 : ReadsAt parseReg args 2 rs2) (hend : NoMore args 3) :
      Written args m { opcode := m.opcode, rd := rd, rs1 := rs1, rs2 := rs2 }
  | not {rd rs1 : Register} (hrd : ReadsAt parseReg args 0 rd)
      (hrs1 : ReadsAt parseReg args 1 rs1) (hend : NoMore args 2) :
      Written args .not { opcode := .NOT, rd := rd, rs1 := rs1 }
  | addi {rd rs1 : Register} {imm : Int} (hrd : ReadsAt parseReg args 0 rd)
      (hrs1 : ReadsAt parseReg args 1 rs1) (himm : ReadsAt parseInt args 2 imm)
      (hend : NoMore args 3) :
      Written args .addi { opcode := .ADDI, rd := rd, rs1 := rs1, immediate := imm }
  | li {rd : Register} {imm : Int} (hrd : ReadsAt parseReg args 0 rd)
      (himm : ReadsAt parseInt args 1 imm) (hend : NoMore args 2) :
      Written args .li { opcode := .LI, rd := rd, immediate := imm }
  | lw {rd rs1 : Register} {imm : Int} (hrd : ReadsAt parseReg args 0 rd)
      (haddress : WrittenAddress args imm rs1) :
      Written args .lw { opcode := .LW, rd := rd, rs1 := rs1, immediate := imm }
  | sw {rs1 rs2 : Register} {imm : Int} (hrs2 : ReadsAt parseReg args 0 rs2)
      (haddress : WrittenAddress args imm rs1) :
      Written args .sw { opcode := .SW, rs1 := rs1, rs2 := rs2, immediate := imm }
  | branch {m : Mnemonic} {rs1 rs2 : Register} {imm : Int} (hm : m = .beq ∨ m = .bne)
      (hrs1 : ReadsAt parseReg args 0 rs1) (hrs2 : ReadsAt parseReg args 1 rs2)
      (himm : ReadsAt (targetDistance pc symbols architecture) args 2 imm)
      (hend : NoMore args 3) :
      Written args m { opcode := m.opcode, rs1 := rs1, rs2 := rs2, immediate := imm }
  | j {imm : Int} (himm : ReadsAt (targetAddress symbols) args 0 imm) (hend : NoMore args 1) :
      Written args .j { opcode := .J, immediate := imm }

/-! ## The property -/

/-- The message of the `IndexError` of `args[i]`; every other error is a `ValueError`. -/
def indexError : String := "list index out of range"

/-- The word says what the statement says. -/
def SaysWritten (mnemonic : Mnemonic) (args : List Text) (word : Word) : Prop :=
  ∃ r : Reading, Written pc symbols architecture args mnemonic r ∧ r.Decodes word

/-- `assemble_instruction` rejects the line with a `ValueError`, or returns a word that says what
    the line says; nothing is returned for an empty line only. -/
def OperandsExact (line : Text) : Prop :=
  match assembleInstruction line pc symbols architecture with
  | .error e => e ≠ indexError
  | .ok none => stripComments line = []
  | .ok (some word) =>
    ∃ mnemonic, Mnemonic.ofText (statementOp (stripComments line)) = some mnemonic ∧
      SaysWritten pc symbols architecture mnemonic (statementArgs (stripComments line)) word

/-! ## The condition -/

/-- What an operand is read as. -/
inductive OperandKind where
  | register | integer | distance | address
  deriving DecidableEq, Repr

/-- Read from operand `i` on, every operand is there until one is no register or no number; if
    all can be read, their numbers fit and nothing follows. -/
def Accepts (args : List Text) : List OperandKind → Nat → Prop
  | [], i => NoMore args i
  | .register :: kinds, i =>
    ∃ arg, args[i]? = some arg ∧ ∀ r, parseReg arg = .ok r → Accepts args kinds (i + 1)
  | .integer :: kinds, i =>
    ∃ arg, args[i]? = some arg ∧
      ∀ v, parseInt arg = .ok v → InRange 18 v ∧ Accepts args kinds (i + 1)
  | .distance :: kinds, i =>
    ∃ arg, args[i]? = some arg ∧
      ∀ v, targetDistance pc symbols architecture arg = .ok v →
        InRange 18 v ∧ Accepts args kinds (i + 1)
  | .address :: kinds, i =>
    ∃ arg, args[i]? = some arg ∧
      ∀ v, targetAddress symbols arg = .ok v → InRange 26 v ∧ Accepts args kinds (i + 1)

/-- The same of the operands of a load or a store behind the first. -/
def AcceptsMemory (args : List Text) : Prop :=
  ∃ arg, args[1]? = some arg ∧
    if '(' ∈ arg then
      ∀ offset name, matchMemoryOperand arg = some (offset, name) →
        ∀ imm rs1, parseInt offset = .ok imm → parseReg name = .ok rs1 →
          InRange 18 imm ∧ arg = offset ++ '(' :: (name ++ [')']) ∧ NoMore args 2
    else
      ∀ rs1, parseReg arg = .ok rs1 →
        args.length ≤ 2 ∨ Accepts pc symbols architecture args [.integer] 2

/-- The operands of a mnemonic are taken as they are written, or it rejects them.  Four mnemonics
    count their operands first. -/
def OperandsSafe (args : List Text) : Mnemonic → Prop
  | .mv => args.length = 2 → Accepts pc symbols architecture args [.register, .register] 0
  | .beqz | .bnez =>
    args.length = 2 → Accepts pc symbols architecture args [.register, .distance] 0
  | .b => args.length = 1 → Accepts pc symbols architecture args [.distance] 0
  | .nop | .halt => Accepts pc symbols architecture args [] 0
  | .add | .sub | .and | .or | .xor =>
    Accepts pc symbols architecture args [.register, .register, .register] 0
  | .not => Accepts pc symbols architecture args [.register, .register] 0
  | .addi => Accepts pc symbols architecture args [.register, .register, .integer] 0
  | .li => Accepts pc symbols architecture args [.register, .integer] 0
  | .lw | .sw =>
    ∃ arg, args[0]? = some arg ∧
      ∀ r, parseReg arg = .ok r → AcceptsMemory pc symbols architecture args
  | .beq | .bne => Accepts pc symbols architecture args [.register, .register, .distance] 0
  | .j => Accepts pc symbols architecture args [.address] 0

end Statement

/-! ## Errors -/

/-- Only a missing operand raises an `IndexError`. -/
theorem append_ne_indexError {start : String} (rest : String)
    (h : start.toList.head?.any (· ≠ 'l') = true) : start ++ rest ≠ indexError := by
  intro heq
  have hlist : start.toList ++ rest.toList = indexError.toList := by
    rw [← heq, String.toList_append]
  -- the texts differ in their first character
  cases hstart : start.toList with
  | nil =>
      rw [hstart] at h
      cases h
  | cons c cs =>
      rw [hstart] at h hlist
      have hc : c = 'l' := (List.cons.inj hlist).1
      rw [hc] at h
      cases h

/-- `read` raises nothing but a `ValueError`. -/
def RaisesValueError {α : Type} (read : Text → Except String α) : Prop :=
  ∀ arg e, read arg = .error e → e ≠ indexError

theorem parseReg_raises : RaisesValueError parseReg := by
  intro arg e h
  unfold parseReg at h
  have hunknown : ∀ token : Text, "Unknown register name: '" ++ String.ofList token ++
      "'. Valid registers: r0-r15 / x0-x15 / zero" ≠ indexError := by
    intro token
    rw [String.append_assoc]
    exact append_ne_indexError _ (by decide)
  dsimp only at h
  split at h
  · cases h
  · split at h
    · split at h
      · cases h
      · cases h
        exact hunknown _
    · cases h
      exact hunknown _

theorem parseInt_raises : RaisesValueError parseInt := by
  intro arg e h
  have hinvalid : ∀ (base : Nat) (token : Text) (value : Option Int),
      value.elim (.error (invalidLiteral base token)) Except.ok = Except.error e →
        e ≠ indexError := by
    intro base token value hvalue
    cases value with
    | some v => cases hvalue
    | none =>
        cases hvalue
        unfold invalidLiteral
        rw [String.append_assoc, String.append_assoc, String.append_assoc]
        exact append_ne_indexError _ (by decide)
  unfold parseInt at h
  dsimp only at h
  split at h
  · exact hinvalid _ _ _ h
  · split at h
    · exact hinvalid _ _ _ h
    · exact hinvalid _ _ _ h

section Reads

variable {pc : Nat} {symbols : Symbols} {architecture : Architecture}

theorem calcBranchOffset_eq :
    (fun target => calcBranchOffset target pc symbols architecture) =
      targetDistance pc symbols architecture := by
  funext target
  unfold calcBranchOffset targetDistance
  cases symbols.lookup target with
  | none => rfl
  | some address => cases architecture <;> rfl

theorem targetDistance_raises : RaisesValueError (targetDistance pc symbols architecture) := by
  intro target e h
  unfold targetDistance at h
  split at h
  · cases h
  · exact parseInt_raises target e h

theorem targetAddress_raises : RaisesValueError (targetAddress symbols) := by
  intro target e h
  unfold targetAddress at h
  split at h
  · cases h
  · exact parseInt_raises target e h

end Reads

/-! ## Settled results -/

/-- A result is a `ValueError`, or a value with the property. -/
def Settles {α : Type} (result : Except String α) (Right : α → Prop) : Prop :=
  match result with
  | .error e => e ≠ indexError
  | .ok v => Right v

section Settles

variable {α β : Type} {Right : β → Prop}

/-- A result of another result: only its value matters, if it cannot be missing. -/
theorem settles_bind {result : Except String α} (hresult : ∀ e, result = .error e → e ≠ indexError)
    {next : α → Except String β} :
    Settles (result >>= next) Right ↔ ∀ v, result = .ok v → Settles (next v) Right := by
  cases result with
  | error e =>
      constructor
      · intro _ v hv
        cases hv
      · intro _
        -- an error in front is the result
        exact hresult e rfl
  | ok v =>
      constructor
      · intro h v' hv'
        cases hv'
        exact h
      · intro h
        exact h v rfl

/-- An operand that is taken is there. -/
theorem settles_arg {args : List Text} {i : Nat} {next : Text → Except String β} :
    Settles (operand args i >>= next) Right ↔
      ∃ arg, args[i]? = some arg ∧ Settles (next arg) Right := by
  unfold operand
  cases harg : args[i]? with
  | none =>
      constructor
      · intro h
        exact absurd rfl h
      · rintro ⟨arg, hsome, -⟩
        cases hsome
  | some arg =>
      constructor
      · intro h
        exact ⟨arg, rfl, h⟩
      · rintro ⟨arg', hsome, h⟩
        cases hsome
        exact h

/-- A number of operands that is checked first. -/
theorem settles_count {args : List Text} {n : Nat} {start rest : String}
    (hstart : start.toList.head?.any (· ≠ 'l') = true) {next : Except String β} :
    Settles (do if args.length ≠ n then throw (start ++ rest)
                next) Right ↔
      (args.length = n → Settles next Right) := by
  by_cases hlength : args.length = n
  · rw [if_neg (not_not.mpr hlength)]
    constructor
    · intro h _
      exact h
    · intro h
      exact h hlength
  · rw [if_pos hlength]
    constructor
    · intro _ h
      exact absurd h hlength
    · intro _
      exact append_ne_indexError rest hstart

end Settles

/-! ## Immediates -/

/-- A number of `n` bits is its own residue around zero. -/
theorem bmod_eq_iff {n : Nat} (hn : 0 < n) {v : Int} : v.bmod (2 ^ n) = v ↔ InRange n v := by
  have htwo : (2 ^ n : Nat) = 2 ^ (n - 1) * 2 := by
    rw [← Nat.pow_succ, Nat.succ_eq_add_one, Nat.sub_add_cancel hn]
  have hcast : ((2 ^ (n - 1) : Nat) : Int) = 2 ^ (n - 1) := by
    rw [Int.natCast_pow]
    rfl
  have hpos : 0 < 2 ^ n := Nat.two_pow_pos n
  unfold InRange
  rw [← hcast]
  constructor
  · intro h
    have hlow : -(((2 ^ n : Nat) : Int) / 2) ≤ v.bmod (2 ^ n) := Int.le_bmod hpos
    have hhigh : v.bmod (2 ^ n) < (((2 ^ n : Nat) : Int) + 1) / 2 := Int.bmod_lt hpos
    rw [h] at hlow hhigh
    omega
  · rintro ⟨hlow, hhigh⟩
    exact Int.bmod_eq_of_le_mul_two (by omega) (by omega)

theorem inRange_bmod {n : Nat} (hn : 0 < n) (v : Int) : InRange n (v.bmod (2 ^ n)) :=
  (bmod_eq_iff hn).mp Int.bmod_bmod

theorem InRange.mono {n m : Nat} {v : Int} (h : InRange n v) (hle : n ≤ m) : InRange m v := by
  have hpow : (2 : Int) ^ (n - 1) ≤ 2 ^ (m - 1) := by
    have hnat : 2 ^ (n - 1) ≤ 2 ^ (m - 1) := Nat.pow_le_pow_right (by omega) (by omega)
    exact_mod_cast hnat
  obtain ⟨hlow, hhigh⟩ := h
  unfold InRange
  omega

/-- A residue of at most 32 bits is a word. -/
theorem toInt_bmod {n : Nat} (hn : 0 < n) (hle : n ≤ 32) (v : Int) :
    (BitVec.ofInt 32 (v.bmod (2 ^ n))).toInt = v.bmod (2 ^ n) := by
  rw [BitVec.toInt_ofInt]
  exact (bmod_eq_iff (by omega)).mpr ((inRange_bmod hn v).mono hle)

theorem fits_bmod {n : Nat} (hn : 0 < n) (hle : n ≤ 32) (v : Int) :
    Fits n (BitVec.ofInt 32 (v.bmod (2 ^ n))) := by
  unfold Fits
  rw [toInt_bmod hn hle]
  exact inRange_bmod hn v

/-- The encoders look at the eighteen low bits of an immediate. -/
theorem maskImmediate_low (imm : Int) :
    maskImmediate imm &&& 0x3FFFF#32 =
      BitVec.ofInt 32 (imm.bmod (2 ^ 18)) &&& 0x3FFFF#32 := by
  apply BitVec.eq_of_toNat_eq
  rw [toNat_masked, toNat_masked, maskImmediate, BitVec.toNat_ofInt, BitVec.toNat_ofInt,
    Int.bmod_def]
  split <;> omega

/-- A masked immediate decodes to its residue. -/
theorem decode_masked {op : Opcode} (hop : Defined op) (hformat : formatOf op ≠ .J_TYPE)
    (rd rs1 rs2 : Register) (imm : Int) :
    decode ⟨encode (instructionOf op rd rs1 rs2 (maskImmediate imm))⟩ =
      instructionOf op rd rs1 rs2 (BitVec.ofInt 32 (imm.bmod (2 ^ 18))) := by
  have hfits : Fits 18 (BitVec.ofInt 32 (imm.bmod (2 ^ 18))) :=
    fits_bmod (by omega) (by omega) imm
  -- the encoders see the same bits of the residue, and the residue fits
  have hword : encode (instructionOf op rd rs1 rs2 (maskImmediate imm)) =
      encode (instructionOf op rd rs1 rs2 (BitVec.ofInt 32 (imm.bmod (2 ^ 18)))) := by
    unfold instructionOf
    cases hf : formatOf op with
    | R_TYPE => rfl
    | J_TYPE => exact absurd hf hformat
    | I_TYPE | S_TYPE | B_TYPE =>
        simp only [encode, hf, encodeI, encodeS, encodeB, maskImmediate_low]
  rw [hword]
  apply decode_encode hop
  cases hf : formatOf op with
  | R_TYPE => trivial
  | J_TYPE => exact absurd hf hformat
  | I_TYPE | S_TYPE | B_TYPE => exact hfits

/-- The same of the 26 low bits of a jump. -/
theorem decode_maskedJump (imm : Int) :
    decode ⟨encodeJ .J (BitVec.ofInt 32 (imm % 2 ^ 26))⟩ =
      instructionOf .J 0 0 0 (BitVec.ofInt 32 (imm.bmod (2 ^ 26))) := by
  have hword : encodeJ .J (BitVec.ofInt 32 (imm % 2 ^ 26)) =
      encodeJ .J (BitVec.ofInt 32 (imm.bmod (2 ^ 26))) := by
    apply BitVec.eq_of_toNat_eq
    rw [toNat_encodeJ, toNat_encodeJ, BitVec.toNat_ofInt, BitVec.toNat_ofInt, Int.bmod_def]
    split <;> omega
  rw [hword]
  have hfits : Representable (formatOf .J) (BitVec.ofInt 32 (imm.bmod (2 ^ 26))) :=
    fits_bmod (by omega) (by omega) imm
  have hdefined : Defined .J := rfl
  exact decode_encode hdefined 0 0 0 hfits

/-- A word with a masked immediate says what is written exactly if the immediate fits. -/
theorem decodes_masked_iff {r : Reading} (hop : Defined r.opcode) {word : Word}
    (hword : word = encode (instructionOf r.opcode r.rd r.rs1 r.rs2 (maskImmediate r.immediate)))
    (hformat : formatOf r.opcode = .I_TYPE ∧ r.rs2 = 0 ∨ formatOf r.opcode = .S_TYPE ∧ r.rd = 0 ∨
      formatOf r.opcode = .B_TYPE ∧ r.rd = 0) :
    r.Decodes word ↔ InRange 18 r.immediate := by
  have hdecode : decode ⟨word⟩ =
      instructionOf r.opcode r.rd r.rs1 r.rs2
        (BitVec.ofInt 32 (r.immediate.bmod (2 ^ 18))) := by
    rw [hword]
    apply decode_masked hop
    intro hj
    rw [hj] at hformat
    simp at hformat
  have hint : (BitVec.ofInt 32 (r.immediate.bmod (2 ^ 18))).toInt = r.immediate.bmod (2 ^ 18) :=
    toInt_bmod (by omega) (by omega) r.immediate
  rw [← bmod_eq_iff (by omega), ← hint]
  unfold instructionOf at hdecode
  constructor
  · intro h
    have himm := h.immediate
    rw [hdecode] at himm
    rcases hformat with ⟨hf, -⟩ | ⟨hf, -⟩ | ⟨hf, -⟩
    all_goals
      simp only [hf] at himm
      exact himm
  · intro himm
    -- the register the format does not have is not written
    rcases hformat with ⟨hf, h0⟩ | ⟨hf, h0⟩ | ⟨hf, h0⟩
    all_goals
      simp only [hf] at hdecode
      constructor <;> rw [hdecode]
    · exact h0.symm
    · exact himm
    · exact h0.symm
    · exact himm
    · exact h0.symm
    · exact himm

/-- A branch says what is written exactly if its distance fits. -/
theorem decodes_branch_iff {op : Opcode} (hop : Defined op) (hformat : formatOf op = .B_TYPE)
    (rs1 rs2 : Register) (imm : Int) :
    Reading.Decodes { opcode := op, rs1 := rs1, rs2 := rs2, immediate := imm }
        (encodeB op rs1 rs2 (maskImmediate imm)) ↔ InRange 18 imm := by
  apply decodes_masked_iff (r := { opcode := op, rs1 := rs1, rs2 := rs2, immediate := imm }) hop
  · unfold instructionOf
    rw [hformat]
    unfold encode
    rw [hformat]
  · exact Or.inr (Or.inr ⟨hformat, rfl⟩)

/-- A word of three registers says what is written. -/
theorem decodes_registers {r : Reading} (hop : Defined r.opcode)
    (hformat : formatOf r.opcode = .R_TYPE) (himm : r.immediate = 0) :
    r.Decodes (encodeR r.opcode r.rd r.rs1 r.rs2) := by
  have hdecode : decode ⟨encodeR r.opcode r.rd r.rs1 r.rs2⟩ =
      { opcode := r.opcode, format := .R_TYPE, rd := r.rd, rs1 := r.rs1, rs2 := r.rs2 } := by
    obtain ⟨h1, h2, h3, h4⟩ := fields_encodeR hop r.rd r.rs1 r.rs2 rfl
    unfold decode
    simp only [h1, h2, h3, h4, hformat]
  constructor <;> rw [hdecode]
  · rw [himm]
    rfl

/-- A jump says what is written exactly if the address fits. -/
theorem decodes_jump_iff (imm : Int) :
    Reading.Decodes { opcode := .J, immediate := imm }
        (encodeJ .J (BitVec.ofInt 32 (imm % 2 ^ 26))) ↔ InRange 26 imm := by
  have hint : (BitVec.ofInt 32 (imm.bmod (2 ^ 26))).toInt = imm.bmod (2 ^ 26) :=
    toInt_bmod (by omega) (by omega) imm
  have hdecode := decode_maskedJump imm
  rw [← bmod_eq_iff (by omega), ← hint]
  constructor
  · intro h
    have himm := h.immediate
    rw [hdecode] at himm
    exact himm
  · intro himm
    constructor <;> rw [hdecode]
    · rfl
    · rfl
    · rfl
    · rfl
    · exact himm

/-! ## The mnemonics -/

theorem ReadsAt.unique {α : Type} {read : Text → Except String α} {args : List Text} {i : Nat}
    {v v' : α} (h : ReadsAt read args i v) (h' : ReadsAt read args i v') : v = v' := by
  obtain ⟨arg, harg, hv⟩ := h
  obtain ⟨arg', harg', hv'⟩ := h'
  rw [harg] at harg'
  cases harg'
  rw [hv] at hv'
  cases hv'
  rfl

/-- Reading an operand in front of an assembly whose condition is known. -/
theorem settles_read {α β : Type} {Right : β → Prop} {read : Text → Except String α}
    (hread : RaisesValueError read) {args : List Text} {i : Nat} {next : α → Except String β}
    {Condition : α → Prop}
    (h : ∀ v, ReadsAt read args i v → (Settles (next v) Right ↔ Condition v)) :
    Settles (operand args i >>= read >>= next) Right ↔
      ∃ arg, args[i]? = some arg ∧ ∀ v, read arg = .ok v → Condition v := by
  rw [bind_assoc, settles_arg]
  apply exists_congr
  intro arg
  apply and_congr_right
  intro harg
  rw [settles_bind (hread arg)]
  apply forall_congr'
  intro v
  apply forall_congr'
  intro hv
  exact h v ⟨arg, harg, hv⟩

section Mnemonics

variable {pc : Nat} {symbols : Symbols} {architecture : Architecture} {args : List Text}

/-- A statement that says one thing at most: its word keeps to it if the immediate fits and the
    rest of the statement is as it should be. -/
theorem saysWritten_iff {mnemonic : Mnemonic} {word : Word} {r : Reading} {Fits Rest : Prop}
    (hunique : ∀ r', Written pc symbols architecture args mnemonic r' → r' = r ∧ Rest)
    (hwritten : Rest → Written pc symbols architecture args mnemonic r)
    (hdecodes : r.Decodes word ↔ Fits) :
    SaysWritten pc symbols architecture mnemonic args word ↔ Fits ∧ Rest := by
  constructor
  · rintro ⟨r', hr', hword⟩
    -- what the word says is what this statement says
    obtain ⟨rfl, hrest⟩ := hunique r' hr'
    exact ⟨hdecodes.mp hword, hrest⟩
  · rintro ⟨hfits, hrest⟩
    exact ⟨r, hwritten hrest, hdecodes.mpr hfits⟩

theorem settles_registers {m : Mnemonic}
    (hm : m = .add ∨ m = .sub ∨ m = .and ∨ m = .or ∨ m = .xor) :
    Settles (assembleRegisters m.opcode args) (SaysWritten pc symbols architecture m args) ↔
      Accepts pc symbols architecture args [.register, .register, .register] 0 := by
  apply settles_read parseReg_raises
  intro rd hrd
  apply settles_read parseReg_raises
  intro rs1 hrs1
  apply settles_read parseReg_raises
  intro rs2 hrs2
  constructor
  · rintro ⟨r, hwritten, -⟩
    rcases hm with rfl | rfl | rfl | rfl | rfl
    all_goals
      cases hwritten with
      | registers _ _ _ _ hend => exact hend
      | _ => simp_all
  · intro hend
    refine ⟨_, .registers hm hrd hrs1 hrs2 hend, ?_⟩
    rcases hm with rfl | rfl | rfl | rfl | rfl
    all_goals exact decodes_registers rfl rfl rfl

theorem settles_addi :
    Settles (assembleAddi args) (SaysWritten pc symbols architecture .addi args) ↔
      Accepts pc symbols architecture args [.register, .register, .integer] 0 := by
  apply settles_read parseReg_raises
  intro rd hrd
  apply settles_read parseReg_raises
  intro rs1 hrs1
  apply settles_read parseInt_raises
  intro imm himm
  refine saysWritten_iff ?_ (.addi hrd hrs1 himm)
    (decodes_masked_iff (defined_of_isDefined rfl) rfl (Or.inl ⟨rfl, rfl⟩))
  intro r hwritten
  cases hwritten with
  | addi hrd' hrs1' himm' hend =>
      rw [hrd'.unique hrd, hrs1'.unique hrs1, himm'.unique himm]
      exact ⟨rfl, hend⟩
  | _ => simp_all

theorem settles_li :
    Settles (assembleLi args) (SaysWritten pc symbols architecture .li args) ↔
      Accepts pc symbols architecture args [.register, .integer] 0 := by
  apply settles_read parseReg_raises
  intro rd hrd
  apply settles_read parseInt_raises
  intro imm himm
  refine saysWritten_iff ?_ (.li hrd himm)
    (decodes_masked_iff (defined_of_isDefined rfl) rfl (Or.inl ⟨rfl, rfl⟩))
  intro r hwritten
  cases hwritten with
  | li hrd' himm' hend =>
      rw [hrd'.unique hrd, himm'.unique himm]
      exact ⟨rfl, hend⟩
  | _ => simp_all

theorem settles_not :
    Settles (assembleNot args) (SaysWritten pc symbols architecture .not args) ↔
      Accepts pc symbols architecture args [.register, .register] 0 := by
  apply settles_read parseReg_raises
  intro rd hrd
  apply settles_read parseReg_raises
  intro rs1 hrs1
  constructor
  · rintro ⟨r, hwritten, -⟩
    cases hwritten with
    | not _ _ hend => exact hend
    | _ => simp_all
  · intro hend
    exact ⟨_, .not hrd hrs1 hend, decodes_registers (defined_of_isDefined rfl) rfl rfl⟩

theorem settles_mv {line : Text} :
    Settles (assembleMv args line) (SaysWritten pc symbols architecture .mv args) ↔
      (args.length = 2 → Accepts pc symbols architecture args [.register, .register] 0) := by
  unfold assembleMv operandCount
  simp only [String.append_assoc]
  rw [settles_count (by decide)]
  apply forall_congr'
  intro _
  apply settles_read parseReg_raises
  intro rd hrd
  apply settles_read parseReg_raises
  intro rs hrs
  constructor
  · rintro ⟨r, hwritten, -⟩
    cases hwritten with
    | mv _ _ hend => exact hend
    | _ => simp_all
  · intro hend
    exact ⟨_, .mv hrd hrs hend, decodes_registers (defined_of_isDefined rfl) rfl rfl⟩

/-- A distance in front of an assembly. -/
theorem settles_distance {β : Type} {Right : β → Prop} {i : Nat} {next : Int → Except String β}
    {Condition : Int → Prop}
    (h : ∀ v, ReadsAt (targetDistance pc symbols architecture) args i v →
      (Settles (next v) Right ↔ Condition v)) :
    Settles (operand args i >>= fun target =>
        calcBranchOffset target pc symbols architecture >>= next) Right ↔
      ∃ arg, args[i]? = some arg ∧
        ∀ v, targetDistance pc symbols architecture arg = .ok v → Condition v := by
  rw [← settles_read targetDistance_raises h, ← calcBranchOffset_eq, bind_assoc]

theorem settles_branch {m : Mnemonic} (hm : m = .beq ∨ m = .bne) :
    Settles (assembleBranch m.opcode args pc symbols architecture)
        (SaysWritten pc symbols architecture m args) ↔
      Accepts pc symbols architecture args [.register, .register, .distance] 0 := by
  apply settles_read parseReg_raises
  intro rs1 hrs1
  apply settles_read parseReg_raises
  intro rs2 hrs2
  apply settles_distance
  intro imm himm
  have hbranch : Defined m.opcode ∧ formatOf m.opcode = .B_TYPE := by
    rcases hm with rfl | rfl <;> exact ⟨rfl, rfl⟩
  refine saysWritten_iff ?_ (.branch hm hrs1 hrs2 himm)
    (decodes_branch_iff hbranch.1 hbranch.2 rs1 rs2 imm)
  intro r hwritten
  cases hwritten with
  | branch _ hrs1' hrs2' himm' hend =>
      rw [hrs1'.unique hrs1, hrs2'.unique hrs2, himm'.unique himm]
      exact ⟨rfl, hend⟩
  | _ => rcases hm with hm | hm <;> simp_all

theorem settles_branchZero {m : Mnemonic} (hm : m = .beqz ∨ m = .bnez) {line : Text}
    {expected : String} (hexpected : expected.toList.head?.any (· ≠ 'l') = true) :
    Settles (assembleBranchZero m.opcode expected args line pc symbols architecture)
        (SaysWritten pc symbols architecture m args) ↔
      (args.length = 2 → Accepts pc symbols architecture args [.register, .distance] 0) := by
  unfold assembleBranchZero operandCount
  simp only [String.append_assoc]
  rw [settles_count hexpected]
  apply forall_congr'
  intro _
  apply settles_read parseReg_raises
  intro rs hrs
  apply settles_distance
  intro imm himm
  have hbranch : Defined m.opcode ∧ formatOf m.opcode = .B_TYPE := by
    rcases hm with rfl | rfl <;> exact ⟨rfl, rfl⟩
  refine saysWritten_iff ?_ (.branchZero hm hrs himm)
    (decodes_branch_iff hbranch.1 hbranch.2 rs 0 imm)
  intro r hwritten
  cases hwritten with
  | branchZero _ hrs' himm' hend =>
      rw [hrs'.unique hrs, himm'.unique himm]
      exact ⟨rfl, hend⟩
  | _ => rcases hm with hm | hm <;> simp_all

theorem settles_b {line : Text} :
    Settles (assembleB args line pc symbols architecture)
        (SaysWritten pc symbols architecture .b args) ↔
      (args.length = 1 → Accepts pc symbols architecture args [.distance] 0) := by
  unfold assembleB operandCount
  simp only [String.append_assoc]
  rw [settles_count (by decide)]
  apply forall_congr'
  intro _
  apply settles_distance
  intro imm himm
  refine saysWritten_iff ?_ (.b himm)
    (decodes_branch_iff (defined_of_isDefined rfl) rfl 0 0 imm)
  intro r hwritten
  cases hwritten with
  | b himm' hend =>
      rw [himm'.unique himm]
      exact ⟨rfl, hend⟩
  | _ => simp_all

theorem settles_j :
    Settles (assembleJ args symbols) (SaysWritten pc symbols architecture .j args) ↔
      Accepts pc symbols architecture args [.address] 0 := by
  have hread : assembleJ args symbols = operand args 0 >>= targetAddress symbols >>= fun imm =>
      return encodeJ .J (BitVec.ofInt 32 (imm % 2 ^ 26)) := by
    rw [bind_assoc]
    unfold assembleJ targetAddress
    congr 1
    funext target
    cases symbols.lookup target with
    | none => rfl
    | some address => rfl
  -- the address of a label, or a number: one operand either way
  rw [hread]
  apply settles_read targetAddress_raises
  intro imm himm
  refine saysWritten_iff ?_ (.j himm) (decodes_jump_iff imm)
  intro r hwritten
  cases hwritten with
  | j himm' hend =>
      rw [himm'.unique himm]
      exact ⟨rfl, hend⟩
  | _ => simp_all

theorem settles_bare {m : Mnemonic} (hm : m = .nop ∨ m = .halt) :
    Settles (.ok (encodeR m.opcode 0 0 0)) (SaysWritten pc symbols architecture m args) ↔
      Accepts pc symbols architecture args [] 0 := by
  constructor
  · rintro ⟨r, hwritten, -⟩
    cases hwritten with
    | bare _ hend => exact hend
    | _ => rcases hm with hm | hm <;> simp_all
  · intro hend
    refine ⟨_, .bare hm hend, ?_⟩
    rcases hm with rfl | rfl
    all_goals constructor <;> decide

end Mnemonics

/-! ## Loads and stores -/

section Memory

variable {pc : Nat} {symbols : Symbols} {architecture : Architecture} {args : List Text}

theorem operand_of_getElem? {i : Nat} {arg : Text} (h : args[i]? = some arg) :
    operand args i = .ok arg := by
  rw [operand, h]
  rfl

theorem lt_length_of_readsAt {α : Type} {read : Text → Except String α} {i : Nat} {v : α}
    (h : ReadsAt read args i v) : i < args.length := by
  obtain ⟨arg, harg, -⟩ := h
  exact (List.getElem?_eq_some_iff.mp harg).1

/-- The address that is written is the one that is taken. -/
theorem WrittenAddress.memoryOperand_eq {imm : Int} {rs1 : Register}
    (h : WrittenAddress args imm rs1) : memoryOperand args = .ok (imm, rs1) := by
  unfold memoryOperand
  cases h with
  | @bracketed arg offset name _ _ harg hgroups hwhole himm hrs1 _ =>
      have hparen : '(' ∈ arg := by
        rw [hwhole]
        simp
      rw [operand_of_getElem? harg]
      show (if '(' ∈ arg then _ else _) = _
      rw [if_pos hparen, hgroups]
      show (parseInt offset >>= fun imm => parseReg name >>= fun rs1 => pure (imm, rs1)) = _
      rw [himm, hrs1]
      rfl
  | @separate arg _ _ harg hplain hrs1 himm _ =>
      have hlength : args.length > 2 := lt_length_of_readsAt himm
      obtain ⟨third, hthird, hvalue⟩ := himm
      rw [operand_of_getElem? harg]
      show (if '(' ∈ arg then _ else _) = _
      rw [if_neg hplain, hrs1]
      show (if args.length > 2 then operand args 2 >>= parseInt >>= fun imm => pure (imm, rs1)
        else _) = _
      rw [if_pos hlength, operand_of_getElem? hthird]
      show (parseInt third >>= fun imm => pure (imm, rs1)) = _
      rw [hvalue]
      rfl
  | @base arg _ harg hplain hrs1 hlength =>
      rw [operand_of_getElem? harg]
      show (if '(' ∈ arg then _ else _) = _
      rw [if_neg hplain, hrs1]
      show (if args.length > 2 then _ else pure 0 >>= fun imm => pure (imm, rs1)) = _
      rw [if_neg (by omega)]
      rfl

/-- Only that address is written. -/
theorem WrittenAddress.unique {imm imm' : Int} {rs1 rs1' : Register}
    (h : WrittenAddress args imm' rs1') (h' : memoryOperand args = .ok (imm, rs1)) :
    imm' = imm ∧ rs1' = rs1 := by
  have heq := h.memoryOperand_eq
  rw [h'] at heq
  cases heq
  exact ⟨rfl, rfl⟩

/-- A result that fits and is what is written. -/
def AddressExact (args : List Text) (address : Int × Register) : Prop :=
  InRange 18 address.1 ∧ WrittenAddress args address.1 address.2

/-- `imm(rs1)`. -/
theorem settles_bracketed {arg : Text} (harg : args[1]? = some arg) {offset name : Text}
    (hgroups : matchMemoryOperand arg = some (offset, name)) (hparen : '(' ∈ arg) :
    Settles (do let imm ← parseInt offset; let rs1 ← parseReg name; return (imm, rs1))
        (AddressExact args) ↔
      ∀ imm rs1, parseInt offset = .ok imm → parseReg name = .ok rs1 →
        InRange 18 imm ∧ arg = offset ++ '(' :: (name ++ [')']) ∧ NoMore args 2 := by
  rw [settles_bind (parseInt_raises offset)]
  apply forall_congr'
  intro imm
  rw [forall_comm]
  apply forall_congr'
  intro himm
  rw [settles_bind (parseReg_raises name)]
  apply forall_congr'
  intro rs1
  apply forall_congr'
  intro hrs1
  constructor
  · rintro ⟨hfits, hwritten⟩
    refine ⟨hfits, ?_⟩
    cases hwritten with
    | bracketed harg' hgroups' hwhole _ _ hend =>
        rw [harg] at harg'
        cases harg'
        rw [hgroups] at hgroups'
        cases hgroups'
        exact ⟨hwhole, hend⟩
    | separate harg' hplain _ _ _ =>
        rw [harg] at harg'
        cases harg'
        exact absurd hparen hplain
    | base harg' hplain _ _ =>
        rw [harg] at harg'
        cases harg'
        exact absurd hparen hplain
  · rintro ⟨hfits, hwhole, hend⟩
    exact ⟨hfits, .bracketed harg hgroups hwhole himm hrs1 hend⟩

/-- `rs1, imm`, or `rs1` alone. -/
theorem settles_separate {arg : Text} (harg : args[1]? = some arg) (hplain : '(' ∉ arg) :
    Settles (do
        let rs1 ← parseReg arg
        let imm ← if args.length > 2 then operand args 2 >>= parseInt else pure 0
        return (imm, rs1)) (AddressExact args) ↔
      ∀ rs1, parseReg arg = .ok rs1 →
        args.length ≤ 2 ∨ Accepts pc symbols architecture args [.integer] 2 := by
  rw [settles_bind (parseReg_raises arg)]
  apply forall_congr'
  intro rs1
  apply forall_congr'
  intro hrs1
  -- a third operand is the offset; without one it is zero
  by_cases hlength : args.length > 2
  · rw [if_pos hlength, or_iff_right (by omega)]
    apply settles_read parseInt_raises
    intro imm himm
    constructor
    · rintro ⟨hfits, hwritten⟩
      refine ⟨hfits, ?_⟩
      cases hwritten with
      | bracketed harg' _ hwhole _ _ _ =>
          rw [harg] at harg'
          cases harg'
          exact absurd (by rw [hwhole]; simp) hplain
      | separate _ _ _ _ hend => exact hend
      | base _ _ _ hend => omega
    · rintro ⟨hfits, hend⟩
      exact ⟨hfits, .separate harg hplain hrs1 himm hend⟩
  · rw [if_neg hlength]
    constructor
    · intro _
      exact Or.inl (by omega)
    · intro _
      have hzero : InRange 18 0 := ⟨by decide, by decide⟩
      exact ⟨hzero, .base harg hplain hrs1 (by omega)⟩

theorem acceptsMemory_iff :
    Settles (memoryOperand args) (AddressExact args) ↔
      AcceptsMemory pc symbols architecture args := by
  unfold memoryOperand
  rw [settles_arg]
  apply exists_congr
  intro arg
  apply and_congr_right
  intro harg
  by_cases hparen : '(' ∈ arg
  · rw [if_pos hparen, if_pos hparen]
    cases hgroups : matchMemoryOperand arg with
    | none =>
        constructor
        · intro _ offset name h
          cases h
        · intro _
          -- a malformed operand is a `ValueError`
          exact append_ne_indexError _ (by decide)
    | some groups =>
        obtain ⟨offset, name⟩ := groups
        refine (settles_bracketed harg hgroups hparen).trans ?_
        constructor
        · intro h offset' name' heq
          cases heq
          exact h
        · intro h
          exact h offset name rfl
  · rw [if_neg hparen, if_neg hparen]
    exact settles_separate harg hparen

/-- The address in front of the assembly of its word. -/
theorem settles_memory {β : Type} {Right : β → Prop} {next : Int × Register → Except String β}
    (h : ∀ imm rs1, memoryOperand args = .ok (imm, rs1) →
      (Settles (next (imm, rs1)) Right ↔ AddressExact args (imm, rs1))) :
    Settles (memoryOperand args >>= next) Right ↔
      AcceptsMemory pc symbols architecture args := by
  rw [← acceptsMemory_iff]
  cases haddress : memoryOperand args with
  | error e => exact Iff.rfl
  | ok address => exact h address.1 address.2 haddress

theorem settles_lw :
    Settles (assembleLw args) (SaysWritten pc symbols architecture .lw args) ↔
      OperandsSafe pc symbols architecture args .lw := by
  apply settles_read parseReg_raises
  intro rd hrd
  apply settles_memory
  intro imm rs1 haddress
  refine saysWritten_iff ?_ (.lw hrd)
    (decodes_masked_iff (defined_of_isDefined rfl) rfl (Or.inl ⟨rfl, rfl⟩))
  intro r hwritten
  cases hwritten with
  | lw hrd' hwritten' =>
      obtain ⟨rfl, rfl⟩ := hwritten'.unique haddress
      rw [hrd'.unique hrd]
      exact ⟨rfl, hwritten'⟩
  | _ => simp_all

theorem settles_sw :
    Settles (assembleSw args) (SaysWritten pc symbols architecture .sw args) ↔
      OperandsSafe pc symbols architecture args .sw := by
  apply settles_read parseReg_raises
  intro rs2 hrs2
  apply settles_memory
  intro imm rs1 haddress
  refine saysWritten_iff ?_ (.sw hrs2)
    (decodes_masked_iff (defined_of_isDefined rfl) rfl (Or.inr (Or.inl ⟨rfl, rfl⟩)))
  intro r hwritten
  cases hwritten with
  | sw hrs2' hwritten' =>
      obtain ⟨rfl, rfl⟩ := hwritten'.unique haddress
      rw [hrs2'.unique hrs2]
      exact ⟨rfl, hwritten'⟩
  | _ => simp_all

end Memory

/-! ## The statement -/

section Line

variable (pc : Nat) (symbols : Symbols) (architecture : Architecture)

theorem settles_mnemonic (mnemonic : Mnemonic) (args : List Text) (line : Text) :
    Settles (assembleMnemonic mnemonic args line pc symbols architecture)
        (SaysWritten pc symbols architecture mnemonic args) ↔
      OperandsSafe pc symbols architecture args mnemonic := by
  cases mnemonic with
  | mv => exact settles_mv
  | beqz => exact settles_branchZero (m := .beqz) (Or.inl rfl) (by decide)
  | bnez => exact settles_branchZero (m := .bnez) (Or.inr rfl) (by decide)
  | b => exact settles_b
  | nop => exact settles_bare (m := .nop) (Or.inl rfl)
  | halt => exact settles_bare (m := .halt) (Or.inr rfl)
  | add => exact settles_registers (m := .add) (by simp)
  | sub => exact settles_registers (m := .sub) (by simp)
  | and => exact settles_registers (m := .and) (by simp)
  | or => exact settles_registers (m := .or) (by simp)
  | xor => exact settles_registers (m := .xor) (by simp)
  | not => exact settles_not
  | addi => exact settles_addi
  | li => exact settles_li
  | lw => exact settles_lw
  | sw => exact settles_sw
  | beq => exact settles_branch (m := .beq) (Or.inl rfl)
  | bne => exact settles_branch (m := .bne) (Or.inr rfl)
  | j => exact settles_j

/-- The operands of the line are taken as they are written, or the line is rejected. -/
def LineSafe (line : Text) : Prop :=
  ∀ mnemonic, Mnemonic.ofText (statementOp (stripComments line)) = some mnemonic →
    stripComments line ≠ [] →
      OperandsSafe pc symbols architecture (statementArgs (stripComments line)) mnemonic

/-- `assemble_instruction` keeps to what is written exactly on the lines with safe operands: an
    operand that is missing raises an `IndexError`, one too many is dropped, and an immediate is
    cut to its field whether it fits or not. -/
theorem operands_exact_iff (line : Text) :
    OperandsExact pc symbols architecture line ↔ LineSafe pc symbols architecture line := by
  unfold OperandsExact LineSafe assembleInstruction
  dsimp only
  -- without a statement nothing is returned
  by_cases hempty : stripComments line = []
  · rw [if_pos hempty]
    constructor
    · intro _ _ _ h
      exact absurd hempty h
    · intro _
      exact hempty
  · rw [if_neg hempty]
    cases hop : Mnemonic.ofText (statementOp (stripComments line)) with
    | none =>
        constructor
        · intro _ mnemonic h
          cases h
        · intro _
          dsimp only
          rw [String.append_assoc, String.append_assoc, String.append_assoc]
          -- an unknown mnemonic is a `ValueError`
          exact append_ne_indexError _ (by decide)
    | some mnemonic =>
        have hmnemonic := settles_mnemonic pc symbols architecture mnemonic
          (statementArgs (stripComments line)) (stripComments line)
        have hsafe : (∀ m, some mnemonic = some m → stripComments line ≠ [] →
            OperandsSafe pc symbols architecture (statementArgs (stripComments line)) m) ↔
              OperandsSafe pc symbols architecture (statementArgs (stripComments line))
                mnemonic := by
          constructor
          · intro h
            exact h mnemonic rfl hempty
          · intro h m hm _
            cases hm
            exact h
        rw [hsafe, ← hmnemonic]
        dsimp only
        cases hword : assembleMnemonic mnemonic (statementArgs (stripComments line))
          (stripComments line) pc symbols architecture with
        | error e => exact Iff.rfl
        | ok word =>
            constructor
            · rintro ⟨m, hm, h⟩
              cases hm
              exact h
            · intro h
              exact ⟨mnemonic, rfl, h⟩

end Line

/-- A missing operand, and one after the closing parenthesis. -/
example :
    assembleInstruction "add r1, r2".toList 0 [] .pipelined = .error indexError ∧
      assembleInstruction "lw r1, 4(r2)8".toList 0 [] .pipelined =
        assembleInstruction "lw r1, 4(r2)".toList 0 [] .pipelined := by decide

/-- `addi r1, r0, 131072`: the immediate comes back as -131072. -/
theorem large_immediate_changes :
    assembleInstruction "addi r1, r0, 131072".toList 0 [] .singleCycle =
        .ok (some 0x20420000#32) ∧
      (decode ⟨0x20420000#32⟩).immediate.toInt = -131072 ∧
      ¬ OperandsExact 0 [] .singleCycle "addi r1, r0, 131072".toList := by
  have hword : assembleInstruction "addi r1, r0, 131072".toList 0 [] .singleCycle =
      .ok (some 0x20420000#32) := by decide
  have hargs : statementArgs (stripComments "addi r1, r0, 131072".toList) =
      ["r1".toList, "r0".toList, "131072".toList] := by decide
  have hop : Mnemonic.ofText (statementOp (stripComments "addi r1, r0, 131072".toList)) =
      some .addi := by decide
  have hread : ReadsAt parseInt ["r1".toList, "r0".toList, "131072".toList] 2 131072 :=
    ⟨"131072".toList, rfl, by decide⟩
  have hdecoded : (decode ⟨0x20420000#32⟩).immediate.toInt = -131072 := by decide
  refine ⟨hword, hdecoded, ?_⟩
  unfold OperandsExact
  rw [hword, hop, hargs]
  -- whatever the word says, the statement says 131072
  rintro ⟨mnemonic, hmnemonic, r, hwritten, hdecodes⟩
  cases hmnemonic
  cases hwritten with
  | addi _ _ himm _ =>
      have hequal := hdecodes.immediate
      rw [himm.unique hread, hdecoded] at hequal
      cases hequal
  | _ => simp_all

end CpuSim.Assembler
