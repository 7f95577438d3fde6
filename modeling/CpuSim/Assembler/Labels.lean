/-
  CpuSim.Assembler.Labels

  Branches to labels.  The offset the assembler computes from its own addresses, the decoder's
  sign extension and the target adder of each CPU bring a taken branch to the statement after
  its label, as long as no statement between the two was left without a word.
-/

import CpuSim.Assembler.Program
import CpuSim.MultiCycle.InstructionCycle
import CpuSim.Pipelined.Refinement
import CpuSim.SingleCycle.InstructionCycle
import CpuSim.SuperScalar.FrontendStream

namespace CpuSim.Assembler

open CpuSim.Lib (Text)
open InstructionDecoder (decode formatOf)

/-! ## Branch statements -/

/-- The target operand of a branch. -/
def targetOperand : Mnemonic → List Text → Option Text
  | .beq, args | .bne, args => args[2]?
  | .beqz, args | .bnez, args => args[1]?
  | .b, args => args[0]?
  | _, _ => none

/-- The target operand of a branch statement. -/
def branchOperand (stmt : Text) : Option Text :=
  (Mnemonic.ofText (statementOp (stripComments stmt))).bind fun mnemonic =>
    targetOperand mnemonic (statementArgs (stripComments stmt))

/-- The opcodes of branches. -/
def IsBranch (op : Opcode) : Prop := op = .BEQ ∨ op = .BNE

theorem IsBranch.formatOf {op : Opcode} (h : IsBranch op) : formatOf op = .B_TYPE := by
  rcases h with rfl | rfl <;> rfl

theorem IsBranch.defined {op : Opcode} (h : IsBranch op) : Defined op := by
  rcases h with rfl | rfl <;> rfl

/-- The word of a branch to an offset. -/
def BranchWord (imm : Int) (word : Word) : Prop :=
  ∃ op rs1 rs2, IsBranch op ∧ word = encodeB op rs1 rs2 (maskImmediate imm)

/-- An operand that is there. -/
theorem operand_ok {args : List Text} {i : Nat} {arg : Text} (h : operand args i = .ok arg) :
    args[i]? = some arg := by
  rw [operand] at h
  cases harg : args[i]? with
  | none =>
      rw [harg] at h
      cases h
  | some found =>
      rw [harg] at h
      cases h
      rfl

/-- The part of a branch statement that does not depend on addresses: its opcode, its registers
    and its target operand. -/
def branchFields (mnemonic : Mnemonic) (args : List Text) (line : Text) :
    Except String (Opcode × Register × Register × Text) :=
  match mnemonic with
  | .beq | .bne => do
    let rs1 ← operand args 0 >>= parseReg
    let rs2 ← operand args 1 >>= parseReg
    let target ← operand args 2
    return (if mnemonic = .beq then .BEQ else .BNE, rs1, rs2, target)
  | .beqz | .bnez => do
    if args.length ≠ 2 then
      throw (operandCount (if mnemonic = .beqz then "beqz expects 2 operands (rs, target)"
        else "bnez expects 2 operands (rs, target)") args line)
    let rs ← operand args 0 >>= parseReg
    let target ← operand args 1
    return (if mnemonic = .beqz then .BEQ else .BNE, rs, 0, target)
  | _ => do
    if args.length ≠ 1 then throw (operandCount "b expects 1 operand (target)" args line)
    let target ← operand args 0
    return (.BEQ, 0, 0, target)

/-- A branch mnemonic. -/
def Mnemonic.isBranch : Mnemonic → Bool
  | .beq | .bne | .beqz | .bnez | .b => true
  | _ => false

section Branches

variable {args : List Text} {line : Text} {pc : Nat} {symbols : Symbols}
  {architecture : Architecture} {mnemonic : Mnemonic}

theorem branchFields_ok (hbranch : mnemonic.isBranch = true) {op : Opcode} {rs1 rs2 : Register}
    {target : Text} (h : branchFields mnemonic args line = .ok (op, rs1, rs2, target)) :
    IsBranch op ∧ targetOperand mnemonic args = some target := by
  unfold branchFields at h
  cases mnemonic with
  | beq | bne =>
      obtain ⟨rs1', -, h⟩ := bind_ok h
      obtain ⟨rs2', -, h⟩ := bind_ok h
      obtain ⟨target', htarget, h⟩ := bind_ok h
      cases h
      exact ⟨by simp [IsBranch], operand_ok htarget⟩
  | beqz | bnez =>
      dsimp only at h
      split at h
      · cases h
      · obtain ⟨rs, -, h⟩ := bind_ok h
        obtain ⟨target', htarget, h⟩ := bind_ok h
        cases h
        exact ⟨by simp [IsBranch], operand_ok htarget⟩
  | b =>
      dsimp only at h
      split at h
      · cases h
      · obtain ⟨target', htarget, h⟩ := bind_ok h
        cases h
        exact ⟨Or.inl rfl, operand_ok htarget⟩
  | _ => cases hbranch

/-- Only the offset of a branch depends on addresses. -/
theorem assembleMnemonic_branch (hbranch : mnemonic.isBranch = true) :
    assembleMnemonic mnemonic args line pc symbols architecture = do
      let (op, rs1, rs2, target) ← branchFields mnemonic args line
      let imm ← calcBranchOffset target pc symbols architecture
      return encodeB op rs1 rs2 (maskImmediate imm) := by
  unfold assembleMnemonic branchFields
  cases mnemonic with
  | beq | bne =>
      simp only [assembleBranch, bind_assoc, pure_bind]
      rfl
  | beqz | bnez =>
      simp only [assembleBranchZero]
      split
      · rfl
      · simp only [bind_assoc, pure_bind]
        rfl
  | b =>
      simp only [assembleB]
      split
      · rfl
      · simp only [bind_assoc, pure_bind]
  | _ => cases hbranch

end Branches

/-- A branch statement has the same registers on every CPU, and holds the offset of its target
    operand. -/
theorem assembleInstruction_branch {stmt target : Text} {pc : Nat} {symbols : Symbols}
    {architecture : Architecture} {o : Option Word} (hbranch : branchOperand stmt = some target)
    (h : assembleInstruction stmt pc symbols architecture = .ok o) :
    ∃ op rs1 rs2, IsBranch op ∧ ∀ architecture' o',
      assembleInstruction stmt pc symbols architecture' = .ok o' →
        ∃ imm, calcBranchOffset target pc symbols architecture' = .ok imm ∧
          o' = some (encodeB op rs1 rs2 (maskImmediate imm)) := by
  rw [branchOperand] at hbranch
  have hne : stripComments stmt ≠ [] := by
    intro hblank
    have hnone : Mnemonic.ofText (statementOp []) = none := by decide
    rw [hblank, hnone] at hbranch
    cases hbranch
  rw [assembleInstruction, if_neg hne] at h
  simp only [assembleInstruction, if_neg hne]
  generalize stripComments stmt = line at *
  cases hmnemonic : Mnemonic.ofText (statementOp line) with
  | none =>
      rw [hmnemonic] at hbranch
      cases hbranch
  | some mnemonic =>
      rw [hmnemonic] at h hbranch
      have hop : mnemonic.isBranch = true := by
        cases mnemonic <;> first | rfl | cases hbranch
      simp only [assembleMnemonic_branch hop] at h ⊢
      cases hfields : branchFields mnemonic (statementArgs line) line with
      | error e =>
          rw [hfields] at h
          cases h
      | ok found =>
          obtain ⟨op, rs1, rs2, target'⟩ := found
          obtain ⟨hisBranch, htarget⟩ := branchFields_ok hop hfields
          have heq : target' = target := Option.some.inj (htarget.symm.trans hbranch)
          refine ⟨op, rs1, rs2, hisBranch, ?_⟩
          intro architecture' o' h'
          rw [← heq]
          cases himm : calcBranchOffset target' pc symbols architecture' with
          | error e =>
              change some <$> (calcBranchOffset target' pc symbols architecture' >>= _) = _ at h'
              rw [himm] at h'
              cases h'
          | ok imm =>
              change some <$> (calcBranchOffset target' pc symbols architecture' >>= _) = _ at h'
              rw [himm] at h'
              cases h'
              exact ⟨imm, rfl, rfl⟩

/-! ## Targets -/

/-- The address at which a CPU fetches the word with a number. -/
def fetchAddress (architecture : Architecture) (k : Nat) : Word :=
  BitVec.ofNat 32 (pcStep architecture * k)

/-- The address a CPU computes for a taken branch from the word and its own address. -/
def hardwareTarget : Architecture → Word → Word → Word
  | .singleCycle, pc, word =>
    (SingleCycle.machine 8 (Logic.Memory.upperHalf 8)).branchTarget pc (decode ⟨word⟩).immediate
  | .multiCycle, pc, word =>
    (MultiCycle.MultiCycleDatapath.machine 8 (Logic.Memory.upperHalf 8)).branchTarget pc
      (decode ⟨word⟩).immediate
  | .pipelined, pc, word =>
    (Pipelined.machine 8 (Logic.Memory.upperHalf 8)).branchTarget pc (decode ⟨word⟩).immediate
  | .superscalar, pc, word =>
    let bundle := SuperScalar.DecodeUnit.decode pc word true
    (SuperScalar.BranchExecutionUnit.evaluate
      { pc := bundle.pc, opcode := bundle.opcode, immediate := bundle.immediate } false 0).targetPc

/-- The distance the assembler takes between two addresses of its own. -/
def distance (architecture : Architecture) (fromPc toPc : Nat) : Int :=
  if architecture = .singleCycle ∨ architecture = .superscalar then (toPc : Int) - fromPc
  else (toPc : Int) - (fromPc + 1)

/-- A distance that fits is the one the hardware adds. -/
theorem hardwareTarget_branchWord {architecture : Architecture} {fromPc toPc : Nat} {word : Word}
    (h : BranchWord (distance architecture fromPc toPc) word)
    (hlow : -(2 ^ 17) ≤ distance architecture fromPc toPc)
    (hhigh : distance architecture fromPc toPc < 2 ^ 17) (pc : Word) :
    hardwareTarget architecture pc word = pc + BitVec.ofInt 32 ((toPc : Int) - fromPc) := by
  obtain ⟨op, rs1, rs2, hop, rfl⟩ := h
  have himm : (decode ⟨encodeB op rs1 rs2
      (maskImmediate (distance architecture fromPc toPc))⟩).immediate =
        BitVec.ofInt 32 (distance architecture fromPc toPc) := by
    rw [decode_encodeB hop.defined hop.formatOf]
    exact lowImmediate_of_fits hlow hhigh
  have hone : pc + 1 + BitVec.ofInt 32 ((toPc : Int) - (fromPc + 1)) =
      pc + BitVec.ofInt 32 ((toPc : Int) - fromPc) := by
    have hsplit : (toPc : Int) - fromPc = 1 + ((toPc : Int) - (fromPc + 1)) := by omega
    rw [hsplit, BitVec.ofInt_add, ← BitVec.add_assoc]
    rfl
  cases architecture with
  | singleCycle =>
      show pc + (decode ⟨encodeB op rs1 rs2 _⟩).immediate = _
      rw [himm]
      rfl
  | multiCycle =>
      show pc + 1 + (decode ⟨encodeB op rs1 rs2 _⟩).immediate = _
      rw [himm]
      exact hone
  | pipelined =>
      show pc + 1 + (decode ⟨encodeB op rs1 rs2 _⟩).immediate = _
      rw [himm]
      exact hone
  | superscalar =>
      show (SuperScalar.decodeWord pc _).pc + (SuperScalar.decodeWord pc _).immediate = _
      rw [SuperScalar.decodeWord_pc, SuperScalar.decodeWord_immediate, himm]
      rfl

/-! ## The four CPUs -/

/-- A taken branch of the single-cycle CPU. -/
theorem singleCycle_target {iw w : Nat} {writable : Nat → Bool}
    {d : SingleCycle.SingleCycleDatapath iw w writable} (h : d.AtRest)
    (htaken : d.architecture.Takes (d.fetch d.architecture)) :
    d.cycle.programCounter.output =
      hardwareTarget .singleCycle d.programCounter.output
        (d.instructionMem (Logic.Memory.wordOf iw d.programCounter.output)) := by
  have harch := SingleCycle.SingleCycleDatapath.cycle_architecture h
  exact (congrArg Isa.State.pc harch).trans (Isa.State.step_of_takes htaken)

/-- A taken branch of the multi-cycle CPU, after its cycles. -/
theorem multiCycle_target {w : Nat} {writable : Nat → Bool}
    {d : MultiCycle.MultiCycleDatapath w writable} {o : MultiCycle.Outputs}
    (h : d.At .FETCH o)
    (htaken : Isa.State.Takes ⟨o.pc, o.regs, o.memory⟩ (o.fetchedInstruction w)) :
    (d.cycles (MultiCycle.MultiCycleDatapath.cyclesOf
        (o.fetchedInstruction w).opcode)).programCounter.output =
      hardwareTarget .multiCycle o.pc (o.memory (Logic.Memory.wordOf w o.pc)) := by
  obtain ⟨o', hruns, harch⟩ := h.instruction
  have hpc := congrArg Isa.State.pc (hruns.reach.architecture_eq.trans harch.symm)
  exact hpc.trans (Isa.State.nextPc_of_takes htaken)

/-- A branch in the execute stage of the pipelined CPU. -/
theorem pipelined_target {o : Pipelined.Outputs} {pc word : Word}
    (h : Pipelined.Executing (decode ⟨word⟩) pc o) :
    o.executed.branchTarget = hardwareTarget .pipelined pc word := by
  show o.idEx.pcplus4 + o.idEx.immediate = _
  rw [h.pcplus4, h.immediate]
  rfl

/-- A branch in the issue queue of the superscalar CPU. -/
theorem superscalar_target {pc word : Word} {e : SuperScalar.IssueQueueEntry} (hpc : e.pc = pc)
    (himmediate : e.immediate = (SuperScalar.decodeWord pc word).immediate) (taken : Bool)
    (target : Word) :
    (SuperScalar.BranchExecutionUnit.evaluate e taken target).targetPc =
      hardwareTarget .superscalar pc word := by
  show e.pc + e.immediate = (SuperScalar.decodeWord pc word).pc + _
  rw [hpc, himmediate, SuperScalar.decodeWord_pc]

/-- Addresses of the scalar CPUs count words. -/
theorem wordOf_fetchAddress {iw k : Nat} (hiw : iw ≤ 32) (hk : k < 2 ^ iw) :
    Logic.Memory.wordOf iw (fetchAddress .singleCycle k) = k := by
  have hle : 2 ^ iw ≤ 2 ^ 32 := Nat.pow_le_pow_right (by omega) hiw
  rw [Logic.Memory.wordOf, fetchAddress, BitVec.toNat_ofNat]
  simp only [pcStep, reduceCtorEq, if_false, Nat.one_mul]
  rw [Nat.mod_eq_of_lt (Nat.lt_of_lt_of_le hk hle), Nat.mod_eq_of_lt hk]

/-- Addresses of the superscalar CPU count bytes. -/
theorem read_fetchAddress {iw k : Nat} (words : List Word) (hiw : iw ≤ 30) (hk : k < 2 ^ iw) :
    (⟨words⟩ : SuperScalar.InstructionMemory iw).read (fetchAddress .superscalar k) =
      words.getD k 0 := by
  have hle : 2 ^ iw ≤ 2 ^ 30 := Nat.pow_le_pow_right (by omega) hiw
  have haddress : SuperScalar.InstructionMemory.convertAddress iw
      (fetchAddress .superscalar k) = k := by
    rw [SuperScalar.InstructionMemory.convertAddress, fetchAddress, BitVec.toNat_ushiftRight,
      BitVec.toNat_ofNat, Nat.shiftRight_eq_div_pow]
    simp only [pcStep, if_true]
    have hword : 4 * k % 2 ^ 32 / 2 ^ 2 = k := by omega
    rw [hword, Nat.mod_eq_of_lt hk]
  show words.getD (SuperScalar.InstructionMemory.convertAddress iw _) 0 = _
  rw [haddress]

/-! ## Labels -/

/-- The statement behind the items `pre` branches to the label behind the items `before`. -/
def LabelBranch (l pre before : List Item) : Prop :=
  ∃ lineNum stmt post n labelName after, l = pre ++ .statement lineNum stmt :: post ∧
    branchOperand stmt = some labelName ∧ l = before ++ .label n labelName :: after

/-- A number is a signed 18-bit immediate. -/
def FitsImmediate (imm : Int) : Prop := -(2 ^ 17) ≤ imm ∧ imm < 2 ^ 17

/-- The distance of every label from its branches fits in the immediate. -/
def DistancesFit (architecture : Architecture) (l : List Item) : Prop :=
  ∀ pre before, LabelBranch l pre before →
    FitsImmediate (distance architecture (pcStep architecture * statementCount pre)
      (pcStep architecture * statementCount before))

/-- Every branch to a label computes the address at which the CPU fetches the statement that
    follows the label. -/
def BranchesReach (architecture : Architecture) (l : List Item) (words : List Word) : Prop :=
  ∀ pre before, LabelBranch l pre before →
    ∃ word, words[emittedCount pre]? = some word ∧
      hardwareTarget architecture (fetchAddress architecture (emittedCount pre)) word =
        fetchAddress architecture (emittedCount before)

/-- Between a branch and its label no statement is only a comment. -/
def NoBlankBetween (l : List Item) : Prop :=
  ∀ pre before, LabelBranch l pre before → blankCount pre = blankCount before

/-- Of two beginnings of a source one continues the other; it has at most as many more comments
    as it has more statements. -/
theorem counts_of_append {pre before rest rest' : List Item}
    (h : pre ++ rest = before ++ rest') :
    ∃ statements blanks : Nat, blanks ≤ statements ∧
      ((statementCount before = statementCount pre + statements ∧
          blankCount before = blankCount pre + blanks) ∨
        (statementCount pre = statementCount before + statements ∧
          blankCount pre = blankCount before + blanks)) := by
  have hmore : ∀ l : List Item, blankCount l ≤ statementCount l := by
    intro l
    have hsum := emittedCount_add_blankCount l
    omega
  rcases List.append_eq_append_iff.mp h with ⟨mid, rfl, -⟩ | ⟨mid, rfl, -⟩
  · exact ⟨statementCount mid, blankCount mid, hmore mid,
      Or.inl ⟨statementCount_append _ _, List.countP_append⟩⟩
  · exact ⟨statementCount mid, blankCount mid, hmore mid,
      Or.inr ⟨statementCount_append _ _, List.countP_append⟩⟩

/-- Where the offset between two addresses of the assembler leads from a fetch address. -/
theorem fetchAddress_add_iff {architecture : Architecture} {l pre before : List Item}
    (h : LabelBranch l pre before) (hfit : DistancesFit architecture l) :
    fetchAddress architecture (emittedCount pre) +
        BitVec.ofInt 32 (((pcStep architecture * statementCount before : Nat) : Int) -
          ((pcStep architecture * statementCount pre : Nat) : Int)) =
      fetchAddress architecture (emittedCount before) ↔ blankCount pre = blankCount before := by
  have hd := hfit pre before h
  obtain ⟨lineNum, stmt, post, n, labelName, after, hl, -, hl'⟩ := h
  obtain ⟨statements, blanks, hle, hcounts⟩ := counts_of_append (hl.symm.trans hl')
  have hpre := emittedCount_add_blankCount pre
  have hbefore := emittedCount_add_blankCount before
  rw [fetchAddress, fetchAddress, ← BitVec.toNat_inj, BitVec.toNat_add, BitVec.toNat_ofNat,
    BitVec.toNat_ofInt, BitVec.toNat_ofNat]
  obtain ⟨hlow, hhigh⟩ := hd
  rw [distance] at hlow hhigh
  cases architecture with
  | superscalar =>
      simp only [pcStep, if_true, reduceCtorEq, or_true] at hlow hhigh ⊢
      omega
  | singleCycle =>
      simp only [pcStep, reduceCtorEq, if_false, if_true, true_or] at hlow hhigh ⊢
      omega
  | multiCycle | pipelined =>
      simp only [pcStep, reduceCtorEq, if_false, or_self] at hlow hhigh ⊢
      omega

/-- The word of a branch to a label, in an accepted source. -/
theorem labelBranch_word {source : Source} {architecture : Architecture} {words : List Word}
    (h : assemble source architecture = .ok words) {pre before : List Item}
    (hbranch : LabelBranch (items source.rawLines) pre before) :
    ∃ word, words[emittedCount pre]? = some word ∧
      BranchWord (distance architecture (pcStep architecture * statementCount pre)
        (pcStep architecture * statementCount before)) word := by
  obtain ⟨p, ws, -, hscan, hws, rfl⟩ := assembleLines_ok h
  obtain ⟨lineNum, stmt, post, n, labelName, after, hl, hoperand, hl'⟩ := hbranch
  rw [hl] at hws
  obtain ⟨o, ho, hword⟩ := words_getElem hws
  rw [Nat.zero_add] at ho
  obtain ⟨op, rs1, rs2, hop, hevery⟩ := assembleInstruction_branch hoperand ho
  obtain ⟨imm, himm, rfl⟩ := hevery _ _ ho
  refine ⟨_, hword _ rfl, op, rs1, rs2, hop, ?_⟩
  -- the symbol table holds the address of the label
  have hsymbol := (hscan.symbols labelName _).mpr ⟨before, n, after, hl', rfl⟩
  rw [calcBranchOffset, hsymbol] at himm
  have hdistance : distance architecture (pcStep architecture * statementCount pre)
      (pcStep architecture * statementCount before) = imm := by
    rw [distance]
    dsimp only at himm
    split at himm
    · next hrel =>
        rw [if_pos hrel]
        exact Except.ok.inj himm
    · next hrel =>
        rw [if_neg hrel]
        exact Except.ok.inj himm
  rw [hdistance]

/-- In an accepted source whose distances fit, the branches reach their labels exactly when no
    comment took an address between them. -/
theorem branchesReach_iff {source : Source} {architecture : Architecture} {words : List Word}
    (h : assemble source architecture = .ok words)
    (hfit : DistancesFit architecture (items source.rawLines)) :
    BranchesReach architecture (items source.rawLines) words ↔
      NoBlankBetween (items source.rawLines) := by
  have htarget : ∀ {pre before word}, LabelBranch (items source.rawLines) pre before →
      BranchWord (distance architecture (pcStep architecture * statementCount pre)
        (pcStep architecture * statementCount before)) word →
      (hardwareTarget architecture (fetchAddress architecture (emittedCount pre)) word =
        fetchAddress architecture (emittedCount before) ↔ blankCount pre = blankCount before) := by
    intro pre before word hbranch hword
    obtain ⟨hlow, hhigh⟩ := hfit pre before hbranch
    rw [hardwareTarget_branchWord hword hlow hhigh]
    exact fetchAddress_add_iff hbranch hfit
  constructor
  · intro hreach pre before hbranch
    obtain ⟨word, hat, heq⟩ := hreach pre before hbranch
    obtain ⟨word', hat', hword'⟩ := labelBranch_word h hbranch
    rw [hat] at hat'
    cases hat'
    exact (htarget hbranch hword').mp heq
  · intro hblank pre before hbranch
    obtain ⟨word, hat, hword⟩ := labelBranch_word h hbranch
    exact ⟨word, hat, (htarget hbranch hword).mpr (hblank pre before hbranch)⟩

/-- The distances within a short source fit. -/
theorem distancesFit_of_short {architecture : Architecture} {l : List Item}
    (hshort : statementCount l < 2 ^ 15) : DistancesFit architecture l := by
  intro pre before hbranch
  obtain ⟨lineNum, stmt, post, n, labelName, after, hl, -, hl'⟩ := hbranch
  have hpre : statementCount pre ≤ statementCount l := by
    rw [hl, statementCount_append]
    omega
  have hbefore : statementCount before ≤ statementCount l := by
    rw [hl', statementCount_append]
    omega
  rw [FitsImmediate, distance]
  cases architecture with
  | superscalar =>
      simp only [pcStep, if_true, reduceCtorEq, or_true]
      omega
  | singleCycle =>
      simp only [pcStep, reduceCtorEq, if_false, if_true, true_or]
      omega
  | multiCycle | pipelined =>
      simp only [pcStep, reduceCtorEq, if_false, or_self]
      omega

/-- Single lines leave no statement that is only a comment. -/
theorem blankCount_of_oneLine {rawLines : List Text} (hone : ∀ line ∈ rawLines, OneLine line)
    {l rest : List Item} (hl : items rawLines = l ++ rest) : blankCount l = 0 := by
  rw [blankCount, List.countP_eq_zero]
  intro item hitem hblank
  have hmem : item ∈ items rawLines := by
    rw [hl]
    exact List.mem_append_left _ hitem
  rw [items_not_blank hone hmem] at hblank
  cases hblank

/-- Branches reach their labels on every CPU, exactly when no comment took an address between
    a branch and its label; in a text, and in a list of single lines, none does. -/
theorem label_branches_reach {source : Source} {architecture : Architecture} {words : List Word}
    (h : assemble source architecture = .ok words)
    (hfit : DistancesFit architecture (items source.rawLines)) :
    (BranchesReach architecture (items source.rawLines) words ↔
        NoBlankBetween (items source.rawLines)) ∧
      (((∃ s, source = .text s) ∨ ∀ line ∈ source.rawLines, OneLine line) →
        BranchesReach architecture (items source.rawLines) words) := by
  have hiff := branchesReach_iff h hfit
  refine ⟨hiff, ?_⟩
  intro hsource
  have hone : ∀ line ∈ source.rawLines, OneLine line := by
    rcases hsource with ⟨s, rfl⟩ | hlines
    · exact Source.text_oneLine s
    · exact hlines
  have hzero : ∀ {l rest : List Item}, items source.rawLines = l ++ rest → blankCount l = 0 :=
    fun hl => blankCount_of_oneLine hone hl
  apply hiff.mpr
  rintro pre before ⟨lineNum, stmt, post, n, labelName, after, hl, -, hl'⟩
  rw [hzero hl, hzero hl']

/-- A loop that counts down. -/
def countdown : Source :=
  .text "loop: addi r1, r1, -1\n\n  bnez r1, loop ; again\nhalt".toList

/-- The branch of the loop, in the second word, reaches its label. -/
theorem label_branches_reach_countdown :
    ∃ word, (assemble countdown .superscalar).toOption.bind (·[1]?) = some word ∧
      hardwareTarget .superscalar 4 word = 0 := by
  obtain ⟨words, hwords⟩ : ∃ words, assemble countdown .superscalar = .ok words :=
    ⟨[0x2047FFFF, 0x3043FFFC, 0x38000000], by decide +kernel⟩
  have hfit : DistancesFit .superscalar (items countdown.rawLines) :=
    distancesFit_of_short (by decide +kernel)
  have hreach := (label_branches_reach hwords hfit).2 (Or.inl ⟨_, rfl⟩)
  obtain ⟨word, hword, htarget⟩ := hreach
    [.label 1 "loop".toList, .statement 1 "addi r1, r1, -1".toList] []
    ⟨3, "bnez r1, loop".toList, [.statement 4 "halt".toList], 1, "loop".toList,
      [.statement 1 "addi r1, r1, -1".toList, .statement 3 "bnez r1, loop".toList,
        .statement 4 "halt".toList], by decide +kernel, by decide +kernel, by decide +kernel⟩
  refine ⟨word, ?_, htarget⟩
  rw [hwords]
  exact hword

/-- The same loop as a list of lines, with a comment of two lines in one of them. -/
def commentedCountdown : Source :=
  .lines ["loop: addi r1, r1, -1".toList, "; count\n; down".toList, "bnez r1, loop".toList,
    "halt".toList]

/-- The first line of the comment takes an address, and the branch misses its label. -/
theorem commented_branch_misses :
    assemble commentedCountdown .singleCycle = .ok [0x2047FFFF, 0x3043FFFE, 0x38000000] ∧
      DistancesFit .singleCycle (items commentedCountdown.rawLines) ∧
      hardwareTarget .singleCycle 1 0x3043FFFE = 0xFFFFFFFF ∧
      ¬ BranchesReach .singleCycle (items commentedCountdown.rawLines)
        [0x2047FFFF, 0x3043FFFE, 0x38000000] := by
  refine ⟨by decide +kernel, distancesFit_of_short (by decide +kernel), by decide +kernel, ?_⟩
  intro hreach
  obtain ⟨word, hword, htarget⟩ := hreach
    [.label 1 "loop".toList, .statement 1 "addi r1, r1, -1".toList,
      .statement 2 "; count".toList] []
    ⟨3, "bnez r1, loop".toList, [.statement 4 "halt".toList], 1, "loop".toList,
      [.statement 1 "addi r1, r1, -1".toList, .statement 2 "; count".toList,
        .statement 3 "bnez r1, loop".toList, .statement 4 "halt".toList],
      by decide +kernel, by decide +kernel, by decide +kernel⟩
  have hone : emittedCount [.label 1 "loop".toList, .statement 1 "addi r1, r1, -1".toList,
      .statement 2 "; count".toList] = 1 := by decide +kernel
  rw [hone] at hword htarget
  cases hword
  revert htarget
  decide +kernel

end CpuSim.Assembler
