/-
  CpuSim.Assembler.Correspondence

  One source, assembled for two scalar CPUs.  The words are the same but for the offsets of
  branches, which differ by one.
-/

import CpuSim.Assembler.Labels
import CpuSim.Assembler.RoundTrip

namespace CpuSim.Assembler

open CpuSim.Lib (Text)
open InstructionDecoder (decode formatOf)

/-! ## Opcodes -/

theorem decode_opcode_fields {op : Opcode} (hop : Defined op) (a b : Register) {low : Word}
    (hlow : low.toNat < 2 ^ 18) : (decode ⟨fields op a b low⟩).opcode = op := by
  rw [InstructionDecoder.decode_opcode]
  exact (hasFields op hop a b hlow).opcode

theorem decode_opcode_encodeR {op : Opcode} (hop : Defined op) (rd rs1 rs2 : Register) :
    (decode ⟨encodeR op rd rs1 rs2⟩).opcode = op := by
  rw [InstructionDecoder.decode_opcode]
  exact (fields_encodeR hop rd rs1 rs2 rfl).1

theorem decode_opcode_encodeJ (imm : Word) : (decode ⟨encodeJ .J imm⟩).opcode = .J := by
  rw [InstructionDecoder.decode_opcode]
  exact opcode_encodeJ (show Defined .J from rfl) imm

section Mnemonics

variable {args : List Text} {line : Text} {pc : Nat} {symbols : Symbols}
  {architecture : Architecture} {word : Word}

theorem assembleRegisters_opcode {op : Opcode} (hop : Defined op)
    (h : assembleRegisters op args = .ok word) : (decode ⟨word⟩).opcode = op := by
  obtain ⟨rd, -, h⟩ := bind_ok h
  obtain ⟨rs1, -, h⟩ := bind_ok h
  obtain ⟨rs2, -, h⟩ := bind_ok h
  cases h
  exact decode_opcode_encodeR hop rd rs1 rs2

theorem Mnemonic.isBranch_of_opcode {mnemonic : Mnemonic} (h : IsBranch mnemonic.opcode) :
    mnemonic.isBranch = true := by
  rcases h with h | h
  · cases mnemonic <;> first | rfl | cases h
  · cases mnemonic <;> first | rfl | cases h

/-- Every statement other than a branch has a word of its opcode. -/
theorem assembleMnemonic_opcode {mnemonic : Mnemonic} (hbranch : mnemonic.isBranch = false)
    (h : assembleMnemonic mnemonic args line pc symbols architecture = .ok word) :
    (decode ⟨word⟩).opcode = mnemonic.opcode := by
  cases mnemonic with
  | beq | bne | beqz | bnez | b => cases hbranch
  | add | sub | and | or | xor => exact assembleRegisters_opcode (by exact rfl) h
  | nop | halt =>
      cases h
      exact decode_opcode_encodeR (by exact rfl) 0 0 0
  | mv =>
      unfold assembleMnemonic assembleMv at h
      dsimp only at h
      split at h
      · cases h
      · obtain ⟨rd, -, h⟩ := bind_ok h
        obtain ⟨rs, -, h⟩ := bind_ok h
        cases h
        exact decode_opcode_encodeR (by exact rfl) rd rs 0
  | not =>
      obtain ⟨rd, -, h⟩ := bind_ok h
      obtain ⟨rs1, -, h⟩ := bind_ok h
      cases h
      exact decode_opcode_encodeR (by exact rfl) rd rs1 0
  | addi =>
      obtain ⟨rd, -, h⟩ := bind_ok h
      obtain ⟨rs1, -, h⟩ := bind_ok h
      obtain ⟨imm, -, h⟩ := bind_ok h
      cases h
      exact decode_opcode_fields (by exact rfl) rd rs1 (masked_lt _)
  | li =>
      obtain ⟨rd, -, h⟩ := bind_ok h
      obtain ⟨imm, -, h⟩ := bind_ok h
      cases h
      exact decode_opcode_fields (by exact rfl) rd 0 (masked_lt _)
  | lw =>
      obtain ⟨rd, -, h⟩ := bind_ok h
      obtain ⟨⟨imm, rs1⟩, -, h⟩ := bind_ok h
      cases h
      exact decode_opcode_fields (by exact rfl) rd rs1 (masked_lt _)
  | sw =>
      obtain ⟨rs2, -, h⟩ := bind_ok h
      obtain ⟨⟨imm, rs1⟩, -, h⟩ := bind_ok h
      cases h
      exact decode_opcode_fields (by exact rfl) rs2 rs1 (masked_lt _)
  | j =>
      obtain ⟨target, -, h⟩ := bind_ok h
      dsimp only at h
      split at h
      · cases h
        exact decode_opcode_encodeJ _
      · obtain ⟨imm, -, h⟩ := bind_ok h
        cases h
        exact decode_opcode_encodeJ _

end Mnemonics

/-! ## Corresponding words -/

/-- The instruction of a CPU that counts branches from the next address, for one that counts
    them from the branch itself. -/
inductive Corresponds (i : DecodedInstruction) : DecodedInstruction → Prop where
  | same (h : ¬ IsBranch i.opcode) : Corresponds i i
  | branch (h : IsBranch i.opcode) : Corresponds i { i with immediate := i.immediate - 1 }

theorem Corresponds.opcode {i j : DecodedInstruction} (h : Corresponds i j) :
    j.opcode = i.opcode := by
  cases h <;> rfl

theorem Corresponds.rd {i j : DecodedInstruction} (h : Corresponds i j) : j.rd = i.rd := by
  cases h <;> rfl

/-- The words of two CPUs. -/
def WordsCorrespond (word word' : Word) : Prop := Corresponds (decode ⟨word⟩) (decode ⟨word'⟩)

/-- The CPUs that count branches from the next address. -/
def CountsFromNext (architecture : Architecture) : Prop :=
  architecture = .multiCycle ∨ architecture = .pipelined

/-- A branch statement whose target is a label not too far away. -/
def LabelTarget (symbols : Symbols) (s : Statement) : Prop :=
  ∀ target, branchOperand s.stmt = some target → ∃ targetPc : Nat,
    symbols.lookup target = some targetPc ∧ targetPc < 2 ^ 16 ∧ s.pc < 2 ^ 16

/-- One statement, for the single-cycle CPU and another one. -/
theorem assembleInstruction_correspond {symbols : Symbols} {s : Statement}
    (htarget : LabelTarget symbols s) {architecture : Architecture}
    (harch : CountsFromNext architecture) {o o' : Option Word}
    (h : assembleInstruction s.stmt s.pc symbols .singleCycle = .ok o)
    (h' : assembleInstruction s.stmt s.pc symbols architecture = .ok o') :
    (o = none ∧ o' = none) ∨ ∃ w w', o = some w ∧ o' = some w' ∧ WordsCorrespond w w' := by
  cases hbranch : branchOperand s.stmt with
  | some target =>
      obtain ⟨targetPc, hlookup, hlt, hpc⟩ := htarget target hbranch
      obtain ⟨op, rs1, rs2, hop, hevery⟩ := assembleInstruction_branch hbranch h
      obtain ⟨imm, himm, rfl⟩ := hevery _ _ h
      obtain ⟨imm', himm', rfl⟩ := hevery _ _ h'
      refine Or.inr ⟨_, _, rfl, rfl, ?_⟩
      rw [calcBranchOffset, hlookup] at himm himm'
      have heq : imm = (targetPc : Int) - s.pc := (Except.ok.inj himm).symm
      have heq' : imm' = (targetPc : Int) - (s.pc + 1) := by
        rcases harch with rfl | rfl <;> exact (Except.ok.inj himm').symm
      rw [WordsCorrespond, decode_encodeB hop.defined hop.formatOf,
        decode_encodeB hop.defined hop.formatOf, maskImmediate, maskImmediate,
        lowImmediate_of_fits (by omega) (by omega), lowImmediate_of_fits (by omega) (by omega)]
      have hminus : BitVec.ofInt 32 imm' = BitVec.ofInt 32 imm - 1 := by
        have hsplit : imm = imm' + 1 := by omega
        rw [hsplit, BitVec.ofInt_add]
        exact (BitVec.add_sub_cancel _ _).symm
      rw [hminus]
      exact Corresponds.branch hop
  | none =>
      by_cases hblank : stripComments s.stmt = []
      · rw [assembleInstruction_of_blank hblank] at h h'
        cases h
        cases h'
        exact Or.inl ⟨rfl, rfl⟩
      · rw [assembleInstruction, if_neg hblank] at h h'
        rw [branchOperand] at hbranch
        generalize stripComments s.stmt = line at *
        cases hmnemonic : Mnemonic.ofText (statementOp line) with
        | none =>
            rw [hmnemonic] at h
            cases h
        | some mnemonic =>
            rw [hmnemonic] at h h' hbranch
            dsimp only at h h'
            cases hop : mnemonic.isBranch with
            | true =>
                -- an accepted branch has its target operand
                rw [assembleMnemonic_branch hop] at h
                cases hfields : branchFields mnemonic (statementArgs line) line with
                | error e =>
                    rw [hfields] at h
                    cases h
                | ok found =>
                    have hfound := (branchFields_ok hop hfields).2
                    change targetOperand mnemonic (statementArgs line) = none at hbranch
                    rw [hbranch] at hfound
                    cases hfound
            | false =>
                have hsame : assembleMnemonic mnemonic (statementArgs line) line s.pc symbols
                    architecture = assembleMnemonic mnemonic (statementArgs line) line s.pc
                      symbols .singleCycle := by
                  cases mnemonic <;> first | rfl | cases hop
                rw [hsame] at h'
                cases hword : assembleMnemonic mnemonic (statementArgs line) line s.pc symbols
                    .singleCycle with
                | error e =>
                    rw [hword] at h
                    cases h
                | ok w =>
                    rw [hword] at h h'
                    cases h
                    cases h'
                    refine Or.inr ⟨w, w, rfl, rfl, Corresponds.same ?_⟩
                    rw [assembleMnemonic_opcode hop hword]
                    intro hop'
                    rw [Mnemonic.isBranch_of_opcode hop'] at hop
                    cases hop

/-- The words of a list of statements. -/
theorem words_correspond {symbols : Symbols} {architecture : Architecture}
    (harch : CountsFromNext architecture) {l : List Statement}
    (htarget : ∀ s ∈ l, LabelTarget symbols s) {ws ws' : List (Option Word)}
    (h : l.mapM (assembleStatement symbols .singleCycle) = .ok ws)
    (h' : l.mapM (assembleStatement symbols architecture) = .ok ws') :
    List.Forall₂ WordsCorrespond (ws.filterMap id) (ws'.filterMap id) := by
  induction l generalizing ws ws' with
  | nil =>
      cases h
      cases h'
      exact List.Forall₂.nil
  | cons s l ih =>
      obtain ⟨o, os, rfl, ho, hos⟩ := mapM_cons_ok h
      obtain ⟨o', os', rfl, ho', hos'⟩ := mapM_cons_ok h'
      have hrest := ih (fun x hx => htarget x (List.mem_cons_of_mem _ hx)) hos hos'
      rcases assembleInstruction_correspond (htarget s List.mem_cons_self) harch ho ho' with
        ⟨rfl, rfl⟩ | ⟨w, w', rfl, rfl, hw⟩
      · exact hrest
      · exact List.Forall₂.cons hw hrest

/-! ## Sources -/

/-- The target operand of an item. -/
def Item.target : Item → Option Text
  | .label .. => none
  | .statement _ stmt => branchOperand stmt

/-- The label an item defines. -/
def Item.defines : Item → Option Text
  | .label _ labelName => some labelName
  | .statement .. => none

/-- Every branch of a source goes to a label. -/
def BranchesToLabels (l : List Item) : Prop :=
  ∀ item ∈ l, ∀ target ∈ item.target, target ∈ l.filterMap Item.defines

theorem BranchesToLabels.label {l : List Item} (h : BranchesToLabels l) {n : Nat}
    {stmt target : Text} (hmem : Item.statement n stmt ∈ l)
    (hbranch : branchOperand stmt = some target) : ∃ m, Item.label m target ∈ l := by
  obtain ⟨item, hitem, hdefines⟩ := List.mem_filterMap.mp (h _ hmem target hbranch)
  cases item with
  | label m name =>
      cases hdefines
      exact ⟨m, hitem⟩
  | statement => cases hdefines

theorem mem_statementsFrom {step pc : Nat} {l : List Item} {s : Statement}
    (h : s ∈ statementsFrom step pc l) :
    Item.statement s.lineNum s.stmt ∈ l ∧ s.pc ≤ pc + step * statementCount l := by
  induction l generalizing pc with
  | nil => cases h
  | cons item l ih =>
      cases item with
      | label n name =>
          obtain ⟨hmem, hpc⟩ := ih h
          exact ⟨List.mem_cons_of_mem _ hmem, by rwa [statementCount_label]⟩
      | statement n stmt =>
          rw [statementCount_statement, Nat.mul_succ]
          rcases List.mem_cons.mp h with rfl | hrest
          · exact ⟨List.mem_cons_self, Nat.le_add_right _ _⟩
          · obtain ⟨hmem, hpc⟩ := ih hrest
            exact ⟨List.mem_cons_of_mem _ hmem, by omega⟩

/-- The words of a short source whose branches go to labels correspond. -/
theorem assemble_correspond {source : Source} {architecture : Architecture}
    (harch : CountsFromNext architecture) {words words' : List Word}
    (h : assemble source .singleCycle = .ok words)
    (h' : assemble source architecture = .ok words')
    (hshort : statementCount (items source.rawLines) ≤ 128)
    (hlabels : BranchesToLabels (items source.rawLines)) :
    List.Forall₂ WordsCorrespond words words' := by
  have hstep : pcStep architecture = 1 := by
    rcases harch with rfl | rfl <;> rfl
  obtain ⟨p, ws, hp, hscan, hws, rfl⟩ := assembleLines_ok h
  obtain ⟨p', ws', hp', -, hws', rfl⟩ := assembleLines_ok h'
  rw [hstep] at hp' hws'
  have heq : p' = p := Except.ok.inj (hp'.symm.trans hp)
  rw [heq] at hws'
  refine words_correspond harch ?_ hws hws'
  intro s hs target hbranch
  obtain ⟨hmem, hpc⟩ := mem_statementsFrom hs
  obtain ⟨m, hlabel⟩ := hlabels.label hmem hbranch
  obtain ⟨before, after, hsplit⟩ := List.append_of_mem hlabel
  have hlookup := (hscan.symbols target _).mpr ⟨before, m, after, hsplit, rfl⟩
  have hbefore : statementCount before ≤ statementCount (items source.rawLines) := by
    rw [hsplit, statementCount_append]
    omega
  simp only [pcStep, reduceCtorEq, if_false] at hlookup hpc
  exact ⟨_, hlookup, by omega, by omega⟩

theorem length_statementsFrom (step pc : Nat) (l : List Item) :
    (statementsFrom step pc l).length = statementCount l := by
  induction l generalizing pc with
  | nil => rfl
  | cons item l ih =>
      cases item with
      | label n name => rw [statementCount_label, ← ih pc, statementsFrom]
      | statement n stmt =>
          rw [statementCount_statement, ← ih (pc + step), statementsFrom, List.length_cons]

theorem length_of_mapM {symbols : Symbols} {architecture : Architecture} {l : List Statement}
    {ws : List (Option Word)} (h : l.mapM (assembleStatement symbols architecture) = .ok ws) :
    ws.length = l.length := by
  induction l generalizing ws with
  | nil =>
      cases h
      rfl
  | cons s l ih =>
      obtain ⟨o, os, rfl, -, hos⟩ := mapM_cons_ok h
      rw [List.length_cons, List.length_cons, ih hos]

/-- There is at most one word for each statement. -/
theorem length_le_statementCount {source : Source} {architecture : Architecture}
    {words : List Word} (h : assemble source architecture = .ok words) :
    words.length ≤ statementCount (items source.rawLines) := by
  obtain ⟨p, ws, -, -, hws, rfl⟩ := assembleLines_ok h
  rw [← length_statementsFrom (pcStep architecture) 0, ← length_of_mapM hws]
  exact List.length_filterMap_le id ws

end CpuSim.Assembler
