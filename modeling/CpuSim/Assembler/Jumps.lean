/-
  CpuSim.Assembler.Jumps

  Jumps to labels.  The assembler writes the address of the label into a `J`; the CPUs read
  that number as an absolute address, as an offset, or not at all.
-/

import CpuSim.Assembler.Labels
import CpuSim.Assembler.RoundTrip
import CpuSim.SuperScalar.Unexecuted

namespace CpuSim.Assembler

open CpuSim.Lib (Text)
open InstructionDecoder (decode)

/-! ## Jump statements -/

/-- The target operand of a jump statement. -/
def jumpOperand (stmt : Text) : Option Text :=
  if Mnemonic.ofText (statementOp (stripComments stmt)) = some .j then
    (statementArgs (stripComments stmt))[0]?
  else none

/-- The statement behind the items `pre` jumps to the label behind the items `before`. -/
def LabelJump (l pre before : List Item) : Prop :=
  ∃ lineNum stmt post n labelName after, l = pre ++ .statement lineNum stmt :: post ∧
    jumpOperand stmt = some labelName ∧ l = before ++ .label n labelName :: after

/-- The word of a jump to an address. -/
def jumpWord (target : Nat) : Word := encodeJ .J (BitVec.ofInt 32 ((target : Int) % 2 ^ 26))

/-- A jump statement with a known label holds the address of the label. -/
theorem assembleInstruction_jump {stmt labelName : Text} {pc target : Nat} {symbols : Symbols}
    {architecture : Architecture} {o : Option Word} (hjump : jumpOperand stmt = some labelName)
    (hsymbol : symbols.lookup labelName = some target)
    (h : assembleInstruction stmt pc symbols architecture = .ok o) :
    o = some (jumpWord target) := by
  rw [jumpOperand] at hjump
  split at hjump
  · next hmnemonic =>
      have hne : stripComments stmt ≠ [] := by
        intro hblank
        rw [hblank] at hmnemonic
        revert hmnemonic
        decide
      rw [assembleInstruction, if_neg hne, hmnemonic] at h
      change some <$> assembleJ (statementArgs (stripComments stmt)) symbols = .ok o at h
      rw [assembleJ, operand, hjump] at h
      simp only [Option.elim_some, bind, Except.bind, hsymbol, pure, Except.pure] at h
      cases h
      rfl
  · cases hjump

/-- The word of a jump to a label, in an accepted source. -/
theorem labelJump_word {source : Source} {architecture : Architecture} {words : List Word}
    (h : assemble source architecture = .ok words) {pre before : List Item}
    (hjump : LabelJump (items source.rawLines) pre before) :
    words[emittedCount pre]? =
      some (jumpWord (pcStep architecture * statementCount before)) := by
  obtain ⟨p, ws, -, hscan, hws, rfl⟩ := assembleLines_ok h
  obtain ⟨lineNum, stmt, post, n, labelName, after, hl, hoperand, hl'⟩ := hjump
  rw [hl] at hws
  obtain ⟨o, ho, hword⟩ := words_getElem hws
  -- the symbol table holds the address of the label
  have hsymbol := (hscan.symbols labelName _).mpr ⟨before, n, after, hl', rfl⟩
  exact hword _ (assembleInstruction_jump hoperand hsymbol ho)

/-! ## The immediate -/

theorem decode_jumpWord (target : Nat) :
    (decode ⟨jumpWord target⟩).opcode = .J ∧
      (decode ⟨jumpWord target⟩).immediate.toNat % 2 ^ 26 = target % 2 ^ 26 := by
  have hopcode : (Instruction.mk (jumpWord target)).opcode = .J :=
    opcode_encodeJ (show Defined .J from rfl) _
  have himmediate : (decode ⟨jumpWord target⟩).immediate =
      InstructionDecoder.jumpImmediate (jumpWord target) := by
    unfold decode
    rw [hopcode]
    rfl
  constructor
  · rw [InstructionDecoder.decode_opcode, hopcode]
  · rw [himmediate, jumpImmediate_low, jumpWord, toNat_encodeJ, BitVec.toNat_ofInt]
    omega

/-- In a memory of at most 2^26 words the immediate stands for the address. -/
theorem jumpWord_mod {target w : Nat} (hw : w ≤ 26) :
    (decode ⟨jumpWord target⟩).immediate.toNat % 2 ^ w = target % 2 ^ w := by
  have hdvd : 2 ^ w ∣ 2 ^ 26 := Nat.pow_dvd_pow 2 hw
  rw [← Nat.mod_mod_of_dvd _ hdvd, (decode_jumpWord target).2, Nat.mod_mod_of_dvd _ hdvd]

/-- Addresses wrap around in the memory as they do in a word. -/
theorem wordOf_add {w : Nat} (hw : w ≤ 26) (a b : Word) :
    Logic.Memory.wordOf w (a + b) = (Logic.Memory.wordOf w a + b.toNat % 2 ^ w) % 2 ^ w := by
  have hdvd : 2 ^ w ∣ 2 ^ 32 := Nat.pow_dvd_pow 2 (by omega)
  rw [Logic.Memory.wordOf, Logic.Memory.wordOf, BitVec.toNat_add, Nat.mod_mod_of_dvd _ hdvd,
    ← Nat.add_mod]

/-! ## Jumps on the four CPUs -/

section Sites

variable (iw w : Nat) (writable : Nat → Bool) (cfg : SuperScalar.Config) (words : List Word)
  (k : Nat)

/-- A CPU with the program in its memory that has the jump in word `k` to execute: about to
    fetch it, with it in the execute stage, or with it in flight. -/
inductive JumpSite : Architecture → Type where
  | singleCycle (d : SingleCycle.SingleCycleDatapath iw w writable) (rest : d.AtRest)
      (word : words[k]? = some (d.instructionMem k))
      (pc : Logic.Memory.wordOf iw d.programCounter.output = k) : JumpSite .singleCycle
  | multiCycle (d : MultiCycle.MultiCycleDatapath w writable) (rest : d.AtRest)
      (state : d.fsm.currentState = .FETCH) (word : words[k]? = some (d.memory.contents k))
      (pc : Logic.Memory.wordOf w d.programCounter.output = k) : JumpSite .multiCycle
  | pipelined (d : Pipelined.PipelinedCycleDatapath iw w writable) (rest : d.AtRest)
      (running : d.halted = false) (word pc : Word) (fetched : words[k]? = some word)
      (address : Logic.Memory.wordOf iw pc = k) (pcplus4 : d.outputs.idEx.pcplus4 = pc + 1)
      (immediate : d.outputs.idEx.immediate = (decode ⟨word⟩).immediate)
      (controls : d.outputs.idEx.controls = Pipelined.ControlSignals.generate (decode ⟨word⟩))
      (opcode : d.exOpcode = (decode ⟨word⟩).opcode) : JumpSite .pipelined
  | superscalar (data : List (Nat × Word)) (n : Nat) (pre post : List SuperScalar.ROBEntry)
      (e : SuperScalar.ROBEntry)
      (window : (SuperScalar.SuperScalarCPU.run (SuperScalar.SuperScalarCPU.boot cfg words data)
        n).rob.window = pre ++ e :: post)
      (word : words[k]? = some e.instruction)
      (pc : SuperScalar.InstructionMemory.convertAddress cfg.romAddressWidth e.pc = k) :
      JumpSite .superscalar

end Sites

namespace JumpSite

variable {iw w : Nat} {writable : Nat → Bool} {cfg : SuperScalar.Config} {words : List Word}
  {k : Nat} {architecture : Architecture}

/-- The number of the word the CPU executes next, if the jump is executed: the one at the new
    program counter, in the pipeline with nothing left in front of the execute stage, and in
    the superscalar CPU the one behind the completed jump. -/
def next : JumpSite iw w writable cfg words k architecture → Option Nat
  | .singleCycle d .. => some (Logic.Memory.wordOf iw d.cycle.programCounter.output)
  | .multiCycle d .. =>
    some (Logic.Memory.wordOf w
      (d.cycles (MultiCycle.MultiCycleDatapath.cyclesOf .J)).programCounter.output)
  | .pipelined d .. =>
    if d.step.ifId.output = {} ∧ d.step.idEx.output = {} then
      some (Logic.Memory.wordOf iw d.step.programCounter.output)
    else none
  | .superscalar _ _ _ post e .. =>
    if e.completed then
      post.head?.map fun e' =>
        SuperScalar.InstructionMemory.convertAddress cfg.romAddressWidth e'.pc
    else none

/-- Where the memory of the CPU holds a word of the program. -/
def place (_ : JumpSite iw w writable cfg words k architecture) (m : Nat) : Nat :=
  match architecture with
  | .singleCycle | .pipelined => m % 2 ^ iw
  | .multiCycle => m % 2 ^ w
  | .superscalar => m % 2 ^ cfg.romAddressWidth

/-- When the jump leads to word `m`, with `blanks` statements without a word in front of it:
    the single-cycle CPU adds the address to that of the jump, the pipeline to the one behind
    the jump (unless a write of R15 redirects it in the same cycle), the multi-cycle CPU takes
    it as it is, and the superscalar CPU never executes a jump. -/
def Lands (m blanks : Nat) : JumpSite iw w writable cfg words k architecture → Prop
  | .singleCycle .. => 2 ^ iw ∣ k + blanks
  | .multiCycle .. => 2 ^ w ∣ blanks
  | .pipelined d .. =>
    if d.memWb.output.controls.regWrite && d.memWb.output.rd == 15 then
      Logic.Memory.wordOf iw (Pipelined.PipelinedCycleDatapath.resultW d.memWb.output) =
        m % 2 ^ iw
    else 2 ^ iw ∣ k + 1 + blanks
  | .superscalar .. => False

end JumpSite

/-- An offset brings back to the same place exactly when the size of the memory divides it. -/
theorem add_mod_eq_iff {size offset m : Nat} :
    (offset + m) % size = m % size ↔ size ∣ offset := by
  constructor
  · intro h
    have hmod : offset + m ≡ 0 + m [MOD size] := by
      rw [Nat.zero_add]
      exact h
    exact Nat.modEq_zero_iff_dvd.mp (Nat.ModEq.add_right_cancel' m hmod)
  · rintro ⟨c, rfl⟩
    rw [Nat.mul_comm, Nat.add_comm, Nat.add_mul_mod_self_right]

section Targets

variable {iw w : Nat} {writable : Nat → Bool} {target : Nat}

/-- The single-cycle CPU adds the immediate to the program counter. -/
theorem singleCycle_jump {d : SingleCycle.SingleCycleDatapath iw w writable} (h : d.AtRest)
    (hiw : iw ≤ 26)
    (hword : d.instructionMem (Logic.Memory.wordOf iw d.programCounter.output) =
      jumpWord target) :
    Logic.Memory.wordOf iw d.cycle.programCounter.output =
      (Logic.Memory.wordOf iw d.programCounter.output + target) % 2 ^ iw := by
  have hfetch : d.fetch d.architecture = decode ⟨jumpWord target⟩ := by
    rw [← hword]
    rfl
  have hop : (d.fetch d.architecture).opcode = .J := by
    rw [hfetch]
    exact (decode_jumpWord target).1
  have hne : (d.fetch d.architecture).opcode ≠ .HALT := by
    rw [hop]
    decide
  have hstep : d.cycle.programCounter.output =
      d.programCounter.output + (d.fetch d.architecture).immediate := by
    have harch := congrArg Isa.State.pc (SingleCycle.SingleCycleDatapath.cycle_architecture h)
    rw [Isa.State.step_of_ne hne] at harch
    refine harch.trans ?_
    show Isa.State.nextPc _ _ _ = _
    rw [Isa.State.nextPc, hop]
    rfl
  rw [hstep, hfetch, wordOf_add hiw, jumpWord_mod hiw, Nat.add_mod_mod]

/-- The multi-cycle CPU takes the immediate as the address. -/
theorem multiCycle_jump {d : MultiCycle.MultiCycleDatapath w writable} (h : d.AtRest)
    (hstate : d.fsm.currentState = .FETCH) (hw : w ≤ 26)
    (hword : d.memory.contents (Logic.Memory.wordOf w d.programCounter.output) =
      jumpWord target) :
    Logic.Memory.wordOf w
        (d.cycles (MultiCycle.MultiCycleDatapath.cyclesOf .J)).programCounter.output =
      target % 2 ^ w := by
  have hfetch : MultiCycle.MultiCycleDatapath.fetch w d.architecture =
      decode ⟨jumpWord target⟩ := by
    rw [← hword]
    rfl
  have hop : (MultiCycle.MultiCycleDatapath.fetch w d.architecture).opcode = .J := by
    rw [hfetch]
    exact (decode_jumpWord target).1
  obtain ⟨harch, -⟩ := MultiCycle.MultiCycleDatapath.instruction_cycles h hstate
  rw [hop] at harch
  have hpc := congrArg Isa.State.pc harch
  have hnext : (d.cycles (MultiCycle.MultiCycleDatapath.cyclesOf .J)).programCounter.output =
      (MultiCycle.MultiCycleDatapath.fetch w d.architecture).immediate := by
    refine hpc.trans ?_
    show Isa.State.nextPc _ _ _ = _
    rw [Isa.State.nextPc, hop]
    rfl
  rw [hnext, hfetch]
  exact jumpWord_mod hw

/-- A jump in the execute stage flushes the stages behind it; the program counter goes to the
    sum of its own address, one and the immediate, unless R15 is written. -/
theorem pipelined_jump {d : Pipelined.PipelinedCycleDatapath iw w writable} (h : d.AtRest)
    (hrun : d.halted = false) (hbranch : d.outputs.idEx.controls.branch = true)
    (hop : d.exOpcode = .J) :
    d.step.ifId.output = {} ∧ d.step.idEx.output = {} ∧
      d.step.programCounter.output =
        if d.memWb.output.controls.regWrite && d.memWb.output.rd == 15 then
          Pipelined.PipelinedCycleDatapath.resultW d.memWb.output
        else d.outputs.idEx.pcplus4 + d.outputs.idEx.immediate := by
  obtain ⟨-, -, readData, -, hnext⟩ := Pipelined.PipelinedCycleDatapath.step_outputs h hrun
  have htaken : d.outputs.executed.branchTaken = true := by
    show Pipelined.PipelinedCycleDatapath.resolveBranch d.outputs.idEx.controls.branch
      d.exOpcode _ = true
    rw [hbranch, hop]
    rfl
  obtain ⟨hstallF, -, hflushD, hflushE⟩ := Pipelined.hazard_of_taken htaken
  have henable : d.outputs.pcEnable = true := by
    rw [Pipelined.Outputs.pcEnable, htaken, hstallF]
    rfl
  refine ⟨?_, ?_, ?_⟩
  · have hifId := congrArg Pipelined.Outputs.ifId hnext
    refine hifId.trans ?_
    show Logic.mux _ _ d.outputs.hazard.flushD = _
    rw [hflushD]
    rfl
  · have hidEx := congrArg Pipelined.Outputs.idEx hnext
    refine hidEx.trans ?_
    show Logic.mux _ _ d.outputs.hazard.flushE = _
    rw [hflushE]
    rfl
  · have hpc := congrArg Pipelined.Outputs.pc hnext
    refine hpc.trans ?_
    show Logic.mux d.outputs.pc d.outputs.pcPrime d.outputs.pcEnable = _
    rw [henable]
    show d.outputs.pcPrime = _
    rw [Pipelined.Outputs.pcPrime, htaken]
    rfl

end Targets

/-- A jump to a label leads to the statement behind the label exactly where it lands. -/
theorem next_iff_lands {iw w : Nat} {writable : Nat → Bool} {cfg : SuperScalar.Config}
    {source : Source} {architecture : Architecture} {words : List Word} {pre before : List Item}
    (h : assemble source architecture = .ok words)
    (hjump : LabelJump (items source.rawLines) pre before) (hiw : iw ≤ 26) (hw : w ≤ 26)
    (site : JumpSite iw w writable cfg words (emittedCount pre) architecture) :
    site.next = some (site.place (emittedCount before)) ↔
      site.Lands (emittedCount before) (blankCount before) := by
  have hword := labelJump_word h hjump
  have hcount := emittedCount_add_blankCount before
  have hsum : ∀ offset : Nat, offset + statementCount before =
      (offset + blankCount before) + emittedCount before := by omega
  cases site with
  | singleCycle d rest word pc =>
      rw [hword] at word
      simp only [pcStep, reduceCtorEq, if_false, Nat.one_mul] at word
      have hat : d.instructionMem (Logic.Memory.wordOf iw d.programCounter.output) =
          jumpWord (statementCount before) := by
        rw [pc]
        exact (Option.some.inj word).symm
      show some (Logic.Memory.wordOf iw d.cycle.programCounter.output) =
        some (emittedCount before % 2 ^ iw) ↔ 2 ^ iw ∣ emittedCount pre + blankCount before
      rw [Option.some.injEq, singleCycle_jump rest hiw hat, pc, hsum]
      exact add_mod_eq_iff
  | multiCycle d rest state word pc =>
      rw [hword] at word
      simp only [pcStep, reduceCtorEq, if_false, Nat.one_mul] at word
      have hat : d.memory.contents (Logic.Memory.wordOf w d.programCounter.output) =
          jumpWord (statementCount before) := by
        rw [pc]
        exact (Option.some.inj word).symm
      show some (Logic.Memory.wordOf w (d.cycles _).programCounter.output) =
        some (emittedCount before % 2 ^ w) ↔ 2 ^ w ∣ blankCount before
      have hzero := hsum 0
      rw [Nat.zero_add, Nat.zero_add] at hzero
      rw [Option.some.injEq, multiCycle_jump rest state hw hat, hzero]
      exact add_mod_eq_iff
  | pipelined d rest running word pc fetched address pcplus4 immediate controls opcode =>
      rw [hword] at fetched
      simp only [pcStep, reduceCtorEq, if_false, Nat.one_mul] at fetched
      cases fetched
      obtain ⟨hop, -⟩ := decode_jumpWord (statementCount before)
      have hbranch : d.outputs.idEx.controls.branch = true := by
        rw [controls, Pipelined.ControlSignals.generate, hop]
      obtain ⟨hifId, hidEx, hpc⟩ := pipelined_jump rest running hbranch (opcode.trans hop)
      show (if d.step.ifId.output = {} ∧ d.step.idEx.output = {} then
          some (Logic.Memory.wordOf iw d.step.programCounter.output) else none) =
        some (emittedCount before % 2 ^ iw) ↔ if _ then _ else _
      rw [if_pos ⟨hifId, hidEx⟩, Option.some.injEq, hpc]
      split
      · rfl
      · have hsucc : Logic.Memory.wordOf iw
            (pc + 1 + (decode ⟨jumpWord (statementCount before)⟩).immediate) =
              (emittedCount pre + 1 + statementCount before) % 2 ^ iw := by
          rw [wordOf_add hiw, wordOf_add hiw, jumpWord_mod hiw, address,
            show (1 : Word).toNat = 1 from rfl, Nat.add_mod_mod, Nat.add_mod_mod,
            Nat.mod_add_mod]
        rw [pcplus4, immediate, hsucc, hsum]
        exact add_mod_eq_iff
  | superscalar data n pre' post e window word pc =>
      -- a jump is never completed
      rw [hword] at word
      have hmem : e ∈ (SuperScalar.SuperScalarCPU.run
          (SuperScalar.SuperScalarCPU.boot cfg words data) n).rob.window := by
        rw [window]
        simp
      have hdecoded := (SuperScalar.SuperScalarCPU.run_sound_fence cfg words data n).1.inFlight
      have hop : e.opcode = .J := by
        rw [(hdecoded.entryDecoded e hmem).opcode, SuperScalar.decodeWord_opcode,
          ← Option.some.inj word]
        exact (decode_jumpWord _).1
      have hopen : e.completed = false := by
        apply SuperScalar.SuperScalarCPU.run_unfinished cfg words data n e hmem
        rw [hop]
        exact SuperScalar.SuperScalarCPU.unexecutable_J
      show (if e.completed = true then _ else none) = some _ ↔ False
      rw [hopen, if_neg Bool.false_ne_true]
      simp

/-- A jump to a label leads to the statement behind the label exactly where it lands; in a
    text, and in a list of single lines, no comment is in the way. -/
theorem label_jumps_reach {iw w : Nat} {writable : Nat → Bool} {cfg : SuperScalar.Config}
    {source : Source} {architecture : Architecture} {words : List Word} {pre before : List Item}
    (h : assemble source architecture = .ok words)
    (hjump : LabelJump (items source.rawLines) pre before) (hiw : iw ≤ 26) (hw : w ≤ 26)
    (site : JumpSite iw w writable cfg words (emittedCount pre) architecture) :
    (site.next = some (site.place (emittedCount before)) ↔
        site.Lands (emittedCount before) (blankCount before)) ∧
      (((∃ s, source = .text s) ∨ ∀ line ∈ source.rawLines, OneLine line) →
        blankCount before = 0) := by
  refine ⟨next_iff_lands h hjump hiw hw site, ?_⟩
  intro hsource
  obtain ⟨lineNum, stmt, post, n, labelName, after, -, -, hl⟩ := hjump
  rcases hsource with ⟨s, rfl⟩ | hlines
  · exact blankCount_of_oneLine (Source.text_oneLine s) hl
  · exact blankCount_of_oneLine hlines hl

/-- A jump over a `NOP`. -/
def jumpOver : Source := .text "nop\nj end\nnop\nend: halt".toList

theorem jumpOver_labelJump :
    LabelJump (items jumpOver.rawLines) [.statement 1 "nop".toList]
      [.statement 1 "nop".toList, .statement 2 "j end".toList, .statement 3 "nop".toList] :=
  ⟨2, "j end".toList,
    [.statement 3 "nop".toList, .label 4 "end".toList, .statement 4 "halt".toList], 4,
    "end".toList, [.statement 4 "halt".toList], by decide +kernel, by decide +kernel,
    by decide +kernel⟩

/-- Its words, for the CPUs that count words. -/
def jumpOverWords : List Word := [0, 0x34000003, 0, 0x38000000]

/-- The multi-cycle CPU behind the first `NOP`. -/
def multiCycleSite : JumpSite 8 8 (Logic.Memory.upperHalf 8) .default jumpOverWords 1 .multiCycle :=
  .multiCycle
    ((({} : MultiCycle.MultiCycleDatapath 8 (Logic.Memory.upperHalf 8)).loadInstructions
      jumpOverWords).resetDatapath.cycles 2)
    ⟨by decide +kernel, by decide +kernel⟩ (by decide +kernel) (by decide +kernel)
    (by decide +kernel)

/-- There the jump goes to the `HALT`. -/
theorem label_jumps_reach_multiCycle : multiCycleSite.next = some 3 := by
  have hwords : assemble jumpOver .multiCycle = .ok jumpOverWords := by decide +kernel
  obtain ⟨hiff, hblank⟩ :=
    label_jumps_reach hwords jumpOver_labelJump (by decide) (by decide) multiCycleSite
  apply hiff.mpr
  show 2 ^ 8 ∣ blankCount _
  rw [hblank (Or.inl ⟨_, rfl⟩)]
  exact Nat.dvd_zero _

/-- The single-cycle CPU behind the first `NOP`. -/
def singleCycleSite :
    JumpSite 8 8 (Logic.Memory.upperHalf 8) .default jumpOverWords 1 .singleCycle :=
  .singleCycle
    (({} : SingleCycle.SingleCycleDatapath 8 8 (Logic.Memory.upperHalf 8)).loadInstructions
      jumpOverWords).cycle
    ⟨rfl, rfl⟩ (by decide +kernel) (by decide +kernel)

/-- There the jump goes one word past the `HALT`. -/
theorem label_jump_misses :
    assemble jumpOver .singleCycle = .ok jumpOverWords ∧
      LabelJump (items jumpOver.rawLines) [.statement 1 "nop".toList]
        [.statement 1 "nop".toList, .statement 2 "j end".toList, .statement 3 "nop".toList] ∧
      singleCycleSite.place 3 = 3 ∧ singleCycleSite.next = some 4 := by
  refine ⟨by decide +kernel, jumpOver_labelJump, rfl, ?_⟩
  decide +kernel

end CpuSim.Assembler
