/-
  CpuSim.Pipelined.ProgramCounterWrite

  A write of R15 redirects the program counter from the writeback stage, and
  flushes nothing: the four instructions behind it are already in the pipeline.
  The write is a precise jump exactly when none of them takes effect, which they
  cannot once a taken branch in the execute stage has flushed two of them.
-/

import CpuSim.Pipelined.Refinement

namespace CpuSim.Pipelined

open CpuSim.Logic (mux)
open PipelinedCycleDatapath (resultW controlsM resolveBranch haltFetched)

variable {rom : Word → Word} {w : Nat} {writable : Nat → Bool} {o : Outputs} {readData : Word}

/-! ## What the stages hold in any run -/

/-- The execute stage holds some instruction with its own opcode beside it, the decode stage
    does unless it stalls, and only a load selects the memory for its result. -/
structure Tracked (o : Outputs) : Prop where
  execute : ∃ i, o.idEx.controls = ControlSignals.generate i ∧ o.exOpcode = i.opcode
  decode : o.ldrStall = false → o.idOpcode = o.decoded.opcode
  memory : o.exMem.controls.memToReg = true → o.exMem.controls.regWrite = true

/-- The empty word decodes to `NOP`, which drives no control signal. -/
theorem generate_empty :
    ControlSignals.generate (InstructionDecoder.decode ⟨0⟩) = {} ∧
      (InstructionDecoder.decode ⟨0⟩).opcode = .NOP := by
  decide

/-- Only a branch or a jump is taken. -/
theorem Tracked.taken (h : Tracked o) (htaken : o.executed.branchTaken = true) :
    o.idEx.controls.regWrite = false ∧ o.idEx.controls.memWrite = false ∧
      o.idEx.controls.memToReg = false ∧ o.exOpcode ≠ .HALT := by
  obtain ⟨i, hcontrols, hop⟩ := h.execute
  have hbranch : o.idEx.controls.branch = true := by
    by_contra hno
    rw [Bool.not_eq_true] at hno
    have hfalse : o.executed.branchTaken = false := by
      show resolveBranch o.idEx.controls.branch _ _ = false
      rw [hno]
      rfl
    rw [hfalse] at htaken
    cases htaken
  rw [hcontrols] at hbranch ⊢
  rw [hop]
  revert hbranch
  unfold ControlSignals.generate
  cases i.opcode <;> simp

/-- A load writes its register. -/
theorem Tracked.load (h : Tracked o) (hwrite : o.idEx.controls.regWrite = false) :
    o.idEx.controls.memToReg = false ∧ o.ldrStall = false := by
  obtain ⟨i, hcontrols, -⟩ := h.execute
  have hload : o.idEx.controls.memToReg = false := by
    rw [hcontrols] at hwrite ⊢
    revert hwrite
    unfold ControlSignals.generate
    cases i.opcode <;> simp
  exact ⟨hload, by rw [Outputs.ldrStall, hload, Bool.false_and]⟩

theorem Tracked.next (h : Tracked o) : Tracked (o.next rom w writable readData) := by
  refine ⟨?_, ?_, ?_⟩
  · cases hflush : o.hazard.flushE with
    | true =>
        -- a bubble is the empty word
        have hbubble : Bubble (o.next rom w writable readData) := next_bubble hflush
        refine ⟨InstructionDecoder.decode ⟨0⟩, ?_, ?_⟩
        · rw [hbubble.controls, generate_empty.1]
        · rw [hbubble.opcode, generate_empty.2]
    | false =>
        have htaken : o.executed.branchTaken = false := by
          cases htaken : o.executed.branchTaken with
          | false => rfl
          | true =>
              rw [(hazard_of_taken htaken).2.2.2] at hflush
              cases hflush
        have hstall : o.ldrStall = false := by
          rw [← (hazard_of_not_taken htaken).2.2.2, hflush]
        have hexec : Executing o.decoded (o.ifId.pcplus4 - 1) (o.next rom w writable readData) :=
          next_executing_decoded (BitVec.sub_add_cancel o.ifId.pcplus4 1).symm htaken hstall
            (h.decode hstall)
        exact ⟨o.decoded, hexec.controls, hexec.opcode⟩
  · intro hstall
    cases hflush : o.hazard.flushD with
    | false => exact next_idOpcode hflush hstall
    | true =>
        have hid : (o.next rom w writable readData).idOpcode = .NOP := by
          show (if o.hazard.flushD = true then _ else _) = _
          rw [hflush]
          rfl
        have hdecoded : (o.next rom w writable readData).decoded =
            InstructionDecoder.decode ⟨0⟩ := by
          show InstructionDecoder.decode ⟨(mux _ _ o.hazard.flushD : IF_ID).instruction⟩ = _
          rw [hflush]
          rfl
        rw [hid, hdecoded, generate_empty.2]
  · intro hload
    have hcontrols : (o.next rom w writable readData).exMem.controls =
        (controlsM o.idEx.controls o.executed.branchTaken).exMem := rfl
    rw [hcontrols] at hload ⊢
    cases htaken : o.executed.branchTaken with
    | true =>
        have hno := (h.taken htaken).2.2.1
        rw [htaken] at hload
        change o.idEx.controls.memToReg = true at hload
        rw [hno] at hload
        cases hload
    | false =>
        rw [htaken] at hload
        change o.idEx.controls.memToReg = true at hload
        change o.idEx.controls.regWrite = true
        by_contra hno
        rw [(h.load (eq_false_of_ne_true hno)).1] at hload
        cases hload

/-! ## Instructions that take no effect -/

/-- An instruction that writes nothing, does not stop the machine and goes on to the next
    address. -/
def Quiet (regs : Register → Word) (i : DecodedInstruction) : Prop :=
  match i.opcode with
  | .NOP | .undefined _ => True
  | .BEQ => regs i.rs1 ≠ regs i.rs2
  | .BNE => regs i.rs1 = regs i.rs2
  | _ => False

/-- Nothing takes effect behind the execute stage any more. -/
structure Settled (regs : Register → Word) (memory : Nat → Word) (o : Outputs) : Prop where
  regWriteW : o.memWb.controls.regWrite = false
  regWriteM : o.exMem.controls.regWrite = false
  memWriteM : o.exMem.controls.memWrite = false
  wbOpcode : o.wbOpcode ≠ .HALT
  memOpcode : o.memOpcode ≠ .HALT
  regs : o.regs = regs
  memory : o.memory = memory

/-- Nor in the execute stage. -/
structure Hushed (regs : Register → Word) (memory : Nat → Word) (o : Outputs) : Prop where
  settled : Settled regs memory o
  regWriteE : o.idEx.controls.regWrite = false
  memWriteE : o.idEx.controls.memWrite = false
  branchTakenE : o.executed.branchTaken = false
  exOpcode : o.exOpcode ≠ .HALT

theorem Settled.draining {regs : Register → Word} {memory : Nat → Word}
    (h : Settled regs memory o) (ht : Tracked o) (pc : Word) :
    o.Draining w writable { pc := pc, regs := regs, memory := memory } := by
  have hload : o.exMem.controls.memToReg ≠ true := by
    intro hload
    have hwrite := ht.memory hload
    rw [h.regWriteM] at hwrite
    cases hwrite
  constructor
  · rw [Outputs.regsM, Outputs.regsW, h.regWriteM, h.regWriteW]
    exact h.regs
  · rw [Outputs.memoryM, h.memWriteM]
    exact h.memory
  · intro h'
    exact absurd h' hload
  · rw [h.regWriteM]
    rintro ⟨⟩
  · rw [h.regWriteW]
    rintro ⟨⟩
  · exact h.wbOpcode

/-- An instruction in the execute stage is quiet when the stage sends nothing on. -/
theorem quiet_iff {i : DecodedInstruction} {pc : Word} (h : o.Draining w writable s)
    (he : Executing i pc o) :
    Quiet s.regs i ↔ o.idEx.controls.regWrite = false ∧ o.idEx.controls.memWrite = false ∧
      o.executed.branchTaken = false ∧ o.exOpcode ≠ .HALT := by
  rw [executed_branch h he, he.controls, he.opcode, Quiet]
  unfold ControlSignals.generate
  cases i.opcode <;> simp

/-! ## One cycle -/

/-- The memory stays when the memory stage writes none. -/
theorem next_memory_eq (hstore : o.exMem.controls.memWrite = false) :
    (o.next rom w writable readData).memory = o.memory := by
  show (if o.exMem.controls.memWrite = true then _ else _) = _
  rw [hstore]
  rfl

/-- After a cycle nothing takes effect any more when the memory stage and the execute stage
    had nothing to send on, and the decode stage is flushed or holds a quiet instruction. -/
theorem next_hushed_iff (h : Tracked o) (hstore : o.exMem.controls.memWrite = false) :
    Hushed o.regsW o.memory (o.next rom w writable readData) ↔
      o.exMem.controls.regWrite = false ∧ o.memOpcode ≠ .HALT ∧
        (o.executed.branchTaken = true ∨
          (o.idEx.controls.regWrite = false ∧ o.idEx.controls.memWrite = false ∧
            o.exOpcode ≠ .HALT ∧ Quiet o.regsW o.decoded)) := by
  have htracked : Tracked (o.next rom w writable readData) := h.next
  have hmemory : (o.next rom w writable readData).memory = o.memory := next_memory_eq hstore
  have hcontrols : (o.next rom w writable readData).exMem.controls =
      (controlsM o.idEx.controls o.executed.branchTaken).exMem := rfl
  have hdrain : Settled o.regsW o.memory (o.next rom w writable readData) →
      (o.next rom w writable readData).Draining w writable
        { pc := 0, regs := o.regsW, memory := o.memory } :=
    fun hsettled => hsettled.draining htracked 0
  cases htaken : o.executed.branchTaken with
  | true =>
      -- the taken branch leaves a bubble, and sends nothing on itself
      have hbubble : Bubble (o.next rom w writable readData) :=
        next_bubble (hazard_of_taken htaken).2.2.2
      obtain ⟨-, -, -, hex⟩ := h.taken htaken
      rw [htaken] at hcontrols
      constructor
      · intro hhush
        exact ⟨hhush.settled.regWriteW, hhush.settled.wbOpcode, Or.inl rfl⟩
      · rintro ⟨hwrite, hmem, -⟩
        refine ⟨⟨hwrite, ?_, ?_, hmem, hex, rfl, hmemory⟩, ?_, ?_, ?_, ?_⟩
        · rw [hcontrols]
          rfl
        · rw [hcontrols]
          rfl
        · rw [hbubble.controls]
        · rw [hbubble.controls]
        · exact (Bubble.hazard hbubble.controls).1
        · rw [hbubble.opcode]
          decide
  | false =>
      rw [htaken] at hcontrols
      have hwriteM : (o.next rom w writable readData).exMem.controls.regWrite =
          o.idEx.controls.regWrite := by rw [hcontrols]; rfl
      have hstoreM : (o.next rom w writable readData).exMem.controls.memWrite =
          o.idEx.controls.memWrite := by rw [hcontrols]; rfl
      -- the instruction of the decode stage is executed, there being no load to wait for
      have hexec : o.idEx.controls.regWrite = false →
          Executing o.decoded (o.ifId.pcplus4 - 1) (o.next rom w writable readData) := by
        intro hwrite
        have hstall : o.ldrStall = false := (h.load hwrite).2
        exact next_executing_decoded (BitVec.sub_add_cancel o.ifId.pcplus4 1).symm htaken hstall
          (h.decode hstall)
      constructor
      · intro hhush
        have hwrite : o.idEx.controls.regWrite = false :=
          hwriteM.symm.trans hhush.settled.regWriteM
        have hquiet : Quiet o.regsW o.decoded :=
          (quiet_iff (hdrain hhush.settled) (hexec hwrite)).mpr
            ⟨hhush.regWriteE, hhush.memWriteE, hhush.branchTakenE, hhush.exOpcode⟩
        exact ⟨hhush.settled.regWriteW, hhush.settled.wbOpcode,
          Or.inr ⟨hwrite, hstoreM.symm.trans hhush.settled.memWriteM, hhush.settled.memOpcode,
            hquiet⟩⟩
      · rintro ⟨hwrite, hmem, hcase⟩
        obtain ⟨hwriteE, hstoreE, hex, hquiet⟩ := hcase.resolve_left (by simp)
        have hsettled : Settled o.regsW o.memory (o.next rom w writable readData) :=
          ⟨hwrite, hwriteM.trans hwriteE, hstoreM.trans hstoreE, hmem, hex, rfl, hmemory⟩
        obtain ⟨hregs, hmem', hbranch, hop⟩ :=
          (quiet_iff (hdrain hsettled) (hexec hwriteE)).mp hquiet
        exact ⟨hsettled, hregs, hmem', hbranch, hop⟩

/-- Once hushed, a cycle depends on the decode stage alone. -/
theorem Hushed.next_iff {regs : Register → Word} {memory : Nat → Word} (h : Hushed regs memory o)
    (ht : Tracked o) :
    Hushed regs memory (o.next rom w writable readData) ↔ Quiet regs o.decoded := by
  have hregs : o.regsW = regs := by
    rw [Outputs.regsW, h.settled.regWriteW]
    exact h.settled.regs
  have hnext := @next_hushed_iff rom w writable o readData ht h.settled.memWriteM
  rw [hregs, h.settled.memory] at hnext
  rw [hnext]
  constructor
  · rintro ⟨-, -, htaken | ⟨-, -, -, hquiet⟩⟩
    · rw [h.branchTakenE] at htaken
      cases htaken
    · exact hquiet
  · intro hquiet
    exact ⟨h.settled.regWriteM, h.settled.memOpcode,
      Or.inr ⟨h.regWriteE, h.memWriteE, h.exOpcode, hquiet⟩⟩

/-- The decode stage of the next cycle, when the execute stage does not stall it. -/
theorem next_ifId (hstall : o.ldrStall = false) :
    (o.next rom w writable readData).ifId =
      if o.executed.branchTaken then {} else { instruction := rom o.pc, pcplus4 := o.pc + 1 } := by
  show mux (mux _ _ (!o.hazard.stallD)) _ o.hazard.flushD = _
  cases htaken : o.executed.branchTaken with
  | true =>
      rw [(hazard_of_taken htaken).2.2.1]
      rfl
  | false =>
      rw [(hazard_of_not_taken htaken).2.2.1, (hazard_of_not_taken htaken).2.1, hstall]
      rfl

/-- The writeback stage redirects the program counter, if no `HALT` and no load disables it. -/
theorem next_pc_of_write (hwrite : o.memWb.controls.regWrite = true) (hrd : o.memWb.rd = 15)
    (henable : o.pcEnable = true) :
    (o.next rom w writable readData).pc = resultW o.memWb := by
  show mux o.pc o.pcPrime o.pcEnable = _
  rw [henable, Outputs.pcPrime, hwrite, hrd]
  rfl

/-! ## Behind a hushed stage -/

/-- The writeback stage takes no effect any more. -/
structure Spent (regs : Register → Word) (memory : Nat → Word) (o : Outputs) : Prop where
  regWriteW : o.memWb.controls.regWrite = false
  wbOpcode : o.wbOpcode ≠ .HALT
  regs : o.regs = regs
  memory : o.memory = memory

theorem Settled.spent {regs : Register → Word} {memory : Nat → Word}
    (h : Settled regs memory o) : Spent regs memory o :=
  ⟨h.regWriteW, h.wbOpcode, h.regs, h.memory⟩

/-- The registers stay when the writeback stage writes none. -/
theorem Spent.next_regs {regs : Register → Word} {memory : Nat → Word}
    (h : Spent regs memory o) : (o.next rom w writable readData).regs = regs := by
  show (if o.memWb.controls.regWrite = true then _ else o.regs) = _
  rw [h.regWriteW]
  exact h.regs

/-- A hushed execute stage settles the memory stage. -/
theorem Hushed.next_settled {regs : Register → Word} {memory : Nat → Word}
    (h : Hushed regs memory o) : Settled regs memory (o.next rom w writable readData) := by
  have hcontrols : (o.next rom w writable readData).exMem.controls =
      (controlsM o.idEx.controls o.executed.branchTaken).exMem := rfl
  rw [h.branchTakenE] at hcontrols
  refine ⟨h.settled.regWriteM, ?_, ?_, h.settled.memOpcode, h.exOpcode, h.settled.spent.next_regs,
    (next_memory_eq h.settled.memWriteM).trans h.settled.memory⟩
  · rw [hcontrols]
    exact h.regWriteE
  · rw [hcontrols]
    exact h.memWriteE

/-- A settled memory stage leaves the writeback stage nothing. -/
theorem Settled.next_spent {regs : Register → Word} {memory : Nat → Word}
    (h : Settled regs memory o) : Spent regs memory (o.next rom w writable readData) :=
  ⟨h.regWriteM, h.memOpcode, h.spent.next_regs, (next_memory_eq h.memWriteM).trans h.memory⟩

/-- Whether a state was hushed shows in the writeback stage of three cycles. -/
theorem hushed_of_window {regs : Register → Word} {memory : Nat → Word} {o₁ o₂ : Outputs}
    {rom' : Word → Word} {readData' : Word}
    (h₁ : o₁ = o.next rom w writable readData) (h₂ : o₂ = o₁.next rom' w writable readData')
    (h : Spent regs memory o) (htaken : o.executed.branchTaken = false)
    (hstore : o.exMem.controls.memWrite = false) (hstore₁ : o₁.exMem.controls.memWrite = false)
    (hwrite₁ : o₁.memWb.controls.regWrite = false) (hwrite₂ : o₂.memWb.controls.regWrite = false)
    (hwb₁ : o₁.wbOpcode ≠ .HALT) (hwb₂ : o₂.wbOpcode ≠ .HALT) : Hushed regs memory o := by
  have hcontrols : o₁.exMem.controls = o.idEx.controls.exMem := by
    rw [h₁]
    show (controlsM o.idEx.controls o.executed.branchTaken).exMem = _
    rw [htaken]
    rfl
  subst h₂
  have hwriteE : o₁.exMem.controls.regWrite = false := hwrite₂
  have hopcode : o₁.memOpcode ≠ .HALT := hwb₂
  rw [hcontrols] at hstore₁ hwriteE
  subst h₁
  exact ⟨⟨h.regWriteW, hwrite₁, hstore, h.wbOpcode, hwb₁, h.regs, h.memory⟩, hwriteE, hstore₁,
    htaken, hopcode⟩

/-! ## The four instructions behind the write -/

/-- No instruction behind the writeback stage takes effect: the one in the memory stage writes
    nothing, and either a taken branch in the execute stage flushes the two behind it, or the
    three write nothing and go on to the next address. -/
structure JumpClear (rom : Word → Word) (o : Outputs) : Prop where
  regWriteM : o.exMem.controls.regWrite = false
  memWriteM : o.exMem.controls.memWrite = false
  memOpcode : o.memOpcode ≠ .HALT
  behind : o.executed.branchTaken = true ∨
    (o.idEx.controls.regWrite = false ∧ o.idEx.controls.memWrite = false ∧ o.exOpcode ≠ .HALT ∧
      Quiet o.regsW o.decoded ∧ Quiet o.regsW (instructionAt rom o.pc))

/-- The execute stage keeps the decode stage when it neither loads nor branches. -/
theorem JumpClear.not_stalled (h : JumpClear rom o) (ht : Tracked o) : o.ldrStall = false := by
  rcases h.behind with htaken | ⟨hwrite, -⟩
  · rw [Outputs.ldrStall, (ht.taken htaken).2.2.1, Bool.false_and]
  · exact (ht.load hwrite).2

/-- Then the program counter is enabled. -/
theorem JumpClear.pcEnable (h : JumpClear rom o) (ht : Tracked o) (hwb : o.wbOpcode ≠ .HALT) :
    o.pcEnable = true := by
  have hstall := h.not_stalled ht
  cases htaken : o.executed.branchTaken with
  | true =>
      rw [Outputs.pcEnable, htaken, (hazard_of_taken htaken).1]
      rfl
  | false =>
      rcases h.behind with hyes | ⟨-, -, hex, hquiet, -⟩
      · rw [htaken] at hyes
        cases hyes
      · have hd : o.decoded.opcode ≠ .HALT := by
          intro hop
          rw [Quiet, hop] at hquiet
          exact hquiet
        have hid : o.idOpcode ≠ .HALT := by
          rw [ht.decode hstall]
          exact hd
        rw [Outputs.pcEnable, htaken, (hazard_of_not_taken htaken).1, hstall, haltFetched,
          beq_eq_false_iff_ne.mpr hd, beq_eq_false_iff_ne.mpr hid, beq_eq_false_iff_ne.mpr hex,
          beq_eq_false_iff_ne.mpr h.memOpcode, beq_eq_false_iff_ne.mpr hwb]
        rfl

/-- The four instructions behind the write take no effect exactly when nothing takes effect
    after the first cycle, the decode stage included. -/
theorem jumpClear_iff (ht : Tracked o) (hstore : o.exMem.controls.memWrite = false) :
    (Hushed o.regsW o.memory (o.next rom w writable readData) ∧
        Quiet o.regsW (o.next rom w writable readData).decoded) ↔ JumpClear rom o := by
  constructor
  · rintro ⟨hfirst, hquiet⟩
    obtain ⟨hwrite, hmem, hbehind⟩ := (next_hushed_iff ht hstore).mp hfirst
    refine ⟨hwrite, hstore, hmem, ?_⟩
    cases htaken : o.executed.branchTaken with
    | true => exact Or.inl rfl
    | false =>
        rw [htaken] at hbehind
        obtain ⟨hwriteE, hstoreE, hex, hdecoded⟩ := hbehind.resolve_left (by simp)
        refine Or.inr ⟨hwriteE, hstoreE, hex, hdecoded, ?_⟩
        rw [Outputs.decoded, next_ifId (ht.load hwriteE).2, htaken] at hquiet
        exact hquiet
  · intro hclear
    have hfirst : Hushed o.regsW o.memory (o.next rom w writable readData) := by
      apply (next_hushed_iff ht hstore).mpr
      refine ⟨hclear.regWriteM, hclear.memOpcode, ?_⟩
      exact hclear.behind.imp_right fun h => ⟨h.1, h.2.1, h.2.2.1, h.2.2.2.1⟩
    refine ⟨hfirst, ?_⟩
    rw [Outputs.decoded, next_ifId (hclear.not_stalled ht)]
    cases htaken : o.executed.branchTaken with
    | true =>
        -- the flushed decode stage holds the empty word
        show Quiet o.regsW (InstructionDecoder.decode ⟨0⟩)
        rw [Quiet, generate_empty.2]
        exact trivial
    | false =>
        rcases hclear.behind with hyes | ⟨-, -, -, -, hquiet⟩
        · rw [htaken] at hyes
          cases hyes
        · exact hquiet

/-! ## The jump -/

namespace PipelinedCycleDatapath

variable {iw : Nat}

/-- The pipeline runs, and its writeback stage writes R15. -/
structure WritesR15 (d : PipelinedCycleDatapath iw w writable) (v : Word) : Prop where
  running : d.halted = false
  regWrite : d.memWb.output.controls.regWrite = true
  rd : d.memWb.output.rd = 15
  value : resultW d.memWb.output = v

/-- The write of `v` to R15 is a precise jump.  The four instructions behind it pass the memory
    stage in this step and the next three, and the writeback stage one step later; the
    instruction at `v`, fetched in the next step, is executed in the third. -/
structure PreciseJump (d : PipelinedCycleDatapath iw w writable) (v : Word) : Prop where
  redirected : d.step.programCounter.output = v
  running : ∀ k ≤ 4, (d.steps k).halted = false
  memWrite : ∀ k ≤ 3, (d.steps k).exMem.output.controls.memWrite = false
  regWrite : ∀ k ≤ 3, (d.steps (k + 1)).memWb.output.controls.regWrite = false
  branch : ∀ k ≤ 1, (d.steps (k + 1)).outputs.executed.branchTaken = false
  registers : ∀ k ≤ 4, (d.steps (k + 1)).registerFile.read =
    Function.update d.registerFile.read 15 v
  memory : ∀ k ≤ 4, (d.steps k).dataMem.contents = d.dataMem.contents
  target : Executing (instructionAt d.fetched v) v (d.steps 3).outputs

/-- What one step of a run does. -/
theorem next_of_step {d : PipelinedCycleDatapath iw w writable} (h : d.AtRest)
    (hrun : d.halted = false) :
    d.step.AtRest ∧ d.step.fetched = d.fetched ∧
      ∃ readData, d.step.outputs = d.outputs.next d.fetched w writable readData := by
  obtain ⟨hrest, hrom, readData, -, hnext⟩ := step_outputs h hrun
  refine ⟨hrest, ?_, readData, hnext⟩
  funext pc
  rw [fetched, fetched, hrom]

/-- A fresh pipeline is tracked. -/
theorem Fresh.tracked {d : PipelinedCycleDatapath iw w writable} (h : d.Fresh) :
    Tracked d.outputs := by
  refine ⟨⟨InstructionDecoder.decode ⟨0⟩, ?_, ?_⟩, ?_, ?_⟩
  · rw [generate_empty.1]
    exact h.idEx
  · rw [generate_empty.2]
    exact h.exOpcode
  · intro _
    have hdecoded : d.outputs.decoded = InstructionDecoder.decode ⟨0⟩ := by
      show InstructionDecoder.decode ⟨d.ifId.output.instruction⟩ = _
      rw [h.instruction]
    rw [hdecoded, generate_empty.2]
    exact h.idOpcode
  · intro hload
    have hempty : d.outputs.exMem.controls = {} := h.exMem
    rw [hempty] at hload
    cases hload

/-- In every run the stages are tracked. -/
theorem Fresh.steps_tracked {d : PipelinedCycleDatapath iw w writable} (h : d.Fresh) (n : Nat) :
    (d.steps n).AtRest ∧ Tracked (d.steps n).outputs := by
  induction n with
  | zero => exact ⟨h.rest, h.tracked⟩
  | succ n ih =>
      obtain ⟨hrest, htracked⟩ := ih
      show (d.steps n).step.AtRest ∧ Tracked (d.steps n).step.outputs
      cases hhalt : (d.steps n).halted with
      | true =>
          rw [step_of_halted hhalt]
          exact ⟨hrest, htracked⟩
      | false =>
          obtain ⟨hrest', -, readData, hnext⟩ := next_of_step hrest hhalt
          rw [hnext]
          exact ⟨hrest', htracked.next⟩

/-- The steps of a run that does not halt. -/
theorem steps_next {d : PipelinedCycleDatapath iw w writable} (h : d.AtRest) {k : Nat}
    (hrun : ∀ j ≤ k, (d.steps j).halted = false) :
    (d.steps (k + 1)).AtRest ∧ (d.steps (k + 1)).fetched = d.fetched ∧
      ∃ readData, (d.steps (k + 1)).outputs =
        (d.steps k).outputs.next d.fetched w writable readData := by
  induction k with
  | zero => exact next_of_step h (hrun 0 (Nat.le_refl 0))
  | succ k ih =>
      obtain ⟨hrest, hfetched, -⟩ := ih fun j hj => hrun j (Nat.le_succ_of_le hj)
      obtain ⟨hrest', hfetched', hnext⟩ := next_of_step hrest (hrun (k + 1) (Nat.le_refl _))
      rw [hfetched] at hfetched' hnext
      exact ⟨hrest', hfetched', hnext⟩

/-- The outputs of the step after. -/
theorem outputs_step {d : PipelinedCycleDatapath iw w writable} (h : d.AtRest) {k : Nat}
    (hrun : ∀ j ≤ k, (d.steps j).halted = false) :
    ∃ readData, (d.steps (k + 1)).outputs =
      (d.steps k).outputs.next d.fetched w writable readData :=
  (steps_next h hrun).2.2

theorem halted_iff {d : PipelinedCycleDatapath iw w writable} :
    d.halted = false ↔ d.outputs.wbOpcode ≠ .HALT :=
  beq_eq_false_iff_ne

theorem running_succ {d : PipelinedCycleDatapath iw w writable} {k : Nat}
    (hrun : ∀ j ≤ k, (d.steps j).halted = false)
    (hwb : (d.steps (k + 1)).outputs.wbOpcode ≠ .HALT) :
    ∀ j ≤ k + 1, (d.steps j).halted = false := by
  intro j hj
  rcases Nat.lt_or_eq_of_le hj with hlt | rfl
  · exact hrun j (Nat.le_of_lt_succ hlt)
  · exact halted_iff.mpr hwb

/-- The registers after the write. -/
theorem WritesR15.regsW {d : PipelinedCycleDatapath iw w writable} {v : Word}
    (h : d.WritesR15 v) : d.outputs.regsW = Function.update d.registerFile.read 15 v := by
  have hwrite : d.outputs.memWb.controls.regWrite = true := h.regWrite
  have hrd : d.outputs.memWb.rd = 15 := h.rd
  have hvalue : resultW d.outputs.memWb = v := h.value
  rw [Outputs.regsW, hwrite, hrd, hvalue]
  rfl

/-- If the jump is precise, the four instructions behind the write take no effect. -/
theorem PreciseJump.clear {d : PipelinedCycleDatapath iw w writable} {v : Word}
    (h : d.PreciseJump v) (hrest : d.AtRest) (htracked : Tracked d.outputs)
    (hw : d.WritesR15 v) : JumpClear d.fetched d.outputs := by
  have hrun : ∀ k ≤ 4, ∀ j ≤ k, (d.steps j).halted = false :=
    fun k hk j hj => h.running j (Nat.le_trans hj hk)
  obtain ⟨readData₀, h₀⟩ := outputs_step hrest (hrun 0 (by omega))
  obtain ⟨readData₁, h₁⟩ := outputs_step hrest (hrun 1 (by omega))
  obtain ⟨readData₂, h₂⟩ := outputs_step hrest (hrun 2 (by omega))
  obtain ⟨readData₃, h₃⟩ := outputs_step hrest (hrun 3 (by omega))
  have hwb : ∀ k ≤ 4, (d.steps k).outputs.wbOpcode ≠ .HALT :=
    fun k hk => halted_iff.mp (h.running k hk)
  have hspent : ∀ k ≤ 3,
      Spent d.outputs.regsW d.outputs.memory (d.steps (k + 1)).outputs := by
    intro k hk
    refine ⟨h.regWrite k hk, hwb (k + 1) (by omega), ?_, h.memory (k + 1) (by omega)⟩
    rw [hw.regsW]
    exact h.registers k (by omega)
  have hfirst : Hushed d.outputs.regsW d.outputs.memory (d.steps 1).outputs :=
    hushed_of_window h₁ h₂ (hspent 0 (by omega)) (h.branch 0 (by omega))
      (h.memWrite 1 (by omega)) (h.memWrite 2 (by omega)) (h.regWrite 1 (by omega))
      (h.regWrite 2 (by omega)) (hwb 2 (by omega)) (hwb 3 (by omega))
  have hsecond : Hushed d.outputs.regsW d.outputs.memory (d.steps 2).outputs :=
    hushed_of_window h₂ h₃ (hspent 1 (by omega)) (h.branch 1 (by omega))
      (h.memWrite 2 (by omega)) (h.memWrite 3 (by omega)) (h.regWrite 2 (by omega))
      (h.regWrite 3 (by omega)) (hwb 3 (by omega)) (hwb 4 (by omega))
  have htracked₁ : Tracked (d.steps 1).outputs := by
    rw [h₀]
    exact htracked.next
  rw [h₁] at hsecond
  have hquiet := (hfirst.next_iff htracked₁).mp hsecond
  rw [h₀] at hfirst hquiet
  exact (jumpClear_iff htracked (h.memWrite 0 (by omega))).mp ⟨hfirst, hquiet⟩

/-- If they take none, the jump is precise. -/
theorem precise_of_clear {d : PipelinedCycleDatapath iw w writable} {v : Word}
    (hclear : JumpClear d.fetched d.outputs) (hrest : d.AtRest) (htracked : Tracked d.outputs)
    (hw : d.WritesR15 v) : d.PreciseJump v := by
  have hrun₀ : ∀ j ≤ 0, (d.steps j).halted = false := by
    intro j hj
    rw [Nat.le_zero.mp hj]
    exact hw.running
  obtain ⟨readData₀, h₀⟩ := outputs_step hrest hrun₀
  have hboth : Hushed d.outputs.regsW d.outputs.memory (d.steps 1).outputs ∧
      Quiet d.outputs.regsW (d.steps 1).outputs.decoded := by
    rw [h₀]
    exact (jumpClear_iff htracked hclear.memWriteM).mpr hclear
  obtain ⟨hfirst, hquiet⟩ := hboth
  -- each step shows that the pipeline does not halt in the next one
  have hrun₁ := running_succ hrun₀ hfirst.settled.wbOpcode
  obtain ⟨readData₁, h₁⟩ := outputs_step hrest hrun₁
  have htracked₁ : Tracked (d.steps 1).outputs := by
    rw [h₀]
    exact htracked.next
  have hsecond : Hushed d.outputs.regsW d.outputs.memory (d.steps 2).outputs := by
    rw [h₁]
    exact (hfirst.next_iff htracked₁).mpr hquiet
  have hrun₂ := running_succ hrun₁ hsecond.settled.wbOpcode
  obtain ⟨readData₂, h₂⟩ := outputs_step hrest hrun₂
  have hthird : Settled d.outputs.regsW d.outputs.memory (d.steps 3).outputs := by
    rw [h₂]
    exact hsecond.next_settled
  have hrun₃ := running_succ hrun₂ hthird.wbOpcode
  obtain ⟨readData₃, h₃⟩ := outputs_step hrest hrun₃
  have hfourth : Spent d.outputs.regsW d.outputs.memory (d.steps 4).outputs := by
    rw [h₃]
    exact hthird.next_spent
  have hrun₄ := running_succ hrun₃ hfourth.wbOpcode
  obtain ⟨readData₄, h₄⟩ := outputs_step hrest hrun₄
  have hspent : ∀ k ≤ 3,
      Spent d.outputs.regsW d.outputs.memory (d.steps (k + 1)).outputs := by
    intro k hk
    interval_cases k
    · exact hfirst.settled.spent
    · exact hsecond.settled.spent
    · exact hthird.spent
    · exact hfourth
  have hpc : (d.steps 1).outputs.pc = v := by
    rw [h₀, ← hw.value]
    exact next_pc_of_write hw.regWrite hw.rd
      (hclear.pcEnable htracked (halted_iff.mp hw.running))
  constructor
  · exact hpc
  · exact hrun₄
  · intro k hk
    interval_cases k
    · exact hclear.memWriteM
    · exact hfirst.settled.memWriteM
    · exact hsecond.settled.memWriteM
    · exact hthird.memWriteM
  · intro k hk
    exact (hspent k hk).regWriteW
  · intro k hk
    interval_cases k
    · exact hfirst.branchTakenE
    · exact hsecond.branchTakenE
  · intro k hk
    rw [← hw.regsW]
    rcases Nat.lt_or_eq_of_le hk with hlt | rfl
    · exact (hspent k (by omega)).regs
    · show (d.steps 5).outputs.regs = _
      rw [h₄]
      exact hfourth.next_regs
  · intro k hk
    cases k with
    | zero => rfl
    | succ k => exact (hspent k (by omega)).memory
  · -- the instruction at the new address has passed the decode stage behind two hushed cycles
    have hifId : (d.steps 2).outputs.ifId =
        { instruction := d.fetched v, pcplus4 := v + 1 } := by
      rw [h₁, next_ifId (htracked₁.load hfirst.regWriteE).2, hfirst.branchTakenE, hpc]
      rfl
    have htracked₂ : Tracked (d.steps 2).outputs := by
      rw [h₁]
      exact htracked₁.next
    have hstall : (d.steps 2).outputs.ldrStall = false := (htracked₂.load hsecond.regWriteE).2
    rw [h₂]
    exact next_executing hifId hsecond.branchTakenE hstall (htracked₂.decode hstall)

/-- In every run a write of `v` to R15 is a precise jump exactly when none of the four
    instructions behind it can take effect. -/
theorem writesR15_precise_iff {d : PipelinedCycleDatapath iw w writable} (h : d.Fresh) (n : Nat)
    {v : Word} (hw : (d.steps n).WritesR15 v) :
    (d.steps n).PreciseJump v ↔ JumpClear (d.steps n).fetched (d.steps n).outputs := by
  obtain ⟨hrest, htracked⟩ := h.steps_tracked n
  constructor
  · intro hprecise
    exact hprecise.clear hrest htracked hw
  · intro hclear
    exact precise_of_clear hclear hrest htracked hw

/-- A program in a pipeline that has not run. -/
def loaded (instructions : List Word) : PipelinedCycleDatapath 8 8 (Logic.Memory.upperHalf 8) :=
  ({} : PipelinedCycleDatapath 8 8 (Logic.Memory.upperHalf 8)).loadInstructions instructions

theorem loaded_fresh (instructions : List Word) : (loaded instructions).Fresh :=
  ⟨⟨rfl, rfl⟩, rfl, rfl, rfl, rfl, rfl, rfl, rfl, rfl, rfl⟩

/-- `LI r15, 5` before four `NOP`s jumps to `LI r1, 7`. -/
theorem writesR15_precise_iff_nops :
    ((loaded [0x1FC00005, 0, 0, 0, 0, 0x1C400007, 0x38000000]).steps 4).PreciseJump 5 := by
  have hw : ((loaded [0x1FC00005, 0, 0, 0, 0, 0x1C400007, 0x38000000]).steps 4).WritesR15 5 :=
    ⟨by decide +kernel, by decide +kernel, by decide +kernel, by decide +kernel⟩
  have hclear : JumpClear
      ((loaded [0x1FC00005, 0, 0, 0, 0, 0x1C400007, 0x38000000]).steps 4).fetched
      ((loaded [0x1FC00005, 0, 0, 0, 0, 0x1C400007, 0x38000000]).steps 4).outputs := by
    refine ⟨by decide +kernel, by decide +kernel, by decide +kernel, Or.inr ⟨by decide +kernel,
      by decide +kernel, by decide +kernel, ?_, ?_⟩⟩
    · have hnop : ((loaded [0x1FC00005, 0, 0, 0, 0, 0x1C400007, 0x38000000]).steps
          4).outputs.decoded.opcode = .NOP := by decide +kernel
      rw [Quiet, hnop]
      exact trivial
    · have hnop : (instructionAt
          ((loaded [0x1FC00005, 0, 0, 0, 0, 0x1C400007, 0x38000000]).steps 4).fetched
          ((loaded [0x1FC00005, 0, 0, 0, 0, 0x1C400007, 0x38000000]).steps
            4).outputs.pc).opcode = .NOP := by decide +kernel
      rw [Quiet, hnop]
      exact trivial
  exact (writesR15_precise_iff (loaded_fresh _) 4 hw).mpr hclear

/-- `LI r15, 5; LI r1, 1`: the instruction behind the write still writes its register. -/
theorem jump_not_precise :
    ((loaded [0x1FC00005, 0x1C400001, 0, 0, 0, 0x38000000]).steps 4).WritesR15 5 ∧
      ((loaded [0x1FC00005, 0x1C400001, 0, 0, 0, 0x38000000]).steps 6).registerFile.read 1 = 1 ∧
        ¬ ((loaded [0x1FC00005, 0x1C400001, 0, 0, 0, 0x38000000]).steps 4).PreciseJump 5 := by
  refine ⟨⟨by decide +kernel, by decide +kernel, by decide +kernel, by decide +kernel⟩,
    by decide +kernel, ?_⟩
  intro h
  have hwrite := h.regWrite 0 (Nat.zero_le 3)
  rw [← steps_add] at hwrite
  have hyes : ((loaded [0x1FC00005, 0x1C400001, 0, 0, 0, 0x38000000]).steps
      5).memWb.output.controls.regWrite = true := by decide +kernel
  rw [hyes] at hwrite
  cases hwrite

end PipelinedCycleDatapath

end CpuSim.Pipelined
