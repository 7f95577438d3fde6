/-
  CpuSim.Pipelined.Refinement

  The pipeline against the sequential machine.  In every state the instructions behind the
  execute stage bring the registers and the memory to those of a sequential state, and the
  stages before it hold the instructions that follow in that state, as far as no bubble
  stands in for them.
-/

import CpuSim.Pipelined.Forwarding
import Mathlib.Tactic.IntervalCases

namespace CpuSim.Pipelined

open CpuSim.Logic (mux)
open PipelinedCycleDatapath (execute hazardInputs resultW operandD haltFetched)

variable {rom : Word → Word} {w : Nat} {writable : Nat → Bool} {s : Isa.State} {o : Outputs}
  {readData : Word}

/-! ## The hazard unit -/

/-- A load-use stall, before a taken branch overrides it. -/
def Outputs.ldrStall (o : Outputs) : Bool :=
  o.idEx.controls.memToReg && (o.idEx.rd == o.decoded.rs1 || o.idEx.rd == o.decoded.rs2)

theorem hazard_of_taken (h : o.executed.branchTaken = true) :
    o.hazard.stallF = false ∧ o.hazard.stallD = false ∧ o.hazard.flushD = true ∧
      o.hazard.flushE = true := by
  show (if o.executed.branchTaken = true then _ else _) = false ∧
    (if o.executed.branchTaken = true then _ else _) = false ∧ o.executed.branchTaken = true ∧
      (if o.executed.branchTaken = true then _ else _) = true
  rw [h]
  exact ⟨rfl, rfl, rfl, rfl⟩

theorem hazard_of_not_taken (h : o.executed.branchTaken = false) :
    o.hazard.stallF = o.ldrStall ∧ o.hazard.stallD = o.ldrStall ∧ o.hazard.flushD = false ∧
      o.hazard.flushE = o.ldrStall := by
  show (if o.executed.branchTaken = true then _ else _) = _ ∧
    (if o.executed.branchTaken = true then _ else _) = _ ∧ o.executed.branchTaken = false ∧
      (if o.executed.branchTaken = true then _ else _) = _
  rw [h]
  exact ⟨rfl, rfl, rfl, rfl⟩

/-- Without a load-use hazard the decode stage is not stalled, branch or not. -/
theorem stallD_of_not_ldrStall (h : o.ldrStall = false) : o.hazard.stallD = false := by
  cases htaken : o.executed.branchTaken with
  | true => exact (hazard_of_taken htaken).2.1
  | false => rw [(hazard_of_not_taken htaken).2.1, h]

/-- A bubble takes no branch and loads nothing. -/
theorem Bubble.hazard (he : o.idEx.controls = {}) :
    o.executed.branchTaken = false ∧ o.ldrStall = false := by
  constructor
  · show PipelinedCycleDatapath.resolveBranch o.idEx.controls.branch _ _ = false
    rw [he]
    rfl
  · rw [Outputs.ldrStall, he]
    rfl

/-! ## The front of the pipeline -/

/-- The decode stage holds the instruction at an address, and the program counter is behind
    it. -/
structure Decoding (rom : Word → Word) (pc : Word) (o : Outputs) : Prop where
  ifId : o.ifId = { instruction := rom pc, pcplus4 := pc + 1 }
  pc : o.pc = pc + 1

/-- The stages up to execute, for a sequential state, and in how many cycles at most an
    instruction is executed or the pipeline stops. -/
inductive Front (rom : Word → Word) (s : Isa.State) (o : Outputs) : Nat → Prop where
  /-- The next two instructions are in the execute and decode stages. -/
  | full (he : Executing (instructionAt rom s.pc) s.pc o) (hd : Decoding rom (s.pc + 1) o)
      (hrun : (instructionAt rom s.pc).opcode ≠ .HALT) (hmem : o.memOpcode ≠ .HALT)
      (hid : o.ldrStall = false → o.idOpcode = o.decoded.opcode) : Front rom s o 1
  /-- `HALT` is in the execute stage. -/
  | halting (he : Executing (instructionAt rom s.pc) s.pc o)
      (hhalt : (instructionAt rom s.pc).opcode = .HALT) (hmem : o.memOpcode ≠ .HALT) :
      Front rom s o 1
  /-- The next instruction is in the decode stage, behind a bubble. -/
  | refilled (he : Bubble o) (hd : Decoding rom s.pc o) (hmem : o.memOpcode ≠ .HALT)
      (hid : o.idOpcode = o.decoded.opcode) : Front rom s o 2
  /-- The decode and execute stages have been flushed. -/
  | flushed (he : Bubble o) (hd : o.ifId.instruction = 0) (hpc : o.pc = s.pc)
      (hmem : o.memOpcode ≠ .HALT) (hid : o.idOpcode = .NOP) : Front rom s o 3
  /-- `HALT` is in the memory stage. -/
  | halted (hhalt : (instructionAt rom s.pc).opcode = .HALT) (hmem : o.memOpcode = .HALT)
      (hcontrols : o.exMem.controls = {}) : Front rom s o 0

/-- The pipeline runs at a sequential state. -/
structure Running (rom : Word → Word) (w : Nat) (writable : Nat → Bool) (s : Isa.State)
    (o : Outputs) (rank : Nat) : Prop where
  front : Front rom s o rank
  draining : o.Draining w writable s

/-- The pipeline has stopped at a sequential state. -/
structure Stopped (rom : Word → Word) (s : Isa.State) (o : Outputs) : Prop where
  halt : (instructionAt rom s.pc).opcode = .HALT
  wbOpcode : o.wbOpcode = .HALT
  regs : o.regs = s.regs
  memory : o.memory = s.memory

/-! ## One cycle -/

/-- Where the program counter goes while R15 is not written. -/
theorem next_pc (h : o.Draining w writable s) :
    (o.next rom w writable readData).pc =
      mux o.pc (mux (o.pc + 1) o.executed.branchTarget o.executed.branchTaken) o.pcEnable := by
  have hr15 : (o.memWb.controls.regWrite && o.memWb.rd == 15) = false := by
    rw [Bool.and_eq_false_imp]
    intro hwrite
    rw [beq_eq_false_iff_ne]
    exact h.r15W hwrite
  show mux o.pc o.pcPrime o.pcEnable = _
  rw [Outputs.pcPrime, hr15]
  rfl

/-- The bypass reads what the register file holds after the cycle. -/
theorem operandD_eq (o : Outputs) (source : Register) :
    operandD o.regs o.memWb source = (o.next rom w writable readData).regs source := by
  have hregs : (o.next rom w writable readData).regs =
      if o.memWb.controls.regWrite then Function.update o.regs o.memWb.rd (resultW o.memWb)
      else o.regs := rfl
  rw [operandD, hregs]
  cases hwrite : o.memWb.controls.regWrite with
  | false => rfl
  | true =>
      rw [Bool.true_and, if_pos rfl, Function.update_apply]
      by_cases hrd : o.memWb.rd = source
      · rw [if_pos (beq_iff_eq.mpr hrd), if_pos hrd.symm]
      · rw [if_neg (fun h => hrd (beq_iff_eq.mp h)), if_neg (Ne.symm hrd)]

/-- The decode stage moves to the execute stage, whatever it holds. -/
theorem next_executing_decoded {pc : Word} (hpc : o.ifId.pcplus4 = pc + 1)
    (htaken : o.executed.branchTaken = false) (hstall : o.ldrStall = false)
    (hid : o.idOpcode = o.decoded.opcode) :
    Executing o.decoded pc (o.next rom w writable readData) := by
  obtain ⟨-, -, -, hflush⟩ := hazard_of_not_taken htaken
  rw [hstall] at hflush
  have hidEx : (o.next rom w writable readData).idEx =
      { pcplus4 := o.ifId.pcplus4
        readData1 := operandD o.regs o.memWb o.decoded.rs1
        readData2 := operandD o.regs o.memWb o.decoded.rs2
        immediate := o.decoded.immediate
        rs := o.decoded.rs1
        rt := o.decoded.rs2
        rd := o.decoded.rd
        controls := ControlSignals.generate o.decoded } := by
    show mux _ _ o.hazard.flushE = _
    rw [hflush]
    rfl
  have hop : (o.next rom w writable readData).exOpcode = o.idOpcode := by
    show (if o.hazard.flushE = true then _ else _) = _
    rw [hflush]
    rfl
  rw [hid] at hop
  constructor
  · rw [hidEx, hpc]
  · rw [hidEx]
  · rw [hidEx]
  · rw [hidEx]
  · rw [hidEx]
  · rw [hidEx]
  · rw [hidEx]
    exact operandD_eq o _
  · rw [hidEx]
    exact operandD_eq o _
  · exact hop
  · -- a load that leaves the execute stage did not stall the decode stage
    intro hload
    have hmem : o.idEx.controls.memToReg = true := by
      rw [← hload]
      show _ = (PipelinedCycleDatapath.controlsM _ _).exMem.memToReg
      rw [htaken]
      rfl
    rw [Outputs.ldrStall, hmem, Bool.true_and, Bool.or_eq_false_iff] at hstall
    exact ⟨beq_eq_false_iff_ne.mp hstall.1, beq_eq_false_iff_ne.mp hstall.2⟩

/-- The instruction at an address moves from the decode stage to the execute stage. -/
theorem next_executing {pc : Word} (hd : o.ifId = { instruction := rom pc, pcplus4 := pc + 1 })
    (htaken : o.executed.branchTaken = false) (hstall : o.ldrStall = false)
    (hid : o.idOpcode = o.decoded.opcode) :
    Executing (instructionAt rom pc) pc (o.next rom w writable readData) := by
  have hdecoded : o.decoded = instructionAt rom pc := by
    rw [Outputs.decoded, hd]
    rfl
  rw [← hdecoded]
  exact next_executing_decoded (by rw [hd]) htaken hstall hid

/-- A flushed execute stage holds a bubble. -/
theorem next_bubble (hflush : o.hazard.flushE = true) :
    Bubble (o.next rom w writable readData) := by
  constructor
  · show (mux _ _ o.hazard.flushE : ID_EX).controls = {}
    rw [hflush]
    rfl
  · show (if o.hazard.flushE = true then _ else _) = _
    rw [hflush]
    rfl

/-- The opcode tracked for the decode stage is the one it holds, unless it stalls. -/
theorem next_idOpcode (hflush : o.hazard.flushD = false)
    (hstall : (o.next rom w writable readData).ldrStall = false) :
    (o.next rom w writable readData).idOpcode =
      (o.next rom w writable readData).decoded.opcode := by
  have hsettled : (o.settled rom w writable readData).hazard.stallD = false :=
    stallD_of_not_ldrStall hstall
  show (if o.hazard.flushD = true then _
    else if (!(o.settled rom w writable readData).hazard.stallD) = true then _ else _) = _
  rw [hflush, hsettled]
  rfl

/-- The fetch stage moves to the decode stage. -/
theorem next_decoding (h : o.Draining w writable s) (htaken : o.executed.branchTaken = false)
    (hstall : o.ldrStall = false) (hd : o.decoded.opcode ≠ .HALT) (hid : o.idOpcode ≠ .HALT)
    (hex : o.exOpcode ≠ .HALT) (hmem : o.memOpcode ≠ .HALT) :
    Decoding rom o.pc (o.next rom w writable readData) := by
  obtain ⟨hstallF, hstallD, hflush, -⟩ := hazard_of_not_taken htaken
  rw [hstall] at hstallF hstallD
  have henable : o.pcEnable = true := by
    rw [Outputs.pcEnable, htaken, hstallF, haltFetched, beq_eq_false_iff_ne.mpr hd,
      beq_eq_false_iff_ne.mpr hid, beq_eq_false_iff_ne.mpr hex, beq_eq_false_iff_ne.mpr hmem,
      beq_eq_false_iff_ne.mpr h.wbOpcode]
    rfl
  constructor
  · show mux (mux _ _ (!o.hazard.stallD)) _ o.hazard.flushD = _
    rw [hstallD, hflush]
    rfl
  · rw [next_pc h, henable, htaken]
    rfl

/-! ## One cycle of each front -/

/-- The decode stage moves on behind a bubble, or behind an instruction that does not stall
    it. -/
theorem front_advance (h : o.Draining w writable s) {s' : Isa.State}
    (hd : Decoding rom s'.pc o) (htaken : o.executed.branchTaken = false)
    (hstall : o.ldrStall = false) (hid : o.idOpcode = o.decoded.opcode)
    (hex : o.exOpcode ≠ .HALT) (hmem : o.memOpcode ≠ .HALT) :
    Front rom s' (o.next rom w writable readData) 1 := by
  have hexec : Executing (instructionAt rom s'.pc) s'.pc (o.next rom w writable readData) :=
    next_executing hd.ifId htaken hstall hid
  have hdecoded : o.decoded = instructionAt rom s'.pc := by
    rw [Outputs.decoded, hd.ifId]
    rfl
  by_cases hhalt : (instructionAt rom s'.pc).opcode = .HALT
  · exact Front.halting hexec hhalt hex
  · have hne : o.decoded.opcode ≠ .HALT := by
      rw [hdecoded]
      exact hhalt
    have hid' : o.idOpcode ≠ .HALT := by
      rw [hid]
      exact hne
    have hdec : Decoding rom o.pc (o.next rom w writable readData) :=
      next_decoding h htaken hstall hne hid' hex hmem
    rw [hd.pc] at hdec
    exact Front.full hexec hdec hhalt hex
      (next_idOpcode (hazard_of_not_taken htaken).2.2.1)

/-- After a flush the decode stage is refilled. -/
theorem front_flushed (h : o.Draining w writable s) (he : Bubble o)
    (hd : o.ifId.instruction = 0) (hpc : o.pc = s.pc) (hmem : o.memOpcode ≠ .HALT)
    (hid : o.idOpcode = .NOP) :
    Front rom s (o.next rom w writable readData) 2 := by
  obtain ⟨htaken, hstall⟩ := Bubble.hazard he.controls
  have hdecoded : o.decoded = InstructionDecoder.decode ⟨0⟩ := by
    rw [Outputs.decoded, hd]
  have hnop : o.decoded.opcode = .NOP := by
    rw [hdecoded]
    decide
  have hex : o.exOpcode ≠ .HALT := by
    rw [he.opcode]
    decide
  have hdec : Decoding rom o.pc (o.next rom w writable readData) :=
    next_decoding h htaken hstall (by rw [hnop]; decide) (by rw [hid]; decide) hex hmem
  rw [hpc] at hdec
  -- the empty decode stage becomes a bubble
  have hflush : o.hazard.flushE = false := by
    rw [(hazard_of_not_taken htaken).2.2.2, hstall]
  have hbubble : Bubble (o.next rom w writable readData) := by
    constructor
    · show (mux _ _ o.hazard.flushE : ID_EX).controls = {}
      rw [hflush]
      show ControlSignals.generate o.decoded = {}
      rw [hdecoded]
      decide
    · show (if o.hazard.flushE = true then _ else _) = _
      rw [hflush]
      exact hid
  exact Front.refilled hbubble hdec hex
    (next_idOpcode (hazard_of_not_taken htaken).2.2.1 (Bubble.hazard hbubble.controls).2)

/-- The sequential machine of a pipeline. -/
def fetch (rom : Word → Word) (s : Isa.State) : DecodedInstruction := instructionAt rom s.pc

/-- Only branches and jumps leave the next address. -/
theorem exec_pc_of_not_taken {i : DecodedInstruction} {pc : Word}
    (h : o.Draining w writable s) (he : Executing i pc o)
    (htaken : o.executed.branchTaken = false) :
    (s.exec (machine w writable) i).pc = s.pc + 1 := by
  rw [executed_branch h he] at htaken
  show Isa.State.nextPc _ _ _ = _
  unfold Isa.State.nextPc
  cases hop : i.opcode with
  | BEQ =>
      simp only [hop] at htaken
      exact if_neg (by simpa using htaken)
  | BNE =>
      simp only [hop] at htaken
      exact if_neg (by simpa using htaken)
  | J =>
      simp only [hop] at htaken
      cases htaken
  | _ => rfl

/-- A taken branch goes to its target. -/
theorem exec_pc_of_taken {i : DecodedInstruction} (h : o.Draining w writable s)
    (he : Executing i s.pc o) (htaken : o.executed.branchTaken = true) :
    (s.exec (machine w writable) i).pc = o.executed.branchTarget := by
  have htarget : o.executed.branchTarget = s.pc + 1 + i.immediate := by
    show o.idEx.pcplus4 + o.idEx.immediate = _
    rw [he.pcplus4, he.immediate]
  rw [htarget]
  rw [executed_branch h he] at htaken
  show Isa.State.nextPc _ _ _ = _
  unfold Isa.State.nextPc
  cases hop : i.opcode with
  | BEQ =>
      simp only [hop] at htaken
      exact if_pos (by simpa using htaken)
  | BNE =>
      simp only [hop] at htaken
      exact if_pos (by simpa using htaken)
  | J => rfl
  | _ =>
      simp only [hop] at htaken
      cases htaken

/-- An instruction that is not `HALT` leaves the execute stage: the front fits the next
    sequential state. -/
theorem front_full (h : o.Draining w writable s)
    (he : Executing (instructionAt rom s.pc) s.pc o) (hd : Decoding rom (s.pc + 1) o)
    (hrun : (instructionAt rom s.pc).opcode ≠ .HALT) (hmem : o.memOpcode ≠ .HALT)
    (hid : o.ldrStall = false → o.idOpcode = o.decoded.opcode) :
    ∃ rank, Front rom (s.exec (machine w writable) (instructionAt rom s.pc))
      (o.next rom w writable readData) rank := by
  have hex : o.exOpcode ≠ .HALT := by
    rw [he.opcode]
    exact hrun
  cases htaken : o.executed.branchTaken with
  | true =>
      -- a taken branch flushes both stages and redirects the program counter
      obtain ⟨hstallF, -, hflushD, hflushE⟩ := hazard_of_taken htaken
      have henable : o.pcEnable = true := by
        rw [Outputs.pcEnable, htaken, hstallF]
        rfl
      refine ⟨3, Front.flushed (next_bubble hflushE) ?_ ?_ hex ?_⟩
      · show (mux _ _ o.hazard.flushD : IF_ID).instruction = 0
        rw [hflushD]
        rfl
      · rw [next_pc h, henable, htaken, exec_pc_of_taken h he htaken]
        rfl
      · show (if o.hazard.flushD = true then _ else _) = _
        rw [hflushD]
        rfl
  | false =>
      have hpc := exec_pc_of_not_taken h he htaken
      cases hstall : o.ldrStall with
      | true =>
          -- a load-use stall holds the decode stage and the program counter
          obtain ⟨hstallF, hstallD, hflushD, hflushE⟩ := hazard_of_not_taken htaken
          rw [hstall] at hstallF hstallD hflushE
          have henable : o.pcEnable = false := by
            rw [Outputs.pcEnable, hstallF, Bool.not_true, Bool.and_false]
          have hbubble : Bubble (o.next rom w writable readData) := next_bubble hflushE
          refine ⟨2, Front.refilled hbubble ⟨?_, ?_⟩ hex
            (next_idOpcode hflushD (Bubble.hazard hbubble.controls).2)⟩
          · rw [hpc, ← hd.ifId]
            show mux (mux _ _ (!o.hazard.stallD)) _ o.hazard.flushD = _
            rw [hstallD, hflushD]
            rfl
          · rw [next_pc h, henable, hpc, ← hd.pc]
            rfl
      | false =>
          refine ⟨1, front_advance h ?_ htaken hstall (hid hstall) hex hmem⟩
          rw [hpc]
          exact hd

/-! ## Runs -/

/-- The program at hand does not write R15 in a state. -/
def SparesR15 (rom : Word → Word) (w : Nat) (writable : Nat → Bool) (s : Isa.State) : Prop :=
  (s.result (machine w writable) (fetch rom s)).isSome → (fetch rom s).rd ≠ 15

/-- One cycle of a running pipeline: it comes closer to the next instruction, or executes it,
    or stops. -/
theorem Running.next {rank : Nat} (h : Running rom w writable s o rank)
    (hread : Reads w o readData) (h15 : SparesR15 rom w writable s) :
    (∃ rank' < rank, Running rom w writable s (o.next rom w writable readData) rank') ∨
      ((fetch rom s).opcode ≠ .HALT ∧
        ∃ rank', Running rom w writable (s.step (machine w writable) (fetch rom))
          (o.next rom w writable readData) rank') ∨
      Stopped rom s (o.next rom w writable readData) := by
  obtain ⟨hfront, hdrain⟩ := h
  cases hfront with
  | full he hd hrun hmem hid =>
      obtain ⟨rank', hfront'⟩ := @front_full _ _ _ _ _ readData hdrain he hd hrun hmem hid
      refine Or.inr (Or.inl ⟨hrun, rank', ?_⟩)
      rw [Isa.State.step_of_ne hrun]
      exact ⟨hfront', hdrain.exec hread he h15 hmem⟩
  | halting he hhalt hmem =>
      have hgenerate : ControlSignals.generate (instructionAt rom s.pc) = {} := by
        rw [ControlSignals.generate, hhalt]
      have hcontrols : (o.next rom w writable readData).exMem.controls = {} := by
        rw [next_controls hdrain he, hgenerate]
        rfl
      have hopcode : (o.next rom w writable readData).memOpcode = .HALT := by
        rw [← hhalt, ← he.opcode]
        rfl
      refine Or.inl ⟨0, by decide, Front.halted hhalt hopcode hcontrols, ?_⟩
      apply hdrain.bubble hread _ hmem
      rw [he.controls, hgenerate]
  | refilled he hd hmem hid =>
      obtain ⟨htaken, hstall⟩ := Bubble.hazard he.controls
      have hex : o.exOpcode ≠ .HALT := by
        rw [he.opcode]
        decide
      exact Or.inl ⟨1, by decide, front_advance hdrain hd htaken hstall hid hex hmem,
        hdrain.bubble hread he.controls hmem⟩
  | flushed he hd hpc hmem hid =>
      exact Or.inl ⟨2, by decide, front_flushed hdrain he hd hpc hmem hid,
        hdrain.bubble hread he.controls hmem⟩
  | halted hhalt hmem hcontrols =>
      refine Or.inr (Or.inr ⟨hhalt, hmem, ?_, next_memory hdrain⟩)
      -- the HALT in the memory stage writes nothing after the writeback stage
      rw [← hdrain.regs, Outputs.regsM, hcontrols]
      rfl

namespace PipelinedCycleDatapath

variable {iw : Nat}

/-- A pipeline that is about to fetch from address 0: nothing is in flight. -/
structure Fresh (d : PipelinedCycleDatapath iw w writable) : Prop where
  rest : d.AtRest
  pc : d.programCounter.output = 0
  instruction : d.ifId.output.instruction = 0
  idEx : d.idEx.output.controls = {}
  exMem : d.exMem.output.controls = {}
  memWb : d.memWb.output.controls = {}
  idOpcode : d.idOpcode = .NOP
  exOpcode : d.exOpcode = .NOP
  memOpcode : d.memOpcode = .NOP
  wbOpcode : d.wbOpcode = .NOP

/-- The sequential machine starts at address 0 with the registers and the memory of the
    pipeline. -/
def sequentialStart (d : PipelinedCycleDatapath iw w writable) : Isa.State where
  pc := 0
  regs := d.registerFile.read
  memory := d.dataMem.contents

/-- The sequential state after `k` instructions. -/
def sequential (d : PipelinedCycleDatapath iw w writable) (k : Nat) : Isa.State :=
  d.sequentialStart.steps (machine w writable) (fetch d.fetched) k

/-- A pipeline between two steps of a run of the program of `d0`. -/
structure Along (d0 d : PipelinedCycleDatapath iw w writable) : Prop where
  rest : d.AtRest
  instructionMem : d.instructionMem = d0.instructionMem

/-- It runs at the sequential state after `k` instructions. -/
def RunningAt (d0 : PipelinedCycleDatapath iw w writable) (k rank : Nat)
    (d : PipelinedCycleDatapath iw w writable) : Prop :=
  Along d0 d ∧ Running d0.fetched w writable (d0.sequential k) d.outputs rank

/-- It has stopped there. -/
def StoppedAt (d0 : PipelinedCycleDatapath iw w writable) (k : Nat)
    (d : PipelinedCycleDatapath iw w writable) : Prop :=
  Along d0 d ∧ Stopped d0.fetched (d0.sequential k) d.outputs

/-- A fresh pipeline runs at the start of the program. -/
theorem Fresh.running {d : PipelinedCycleDatapath iw w writable} (h : d.Fresh) :
    d.RunningAt 0 3 d := by
  have hmem : d.outputs.memOpcode ≠ .HALT := by
    show d.memOpcode ≠ .HALT
    rw [h.memOpcode]
    decide
  refine ⟨⟨h.rest, rfl⟩,
    Front.flushed ⟨h.idEx, h.exOpcode⟩ h.instruction h.pc hmem h.idOpcode, ?_⟩
  have hexMem : d.outputs.exMem.controls = {} := h.exMem
  have hmemWb : d.outputs.memWb.controls = {} := h.memWb
  constructor
  · rw [Outputs.regsM, Outputs.regsW, hexMem, hmemWb]
    rfl
  · rw [Outputs.memoryM, hexMem]
    rfl
  · rw [hexMem]
    intro hload
    cases hload
  · rw [hexMem]
    intro hstore
    cases hstore
  · rw [hmemWb]
    intro hload
    cases hload
  · show d.wbOpcode ≠ .HALT
    rw [h.wbOpcode]
    decide

/-- One step of a run. -/
theorem RunningAt.step {d0 d : PipelinedCycleDatapath iw w writable} {k rank : Nat}
    (h : d0.RunningAt k rank d) (h15 : SparesR15 d0.fetched w writable (d0.sequential k)) :
    (∃ rank' < rank, d0.RunningAt k rank' d.step) ∨
      ((fetch d0.fetched (d0.sequential k)).opcode ≠ .HALT ∧
        ∃ rank', d0.RunningAt (k + 1) rank' d.step) ∨
      d0.StoppedAt k d.step := by
  obtain ⟨⟨hrest, hrom⟩, hrun⟩ := h
  have hnot : d.halted = false := beq_eq_false_iff_ne.mpr hrun.draining.wbOpcode
  obtain ⟨hrest', hrom', readData, hread, hnext⟩ := step_outputs hrest hnot
  have hfetched : d.fetched = d0.fetched := by
    funext pc
    rw [fetched, fetched, hrom]
  have halong : Along d0 d.step := ⟨hrest', hrom'.trans hrom⟩
  have hstep := hrun.next hread h15
  rw [← hfetched, ← hnext, hfetched] at hstep
  rcases hstep with ⟨rank', hlt, hsame⟩ | ⟨hne, rank', hmore⟩ | hstop
  · exact Or.inl ⟨rank', hlt, halong, hsame⟩
  · exact Or.inr (Or.inl ⟨hne, rank', halong, hmore⟩)
  · exact Or.inr (Or.inr ⟨halong, hstop⟩)

/-- A stopped pipeline does not step. -/
theorem StoppedAt.step {d0 d : PipelinedCycleDatapath iw w writable} {k : Nat}
    (h : d0.StoppedAt k d) : d.step = d :=
  step_of_halted (beq_iff_eq.mpr h.2.wbOpcode)

/-- After every number of steps the pipeline runs or has stopped at a sequential state. -/
theorem Fresh.steps {d : PipelinedCycleDatapath iw w writable} (h : d.Fresh)
    (h15 : ∀ k, SparesR15 d.fetched w writable (d.sequential k)) (n : Nat) :
    ∃ k, (∃ rank, d.RunningAt k rank (d.steps n)) ∨ d.StoppedAt k (d.steps n) := by
  induction n with
  | zero => exact ⟨0, Or.inl ⟨3, h.running⟩⟩
  | succ n ih =>
      obtain ⟨k, ⟨rank, hrun⟩ | hstop⟩ := ih
      · rcases hrun.step (h15 k) with ⟨rank', -, hsame⟩ | ⟨-, rank', hmore⟩ | hstop
        · exact ⟨k, Or.inl ⟨rank', hsame⟩⟩
        · exact ⟨k + 1, Or.inl ⟨rank', hmore⟩⟩
        · exact ⟨k, Or.inr hstop⟩
      · refine ⟨k, Or.inr ?_⟩
        show d.StoppedAt k (d.steps n).step
        rw [hstop.step]
        exact hstop

/-- A run that ends halted stops at a `HALT` of the sequential machine. -/
theorem Fresh.run_halted {d : PipelinedCycleDatapath iw w writable} (h : d.Fresh)
    (h15 : ∀ k, SparesR15 d.fetched w writable (d.sequential k)) {n : Nat}
    (hhalted : (d.run n).halted = true) :
    ∃ k, (fetch d.fetched (d.sequential k)).opcode = .HALT ∧
      (d.run n).registerFile.read = (d.sequential k).regs ∧
      (d.run n).dataMem.contents = (d.sequential k).memory := by
  rw [run_eq_steps] at hhalted ⊢
  obtain ⟨k, ⟨rank, hrun⟩ | hstop⟩ := h.steps h15 n
  · exact absurd (beq_iff_eq.mp hhalted) hrun.2.draining.wbOpcode
  · exact ⟨k, hstop.2.halt, hstop.2.regs, hstop.2.memory⟩

/-- Pipelining is architecturally invisible: when `run` ends halted, the registers and the
    memory are those of the sequential machine at its `HALT`. -/
theorem pipeline_refines_sequential {d : PipelinedCycleDatapath iw w writable} (h : d.Fresh)
    (h15 : ∀ k, SparesR15 d.fetched w writable (d.sequential k)) (maxCycles : Nat)
    (hhalted : (d.run maxCycles).halted = true) :
    ∃ k, (fetch d.fetched (d.sequential k)).opcode = .HALT ∧
      (d.run maxCycles).registerFile.read = (d.sequential k).regs ∧
      (d.run maxCycles).dataMem.contents = (d.sequential k).memory :=
  h.run_halted h15 hhalted

/-! ## Termination -/

/-- From a running state at most `rank` steps lead to the next instruction or to the stop. -/
theorem RunningAt.advance {d0 d : PipelinedCycleDatapath iw w writable} {k rank : Nat}
    (h : d0.RunningAt k rank d) (h15 : SparesR15 d0.fetched w writable (d0.sequential k)) :
    ∃ n, ((fetch d0.fetched (d0.sequential k)).opcode ≠ .HALT ∧
        ∃ rank', d0.RunningAt (k + 1) rank' (d.steps n)) ∨ d0.StoppedAt k (d.steps n) := by
  induction rank using Nat.strong_induction_on generalizing d with
  | _ rank ih =>
      rcases h.step h15 with ⟨rank', hlt, hsame⟩ | hmore | hstop
      · obtain ⟨n, hn⟩ := ih rank' hlt hsame
        refine ⟨n + 1, ?_⟩
        rw [steps_succ]
        exact hn
      · exact ⟨1, Or.inl hmore⟩
      · exact ⟨1, Or.inr hstop⟩

/-- If the sequential machine comes to a `HALT`, the pipeline halts. -/
theorem Fresh.halts {d : PipelinedCycleDatapath iw w writable} (h : d.Fresh)
    (h15 : ∀ k, SparesR15 d.fetched w writable (d.sequential k)) {k : Nat}
    (hk : (fetch d.fetched (d.sequential k)).opcode = .HALT) :
    ∃ n, (d.steps n).halted = true := by
  -- the pipeline stops, or passes every instruction up to the k-th
  have hreach : ∀ j ≤ k, ∃ n,
      (∃ rank, d.RunningAt j rank (d.steps n)) ∨ (d.steps n).halted = true := by
    intro j
    induction j with
    | zero => exact fun _ => ⟨0, Or.inl ⟨3, h.running⟩⟩
    | succ j ih =>
        intro hj
        obtain ⟨n, ⟨rank, hrun⟩ | hhalted⟩ := ih (by omega)
        · obtain ⟨m, ⟨-, hmore⟩ | hstop⟩ := hrun.advance (h15 j)
          · rw [← steps_add] at hmore
            exact ⟨n + m, Or.inl hmore⟩
          · rw [← steps_add] at hstop
            exact ⟨n + m, Or.inr (beq_iff_eq.mpr hstop.2.wbOpcode)⟩
        · exact ⟨n, Or.inr hhalted⟩
  obtain ⟨n, ⟨rank, hrun⟩ | hhalted⟩ := hreach k (Nat.le_refl k)
  · obtain ⟨m, ⟨hne, -⟩ | hstop⟩ := hrun.advance (h15 k)
    · exact absurd hk hne
    · rw [← steps_add] at hstop
      exact ⟨n + m, beq_iff_eq.mpr hstop.2.wbOpcode⟩
  · exact ⟨n, hhalted⟩

/-! ## Reset -/

/-- A reset empties the pipeline. -/
theorem resetDatapath_fresh {d : PipelinedCycleDatapath iw w writable} (h : d.AtRest) :
    d.resetDatapath.Fresh := by
  obtain ⟨hclock, hreset⟩ := h
  cases d with
  | mk clock reset pc rom ifId rf idEx exMem dataMem memWb decoded stallD flushD flushE wb mem ex
      id =>
      dsimp only at hclock hreset
      subst hclock hreset
      exact ⟨⟨rfl, rfl⟩, rfl, rfl, rfl, rfl, rfl, rfl, rfl, rfl, rfl⟩

/-- Loading a program leaves a fresh pipeline fresh. -/
theorem Fresh.loadInstructions {d : PipelinedCycleDatapath iw w writable} (h : d.Fresh)
    (instructions : List Word) : (d.loadInstructions instructions).Fresh :=
  ⟨⟨h.rest.clock, h.rest.reset⟩, h.pc, h.instruction, h.idEx, h.exMem, h.memWb, h.idOpcode,
    h.exOpcode, h.memOpcode, h.wbOpcode⟩

/-- A pipeline whose registers and memory have been written from outside. -/
def preload (d : PipelinedCycleDatapath iw w writable) (regs : Register → Word)
    (memory : Nat → Word) : PipelinedCycleDatapath iw w writable :=
  { d with
    registerFile := { registers := fun i => ⟨regs i, regs i, false⟩ }
    dataMem := { d.dataMem with contents := memory } }

/-- It is as fresh as before. -/
theorem Fresh.preload {d : PipelinedCycleDatapath iw w writable} (h : d.Fresh)
    (regs : Register → Word) (memory : Nat → Word) : (d.preload regs memory).Fresh :=
  ⟨⟨h.rest.clock, h.rest.reset⟩, h.pc, h.instruction, h.idEx, h.exMem, h.memWb, h.idOpcode,
    h.exOpcode, h.memOpcode, h.wbOpcode⟩

/-- `LI r1, 7; SW r1, 130(r0); HALT`, loaded and reset, with some registers written. -/
def storeProgram : PipelinedCycleDatapath 8 8 (Logic.Memory.upperHalf 8) :=
  (((({} : PipelinedCycleDatapath 8 8 (Logic.Memory.upperHalf 8)).loadInstructions
    [0x1C400007, 0x28400082, 0x38000000]).resetDatapath).preload (fun i => i.val) fun _ => 0)

/-- The store of the program has reached the memory when the pipeline halts. -/
theorem pipeline_refines_sequential_store :
    (storeProgram.run 20).registerFile.read 1 = 7 ∧
      (storeProgram.run 20).dataMem.contents 130 = 7 := by
  have hfresh : storeProgram.Fresh := Fresh.preload (resetDatapath_fresh ⟨rfl, rfl⟩) _ _
  have hhalt : (fetch storeProgram.fetched (storeProgram.sequential 2)).opcode = .HALT := by
    decide +kernel
  have hstay : ∀ k, 2 ≤ k → storeProgram.sequential k = storeProgram.sequential 2 := by
    intro k hk
    exact Isa.State.steps_of_halt hhalt hk
  have h15 : ∀ k, SparesR15 storeProgram.fetched 8 (Logic.Memory.upperHalf 8)
      (storeProgram.sequential k) := by
    intro k
    rcases Nat.lt_or_ge k 2 with hk | hk
    · rw [SparesR15]
      interval_cases k <;> decide +kernel
    · rw [hstay k hk, SparesR15]
      decide +kernel
  obtain ⟨k, hk, hregs, hmemory⟩ := pipeline_refines_sequential hfresh h15 20 (by decide +kernel)
  have h2 : storeProgram.sequential k = storeProgram.sequential 2 := by
    rcases Nat.le_total k 2 with hle | hle
    · exact (Isa.State.steps_of_halt hk hle).symm
    · exact hstay k hle
  rw [hregs, hmemory, h2]
  decide +kernel

end PipelinedCycleDatapath

end CpuSim.Pipelined
