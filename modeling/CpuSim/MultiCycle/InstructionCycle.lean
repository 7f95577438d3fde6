/-
  CpuSim.MultiCycle.InstructionCycle

  One instruction of the multi-cycle CPU.  A clock cycle takes the words the storage
  elements drive to the words the control signals select for them, and the control words
  of a path through the state machine compose to one instruction.
-/

import CpuSim.MultiCycle.Datapath

namespace CpuSim

open CpuSim.Logic (mux)

namespace MultiCycle

/-- What the storage elements drive: the register outputs and the words of the memory. -/
@[ext]
structure Outputs where
  pc : Word
  instructionRegister : Word
  memoryDataRegister : Word
  operandA : Word
  operandB : Word
  aluOut : Word
  regs : Register → Word
  memory : Nat → Word

namespace Outputs

/-- The instruction in the instruction register. -/
def decoded (o : Outputs) : DecodedInstruction :=
  InstructionDecoder.decode ⟨o.instructionRegister⟩

/-- The first ALU operand a control word selects. -/
def srcA (c : ControlSignals) (o : Outputs) : Word := mux o.pc o.operandA (c.aluSrcA == .RegA)

/-- The second ALU operand a control word selects. -/
def srcB (c : ControlSignals) (o : Outputs) : Word :=
  MultiCycleDatapath.srcB c o.operandB o.decoded.immediate

/-- The ALU result under a control word. -/
def aluResult (c : ControlSignals) (o : Outputs) : Word :=
  ALUInterface.result c.aluOperation (o.srcA c) (o.srcB c)

/-- The memory address a control word selects. -/
def address (c : ControlSignals) (o : Outputs) : Word := mux o.pc o.aluOut c.iorD

/-- The word read from the memory under a control word. -/
def readData (w : Nat) (c : ControlSignals) (o : Outputs) : Word :=
  o.memory (Logic.Memory.wordOf w (o.address c))

/-- What the storage elements drive after one clock cycle under a control word. -/
def next (w : Nat) (writable : Nat → Bool) (c : ControlSignals) (o : Outputs) : Outputs where
  pc :=
    mux o.pc (MultiCycleDatapath.pcNext c (o.aluResult c) o.aluOut o.decoded.immediate)
      (MultiCycleDatapath.pcEnable c (ALUInterface.zero c.aluOperation (o.srcA c) (o.srcB c)))
  instructionRegister := mux o.instructionRegister (o.readData w c) c.irWrite
  memoryDataRegister := mux o.memoryDataRegister (o.readData w c) c.mdrWrite
  operandA := mux o.operandA (o.regs o.decoded.rs1) c.aWrite
  operandB := mux o.operandB (o.regs o.decoded.rs2) c.bWrite
  aluOut := mux o.aluOut (o.aluResult c) c.aluOutWrite
  regs :=
    if c.regWrite then
      Function.update o.regs (mux o.decoded.rs2 o.decoded.rd c.regDst)
        (mux o.aluOut o.memoryDataRegister (c.writebackSource == .memoryData))
    else o.regs
  memory :=
    if c.memWrite then Logic.Memory.write w writable o.memory (o.address c) o.operandB
    else o.memory

end Outputs

namespace MultiCycleDatapath

variable {w : Nat} {writable : Nat → Bool}

/-- The words the storage elements of a datapath drive. -/
def outputs (d : MultiCycleDatapath w writable) : Outputs where
  pc := d.programCounter.output
  instructionRegister := d.instructionRegister.output
  memoryDataRegister := d.memoryDataRegister.output
  operandA := d.operandA.output
  operandB := d.operandB.output
  aluOut := d.aluOut.output
  regs := d.registerFile.read
  memory := d.memory.contents

/-- The clock is LOW and the reset wire is LOW: the state between two cycles. -/
structure AtRest (d : MultiCycleDatapath w writable) : Prop where
  clock : d.clock = false
  reset : d.reset = false

/-- A control word that loads a register from the memory reads the memory. -/
def Reads (c : ControlSignals) : Prop :=
  (c.irWrite || c.mdrWrite) = true → c.memRead = true ∧ c.memWrite = false

/-- Every control word of the state machine does. -/
theorem generate_reads (f : FSMControlUnit) (i : DecodedInstruction) : Reads (f.generate i) := by
  unfold FSMControlUnit.generate Reads
  cases f.currentState <;> simp

/-! ## One step of the datapath -/

/-- A register that loads from the memory takes the word read before the rising edge. -/
theorem loaded_eq (m : Logic.Memory w writable) {c : ControlSignals} (hc : Reads c) {e : Bool}
    (he : e = true → (c.irWrite || c.mdrWrite) = true) (r address data : Word) :
    mux r (DataMemory.evaluate m false c.memRead c.memWrite address data).readData e =
      mux r (m.contents (Logic.Memory.wordOf w address)) e := by
  cases e with
  | false => rfl
  | true =>
      obtain ⟨hread, hwrite⟩ := hc (he rfl)
      rw [hread, hwrite, DataMemory.readData_low]

/-- One `step()` from rest: the storage elements drive what the control word selects. -/
theorem step_outputs {d : MultiCycleDatapath w writable} (h : d.AtRest) (hc : Reads d.control) :
    d.step.outputs = d.outputs.next w writable d.control := by
  obtain ⟨hclock, hreset⟩ := h
  cases d with
  | mk clock reset pc ir mdr a b aluOut rf memory control decoded fsm =>
      dsimp only at hclock hreset hc
      subst hclock hreset
      -- the five ALU registers by the definition of a register, the others by their cycle
      refine Outputs.ext rfl ?_ ?_ rfl rfl rfl ?_ ?_
      · apply loaded_eq memory hc
        intro he
        rw [he, Bool.true_or]
      · apply loaded_eq memory hc
        intro he
        rw [he, Bool.or_true]
      · funext i
        exact Logic.RegisterFile.loadMux_eq rf.read control.regWrite _ i _
      · exact DataMemory.contents_rising memory control.memRead control.memWrite _ _ _ _

/-- A step leaves the clock LOW and the software fields alone, and decodes the instruction
    register it has loaded. -/
theorem step_software {d : MultiCycleDatapath w writable} (h : d.AtRest) :
    d.step.AtRest ∧ d.step.control = d.control ∧ d.step.fsm = d.fsm ∧
      d.step.decodedInstruction = d.step.outputs.decoded := by
  obtain ⟨hclock, hreset⟩ := h
  cases d with
  | mk clock reset pc ir mdr a b aluOut rf memory control decoded fsm =>
      dsimp only at hclock hreset
      subst hclock hreset
      exact ⟨⟨rfl, rfl⟩, rfl, rfl, rfl⟩

/-! ## One clock cycle of the CPU -/

/-- The control word of a state. -/
def controlOf (s : State) (i : DecodedInstruction) : ControlSignals :=
  FSMControlUnit.generate { currentState := s } i

/-- The state after a state. -/
def following (s : State) (i : DecodedInstruction) : State :=
  (FSMControlUnit.updateNextState { currentState := s } i).nextState

/-- A datapath between two cycles, in a state of its state machine and with the words its
    storage elements drive.  In `FETCH` the control word does not depend on the decoded
    instruction, so only the other states need it to be the one in the register. -/
structure At (d : MultiCycleDatapath w writable) (s : State) (o : Outputs) : Prop where
  rest : d.AtRest
  inState : d.fsm.currentState = s
  drives : d.outputs = o
  decodes : s ≠ .FETCH → d.decodedInstruction = o.decoded

/-- `generate` reads the current state only, and the instruction outside `FETCH`. -/
theorem At.generate_eq {d : MultiCycleDatapath w writable} {s : State} {o : Outputs}
    (h : d.At s o) : d.fsm.generate d.decodedInstruction = controlOf s o.decoded := by
  have hs := h.inState
  have hdec := h.decodes
  unfold controlOf FSMControlUnit.generate
  rw [hs]
  cases s with
  | FETCH => rfl
  | _ => rw [hdec (by decide)]

/-- One `step_cycle()`. -/
theorem At.stepCycle {d : MultiCycleDatapath w writable} {s : State} {o : Outputs}
    (h : d.At s o) :
    d.stepCycle.At (following s (o.next w writable (controlOf s o.decoded)).decoded)
      (o.next w writable (controlOf s o.decoded)) := by
  have hgen := h.generate_eq
  have hreads : Reads (d.fsm.generate d.decodedInstruction) := generate_reads _ _
  have hrest : AtRest { d with control := d.fsm.generate d.decodedInstruction } :=
    ⟨h.rest.clock, h.rest.reset⟩
  have hout := step_outputs hrest hreads
  obtain ⟨hrest', -, hfsm, hdec⟩ := step_software hrest
  -- the new outputs are those of the control word generated from the old state
  have hout' : d.stepCycle.outputs = o.next w writable (controlOf s o.decoded) := by
    have : outputs { d with control := d.fsm.generate d.decodedInstruction } = o := h.drives
    rw [this] at hout
    rw [← hgen]
    exact hout
  have hdec' : d.stepCycle.decodedInstruction = d.stepCycle.outputs.decoded := hdec
  refine ⟨⟨hrest'.clock, hrest'.reset⟩, ?_, hout', ?_⟩
  · have hnext : d.stepCycle.fsm = FSMControlUnit.step
        (MultiCycleDatapath.step { d with control := d.fsm.generate d.decodedInstruction }).fsm
        d.stepCycle.decodedInstruction := rfl
    rw [hnext, hfsm, hdec', hout']
    show (FSMControlUnit.updateNextState d.fsm _).nextState = _
    rw [FSMControlUnit.updateNextState, h.inState]
    rfl
  · intro _
    rw [hdec', hout']

/-! ## The effect of each state -/

section Effects

variable (w writable) (o : Outputs) (i : DecodedInstruction)

theorem next_fetch : o.next w writable (controlOf .FETCH i) =
    { o with
      pc := o.pc + 1
      instructionRegister := o.memory (Logic.Memory.wordOf w o.pc) } := rfl

theorem next_decode : o.next w writable (controlOf .DECODE i) =
    { o with
      operandA := o.regs o.decoded.rs1
      operandB := o.regs o.decoded.rs2
      aluOut := o.pc + o.decoded.immediate } := rfl

theorem next_memAddr : o.next w writable (controlOf .MEM_ADDR i) =
    { o with aluOut := o.operandA + o.decoded.immediate } := rfl

theorem next_memRead : o.next w writable (controlOf .MEM_READ i) =
    { o with memoryDataRegister := o.memory (Logic.Memory.wordOf w o.aluOut) } := rfl

theorem next_memWb : o.next w writable (controlOf .MEM_WB i) =
    { o with regs := Function.update o.regs o.decoded.rd o.memoryDataRegister } := rfl

theorem next_memWrite : o.next w writable (controlOf .MEM_WRITE i) =
    { o with memory := Logic.Memory.write w writable o.memory o.aluOut o.operandB } := rfl

theorem next_executeR : o.next w writable (controlOf .EXECUTE_R i) =
    { o with
      aluOut := ALUInterface.result (FSMControlUnit.toAluOperation i.opcode) o.operandA
        o.operandB } := rfl

theorem next_executeI : o.next w writable (controlOf .EXECUTE_I i) =
    { o with
      aluOut := if i.opcode = .LI then o.decoded.immediate else o.operandA + o.decoded.immediate }
    := by
  have hop : (controlOf .EXECUTE_I i).aluOperation = if i.opcode = .LI then .PASS_B else .ADD :=
    rfl
  by_cases hli : i.opcode = .LI
  · rw [if_pos hli] at hop ⊢
    show { o with aluOut := ALUInterface.result (controlOf .EXECUTE_I i).aluOperation _ _ } = _
    rw [hop]
    rfl
  · rw [if_neg hli] at hop ⊢
    show { o with aluOut := ALUInterface.result (controlOf .EXECUTE_I i).aluOperation _ _ } = _
    rw [hop]
    rfl

theorem next_aluWb : o.next w writable (controlOf .ALU_WB i) =
    { o with regs := Function.update o.regs o.decoded.rd o.aluOut } := rfl

theorem next_branch : o.next w writable (controlOf .BRANCH i) =
    { o with
      pc :=
        if (o.operandA == o.operandB) != decide (i.opcode = .BNE) then o.aluOut else o.pc } := by
  have hpc : (o.next w writable (controlOf .BRANCH i)).pc =
      if (o.operandA == o.operandB) != decide (i.opcode = .BNE) then o.aluOut else o.pc := by
    show mux o.pc o.aluOut (pcEnable (controlOf .BRANCH i) (ALUInterface.zero .SUB _ _)) = _
    rw [ALUInterface.zero_sub, pcEnable, mux]
    show (if (!false && (false || (true && if decide (i.opcode = .BNE) then
      !(o.operandA == o.operandB) else o.operandA == o.operandB))) = true then _ else _) = _
    cases o.operandA == o.operandB <;> cases decide (i.opcode = .BNE) <;> rfl
  rw [← hpc]
  rfl

theorem next_jump : o.next w writable (controlOf .JUMP i) =
    { o with pc := o.decoded.immediate } := rfl

end Effects

/-! ## Paths through the state machine -/

/-- `k` cycles lead to a state, and neither `FETCH` nor `HALT` is passed on the way. -/
structure Runs (d : MultiCycleDatapath w writable) (k : Nat) (s : State) (o : Outputs) :
    Prop where
  reach : (d.cycles k).At s o
  busy : ∀ j, 0 < j → j < k →
    (d.cycles j).fsm.currentState ≠ .FETCH ∧ (d.cycles j).fsm.currentState ≠ .HALT

/-- One more cycle. -/
theorem Runs.cycle {d : MultiCycleDatapath w writable} {k : Nat} (s s' : State)
    {o o' : Outputs} (h : d.Runs k s o) (hs : k = 0 ∨ s ≠ .FETCH ∧ s ≠ .HALT)
    (ho : o.next w writable (controlOf s o.decoded) = o') (hs' : following s o'.decoded = s') :
    d.Runs (k + 1) s' o' := by
  have hstep := h.reach.stepCycle
  rw [ho, hs'] at hstep
  refine ⟨hstep, fun j hj hlt => ?_⟩
  rcases Nat.lt_succ_iff_lt_or_eq.mp hlt with hlt | rfl
  · exact h.busy j hj hlt
  · rw [h.reach.inState]
    rcases hs with rfl | hs
    · omega
    · exact hs

end MultiCycleDatapath

/-- The instruction at the program counter. -/
def Outputs.fetchedInstruction (w : Nat) (o : Outputs) : DecodedInstruction :=
  InstructionDecoder.decode ⟨o.memory (Logic.Memory.wordOf w o.pc)⟩

/-- What the storage elements drive after `FETCH` and `DECODE`. -/
def Outputs.afterDecode (w : Nat) (o : Outputs) : Outputs :=
  { o with
    pc := o.pc + 1
    instructionRegister := o.memory (Logic.Memory.wordOf w o.pc)
    operandA := o.regs (o.fetchedInstruction w).rs1
    operandB := o.regs (o.fetchedInstruction w).rs2
    aluOut := o.pc + 1 + (o.fetchedInstruction w).immediate }

namespace MultiCycleDatapath

variable {w : Nat} {writable : Nat → Bool} {d : MultiCycleDatapath w writable} {o : Outputs}

/-- `FETCH` and `DECODE`. -/
theorem At.runs_decode (h : d.At .FETCH o) :
    d.Runs 2 (FSMControlUnit.decodeNext (o.fetchedInstruction w).opcode) (o.afterDecode w) := by
  have h0 : d.Runs 0 .FETCH o := ⟨h, fun j hj hlt => by omega⟩
  have h1 := h0.cycle .FETCH .DECODE (Or.inl rfl) (next_fetch w writable o _) rfl
  exact h1.cycle .DECODE _ (Or.inr ⟨by decide, by decide⟩) (next_decode w writable _ _) rfl

/-- The register instructions. -/
theorem At.runs_register (h : d.At .FETCH o)
    (hop : FSMControlUnit.decodeNext (o.fetchedInstruction w).opcode = .EXECUTE_R) :
    ∃ o', d.Runs 4 .FETCH o' ∧ o'.pc = o.pc + 1 ∧ o'.memory = o.memory ∧
      o'.regs = Function.update o.regs (o.fetchedInstruction w).rd
        (ALUInterface.result (FSMControlUnit.toAluOperation (o.fetchedInstruction w).opcode)
          (o.regs (o.fetchedInstruction w).rs1) (o.regs (o.fetchedInstruction w).rs2)) := by
  have h2 := h.runs_decode
  rw [hop] at h2
  have h3 := h2.cycle .EXECUTE_R .ALU_WB (Or.inr ⟨by decide, by decide⟩)
    (next_executeR w writable _ _) rfl
  have h4 := h3.cycle .ALU_WB .FETCH (Or.inr ⟨by decide, by decide⟩)
    (next_aluWb w writable _ _) rfl
  exact ⟨_, h4, rfl, rfl, rfl⟩

/-- `LI` and `ADDI`. -/
theorem At.runs_immediate (h : d.At .FETCH o)
    (hop : FSMControlUnit.decodeNext (o.fetchedInstruction w).opcode = .EXECUTE_I) :
    ∃ o', d.Runs 4 .FETCH o' ∧ o'.pc = o.pc + 1 ∧ o'.memory = o.memory ∧
      o'.regs = Function.update o.regs (o.fetchedInstruction w).rd
        (if (o.fetchedInstruction w).opcode = .LI then (o.fetchedInstruction w).immediate
          else o.regs (o.fetchedInstruction w).rs1 + (o.fetchedInstruction w).immediate) := by
  have h2 := h.runs_decode
  rw [hop] at h2
  have h3 := h2.cycle .EXECUTE_I .ALU_WB (Or.inr ⟨by decide, by decide⟩)
    (next_executeI w writable _ _) rfl
  have h4 := h3.cycle .ALU_WB .FETCH (Or.inr ⟨by decide, by decide⟩)
    (next_aluWb w writable _ _) rfl
  exact ⟨_, h4, rfl, rfl, rfl⟩

/-- `LW`. -/
theorem At.runs_load (h : d.At .FETCH o) (hop : (o.fetchedInstruction w).opcode = .LW) :
    ∃ o', d.Runs 5 .FETCH o' ∧ o'.pc = o.pc + 1 ∧ o'.memory = o.memory ∧
      o'.regs = Function.update o.regs (o.fetchedInstruction w).rd
        (o.memory (Logic.Memory.wordOf w
          (o.regs (o.fetchedInstruction w).rs1 + (o.fetchedInstruction w).immediate))) := by
  have h2 := h.runs_decode
  rw [hop] at h2
  have h3 := h2.cycle .MEM_ADDR .MEM_READ (Or.inr ⟨by decide, by decide⟩)
    (next_memAddr w writable _ _) (if_pos hop)
  have h4 := h3.cycle .MEM_READ .MEM_WB (Or.inr ⟨by decide, by decide⟩)
    (next_memRead w writable _ _) rfl
  have h5 := h4.cycle .MEM_WB .FETCH (Or.inr ⟨by decide, by decide⟩)
    (next_memWb w writable _ _) rfl
  exact ⟨_, h5, rfl, rfl, rfl⟩

/-- `SW`. -/
theorem At.runs_store (h : d.At .FETCH o) (hop : (o.fetchedInstruction w).opcode = .SW) :
    ∃ o', d.Runs 4 .FETCH o' ∧ o'.pc = o.pc + 1 ∧ o'.regs = o.regs ∧
      o'.memory = Logic.Memory.write w writable o.memory
        (o.regs (o.fetchedInstruction w).rs1 + (o.fetchedInstruction w).immediate)
        (o.regs (o.fetchedInstruction w).rs2) := by
  have h2 := h.runs_decode
  rw [hop] at h2
  have hlw : (o.fetchedInstruction w).opcode ≠ .LW := by
    rw [hop]
    decide
  have h3 := h2.cycle .MEM_ADDR .MEM_WRITE (Or.inr ⟨by decide, by decide⟩)
    (next_memAddr w writable _ _) (if_neg hlw)
  have h4 := h3.cycle .MEM_WRITE .FETCH (Or.inr ⟨by decide, by decide⟩)
    (next_memWrite w writable _ _) rfl
  exact ⟨_, h4, rfl, rfl, rfl⟩

/-- The branches. -/
theorem At.runs_branch (h : d.At .FETCH o)
    (hop : FSMControlUnit.decodeNext (o.fetchedInstruction w).opcode = .BRANCH) :
    ∃ o', d.Runs 3 .FETCH o' ∧ o'.regs = o.regs ∧ o'.memory = o.memory ∧
      o'.pc = if (o.regs (o.fetchedInstruction w).rs1 == o.regs (o.fetchedInstruction w).rs2) !=
          decide ((o.fetchedInstruction w).opcode = .BNE)
        then o.pc + 1 + (o.fetchedInstruction w).immediate else o.pc + 1 := by
  have h2 := h.runs_decode
  rw [hop] at h2
  have h3 := h2.cycle .BRANCH .FETCH (Or.inr ⟨by decide, by decide⟩)
    (next_branch w writable _ _) rfl
  exact ⟨_, h3, rfl, rfl, rfl⟩

/-- `J`. -/
theorem At.runs_jump (h : d.At .FETCH o) (hop : (o.fetchedInstruction w).opcode = .J) :
    ∃ o', d.Runs 3 .FETCH o' ∧ o'.regs = o.regs ∧ o'.memory = o.memory ∧
      o'.pc = (o.fetchedInstruction w).immediate := by
  have h2 := h.runs_decode
  rw [hop] at h2
  have h3 := h2.cycle .JUMP .FETCH (Or.inr ⟨by decide, by decide⟩)
    (next_jump w writable _ _) rfl
  exact ⟨_, h3, rfl, rfl, rfl⟩

/-! ## The instruction set -/

/-- The multi-cycle CPU as a sequential machine: branches are relative to the incremented
    program counter, jumps are absolute. -/
def machine (w : Nat) (writable : Nat → Bool) : Isa.Machine where
  addressWidth := w
  writable := writable
  branchTarget pc immediate := pc + 1 + immediate
  jumpTarget _ immediate := immediate

/-- The architectural state of a datapath. -/
def architecture (d : MultiCycleDatapath w writable) : Isa.State where
  pc := d.programCounter.output
  regs := d.registerFile.read
  memory := d.memory.contents

/-- The clock cycles an instruction takes. -/
def cyclesOf : Opcode → Nat
  | .ADD | .SUB | .AND | .OR | .XOR | .NOT | .LI | .ADDI | .SW => 4
  | .LW => 5
  | .BEQ | .BNE | .J => 3
  | .NOP | .HALT | .undefined _ => 2

/-- The state in which an instruction leaves the state machine. -/
def finalState : Opcode → State
  | .HALT => .HALT
  | _ => .FETCH

/-- The architectural state of the words a datapath drives. -/
theorem At.architecture_eq {d : MultiCycleDatapath w writable} {s : State} {o : Outputs}
    (h : d.At s o) : d.architecture = ⟨o.pc, o.regs, o.memory⟩ := by
  rw [← h.drives]
  rfl

/-- From `FETCH`, every opcode takes its path and has its effect. -/
theorem At.instruction (h : d.At .FETCH o) :
    ∃ o', d.Runs (cyclesOf (o.fetchedInstruction w).opcode)
        (finalState (o.fetchedInstruction w).opcode) o' ∧
      Isa.State.exec (machine w writable) ⟨o.pc, o.regs, o.memory⟩ (o.fetchedInstruction w) =
        ⟨o'.pc, o'.regs, o'.memory⟩ := by
  have h2 := h.runs_decode
  have hreg := h.runs_register
  have himm := h.runs_immediate
  have hload := h.runs_load
  have hstore := h.runs_store
  have hbranch := h.runs_branch
  have hjump := h.runs_jump
  generalize o.fetchedInstruction w = i at *
  unfold Isa.State.exec Isa.State.result Isa.State.nextPc
  cases hop : i.opcode with
  | ADD | SUB | AND | OR | XOR | NOT =>
      rw [hop] at hreg
      obtain ⟨o', hruns, hpc, hmem, hregs⟩ := hreg rfl
      refine ⟨o', hruns, ?_⟩
      rw [hpc, hmem, hregs]
      rfl
  | LI | ADDI =>
      rw [hop] at himm
      obtain ⟨o', hruns, hpc, hmem, hregs⟩ := himm rfl
      refine ⟨o', hruns, ?_⟩
      rw [hpc, hmem, hregs]
      rfl
  | LW =>
      obtain ⟨o', hruns, hpc, hmem, hregs⟩ := hload hop
      refine ⟨o', hruns, ?_⟩
      rw [hpc, hmem, hregs]
      rfl
  | SW =>
      obtain ⟨o', hruns, hpc, hregs, hmem⟩ := hstore hop
      refine ⟨o', hruns, ?_⟩
      rw [hpc, hmem, hregs]
      rfl
  | BEQ | BNE =>
      rw [hop] at hbranch
      obtain ⟨o', hruns, hregs, hmem, hpc⟩ := hbranch rfl
      refine ⟨o', hruns, ?_⟩
      rw [hpc, hmem, hregs]
      -- `zero` decides the branch, inverted for `BNE`
      by_cases heq : o.regs i.rs1 = o.regs i.rs2 <;> simp [heq, machine]
  | J =>
      obtain ⟨o', hruns, hregs, hmem, hpc⟩ := hjump hop
      refine ⟨o', hruns, ?_⟩
      rw [hpc, hmem, hregs]
      rfl
  | NOP | HALT | undefined code =>
      rw [hop] at h2
      exact ⟨_, h2, rfl⟩

/-! ## Between the cycles -/

/-- The states of the CPU: constructed with some words in the memory, reset, loaded and
    stepped. -/
inductive Reached : MultiCycleDatapath w writable → Prop where
  | constructed (contents : Nat → Word) : Reached { memory := { contents := contents } }
  | reset {d : MultiCycleDatapath w writable} (h : Reached d) : Reached d.resetDatapath
  | load {d : MultiCycleDatapath w writable} (h : Reached d) (instructions : List Word) :
      Reached (d.loadInstructions instructions)
  | cycle {d : MultiCycleDatapath w writable} (h : Reached d) : Reached d.stepCycle

/-- Every operation leaves the clock and the reset wire LOW. -/
theorem Reached.atRest {d : MultiCycleDatapath w writable} (h : Reached d) : d.AtRest := by
  induction h with
  | constructed => exact ⟨rfl, rfl⟩
  | reset h ih =>
      refine ⟨?_, rfl⟩
      show (!!_) = false
      rw [Bool.not_not]
      exact ih.clock
  | load h _ ih => exact ⟨ih.clock, ih.reset⟩
  | @cycle d h ih =>
      have hstep := @step_software _ _ { d with control := d.fsm.generate d.decodedInstruction }
        ⟨ih.clock, ih.reset⟩
      exact ⟨hstep.1.clock, hstep.1.reset⟩

/-- The instruction a state is about to execute: program and data share the memory. -/
def fetch (w : Nat) (s : Isa.State) : DecodedInstruction :=
  InstructionDecoder.decode ⟨s.memory (Logic.Memory.wordOf w s.pc)⟩

/-- The cycles of the instruction at the program counter: they have its effect and end where its
    path through the states ends. -/
theorem instruction_cycles {d : MultiCycleDatapath w writable} (h : d.AtRest)
    (hfetch : d.fsm.currentState = .FETCH) :
    let i := fetch w d.architecture
    (d.cycles (cyclesOf i.opcode)).architecture = d.architecture.exec (machine w writable) i ∧
      (d.cycles (cyclesOf i.opcode)).fsm.currentState = finalState i.opcode ∧
      (∀ k, 0 < k → k < cyclesOf i.opcode →
        (d.cycles k).fsm.currentState ≠ .FETCH ∧ (d.cycles k).fsm.currentState ≠ .HALT) ∧
      (d.cycles (cyclesOf i.opcode)).AtRest := by
  intro i
  have hat : d.At .FETCH d.outputs := ⟨h, hfetch, rfl, fun hne => absurd rfl hne⟩
  obtain ⟨o', hruns, harch⟩ := hat.instruction
  exact ⟨hruns.reach.architecture_eq.trans harch.symm, hruns.reach.inState, hruns.busy,
    hruns.reach.rest⟩

/-- Cycling from `FETCH` until the state machine is next in `FETCH` or `HALT` has the effect
    of exactly the instruction at the program counter, in the cycles of its opcode. -/
theorem multi_cycle_instruction {d : MultiCycleDatapath w writable} (h : d.AtRest)
    (hfetch : d.fsm.currentState = .FETCH) :
    let i := InstructionDecoder.decode
      ⟨d.memory.contents (Logic.Memory.wordOf w d.programCounter.output)⟩
    (d.cycles (cyclesOf i.opcode)).architecture = d.architecture.exec (machine w writable) i ∧
      (d.cycles (cyclesOf i.opcode)).fsm.currentState = finalState i.opcode ∧
      (∀ k, 0 < k → k < cyclesOf i.opcode →
        (d.cycles k).fsm.currentState ≠ .FETCH ∧ (d.cycles k).fsm.currentState ≠ .HALT) ∧
      (d.cycles (cyclesOf i.opcode)).AtRest := by
  exact instruction_cycles h hfetch

/-- A CPU with `ADDI r1, r2, 5` at address 0 of its read-only half, constructed and reset. -/
def addiDatapath : MultiCycleDatapath 8 (Logic.Memory.upperHalf 8) :=
  resetDatapath
    { memory := { contents := fun a => if a = 0 then 0x20480005 else 0 } }

/-- The `ADDI` takes four cycles and writes r1. -/
theorem multi_cycle_instruction_addi :
    (addiDatapath.cycles 4).architecture.regs 1 = 5 ∧
      (addiDatapath.cycles 4).architecture.pc = 1 ∧
      (addiDatapath.cycles 4).fsm.currentState = .FETCH := by
  have h := multi_cycle_instruction (Reached.reset (Reached.constructed _)).atRest
    (show addiDatapath.fsm.currentState = .FETCH from rfl)
  obtain ⟨harch, hstate, -, -⟩ := h
  change (addiDatapath.cycles 4).architecture = _ at harch
  refine ⟨?_, ?_, hstate⟩
  · rw [harch]
    decide +kernel
  · rw [harch]
    decide +kernel

/-! ## Runs -/

theorem cyclesOf_pos (op : Opcode) : 0 < cyclesOf op := by
  unfold cyclesOf
  split <;> decide

/-- While the state machine is busy, `run` makes its cycles. -/
theorem run_of_busy {d : MultiCycleDatapath w writable} {n : Nat}
    (h : ∀ k < n, (d.cycles k).fsm.isHalted = false) (m : Nat) :
    d.run (n + m) = (d.cycles n).run m := by
  induction n generalizing m with
  | zero => rw [Nat.zero_add, cycles]
  | succ n ih =>
      have hrest : d.run (n + 1 + m) = (d.cycles n).run (m + 1) := by
        rw [← ih (fun k hk => h k (by omega))]
        congr 1
        omega
      rw [hrest, run, h n (by omega)]
      rfl

/-- A halted state machine stays. -/
theorem run_of_halted {d : MultiCycleDatapath w writable} (h : d.fsm.isHalted = true) (n : Nat) :
    d.run n = d := by
  cases n with
  | zero => rfl
  | succ n => rw [run, if_pos h]

theorem isHalted_iff {d : MultiCycleDatapath w writable} :
    d.fsm.isHalted = true ↔ d.fsm.currentState = .HALT := by
  rw [FSMControlUnit.isHalted]
  exact beq_iff_eq

/-- The sequential machine of a datapath that is about to fetch. -/
def sequential (d : MultiCycleDatapath w writable) (k : Nat) : Isa.State :=
  d.architecture.steps (machine w writable) (fetch w) k

/-- During an instruction the CPU is not halted. -/
theorem not_halted_before {d : MultiCycleDatapath w writable} (h : d.AtRest)
    (hfetch : d.fsm.currentState = .FETCH) {k : Nat}
    (hk : k < cyclesOf (fetch w d.architecture).opcode) : (d.cycles k).fsm.isHalted = false := by
  obtain ⟨-, -, hbusy, -⟩ := instruction_cycles h hfetch
  rw [← Bool.not_eq_true, isHalted_iff]
  rcases Nat.eq_zero_or_pos k with rfl | hpos
  · show d.fsm.currentState ≠ .HALT
    rw [hfetch]
    decide
  · exact (hbusy k hpos hk).2

/-- An instruction other than `HALT` leads to the next fetch. -/
theorem next_fetch_of_ne {d : MultiCycleDatapath w writable} (h : d.AtRest)
    (hfetch : d.fsm.currentState = .FETCH) (hne : (fetch w d.architecture).opcode ≠ .HALT) :
    let d' := d.cycles (cyclesOf (fetch w d.architecture).opcode)
    d'.AtRest ∧ d'.fsm.currentState = .FETCH ∧ ∀ k, d'.sequential k = d.sequential (k + 1) := by
  obtain ⟨harch, hstate, -, hrest⟩ := instruction_cycles h hfetch
  refine ⟨hrest, ?_, ?_⟩
  · rw [hstate]
    unfold finalState
    split
    · next hhalt => exact absurd hhalt hne
    · rfl
  · intro k
    rw [sequential, sequential, harch, Isa.State.steps_succ, Isa.State.step_of_ne hne]

/-- When `run` ends halted, the registers and the memory are those of the sequential machine at
    a `HALT`: by induction over the cycles left, one instruction at a time. -/
theorem run_halted {d : MultiCycleDatapath w writable} (h : d.AtRest)
    (hfetch : d.fsm.currentState = .FETCH) {n : Nat} (hhalted : (d.run n).fsm.isHalted = true) :
    ∃ k, (fetch w (d.sequential k)).opcode = .HALT ∧
      (d.run n).registerFile.read = (d.sequential k).regs ∧
      (d.run n).memory.contents = (d.sequential k).memory := by
  induction n using Nat.strong_induction_on generalizing d with
  | _ n ih =>
      obtain ⟨harch, hstate, -, -⟩ := instruction_cycles h hfetch
      have hbusy : ∀ k < cyclesOf (fetch w d.architecture).opcode,
          (d.cycles k).fsm.isHalted = false := fun k hk => not_halted_before h hfetch hk
      rcases Nat.lt_or_ge n (cyclesOf (fetch w d.architecture).opcode) with hlt | hge
      · -- the run ends within the instruction
        have hrun := run_of_busy (fun k hk => hbusy k (Nat.lt_trans hk hlt)) 0
        rw [Nat.add_zero] at hrun
        rw [hrun, run, hbusy n hlt] at hhalted
        cases hhalted
      · obtain ⟨m, rfl⟩ := Nat.exists_eq_add_of_le hge
        rw [run_of_busy hbusy] at hhalted ⊢
        by_cases hhalt : (fetch w d.architecture).opcode = .HALT
        · have hstop : (d.cycles (cyclesOf (fetch w d.architecture).opcode)).fsm.isHalted =
              true := by
            rw [isHalted_iff, hstate, hhalt]
            rfl
          rw [run_of_halted hstop]
          refine ⟨0, hhalt, ?_, ?_⟩
          · exact (congrArg Isa.State.regs harch).trans (Isa.State.exec_of_halt hhalt).1
          · exact (congrArg Isa.State.memory harch).trans (Isa.State.exec_of_halt hhalt).2
        · obtain ⟨hrest', hfetch', hsequential⟩ := next_fetch_of_ne h hfetch hhalt
          have hpos := cyclesOf_pos (fetch w d.architecture).opcode
          obtain ⟨k, hk⟩ := ih m (by omega) hrest' hfetch' hhalted
          rw [hsequential] at hk
          exact ⟨k + 1, hk⟩

/-- If the sequential machine comes to a `HALT`, the CPU halts. -/
theorem run_halts {d : MultiCycleDatapath w writable} (h : d.AtRest)
    (hfetch : d.fsm.currentState = .FETCH) {k : Nat}
    (hk : (fetch w (d.sequential k)).opcode = .HALT) : ∃ n, (d.run n).fsm.isHalted = true := by
  induction k generalizing d with
  | zero =>
      obtain ⟨-, hstate, -, -⟩ := instruction_cycles h hfetch
      have hrun := run_of_busy (fun j hj => not_halted_before h hfetch hj) 0
      have hop : (fetch w d.architecture).opcode = .HALT := hk
      refine ⟨cyclesOf (fetch w d.architecture).opcode + 0, ?_⟩
      rw [hrun, run, isHalted_iff, hstate, hop]
      rfl
  | succ k ih =>
      by_cases hhalt : (fetch w d.architecture).opcode = .HALT
      · -- the machine is at its HALT already
        apply ih h hfetch
        rw [sequential] at hk ⊢
        have hstay := @Isa.State.steps_of_halt (machine w writable) (fetch w) d.architecture 0 hhalt
        rw [hstay (Nat.zero_le _)]
        exact hhalt
      · obtain ⟨hrest', hfetch', hsequential⟩ := next_fetch_of_ne h hfetch hhalt
        rw [← hsequential] at hk
        obtain ⟨n, hn⟩ := ih hrest' hfetch' hk
        refine ⟨cyclesOf (fetch w d.architecture).opcode + n, ?_⟩
        rw [run_of_busy (fun j hj => not_halted_before h hfetch hj)]
        exact hn

end MultiCycleDatapath

end MultiCycle

end CpuSim
