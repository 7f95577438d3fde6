/-
  CpuSim.Pipelined.Cycle

  One clock cycle of the pipeline: what its storage elements drive before a step
  determines what they drive after it.
-/

import CpuSim.Pipelined.Datapath

namespace CpuSim.Pipelined

open CpuSim.Logic (mux)
open PipelinedCycleDatapath (execute hazardInputs resultW operandD haltFetched controlsM)

/-- What the storage elements drive, and the opcodes tracked beside them. -/
@[ext]
structure Outputs where
  pc : Word
  ifId : IF_ID
  idEx : ID_EX
  exMem : EX_MEM
  memWb : MEM_WB
  regs : Register → Word
  memory : Nat → Word
  idOpcode : Opcode
  exOpcode : Opcode
  memOpcode : Opcode
  wbOpcode : Opcode

namespace Outputs

/-- The instruction in the decode stage. -/
def decoded (o : Outputs) : DecodedInstruction := InstructionDecoder.decode ⟨o.ifId.instruction⟩

/-- The execute stage. -/
def executed (o : Outputs) : PipelinedCycleDatapath.Execute :=
  execute o.exOpcode (hazardInputs o.decoded o.idEx o.exMem o.memWb false).evaluate o.idEx o.exMem
    o.memWb

/-- The hazard unit, with the branch resolved. -/
def hazard (o : Outputs) : HazardOutputs :=
  (hazardInputs o.decoded o.idEx o.exMem o.memWb o.executed.branchTaken).evaluate

/-- The enable of the program counter. -/
def pcEnable (o : Outputs) : Bool :=
  (o.executed.branchTaken || !haltFetched o.executed.branchTaken o.decoded.opcode o.idOpcode
    o.exOpcode o.memOpcode o.wbOpcode) && !o.hazard.stallF

/-- The next program counter, when it is enabled. -/
def pcPrime (o : Outputs) : Word :=
  mux (mux (o.pc + 1) o.executed.branchTarget o.executed.branchTaken) (resultW o.memWb)
    (o.memWb.controls.regWrite && o.memWb.rd == 15)

/-- What the storage elements drive after the rising edge, before the opcodes move.
    `readData` is what the memory stage reads. -/
def settled (rom : Word → Word) (w : Nat) (writable : Nat → Bool) (readData : Word)
    (o : Outputs) : Outputs where
  pc := mux o.pc o.pcPrime o.pcEnable
  ifId :=
    mux (mux o.ifId { instruction := rom o.pc, pcplus4 := o.pc + 1 } (!o.hazard.stallD)) {}
      o.hazard.flushD
  idEx :=
    mux
      { pcplus4 := o.ifId.pcplus4
        readData1 := operandD o.regs o.memWb o.decoded.rs1
        readData2 := operandD o.regs o.memWb o.decoded.rs2
        immediate := o.decoded.immediate
        rs := o.decoded.rs1
        rt := o.decoded.rs2
        rd := o.decoded.rd
        controls := ControlSignals.generate o.decoded }
      {} o.hazard.flushE
  exMem :=
    { aluResult := o.executed.aluResult
      readData2 := o.executed.writeData
      rd := o.idEx.rd
      controls := (controlsM o.idEx.controls o.executed.branchTaken).exMem }
  memWb :=
    { readData := readData
      aluResult := o.exMem.aluResult
      rd := o.exMem.rd
      controls := o.exMem.controls.memWb }
  regs :=
    if o.memWb.controls.regWrite then Function.update o.regs o.memWb.rd (resultW o.memWb)
    else o.regs
  memory :=
    if o.exMem.controls.memWrite then
      Logic.Memory.write w writable o.memory o.exMem.aluResult o.exMem.readData2
    else o.memory
  idOpcode := o.idOpcode
  exOpcode := o.exOpcode
  memOpcode := o.memOpcode
  wbOpcode := o.wbOpcode

/-- One cycle: the opcodes follow the instructions.  The stall of the new decode stage is
    resolved while the execute stage still has its old opcode. -/
def next (rom : Word → Word) (w : Nat) (writable : Nat → Bool) (readData : Word)
    (o : Outputs) : Outputs :=
  let settled := o.settled rom w writable readData
  { settled with
    wbOpcode := o.memOpcode
    memOpcode := o.exOpcode
    exOpcode := if o.hazard.flushE then .NOP else o.idOpcode
    idOpcode :=
      if o.hazard.flushD then .NOP
      else if !settled.hazard.stallD then settled.decoded.opcode
      else o.idOpcode }

end Outputs

namespace PipelinedCycleDatapath

variable {iw w : Nat} {writable : Nat → Bool}

/-- The words the storage elements of a datapath drive. -/
def outputs (d : PipelinedCycleDatapath iw w writable) : Outputs where
  pc := d.programCounter.output
  ifId := d.ifId.output
  idEx := d.idEx.output
  exMem := d.exMem.output
  memWb := d.memWb.output
  regs := d.registerFile.read
  memory := d.dataMem.contents
  idOpcode := d.idOpcode
  exOpcode := d.exOpcode
  memOpcode := d.memOpcode
  wbOpcode := d.wbOpcode

/-- The instruction memory as the fetch stage reads it. -/
def fetched (d : PipelinedCycleDatapath iw w writable) (pc : Word) : Word :=
  d.instructionMem (Logic.Memory.wordOf iw pc)

/-- The clock is LOW and the reset wire is LOW: the state between two steps. -/
structure AtRest (d : PipelinedCycleDatapath iw w writable) : Prop where
  clock : d.clock = false
  reset : d.reset = false

/-- One `step()` from rest. -/
theorem step_outputs {d : PipelinedCycleDatapath iw w writable} (h : d.AtRest)
    (hrun : d.halted = false) :
    d.step.AtRest ∧ d.step.instructionMem = d.instructionMem ∧
      ∃ readData,
        (d.outputs.exMem.controls.memRead = true → d.outputs.exMem.controls.memWrite = false →
          readData = d.outputs.memory (Logic.Memory.wordOf w d.outputs.exMem.aluResult)) ∧
        d.step.outputs = d.outputs.next d.fetched w writable readData := by
  obtain ⟨hclock, hreset⟩ := h
  rw [step, hrun]
  cases d with
  | mk clock reset pc rom ifId rf idEx exMem dataMem memWb decoded stallD flushD flushE wb mem ex
      id =>
      dsimp only at hclock hreset
      subst hclock hreset
      refine ⟨⟨rfl, rfl⟩, rfl,
        (DataMemory.evaluate dataMem false exMem.output.controls.memRead
          exMem.output.controls.memWrite exMem.output.aluResult exMem.output.readData2).readData,
        ?_, ?_⟩
      · intro hread hwrite
        change exMem.output.controls.memRead = true at hread
        change exMem.output.controls.memWrite = false at hwrite
        rw [hread, hwrite]
        rfl
      · refine Outputs.ext rfl rfl rfl rfl rfl ?_ ?_ rfl rfl rfl rfl
        · funext i
          exact Logic.RegisterFile.loadMux_eq rf.read memWb.output.controls.regWrite _ i _
        · exact DataMemory.contents_rising dataMem exMem.output.controls.memRead
            exMem.output.controls.memWrite _ _ _ _

end PipelinedCycleDatapath

end CpuSim.Pipelined
