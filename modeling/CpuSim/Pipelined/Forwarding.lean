/-
  CpuSim.Pipelined.Forwarding

  The instructions in the memory and writeback stages against a sequential state: what the
  registers and the memory will hold once they have left the pipeline, and what the execute
  stage computes from it.
-/

import CpuSim.Pipelined.Cycle

namespace CpuSim.Pipelined

open CpuSim.Logic (mux)
open PipelinedCycleDatapath (execute hazardInputs resultW operandD resolveBranch controlsM)

/-- The pipeline as a sequential machine: branches and jumps are relative to the incremented
    program counter. -/
def machine (w : Nat) (writable : Nat → Bool) : Isa.Machine where
  addressWidth := w
  writable := writable
  branchTarget pc immediate := pc + 1 + immediate
  jumpTarget pc immediate := pc + 1 + immediate

/-- The instruction at an address. -/
def instructionAt (rom : Word → Word) (pc : Word) : DecodedInstruction :=
  InstructionDecoder.decode ⟨rom pc⟩

/-! ## Draining the pipeline -/

namespace Outputs

variable (w : Nat) (writable : Nat → Bool)

/-- The registers once the writeback stage has written. -/
def regsW (o : Outputs) : Register → Word :=
  if o.memWb.controls.regWrite then Function.update o.regs o.memWb.rd (resultW o.memWb)
  else o.regs

/-- The value the instruction in the memory stage will write. -/
def valueM (o : Outputs) : Word :=
  mux o.exMem.aluResult (o.memory (Logic.Memory.wordOf w o.exMem.aluResult))
    o.exMem.controls.memToReg

/-- The registers once the memory stage has written too. -/
def regsM (o : Outputs) : Register → Word :=
  if o.exMem.controls.regWrite then Function.update o.regsW o.exMem.rd (o.valueM w) else o.regsW

/-- The memory once the memory stage has written. -/
def memoryM (o : Outputs) : Nat → Word :=
  if o.exMem.controls.memWrite then
    Logic.Memory.write w writable o.memory o.exMem.aluResult o.exMem.readData2
  else o.memory

/-- The instructions in the memory and writeback stages are the last ones of a sequential
    state: a load reads the memory, nothing writes R15, no `HALT` has arrived. -/
structure Draining (s : Isa.State) (o : Outputs) : Prop where
  regs : o.regsM w = s.regs
  memory : o.memoryM w writable = s.memory
  load : o.exMem.controls.memToReg = true →
    o.exMem.controls.memRead = true ∧ o.exMem.controls.memWrite = false
  r15M : o.exMem.controls.regWrite = true → o.exMem.rd ≠ 15
  r15W : o.memWb.controls.regWrite = true → o.memWb.rd ≠ 15
  wbOpcode : o.wbOpcode ≠ .HALT

end Outputs

/-! ## The execute stage -/

/-- The execute stage holds an instruction fetched from `pc`, with the register operands of
    the register file; a load before it does not write them. -/
structure Executing (i : DecodedInstruction) (pc : Word) (o : Outputs) : Prop where
  pcplus4 : o.idEx.pcplus4 = pc + 1
  immediate : o.idEx.immediate = i.immediate
  rs : o.idEx.rs = i.rs1
  rt : o.idEx.rt = i.rs2
  rd : o.idEx.rd = i.rd
  controls : o.idEx.controls = ControlSignals.generate i
  readData1 : o.idEx.readData1 = o.regs i.rs1
  readData2 : o.idEx.readData2 = o.regs i.rs2
  opcode : o.exOpcode = i.opcode
  loadUse : o.exMem.controls.memToReg = true → o.exMem.rd ≠ i.rs1 ∧ o.exMem.rd ≠ i.rs2

/-- The execute stage holds a bubble. -/
structure Bubble (o : Outputs) : Prop where
  controls : o.idEx.controls = {}
  opcode : o.exOpcode = .NOP

section Forwarding

variable {w : Nat} {writable : Nat → Bool} {s : Isa.State} {o : Outputs}

/-- The forwarding muxes select what the register will hold. -/
theorem forwardMux_eq (h : o.Draining w writable s) {source : Register} {readData : Word}
    (hread : readData = o.regs source)
    (hload : o.exMem.controls.memToReg = true → o.exMem.rd ≠ source) :
    forwardMux readData (resultW o.memWb) o.exMem.aluResult
        ((hazardInputs o.decoded o.idEx o.exMem o.memWb false).forward source) =
      s.regs source := by
  rw [← h.regs, Outputs.regsM, Outputs.regsW, hread]
  show forwardMux _ _ _ (if (o.exMem.controls.regWrite && o.exMem.rd == source) = true then _
    else if (o.memWb.controls.regWrite && o.memWb.rd == source) = true then _ else _) = _
  by_cases hm : (o.exMem.controls.regWrite && o.exMem.rd == source) = true
  · -- the memory stage writes it, and is no load
    rw [if_pos hm]
    obtain ⟨hwrite, hrd⟩ := Bool.and_eq_true_iff.mp hm
    rw [beq_iff_eq] at hrd
    have hmem : o.exMem.controls.memToReg = false := by
      rw [Bool.eq_false_iff]
      exact fun hmem => hload hmem hrd
    rw [if_pos hwrite, ← hrd, Function.update_self, Outputs.valueM, hmem]
    rfl
  · rw [if_neg hm]
    have hother : ∀ f : Register → Word,
        (if o.exMem.controls.regWrite = true then Function.update f o.exMem.rd (o.valueM w)
          else f) source = f source := by
      intro f
      split
      · next hwrite =>
          rw [hwrite, Bool.true_and, beq_iff_eq] at hm
          exact Function.update_of_ne (Ne.symm hm) _ _
      · rfl
    rw [hother]
    by_cases hw : (o.memWb.controls.regWrite && o.memWb.rd == source) = true
    · rw [if_pos hw]
      obtain ⟨hwrite, hrd⟩ := Bool.and_eq_true_iff.mp hw
      rw [beq_iff_eq] at hrd
      rw [if_pos hwrite, ← hrd, Function.update_self]
      rfl
    · rw [if_neg hw]
      split
      · next hwrite =>
          rw [hwrite, Bool.true_and, beq_iff_eq] at hw
          rw [Function.update_of_ne (Ne.symm hw)]
          rfl
      · rfl

/-- The operands of the execute stage are those of the sequential state. -/
theorem executed_writeData {i : DecodedInstruction} {pc : Word} (h : o.Draining w writable s)
    (he : Executing i pc o) : o.executed.writeData = s.regs i.rs2 := by
  rw [← forwardMux_eq h he.readData2 fun hload => (he.loadUse hload).2, ← he.rt]
  rfl

/-- The ALU computes on the operands of the sequential state. -/
theorem executed_aluResult {i : DecodedInstruction} {pc : Word} (h : o.Draining w writable s)
    (he : Executing i pc o) :
    o.executed.aluResult =
      ALUInterface.result (ControlSignals.generate i).aluOp (s.regs i.rs1)
        (mux (s.regs i.rs2) i.immediate (ControlSignals.generate i).aluSrc) := by
  rw [← forwardMux_eq h he.readData1 fun hload => (he.loadUse hload).1,
    ← executed_writeData h he, ← he.rs, ← he.controls, ← he.immediate]
  rfl

/-- The branch is resolved as the sequential machine resolves it. -/
theorem executed_branch {i : DecodedInstruction} {pc : Word} (h : o.Draining w writable s)
    (he : Executing i pc o) :
    o.executed.branchTaken =
      match i.opcode with
      | .BEQ => s.regs i.rs1 == s.regs i.rs2
      | .BNE => !(s.regs i.rs1 == s.regs i.rs2)
      | .J => true
      | _ => false := by
  have hbranch : o.executed.branchTaken =
      resolveBranch o.idEx.controls.branch o.exOpcode
        (ALUInterface.zero o.idEx.controls.aluOp
          (forwardMux o.idEx.readData1 (resultW o.memWb) o.exMem.aluResult
            ((hazardInputs o.decoded o.idEx o.exMem o.memWb false).forward o.idEx.rs))
          (mux o.executed.writeData o.idEx.immediate o.idEx.controls.aluSrc)) := rfl
  rw [hbranch, he.rs, forwardMux_eq h he.readData1 fun hload => (he.loadUse hload).1,
    executed_writeData h he, he.controls, he.opcode]
  unfold resolveBranch ControlSignals.generate
  cases i.opcode with
  | BEQ => exact ALUInterface.zero_sub _ _
  | BNE => exact congrArg (!·) (ALUInterface.zero_sub _ _)
  | _ => rfl

/-! ## One cycle of the drain -/

/-- What the memory stage reads for a load. -/
def Reads (w : Nat) (o : Outputs) (readData : Word) : Prop :=
  o.exMem.controls.memRead = true → o.exMem.controls.memWrite = false →
    readData = o.memory (Logic.Memory.wordOf w o.exMem.aluResult)

/-- The memory stage moves to the writeback stage with the value it will write. -/
theorem next_regsW {rom : Word → Word} {readData : Word} (h : o.Draining w writable s)
    (hread : Reads w o readData) :
    (o.next rom w writable readData).regsW = s.regs := by
  rw [← h.regs]
  have hvalue : resultW (o.next rom w writable readData).memWb = o.valueM w := by
    show mux o.exMem.aluResult readData o.exMem.controls.memToReg = _
    rw [Outputs.valueM]
    cases hload : o.exMem.controls.memToReg with
    | false => rfl
    | true => rw [hread (h.load hload).1 (h.load hload).2]
  rw [Outputs.regsW, hvalue]
  rfl

/-- The memory stage writes the memory. -/
theorem next_memory {rom : Word → Word} {readData : Word} (h : o.Draining w writable s) :
    (o.next rom w writable readData).memory = s.memory := h.memory

/-- A bubble leaves the execute stage. -/
theorem Outputs.Draining.bubble {rom : Word → Word} {readData : Word} (h : o.Draining w writable s)
    (hread : Reads w o readData) (he : o.idEx.controls = {}) (hmem : o.memOpcode ≠ .HALT) :
    (o.next rom w writable readData).Draining w writable s := by
  have hcontrols : (o.next rom w writable readData).exMem.controls = {} := by
    show (controlsM o.idEx.controls o.executed.branchTaken).exMem = {}
    rw [he]
    cases o.executed.branchTaken <;> rfl
  constructor
  · rw [Outputs.regsM, hcontrols]
    exact next_regsW h hread
  · rw [Outputs.memoryM, hcontrols]
    exact h.memory
  · rw [hcontrols]
    rintro ⟨⟩
  · rw [hcontrols]
    rintro ⟨⟩
  · exact h.r15M
  · exact hmem

/-- The controls an instruction takes to the memory stage; a taken branch has none to mask. -/
theorem next_controls {rom : Word → Word} {readData : Word} {i : DecodedInstruction} {pc : Word}
    (h : o.Draining w writable s) (he : Executing i pc o) :
    (o.next rom w writable readData).exMem.controls = (ControlSignals.generate i).exMem := by
  have htaken := executed_branch h he
  show (controlsM o.idEx.controls o.executed.branchTaken).exMem = _
  rw [htaken, he.controls]
  unfold ControlSignals.generate controlsM
  cases i.opcode with
  | BEQ | BNE => dsimp only; split <;> rfl
  | _ => rfl

/-- Only instructions with a result write a register. -/
theorem generate_regWrite (s : Isa.State) (i : DecodedInstruction) :
    (ControlSignals.generate i).regWrite = (s.result (machine w writable) i).isSome := by
  unfold ControlSignals.generate Isa.State.result
  cases i.opcode <;> rfl

/-- An instruction leaves the execute stage: the sequential machine has executed it. -/
theorem Outputs.Draining.exec {rom : Word → Word} {readData : Word} {i : DecodedInstruction}
    (h : o.Draining w writable s) (hread : Reads w o readData) (he : Executing i s.pc o)
    (h15 : (s.result (machine w writable) i).isSome → i.rd ≠ 15) (hmem : o.memOpcode ≠ .HALT) :
    (o.next rom w writable readData).Draining w writable (s.exec (machine w writable) i) := by
  have hcontrols := @next_controls _ _ _ _ rom readData _ _ h he
  have hregsW := @next_regsW _ _ _ _ rom readData h hread
  have hrd : (o.next rom w writable readData).exMem.rd = i.rd := he.rd
  have halu : (o.next rom w writable readData).exMem.aluResult = _ := executed_aluResult h he
  have hdata : (o.next rom w writable readData).exMem.readData2 = _ := executed_writeData h he
  have hmemory := @next_memory _ _ _ _ rom readData h
  constructor
  · rw [Outputs.regsM, Outputs.valueM, hcontrols, hregsW, hrd, halu, hmemory]
    unfold ControlSignals.generate Isa.State.exec Isa.State.result
    cases i.opcode <;> rfl
  · rw [Outputs.memoryM, hcontrols, halu, hdata, hmemory]
    unfold ControlSignals.generate Isa.State.exec
    cases i.opcode <;> rfl
  · rw [hcontrols]
    unfold ControlSignals.generate
    cases i.opcode <;> first | exact fun _ => ⟨rfl, rfl⟩ | exact nofun
  · rw [hcontrols, hrd]
    intro hwrite
    apply h15
    rw [← generate_regWrite]
    exact hwrite
  · exact h.r15M
  · exact hmem

end Forwarding

end CpuSim.Pipelined
