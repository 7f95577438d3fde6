/-
  CpuSim.SuperScalar.Dispatch

  `DispatchUnit`: a renamed instruction enters the reorder buffer and the issue
  queue together, sampling operand readiness from the physical register file.
-/

import CpuSim.SuperScalar.Config
import CpuSim.SuperScalar.ReOrderBuffer
import CpuSim.SuperScalar.IssueQueue

namespace CpuSim.SuperScalar

/-- The structures a `DispatchUnit` holds references to. -/
structure DispatchUnit (cfg : Config) where
  rob : ReOrderBuffer cfg.robCapacity
  issueQueue : IssueQueue cfg.iqCapacity
  prf : PhysicalRegisterFile cfg.prfCount

namespace DispatchUnit

variable {cfg : Config}

/-- `make_issue_entry(bundle, rob_index)`. -/
def makeIssueEntry {PRFCount : Nat} (prf : PhysicalRegisterFile PRFCount)
    (bundle : RenameBundle) (robIndex : Nat) : IssueQueueEntry :=
  let readsRs1 := bundle.operandA == .REGISTER
  let readsRs2 := bundle.operandB == .REGISTER || bundle.memoryWrite
  { valid := bundle.valid, pc := bundle.pc, instruction := bundle.instruction,
    opcode := bundle.opcode, physicalRd := bundle.physicalRd,
    physicalRs1 := bundle.physicalRs1, physicalRs2 := bundle.physicalRs2,
    immediate := bundle.immediate, aluOperation := bundle.aluOperation,
    operandA := bundle.operandA, operandB := bundle.operandB,
    registerWrite := bundle.registerWrite, memoryRead := bundle.memoryRead,
    memoryWrite := bundle.memoryWrite, controlFlow := bundle.controlFlow,
    robIndex := robIndex, predictedTaken := bundle.prediction.predictedTaken,
    predictedTarget := bundle.prediction.predictedTarget, halt := bundle.halt,
    rs1Ready := if readsRs1 then prf.ready bundle.physicalRs1 else true,
    rs1Value := if readsRs1 then prf.read bundle.physicalRs1 else 0,
    rs2Ready := if readsRs2 then prf.ready bundle.physicalRs2 else true,
    rs2Value := if readsRs2 then prf.read bundle.physicalRs2 else 0 }

/-- `dispatch(input, rob_index, checkpoint)`: the ROB slot (0 when the input is a
    bubble) and the updated structures, or `none` where the source returns
    `false`.  A failed `insert` after a successful `allocate` cannot happen once
    `full()` has been tested; it is kept as the source has it. -/
def dispatch (u : DispatchUnit cfg) (input : RenameBundle)
    (checkpoint : Option Checkpoint) :
    Option (Nat × DispatchUnit cfg) :=
  if !input.valid then some (0, u)
  else if u.rob.full then none
  else if u.issueQueue.full then none
  else
    match u.rob.allocate input checkpoint with
    | none => none
    | some (robIndex, rob) =>
      match u.issueQueue.insert (makeIssueEntry u.prf input robIndex) with
      | none => none
      | some issueQueue => some (robIndex, { u with rob := rob, issueQueue := issueQueue })

/-- What `dispatch` does when it takes an instruction in. -/
theorem dispatch_some {u u' : DispatchUnit cfg} {input : RenameBundle}
    {checkpoint : Option Checkpoint} {i : Nat} (hv : input.valid = true)
    (h : u.dispatch input checkpoint = some (i, u')) :
    ∃ rob issueQueue, u.rob.allocate input checkpoint = some (i, rob) ∧
      u.issueQueue.insert (makeIssueEntry u.prf input i) = some issueQueue ∧
      u' = { u with rob := rob, issueQueue := issueQueue } := by
  simp only [dispatch, hv, Bool.not_true, Bool.false_eq_true, if_false] at h
  split at h
  · cases h
  split at h
  · cases h
  split at h
  · cases h
  rename_i robIndex rob hall
  split at h
  · cases h
  rename_i issueQueue hins
  obtain ⟨rfl, rfl⟩ := Prod.mk.inj (Option.some.inj h)
  exact ⟨rob, issueQueue, hall, hins, rfl⟩

end DispatchUnit

end CpuSim.SuperScalar
