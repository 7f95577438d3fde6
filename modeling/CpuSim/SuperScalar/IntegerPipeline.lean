/-
  CpuSim.SuperScalar.IntegerPipeline

  `IntegerExecutionPipeline`: up to two ready integer operations a cycle, executed
  by the ALU interface and written back together, then up to two retirements.
  What it shares with the ALU part of `SuperScalarCPU::step` is an `IntegerCore`,
  on which both execute a ready slot in the same way.
-/

import CpuSim.Components.Alu
import CpuSim.SuperScalar.Sound

namespace CpuSim.SuperScalar

/-- The structures an integer operation works on. -/
structure IntegerCore (cfg : Config) where
  rob : ReOrderBuffer cfg.robCapacity
  issueQueue : IssueQueue cfg.iqCapacity
  prf : PhysicalRegisterFile cfg.prfCount

/-- The structures an `IntegerExecutionPipeline` holds references to; its lanes are
    written in every cycle before they are read. -/
structure IntegerExecutionPipeline (cfg : Config) where
  rob : ReOrderBuffer cfg.robCapacity
  issueQueue : IssueQueue cfg.iqCapacity
  prf : PhysicalRegisterFile cfg.prfCount
  freeList : PhysicalRegisterFreeList

/-- `ExecuteResult`. -/
structure ExecuteResult where
  valid : Bool := false
  result : Word := 0
  robIndex : Nat := 0
  physicalRd : PhysicalRegister := 0
  deriving DecidableEq, Repr

namespace IntegerExecutionPipeline

variable {cfg : Config}

/-- `IntegerExecutionPipeline::CycleResult`. -/
structure CycleResult where
  issued : Nat := 0
  retired : Nat := 0
  deriving DecidableEq, Repr

/-- `ready_for_integer_execution(entry)`. -/
def readyForIntegerExecution (entry : IssueQueueEntry) : Bool :=
  entry.valid && !entry.issued && entry.rs1Ready && entry.rs2Ready &&
    !entry.memoryRead && !entry.memoryWrite &&
    entry.controlFlow == .NONE && !entry.halt && entry.aluOperation != .NONE

/-- `operand_value(source, register_value, immediate)`. -/
def operandValue : OperandSource → Word → Word → Word
  | .REGISTER, registerValue, _ => registerValue
  | .IMMEDIATE, _, immediate => immediate
  | _, _, _ => 0

/-- `execute_lane`, read back through `result_bundle()`: the valid wire is high while
    the unit evaluates. -/
def executeLane (entry : IssueQueueEntry) : ExecuteResult :=
  { valid := true
    result :=
      ALUInterface.result entry.aluOperation
        (operandValue entry.operandA entry.rs1Value entry.immediate)
        (operandValue entry.operandB entry.rs2Value entry.immediate)
    robIndex := entry.robIndex
    physicalRd := entry.physicalRd }

/-- The slots picked by the selection loop: the first two ready ones. -/
def selected (u : IntegerExecutionPipeline cfg) : List Nat :=
  ((List.range cfg.iqCapacity).filter fun index =>
    readyForIntegerExecution (u.issueQueue.entries index)).take 2

/-- The execution loop: each selected entry is executed and leaves the queue. -/
def executeLanes : List Nat → IntegerExecutionPipeline cfg →
    List ExecuteResult × IntegerExecutionPipeline cfg
  | [], u => ([], u)
  | index :: rest, u =>
    let executed := executeLane (u.issueQueue.entries index)
    let (results, u) := executeLanes rest { u with issueQueue := u.issueQueue.remove index }
    (executed :: results, u)

/-- `write_back(executed)`. -/
def writeBack (u : IntegerExecutionPipeline cfg) (executed : ExecuteResult) :
    IntegerExecutionPipeline cfg :=
  if !executed.valid then u
  else
    match u.rob.entry executed.robIndex with
    | none => u
    | some robEntry =>
      if !robEntry.valid then u
      else
        let u :=
          if robEntry.registerWrite then
            { u with
              prf := u.prf.write executed.physicalRd executed.result,
              issueQueue := u.issueQueue.wakeup executed.physicalRd executed.result }
          else u
        { u with rob := u.rob.complete executed.robIndex executed.result }

/-- The part of `cycle()` in front of retirement. -/
def executeCycle (u : IntegerExecutionPipeline cfg) : IntegerExecutionPipeline cfg :=
  let (results, u) := executeLanes u.selected u
  results.foldl writeBack u

/-- The retirement loop, with `n` retirements left. -/
def retireLoop : Nat → IntegerExecutionPipeline cfg → Nat × IntegerExecutionPipeline cfg
  | 0, u => (0, u)
  | n + 1, u =>
    match u.rob.commit with
    | none => (0, u)
    | some (committed, rob) =>
      let freeList :=
        if committed.registerWrite then u.freeList.release committed.oldPhysicalRd
        else u.freeList
      let (retired, u) := retireLoop n { u with rob := rob, freeList := freeList }
      (retired + 1, u)

/-- `cycle()`. -/
def cycle (u : IntegerExecutionPipeline cfg) : CycleResult × IntegerExecutionPipeline cfg :=
  let (retired, u') := retireLoop 2 u.executeCycle
  ({ issued := u.selected.length, retired := retired }, u')

/-- What execution works on. -/
def core (u : IntegerExecutionPipeline cfg) : IntegerCore cfg :=
  { rob := u.rob, issueQueue := u.issueQueue, prf := u.prf }

end IntegerExecutionPipeline

/-- The same part of the complete machine. -/
def SuperScalarCPU.integerCore {cfg : Config} (s : SuperScalarCPU cfg) : IntegerCore cfg :=
  { rob := s.rob, issueQueue := s.iq, prf := s.prf }

/-! ## The operations on the queues commute -/

namespace IssueQueueEntry

variable (e : IssueQueueEntry) (p p' : PhysicalRegister) (v v' : Word)

/-- A broadcast passes an entry that waits for nothing. -/
theorem wakeup_of_ready (h1 : e.rs1Ready = true) (h2 : e.rs2Ready = true) : e.wakeup p v = e := by
  simp [wakeup, h1, h2]

@[simp] theorem wakeup_empty : ({} : IssueQueueEntry).wakeup p v = {} := rfl

/-- Broadcasts of different registers commute. -/
theorem wakeup_comm (hne : p ≠ p') : (e.wakeup p v).wakeup p' v' = (e.wakeup p' v').wakeup p v := by
  cases hv : e.valid with
  | false => simp [wakeup, hv]
  | true =>
      have hexcl : ∀ q : PhysicalRegister, (q == p) = true → (q == p') = false := by
        intro q hq
        rw [beq_iff_eq] at hq
        rw [beq_eq_false_iff_ne, hq]
        exact hne
      rw [(e.wakeup p v).wakeup_eq p' v' (by rw [wakeup_valid, hv]),
        (e.wakeup p' v').wakeup_eq p v (by rw [wakeup_valid, hv]), e.wakeup_eq p v hv,
        e.wakeup_eq p' v' hv]
      have h1 := hexcl e.physicalRs1
      have h2 := hexcl e.physicalRs2
      revert h1 h2
      cases e.rs1Ready <;> cases e.rs2Ready <;> cases e.physicalRs1 == p <;>
        cases e.physicalRs1 == p' <;> cases e.physicalRs2 == p <;>
        cases e.physicalRs2 == p' <;> simp

end IssueQueueEntry

namespace IssueQueue

variable {Capacity : Nat} (iq : IssueQueue Capacity) {i j : Nat}

theorem remove_wakeup (p : PhysicalRegister) (v : Word) :
    (iq.wakeup p v).remove i = (iq.remove i).wakeup p v := by
  by_cases hi : i ≥ Capacity
  · simp [remove, hi]
  · cases hv : (iq.entries i).valid with
    | false => simp [remove, wakeup, hv]
    | true =>
        simp only [remove, wakeup, hi, hv, IssueQueueEntry.wakeup_valid, Bool.not_true,
          Bool.false_eq_true, if_false]
        congr 1
        funext k
        by_cases hk : k = i
        · rw [hk, Function.update_self, Function.update_self, IssueQueueEntry.wakeup_empty]
        · rw [Function.update_of_ne hk, Function.update_of_ne hk]

/-- What `remove` leaves in the other slots. -/
theorem remove_entries_of_ne (hij : j ≠ i) : (iq.remove i).entries j = iq.entries j := by
  simp only [remove]
  split
  · rfl
  split
  · rfl
  · exact Function.update_of_ne hij _ _

theorem remove_comm (hij : i ≠ j) : (iq.remove i).remove j = (iq.remove j).remove i := by
  have hold : ∀ (q : IssueQueue Capacity) k, q.remove k =
      if k < Capacity ∧ (q.entries k).valid = true then
        ⟨Function.update q.entries k {}, q.count - 1⟩ else q := by
    intro q k
    by_cases hk : k < Capacity <;> cases hv : (q.entries k).valid <;>
      simp [remove, hk, hv, Nat.not_le.mpr, Nat.le_of_not_lt]
  have hj := iq.remove_entries_of_ne (Ne.symm hij)
  have hi := iq.remove_entries_of_ne hij
  rw [hold (iq.remove i), hold (iq.remove j), hj, hi, hold iq i, hold iq j]
  by_cases h1 : i < Capacity ∧ (iq.entries i).valid = true <;>
    by_cases h2 : j < Capacity ∧ (iq.entries j).valid = true <;>
    simp only [h1, h2, and_self, if_true, if_false]
  rw [Function.update_comm hij]

theorem wakeup_comm {p p' : PhysicalRegister} (hne : p ≠ p') (v v' : Word) :
    (iq.wakeup p v).wakeup p' v' = (iq.wakeup p' v').wakeup p v := by
  simp only [wakeup]
  congr 1
  funext k
  exact (iq.entries k).wakeup_comm p p' v v' hne

end IssueQueue

theorem PhysicalRegisterFile.write_comm {n : Nat} (prf : PhysicalRegisterFile n)
    {p p' : PhysicalRegister} (hne : p ≠ p') (v v' : Word) :
    (prf.write p v).write p' v' = (prf.write p' v').write p v := by
  by_cases h : p < n <;> by_cases h' : p' < n <;> simp only [write, h, h', if_true, if_false]
  rw [Function.update_comm hne]

namespace ReOrderBuffer

variable {Capacity : Nat} (rob : ReOrderBuffer Capacity) {i j : Nat}

theorem complete_entries_of_ne (hij : j ≠ i) (r : Word) :
    (rob.complete i r).entries j = rob.entries j := by
  simp only [complete]
  split
  · rfl
  split
  · rfl
  · exact Function.update_of_ne hij _ _

theorem complete_comm (hij : i ≠ j) (r r' : Word) :
    (rob.complete i r).complete j r' = (rob.complete j r').complete i r := by
  have hold : ∀ (b : ReOrderBuffer Capacity) k x, b.complete k x =
      if k < Capacity ∧ (b.entries k).valid = true then
        { b with
          entries := Function.update b.entries k
            { b.entries k with result := x, completed := true } }
      else b := by
    intro b k x
    by_cases hk : k < Capacity <;> cases hv : (b.entries k).valid <;>
      simp [complete, hk, hv, Nat.not_le.mpr, Nat.le_of_not_lt]
  have hj := rob.complete_entries_of_ne (Ne.symm hij) r
  have hi := rob.complete_entries_of_ne hij r'
  rw [hold (rob.complete i r), hold (rob.complete j r'), hj, hi, hold rob i, hold rob j]
  by_cases h1 : i < Capacity ∧ (rob.entries i).valid = true <;>
    by_cases h2 : j < Capacity ∧ (rob.entries j).valid = true <;>
    simp only [h1, h2, and_self, if_true, if_false]
  rw [Function.update_comm hij]

end ReOrderBuffer

end CpuSim.SuperScalar
