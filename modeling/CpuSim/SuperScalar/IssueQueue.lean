/-
  CpuSim.SuperScalar.IssueQueue

  The issue queue: a slot array with a separately maintained `count`, filled at
  the first free slot, woken up by result broadcasts and squashed by ROB index.
-/

import CpuSim.SuperScalar.Rename

namespace CpuSim.SuperScalar

/-- `IssueQueueEntry.hpp`. -/
structure IssueQueueEntry where
  valid : Bool := false
  issued : Bool := false
  pc : Word := 0
  instruction : Word := 0
  opcode : Opcode := .NOP
  physicalRs1 : PhysicalRegister := 0
  physicalRs2 : PhysicalRegister := 0
  physicalRd : PhysicalRegister := 0
  rs1Ready : Bool := false
  rs2Ready : Bool := false
  rs1Value : Word := 0
  rs2Value : Word := 0
  immediate : Word := 0
  aluOperation : ALUOperation := .NONE
  operandA : OperandSource := .NONE
  operandB : OperandSource := .NONE
  registerWrite : Bool := false
  memoryRead : Bool := false
  memoryWrite : Bool := false
  controlFlow : ControlFlow := .NONE
  robIndex : Nat := 0
  predictedTaken : Bool := false
  predictedTarget : Word := 0
  halt : Bool := false
  deriving DecidableEq, Repr

/-- Effect of a broadcast on one entry. -/
def IssueQueueEntry.wakeup (e : IssueQueueEntry) (p : PhysicalRegister) (value : Word) :
    IssueQueueEntry :=
  if !e.valid then e
  else
    let e1 :=
      if !e.rs1Ready && e.physicalRs1 == p then { e with rs1Value := value, rs1Ready := true }
      else e
    if !e1.rs2Ready && e1.physicalRs2 == p then { e1 with rs2Value := value, rs2Ready := true }
    else e1

/-- `IssueQueue<Capacity>`. -/
structure IssueQueue (Capacity : Nat) where
  entries : Nat → IssueQueueEntry := fun _ => {}
  count : Nat := 0

namespace IssueQueue

variable {Capacity : Nat}

def reset : IssueQueue Capacity := {}

def full (iq : IssueQueue Capacity) : Bool := iq.count == Capacity

/-- First slot below `Capacity` satisfying `p`, in index order. -/
def findSlot (iq : IssueQueue Capacity) (p : IssueQueueEntry → Bool) : Option Nat :=
  (List.range Capacity).find? fun i => p (iq.entries i)

/-- `insert(entry)`; `none` where the source returns `false`. -/
def insert (iq : IssueQueue Capacity) (entry : IssueQueueEntry) : Option (IssueQueue Capacity) :=
  if iq.full then none
  else
    match iq.findSlot (fun e => !e.valid) with
    | some i =>
      some
        { entries := Function.update iq.entries i { entry with valid := true },
          count := iq.count + 1 }
    | none => none

/-- `remove(index)`.  The pointer overload addresses the same slot. -/
def remove (iq : IssueQueue Capacity) (index : Nat) : IssueQueue Capacity :=
  if index ≥ Capacity then iq
  else if !(iq.entries index).valid then iq
  else { entries := Function.update iq.entries index {}, count := iq.count - 1 }

/-- `wakeup(physical_register, value)`. -/
def wakeup (iq : IssueQueue Capacity) (p : PhysicalRegister) (value : Word) :
    IssueQueue Capacity :=
  { iq with entries := fun i => (iq.entries i).wakeup p value }

/-- `squash(rob_indices)`. -/
def squash (iq : IssueQueue Capacity) (robIndices : List Nat) : IssueQueue Capacity :=
  let hit := fun i => (iq.entries i).valid && robIndices.contains (iq.entries i).robIndex
  { entries := fun i => if hit i then {} else iq.entries i,
    count := iq.count - ((List.range Capacity).filter hit).length }

end IssueQueue

end CpuSim.SuperScalar
