/-
  CpuSim.SuperScalar.ReOrderBuffer

  The circular reorder buffer: `head`, `tail` and `count` over an array of
  `ROBEntry`, with allocation at the tail, completion by slot, in-order commit
  from the head, and the squash of everything younger than a branch.
-/

import CpuSim.SuperScalar.Rename

namespace CpuSim.SuperScalar

/-- `ROBEntry.hpp` without the fields nothing writes. -/
structure ROBEntry where
  valid : Bool := false
  completed : Bool := false
  robIndex : Nat := 0
  pc : Word := 0
  instruction : Word := 0
  opcode : Opcode := .NOP
  registerWrite : Bool := false
  architecturalRd : Register := 0
  physicalRd : PhysicalRegister := 0
  oldPhysicalRd : PhysicalRegister := 0
  result : Word := 0
  memoryRead : Bool := false
  memoryWrite : Bool := false
  branch : Bool := false
  predictedTaken : Bool := false
  predictedTarget : Word := 0
  hasPrediction : Bool := false
  jump : Bool := false
  halt : Bool := false
  hasCheckpoint : Bool := false
  checkpoint : Checkpoint := {}

/-- `ReOrderBuffer<Capacity>`.  `entries` is the `std::array`; only slots below
    `Capacity` are ever addressed. -/
structure ReOrderBuffer (Capacity : Nat) where
  entries : Nat → ROBEntry := fun _ => {}
  head : Nat := 0
  tail : Nat := 0
  count : Nat := 0

namespace ReOrderBuffer

variable {Capacity : Nat}

def reset : ReOrderBuffer Capacity := {}

def empty (rob : ReOrderBuffer Capacity) : Bool := rob.count == 0

def full (rob : ReOrderBuffer Capacity) : Bool := rob.count == Capacity

/-- `increment` / `next_index`. -/
def nextIndex (Capacity index : Nat) : Nat := (index + 1) % Capacity

/-- The entry `allocate` builds from a rename bundle. -/
def makeEntry (bundle : RenameBundle) (index : Nat) (checkpoint : Option Checkpoint) :
    ROBEntry :=
  let entry : ROBEntry :=
    { valid := true, completed := false, pc := bundle.pc, instruction := bundle.instruction,
      opcode := bundle.opcode, registerWrite := bundle.registerWrite,
      architecturalRd := bundle.rd, physicalRd := bundle.physicalRd,
      oldPhysicalRd := bundle.oldPhysicalRd, memoryRead := bundle.memoryRead,
      memoryWrite := bundle.memoryWrite, branch := bundle.controlFlow == .BRANCH,
      jump := bundle.controlFlow == .JUMP, halt := bundle.halt, robIndex := index,
      predictedTaken := bundle.prediction.predictedTaken,
      predictedTarget := bundle.prediction.predictedTarget,
      hasPrediction := bundle.prediction.valid }
  match checkpoint with
  | some cp =>
    if entry.branch then { entry with hasCheckpoint := cp.valid, checkpoint := cp } else entry
  | none => entry

/-- `allocate(bundle, index, checkpoint)`: the slot index and the new buffer, or
    `none` where the source returns `false`. -/
def allocate (rob : ReOrderBuffer Capacity) (bundle : RenameBundle)
    (checkpoint : Option Checkpoint) : Option (Nat × ReOrderBuffer Capacity) :=
  if !bundle.valid || rob.full then none
  else
    some (rob.tail,
      { rob with
        entries := Function.update rob.entries rob.tail
          (makeEntry bundle rob.tail checkpoint),
        tail := nextIndex Capacity rob.tail,
        count := rob.count + 1 })

/-- `complete(index, result)`: a no-op out of range or on an empty slot. -/
def complete (rob : ReOrderBuffer Capacity) (index : Nat) (result : Word) :
    ReOrderBuffer Capacity :=
  if index ≥ Capacity then rob
  else if !(rob.entries index).valid then rob
  else
    { rob with
      entries := Function.update rob.entries index
        { rob.entries index with result := result, completed := true } }

/-- `head()`. -/
def headEntry (rob : ReOrderBuffer Capacity) : Option ROBEntry :=
  if rob.empty then none else some (rob.entries rob.head)

/-- `entry(index)`. -/
def entry (rob : ReOrderBuffer Capacity) (index : Nat) : Option ROBEntry :=
  if index ≥ Capacity then none else some (rob.entries index)

/-- `commit(committed_entry)`. -/
def commit (rob : ReOrderBuffer Capacity) : Option (ROBEntry × ReOrderBuffer Capacity) :=
  if rob.empty then none
  else if !(rob.entries rob.head).valid then none
  else if !(rob.entries rob.head).completed then none
  else
    some (rob.entries rob.head,
      { rob with
        entries := Function.update rob.entries rob.head {},
        head := nextIndex Capacity rob.head,
        count := rob.count - 1 })

/-- First loop of `squash_younger_than`: the logical position of slot
    `branchIndex`, walking `remaining` slots from `current`. -/
def locate (Capacity branchIndex : Nat) : Nat → Nat → Nat → Option Nat
  | 0, _, _ => none
  | remaining + 1, current, position =>
    if current = branchIndex then some position
    else locate Capacity branchIndex remaining (nextIndex Capacity current) (position + 1)

/-- Second loop of `squash_younger_than`: clear `remaining` slots from
    `current`, collecting the valid entries and their indices in order. -/
def squashLoop (Capacity : Nat) :
    Nat → Nat → (Nat → ROBEntry) → (Nat → ROBEntry) × List ROBEntry × List Nat
  | 0, _, entries => (entries, [], [])
  | remaining + 1, current, entries =>
    let (entries', squashed, indices) :=
      squashLoop Capacity remaining (nextIndex Capacity current)
        (Function.update entries current {})
    if (entries current).valid then (entries', entries current :: squashed, current :: indices)
    else (entries', squashed, indices)

/-- `squash_younger_than(branch_index, squashed_indices)`. -/
def squashYoungerThan (rob : ReOrderBuffer Capacity) (branchIndex : Nat) :
    ReOrderBuffer Capacity × List ROBEntry × List Nat :=
  if rob.count = 0 then (rob, [], [])
  else
    match locate Capacity branchIndex rob.count rob.head 0 with
    | none => (rob, [], [])
    | some branchPosition =>
      let youngerCount := rob.count - branchPosition - 1
      let (entries, squashed, indices) :=
        squashLoop Capacity youngerCount (nextIndex Capacity branchIndex) rob.entries
      ({ rob with
          entries := entries, tail := nextIndex Capacity branchIndex,
          count := rob.count - youngerCount },
        squashed, indices)

end ReOrderBuffer

end CpuSim.SuperScalar
