/-
  CpuSim.SuperScalar.Commit

  In-order retirement: the `ArchitecturalRegisterFile` and the `CommitUnit`
  loop that drains completed entries from the ROB head.
-/

import CpuSim.SuperScalar.Config
import CpuSim.SuperScalar.ReOrderBuffer
import CpuSim.SuperScalar.Memory

namespace CpuSim.SuperScalar

/-- `ArchitecturalRegisterFile<ArchitecturalRegisterCount>`. -/
structure ArchitecturalRegisterFile (ArchitecturalRegisterCount : Nat) where
  registers : Register → Word := fun _ => 0

namespace ArchitecturalRegisterFile

variable {ARFCount : Nat}

def reset : ArchitecturalRegisterFile ARFCount := {}

def read (arf : ArchitecturalRegisterFile ARFCount) (reg : Register) : Word :=
  if reg.val ≥ ARFCount then 0 else arf.registers reg

def write (arf : ArchitecturalRegisterFile ARFCount) (reg : Register) (value : Word) :
    ArchitecturalRegisterFile ARFCount :=
  if reg.val ≥ ARFCount then arf else ⟨Function.update arf.registers reg value⟩

end ArchitecturalRegisterFile

/-- `CommitUnit::CommitEvent`. -/
structure CommitEvent where
  valid : Bool := false
  robIndex : Nat := 0
  pc : Word := 0
  opcode : Opcode := .NOP
  registerWrite : Bool := false
  architecturalRd : Register := 0
  physicalRd : PhysicalRegister := 0
  freedPhysicalReg : PhysicalRegister := 0
  value : Word := 0
  branch : Bool := false
  store : Bool := false
  halt : Bool := false
  deriving DecidableEq, Repr

/-- The counters of `CommitUnit` and the structures its `step` receives by
    reference; `storeBuffer` is a pointer that may be null. -/
structure CommitUnit (cfg : Config) where
  commitWidth : Nat := 2
  committedInstructionCount : Nat := 0
  halted : Bool := false
  rob : ReOrderBuffer cfg.robCapacity
  prf : PhysicalRegisterFile cfg.prfCount
  arf : ArchitecturalRegisterFile cfg.arfCount
  freeList : PhysicalRegisterFreeList
  rat : RegisterAliasTable
  storeBuffer : Option (StoreBuffer cfg.storeBufferCapacity)

namespace CommitUnit

variable {cfg : Config}

/-- The event emitted for a committed entry. -/
def makeEvent (prf : PhysicalRegisterFile cfg.prfCount) (entry : ROBEntry) : CommitEvent :=
  { valid := true, robIndex := entry.robIndex, pc := entry.pc, opcode := entry.opcode,
    registerWrite := entry.registerWrite, architecturalRd := entry.architecturalRd,
    physicalRd := entry.physicalRd, freedPhysicalReg := entry.oldPhysicalRd,
    branch := entry.branch, store := entry.memoryWrite, halt := entry.halt,
    value := if entry.registerWrite then prf.read entry.physicalRd else 0 }

/-- Body of the commit loop once `entry` has left the ROB. -/
def retire (u : CommitUnit cfg) (entry : ROBEntry) : CommitUnit cfg :=
  let u :=
    if entry.registerWrite then
      { u with
        arf := u.arf.write entry.architecturalRd (u.prf.read entry.physicalRd),
        freeList :=
          if entry.oldPhysicalRd ≠ INVALID_REGISTER then u.freeList.releaseBack entry.oldPhysicalRd
          else u.freeList }
    else u
  let u :=
    if entry.branch && entry.hasCheckpoint then { u with rat := u.rat.popCheckpoint } else u
  let u :=
    if entry.memoryWrite then
      { u with storeBuffer := u.storeBuffer.map fun sb => sb.markCommitted entry.robIndex }
    else u
  let u := if entry.halt then { u with halted := true } else u
  { u with committedInstructionCount := u.committedInstructionCount + 1 }

/-- The loop of `step`, with `n` iterations left. -/
def stepLoop : Nat → CommitUnit cfg → CommitUnit cfg × List CommitEvent
  | 0, u => (u, [])
  | n + 1, u =>
    match u.rob.headEntry with
    | none => (u, [])
    | some headEntry =>
      if !headEntry.valid || !headEntry.completed then (u, [])
      else
        match u.rob.commit with
        | none => (u, [])
        | some (entry, rob) =>
          let event := makeEvent u.prf entry
          let u := retire { u with rob := rob } entry
          if u.halted then (u, [event])
          else
            let (u, events) := stepLoop n u
            (u, event :: events)

/-- `step(...)`: commit up to `commit_width_` instructions. -/
def step (u : CommitUnit cfg) : CommitUnit cfg × List CommitEvent :=
  stepLoop u.commitWidth u

end CommitUnit

end CpuSim.SuperScalar
