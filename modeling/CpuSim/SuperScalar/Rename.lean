/-
  CpuSim.SuperScalar.Rename

  The rename stage: `PhysicalRegisterFreeList`, `RegisterAliasTable` with its
  checkpoint stack, `PhysicalRegisterFile`, and the two-wide `RenameUnit` that
  works on all three.
-/

import Mathlib.Logic.Function.Basic
import CpuSim.SuperScalar.Decode

namespace CpuSim.SuperScalar

/-- A physical register number (`std::uint8_t` in the source; narrowing happens
    only where the free list casts a loop counter). -/
abbrev PhysicalRegister := Nat

/-- `INVALID_REGISTER = 0xFF`. -/
abbrev INVALID_REGISTER : PhysicalRegister := 0xFF

/-! ## Free list -/

/-- `PhysicalRegisterFreeList`: a deque of free register numbers, front first. -/
structure PhysicalRegisterFreeList where
  freeRegisters : List PhysicalRegister
  deriving DecidableEq, Repr

namespace PhysicalRegisterFreeList

/-- `reset(physical_register_count, initially_mapped_registers)`; both arguments
    default to the 64 and 16 of the source. -/
def reset (physicalRegisterCount : Nat := 64) (initiallyMappedRegisters : Nat := 16) :
    PhysicalRegisterFreeList :=
  ⟨(List.range' initiallyMappedRegisters
      (physicalRegisterCount - initiallyMappedRegisters)).map (· % 256)⟩

def empty (f : PhysicalRegisterFreeList) : Bool := f.freeRegisters.isEmpty

def size (f : PhysicalRegisterFreeList) : Nat := f.freeRegisters.length

/-- Pop the front register, `INVALID_REGISTER` when there is none. -/
def allocate (f : PhysicalRegisterFreeList) : PhysicalRegister × PhysicalRegisterFreeList :=
  match f.freeRegisters with
  | [] => (INVALID_REGISTER, f)
  | p :: rest => (p, ⟨rest⟩)

/-- `release`: give a squashed register back at the front. -/
def release (f : PhysicalRegisterFreeList) (p : PhysicalRegister) : PhysicalRegisterFreeList :=
  if p = INVALID_REGISTER then f else ⟨p :: f.freeRegisters⟩

/-- `release_back`: give a retired mapping back at the end. -/
def releaseBack (f : PhysicalRegisterFreeList) (p : PhysicalRegister) :
    PhysicalRegisterFreeList :=
  if p = INVALID_REGISTER then f else ⟨f.freeRegisters ++ [p]⟩

end PhysicalRegisterFreeList

/-! ## Register alias table -/

/-- `RegisterAliasTable::Checkpoint`. -/
structure Checkpoint where
  mappings : Register → PhysicalRegister := fun _ => 0
  valid : Bool := false

/-- `RegisterAliasTable`.  `checkpoints` is the snapshot stack, oldest first. -/
structure RegisterAliasTable where
  table : Register → PhysicalRegister
  physicalRegCount : Nat
  checkpoints : List Checkpoint

namespace RegisterAliasTable

/-- The identity mapping installed by `reset`. -/
def resetTable : Register → PhysicalRegister := fun r => r.val

/-- Constructor, which resets. -/
def init (physicalRegCount : Nat) : RegisterAliasTable :=
  ⟨resetTable, physicalRegCount, []⟩

def reset (rat : RegisterAliasTable) : RegisterAliasTable :=
  { rat with table := resetTable, checkpoints := [] }

def lookup (rat : RegisterAliasTable) (r : Register) : PhysicalRegister := rat.table r

/-- `set` ignores a physical register the table was not built for. -/
def set (rat : RegisterAliasTable) (r : Register) (p : PhysicalRegister) :
    RegisterAliasTable :=
  if p ≥ rat.physicalRegCount then rat
  else { rat with table := Function.update rat.table r p }

/-- `checkpoint()`: take a snapshot and push it on the stack. -/
def checkpoint (rat : RegisterAliasTable) : Checkpoint × RegisterAliasTable :=
  let snapshot : Checkpoint := { mappings := rat.table, valid := true }
  (snapshot, { rat with checkpoints := rat.checkpoints ++ [snapshot] })

def checkpointCount (rat : RegisterAliasTable) : Nat := rat.checkpoints.length

def latestCheckpoint (rat : RegisterAliasTable) : Option Checkpoint := rat.checkpoints.getLast?

/-- `pop_checkpoint()` drops the most recent snapshot (`pop_back`). -/
def popCheckpoint (rat : RegisterAliasTable) : RegisterAliasTable :=
  { rat with checkpoints := rat.checkpoints.dropLast }

/-- `restore(cp)`. -/
def restore (rat : RegisterAliasTable) (cp : Checkpoint) : RegisterAliasTable :=
  if !cp.valid then rat else { rat with table := cp.mappings }

end RegisterAliasTable

/-! ## Physical register file -/

structure RegisterState where
  value : Word := 0
  ready : Bool := false
  deriving DecidableEq, Repr

/-- `PhysicalRegisterFile<PhysicalRegisterCount>`; every accessor guards the
    index, so slots from the count on are never seen. -/
structure PhysicalRegisterFile (PhysicalRegisterCount : Nat) where
  registers : PhysicalRegister → RegisterState := fun _ => {}

namespace PhysicalRegisterFile

variable {PRFCount : Nat}

def reset : PhysicalRegisterFile PRFCount := {}

def read (prf : PhysicalRegisterFile PRFCount) (p : PhysicalRegister) : Word :=
  if p < PRFCount then (prf.registers p).value else 0

def ready (prf : PhysicalRegisterFile PRFCount) (p : PhysicalRegister) : Bool :=
  if p < PRFCount then (prf.registers p).ready else false

/-- `allocate`: the register becomes an in-flight destination. -/
def allocate (prf : PhysicalRegisterFile PRFCount) (p : PhysicalRegister) :
    PhysicalRegisterFile PRFCount :=
  if p < PRFCount then ⟨Function.update prf.registers p { value := 0, ready := false }⟩ else prf

/-- `write`: a completed result. -/
def write (prf : PhysicalRegisterFile PRFCount) (p : PhysicalRegister) (v : Word) :
    PhysicalRegisterFile PRFCount :=
  if p < PRFCount then ⟨Function.update prf.registers p { value := v, ready := true }⟩ else prf

def setReady (prf : PhysicalRegisterFile PRFCount) (p : PhysicalRegister) (readyState : Bool) :
    PhysicalRegisterFile PRFCount :=
  if p < PRFCount then
    ⟨Function.update prf.registers p { prf.registers p with ready := readyState }⟩
  else prf

end PhysicalRegisterFile

/-! ## Rename unit -/

/-- `RenameBundle.hpp`. -/
structure RenameBundle where
  valid : Bool := false
  pc : Word := 0
  instruction : Word := 0
  opcode : Opcode := .NOP
  format : InstructionFormat := .I_TYPE
  rd : Register := 0
  rs1 : Register := 0
  rs2 : Register := 0
  physicalRd : PhysicalRegister := INVALID_REGISTER
  oldPhysicalRd : PhysicalRegister := INVALID_REGISTER
  physicalRs1 : PhysicalRegister := 0
  physicalRs2 : PhysicalRegister := 0
  immediate : Word := 0
  aluOperation : ALUOperation := .NONE
  operandA : OperandSource := .NONE
  operandB : OperandSource := .NONE
  registerWrite : Bool := false
  memoryRead : Bool := false
  memoryWrite : Bool := false
  controlFlow : ControlFlow := .NONE
  prediction : PredictionInfo := {}
  halt : Bool := false
  deriving DecidableEq, Repr

/-- The structures a `RenameUnit` holds references to, and its stall flag. -/
structure RenameUnit (PRFCount : Nat) where
  rat : RegisterAliasTable
  freeList : PhysicalRegisterFreeList
  prf : PhysicalRegisterFile PRFCount
  stalled : Bool := false

namespace RenameUnit

variable {PRFCount : Nat}

/-- How many registers a pair of bundles needs. -/
def needed (input0 input1 : DecodeBundle) : Nat :=
  (if input0.valid && input0.registerWrite then 1 else 0) +
    (if input1.valid && input1.registerWrite then 1 else 0)

/-- `can_rename(input0, input1)`. -/
def canRename (freeList : PhysicalRegisterFreeList) (input0 input1 : DecodeBundle) : Bool :=
  decide (needed input0 input1 ≤ freeList.size)

/-- The fields `rename` copies from its input before the destination is renamed,
    with the sources looked up in the RAT. -/
def preserve (rat : RegisterAliasTable) (input : DecodeBundle) : RenameBundle :=
  { valid := true, pc := input.pc, instruction := input.instruction, opcode := input.opcode,
    format := input.format, immediate := input.immediate,
    rd := input.rd, rs1 := input.rs1, rs2 := input.rs2,
    aluOperation := input.aluOperation, operandA := input.operandA, operandB := input.operandB,
    registerWrite := input.registerWrite, memoryRead := input.memoryRead,
    memoryWrite := input.memoryWrite, controlFlow := input.controlFlow,
    prediction := input.prediction, halt := input.halt,
    physicalRs1 := rat.lookup input.rs1, physicalRs2 := rat.lookup input.rs2 }

/-- `rename(input)`: one instruction. -/
def renameOne (u : RenameUnit PRFCount) (input : DecodeBundle) :
    RenameBundle × RenameUnit PRFCount :=
  if !input.valid then ({ valid := false }, u)
  else
    let output := preserve u.rat input
    if input.registerWrite then
      let output := { output with oldPhysicalRd := u.rat.lookup input.rd }
      let (newPhysicalRd, freeList) := u.freeList.allocate
      if newPhysicalRd = INVALID_REGISTER then
        -- physical register exhaustion invalidates the output
        ({ output with valid := false, physicalRd := INVALID_REGISTER },
          { u with freeList := freeList, stalled := true })
      else
        ({ output with physicalRd := newPhysicalRd },
          { u with
            freeList := freeList, prf := u.prf.allocate newPhysicalRd,
            rat := u.rat.set input.rd newPhysicalRd })
    else ({ output with physicalRd := INVALID_REGISTER }, u)

/-- `rename(input0, input1, output0, output1)`: lane 1 sees lane 0's RAT update. -/
def rename (u : RenameUnit PRFCount) (input0 input1 : DecodeBundle) :
    RenameBundle × RenameBundle × RenameUnit PRFCount :=
  let (output0, u0) := renameOne { u with stalled := false } input0
  if input0.valid && !output0.valid then (output0, { valid := false }, { u0 with stalled := true })
  else
    let (output1, u1) := renameOne u0 input1
    (output0, output1,
      if input1.valid && !output1.valid then { u1 with stalled := true } else u1)

end RenameUnit

end CpuSim.SuperScalar
