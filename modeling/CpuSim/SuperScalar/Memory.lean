/-
  CpuSim.SuperScalar.Memory

  The memory side of the backend: `SuperScalarDataMemory`, the `LoadStoreQueue`
  with store-to-load forwarding, the `StoreBuffer`, and the
  `MemoryExecutionUnit` that executes one load or store a cycle.
-/

import CpuSim.Lib.FirstMatch
import CpuSim.SuperScalar.Config
import CpuSim.SuperScalar.ReOrderBuffer
import CpuSim.SuperScalar.IssueQueue

namespace CpuSim.SuperScalar

open CpuSim.Lib (updateFirst)

/-! ## Data memory -/

/-- `SuperScalarDataMemory<SizeWords>`. -/
structure DataMemory (SizeWords : Nat) where
  memory : Nat → Word := fun _ => 0

namespace DataMemory

variable {SizeWords : Nat}

/-- `byte_address / 4`. -/
def wordIndex (byteAddress : Word) : Nat := byteAddress.toNat / 4

def read (m : DataMemory SizeWords) (byteAddress : Word) : Option Word :=
  if wordIndex byteAddress ≥ SizeWords then none else some (m.memory (wordIndex byteAddress))

/-- `write`; an out-of-range address is ignored. -/
def write (m : DataMemory SizeWords) (byteAddress data : Word) : DataMemory SizeWords :=
  if wordIndex byteAddress ≥ SizeWords then m
  else ⟨Function.update m.memory (wordIndex byteAddress) data⟩

def readWord (m : DataMemory SizeWords) (wordIndex : Nat) : Word :=
  if wordIndex ≥ SizeWords then 0 else m.memory wordIndex

def writeWord (m : DataMemory SizeWords) (wordIndex : Nat) (data : Word) :
    DataMemory SizeWords :=
  if wordIndex < SizeWords then ⟨Function.update m.memory wordIndex data⟩ else m

def reset : DataMemory SizeWords := {}

end DataMemory

/-! ## Load/store queue -/

/-- `LoadStoreQueue::OpType`. -/
inductive OpType where
  | NONE | LOAD | STORE
  deriving DecidableEq, Repr

/-- `LoadStoreQueue::Entry`. -/
structure LSQEntry where
  valid : Bool := false
  type : OpType := .NONE
  robIndex : Nat := 0
  pc : Word := 0
  addressValid : Bool := false
  address : Word := 0
  dataValid : Bool := false
  data : Word := 0
  executed : Bool := false
  completed : Bool := false
  physicalRd : PhysicalRegister := 0
  deriving DecidableEq, Repr

/-- `LoadStoreQueue::LoadResult`. -/
structure LoadResult where
  hit : Bool := false
  mustWait : Bool := false
  data : Word := 0
  deriving DecidableEq, Repr

/-- `LoadStoreQueue::ViolationCheck`. -/
structure ViolationCheck where
  violation : Bool := false
  violatingLoadRobIndex : Nat := 0
  violatingLoadPc : Word := 0
  deriving DecidableEq, Repr

/-- `LoadStoreQueue<Capacity>`: entries in allocation order. -/
structure LoadStoreQueue (Capacity : Nat) where
  entries : List LSQEntry := []
  deriving DecidableEq, Repr

namespace LoadStoreQueue

variable {Capacity : Nat}

def reset : LoadStoreQueue Capacity := {}

def full (q : LoadStoreQueue Capacity) : Bool := decide (q.entries.length ≥ Capacity)

/-- `allocate`; `none` where the source returns `false`. -/
def allocate (q : LoadStoreQueue Capacity) (type : OpType) (robIndex : Nat) (pc : Word)
    (physicalRd : PhysicalRegister) : Option (LoadStoreQueue Capacity) :=
  if q.full then none
  else some ⟨q.entries ++ [{ valid := true, type, robIndex, pc, physicalRd }]⟩

/-- The match used by `find`, `remove` and the position loops. -/
def matchesRob (robIndex : Nat) (e : LSQEntry) : Bool := e.valid && e.robIndex == robIndex

/-- `set_address`. -/
def setAddress (q : LoadStoreQueue Capacity) (robIndex : Nat) (address : Word) :
    LoadStoreQueue Capacity :=
  ⟨updateFirst (matchesRob robIndex)
    (fun e => { e with address := address, addressValid := true }) q.entries⟩

/-- `set_store_data`. -/
def setStoreData (q : LoadStoreQueue Capacity) (robIndex : Nat) (data : Word) :
    LoadStoreQueue Capacity :=
  ⟨updateFirst (matchesRob robIndex)
    (fun e => if e.type ≠ .STORE then e else { e with data := data, dataValid := true })
    q.entries⟩

/-- Backward scan of `execute_load` over the older entries, youngest first. -/
def scanOlder (address : Word) : List LSQEntry → LoadResult
  | [] => {}
  | older :: rest =>
    if !older.valid || older.type ≠ .STORE then scanOlder address rest
    else if !older.addressValid then { mustWait := true }
    else if older.address == address then
      if older.dataValid then { hit := true, data := older.data } else { mustWait := true }
    else scanOlder address rest

/-- `execute_load(load_rob_index)`. -/
def executeLoad (q : LoadStoreQueue Capacity) (loadRobIndex : Nat) : LoadResult :=
  match q.entries.findIdx? (matchesRob loadRobIndex) with
  | none => {}
  | some loadPos =>
    match q.entries[loadPos]? with
    | none => {}
    | some loadEntry =>
      if !loadEntry.addressValid then {}
      else scanOlder loadEntry.address (q.entries.take loadPos).reverse

/-- `complete_load`. -/
def completeLoad (q : LoadStoreQueue Capacity) (robIndex : Nat) (data : Word) :
    LoadStoreQueue Capacity :=
  ⟨updateFirst (matchesRob robIndex)
    (fun e =>
      if e.type ≠ .LOAD then e else { e with data := data, dataValid := true, completed := true })
    q.entries⟩

/-- `mark_executed`. -/
def markExecuted (q : LoadStoreQueue Capacity) (robIndex : Nat) : LoadStoreQueue Capacity :=
  ⟨updateFirst (matchesRob robIndex) (fun e => { e with executed := true }) q.entries⟩

/-- The younger load `check_order_violation` stops at. -/
def violates (address : Word) (younger : LSQEntry) : Bool :=
  younger.valid && younger.type == .LOAD && younger.executed && younger.addressValid &&
    younger.address == address

/-- `check_order_violation(store_rob_index)`. -/
def checkOrderViolation (q : LoadStoreQueue Capacity) (storeRobIndex : Nat) : ViolationCheck :=
  match q.entries.findIdx? (matchesRob storeRobIndex) with
  | none => {}
  | some storePos =>
    match q.entries[storePos]? with
    | none => {}
    | some storeEntry =>
      if !storeEntry.addressValid then {}
      else
        match (q.entries.drop (storePos + 1)).find? (violates storeEntry.address) with
        | some younger =>
          { violation := true, violatingLoadRobIndex := younger.robIndex,
            violatingLoadPc := younger.pc }
        | none => {}

/-- `remove`: erase the first match. -/
def remove (q : LoadStoreQueue Capacity) (robIndex : Nat) : LoadStoreQueue Capacity :=
  ⟨q.entries.eraseP (matchesRob robIndex)⟩

/-- `squash`: erase every entry with one of the given indices. -/
def squash (q : LoadStoreQueue Capacity) (robIndices : List Nat) : LoadStoreQueue Capacity :=
  ⟨robIndices.foldl (fun es r => es.filter fun e => !matchesRob r e) q.entries⟩

end LoadStoreQueue

/-! ## Store buffer -/

/-- `StoreBuffer::Entry`. -/
structure StoreBufferEntry where
  valid : Bool := false
  robIndex : Nat := 0
  pc : Word := 0
  address : Word := 0
  data : Word := 0
  addressReady : Bool := false
  dataReady : Bool := false
  committed : Bool := false
  deriving DecidableEq, Repr

/-- `StoreBuffer<Capacity>`: entries in allocation order. -/
structure StoreBuffer (Capacity : Nat) where
  entries : List StoreBufferEntry := []
  deriving DecidableEq, Repr

namespace StoreBuffer

variable {Capacity : Nat}

def reset : StoreBuffer Capacity := {}

def full (sb : StoreBuffer Capacity) : Bool := decide (sb.entries.length ≥ Capacity)

/-- `allocate`; `none` where the source returns `false`. -/
def allocate (sb : StoreBuffer Capacity) (robIndex : Nat) (pc : Word) :
    Option (StoreBuffer Capacity) :=
  if sb.full then none else some ⟨sb.entries ++ [{ valid := true, robIndex, pc }]⟩

def matchesRob (robIndex : Nat) (e : StoreBufferEntry) : Bool :=
  e.valid && e.robIndex == robIndex

theorem matchesRob_of_valid {b : StoreBufferEntry} (hv : b.valid = true) (r : Nat) :
    matchesRob r b = decide (b.robIndex = r) := by
  rw [matchesRob, hv, Bool.true_and]
  exact beq_eq_decide _ _

/-- `update`. -/
def update (sb : StoreBuffer Capacity) (robIndex : Nat) (address data : Word) :
    StoreBuffer Capacity :=
  ⟨updateFirst (matchesRob robIndex)
    (fun e => { e with address := address, data := data, addressReady := true,
                       dataReady := true })
    sb.entries⟩

/-- `mark_committed`. -/
def markCommitted (sb : StoreBuffer Capacity) (robIndex : Nat) : StoreBuffer Capacity :=
  ⟨updateFirst (matchesRob robIndex) (fun e => { e with committed := true }) sb.entries⟩

/-- `pop_committed`. -/
def popCommitted (sb : StoreBuffer Capacity) :
    Option (StoreBufferEntry × StoreBuffer Capacity) :=
  match sb.entries with
  | [] => none
  | e :: rest => if e.valid && e.committed then some (e, ⟨rest⟩) else none

/-- `squash`. -/
def squash (sb : StoreBuffer Capacity) (squashedRobIndices : List Nat) : StoreBuffer Capacity :=
  ⟨squashedRobIndices.foldl
    (fun es r => es.filter fun e => !(e.valid && !e.committed && e.robIndex == r)) sb.entries⟩

end StoreBuffer

/-! ## Memory execution unit -/

/-- `MemoryExecutionUnit::MemoryResult`. -/
structure MemoryResult where
  valid : Bool := false
  isLoad : Bool := false
  isStore : Bool := false
  robIndex : Nat := 0
  physicalRd : PhysicalRegister := 0
  address : Word := 0
  data : Word := 0
  orderViolation : Bool := false
  violatingLoadRobIndex : Nat := 0
  deriving DecidableEq, Repr

/-- The structures a `MemoryExecutionUnit` holds references to. -/
structure MemoryExecutionUnit (cfg : Config) where
  rob : ReOrderBuffer cfg.robCapacity
  issueQueue : IssueQueue cfg.iqCapacity
  prf : PhysicalRegisterFile cfg.prfCount
  lsq : LoadStoreQueue cfg.lsqCapacity
  storeBuffer : StoreBuffer cfg.storeBufferCapacity
  dataMemory : DataMemory cfg.dataMemoryWords

namespace MemoryExecutionUnit

variable {cfg : Config}

/-- `ready_for_memory_execution`. -/
def readyForMemoryExecution (entry : IssueQueueEntry) : Bool :=
  entry.valid && !entry.issued && entry.rs1Ready && entry.rs2Ready &&
    (entry.memoryRead || entry.memoryWrite)

/-- `calculate_address`. -/
def calculateAddress (entry : IssueQueueEntry) : Word := entry.rs1Value + entry.immediate

/-- `write_back`. -/
def writeBack (u : MemoryExecutionUnit cfg) (result : MemoryResult) :
    MemoryExecutionUnit cfg :=
  if !result.valid then u
  else
    match u.rob.entry result.robIndex with
    | none => u
    | some robEntry =>
      if !robEntry.valid then u
      else
        let u :=
          if result.isLoad then
            { u with
              prf := u.prf.write result.physicalRd result.data,
              issueQueue := u.issueQueue.wakeup result.physicalRd result.data }
          else u
        { u with rob := u.rob.complete result.robIndex result.data }

/-- `process_store`. -/
def processStore (u : MemoryExecutionUnit cfg) (entry : IssueQueueEntry) :
    MemoryResult × MemoryExecutionUnit cfg :=
  let address := calculateAddress entry
  let storeData := entry.rs2Value
  let lsq := (u.lsq.setAddress entry.robIndex address).setStoreData entry.robIndex storeData
  let storeBuffer := u.storeBuffer.update entry.robIndex address storeData
  let violation := lsq.checkOrderViolation entry.robIndex
  ({ valid := true, isStore := true, robIndex := entry.robIndex, address := address,
     data := storeData, orderViolation := violation.violation,
     violatingLoadRobIndex :=
       if violation.violation then violation.violatingLoadRobIndex else 0 },
    { u with lsq := lsq.markExecuted entry.robIndex, storeBuffer := storeBuffer })

/-- The part of `execute` a load runs once forwarding has answered: it leaves the
    issue queue, its value comes from the queue or from memory, and it writes
    back. -/
def finishLoad (u : MemoryExecutionUnit cfg) (index : Nat) (captured : IssueQueueEntry)
    (address : Word) (fwd : LoadResult) : MemoryResult × MemoryExecutionUnit cfg :=
  let data := if fwd.hit then fwd.data else (u.dataMemory.read address).getD 0
  let result : MemoryResult :=
    { valid := true, isLoad := true, robIndex := captured.robIndex,
      physicalRd := captured.physicalRd, address := address, data := data }
  (result,
    writeBack
      { u with
        issueQueue := u.issueQueue.remove index,
        lsq := (u.lsq.completeLoad captured.robIndex data).markExecuted captured.robIndex }
      result)

/-- The loop of `execute` over the issue-queue indices still to visit.  A load
    that must wait has its address recorded and the scan goes on. -/
def executeFrom :
    List Nat → MemoryExecutionUnit cfg → List MemoryResult × MemoryExecutionUnit cfg
  | [], u => ([], u)
  | index :: indices, u =>
    let entry := u.issueQueue.entries index
    if !readyForMemoryExecution entry then executeFrom indices u
    else if entry.memoryRead then
      let address := calculateAddress entry
      let u := { u with lsq := u.lsq.setAddress entry.robIndex address }
      let fwd := u.lsq.executeLoad entry.robIndex
      if fwd.mustWait then executeFrom indices u
      else
        let (result, u) := finishLoad u index entry address fwd
        ([result], u)
    else
      -- `ready_for_memory_execution` leaves `memory_write` as the only other case
      let (result, u) := processStore { u with issueQueue := u.issueQueue.remove index } entry
      ([result], writeBack u result)

/-- `execute()`. -/
def execute (u : MemoryExecutionUnit cfg) : List MemoryResult × MemoryExecutionUnit cfg :=
  executeFrom (List.range cfg.iqCapacity) u

end MemoryExecutionUnit

end CpuSim.SuperScalar
