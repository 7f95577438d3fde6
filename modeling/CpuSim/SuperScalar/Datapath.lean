/-
  CpuSim.SuperScalar.Datapath

  `SuperScalarCPU`: the complete machine and its `step()`, one definition for
  each stage in the order the source runs them (commit, memory, branch, ALU,
  rename/dispatch, fetch).
-/

import CpuSim.SuperScalar.Dispatch
import CpuSim.SuperScalar.Branch
import CpuSim.SuperScalar.Commit
import CpuSim.SuperScalar.Fetch

namespace CpuSim.SuperScalar

/-- `SuperScalarCPU<...>`: the members that carry state between steps. -/
structure SuperScalarCPU (cfg : Config) where
  rob : ReOrderBuffer cfg.robCapacity := {}
  iq : IssueQueue cfg.iqCapacity := {}
  prf : PhysicalRegisterFile cfg.prfCount := {}
  arf : ArchitecturalRegisterFile cfg.arfCount := {}
  lsq : LoadStoreQueue cfg.lsqCapacity := {}
  storeBuffer : StoreBuffer cfg.storeBufferCapacity := {}
  dataMemory : DataMemory cfg.dataMemoryWords := {}
  freeList : PhysicalRegisterFreeList
  rat : RegisterAliasTable
  predictor : BranchPredictor cfg.bpTableSize
  committedInstructionCount : Nat := 0
  commitHalted : Bool := false
  imem : InstructionMemory cfg.romAddressWidth := {}
  frontend : Frontend := {}
  cycles : Nat := 0
  halted : Bool := false
  haltDispatched : Bool := false
  branchesExecuted : Nat := 0
  branchMispredictions : Nat := 0

/-- `SuperScalarCPU::CycleStats` without the two counters nothing writes. -/
structure CycleStats where
  cycle : Nat := 0
  decoded : Nat := 0
  dispatched : Nat := 0
  issuedAlu : Nat := 0
  issuedBranch : Nat := 0
  issuedMem : Nat := 0
  retired : Nat := 0
  branchMispredicted : Bool := false
  redirectPc : Word := 0
  halted : Bool := false
  deriving DecidableEq, Repr

namespace SuperScalarCPU

variable {cfg : Config}

/-! ## Construction, reset and loading -/

/-- The loop of `reset` that makes the first `ARFCount` physical registers ready
    with value 0. -/
def resetPrf (arfCount : Nat) (prf : PhysicalRegisterFile cfg.prfCount) :
    PhysicalRegisterFile cfg.prfCount :=
  (List.range arfCount).foldl (fun prf i => (prf.setReady (i % 256) true).write (i % 256) 0) prf

/-- `reset()`.  `free_list_.reset()` is called with its default arguments. -/
def reset (s : SuperScalarCPU cfg) : SuperScalarCPU cfg :=
  { rob := .reset, iq := .reset, prf := resetPrf cfg.arfCount .reset, arf := .reset,
    lsq := .reset, storeBuffer := .reset, dataMemory := .reset,
    freeList := .reset, rat := s.rat.reset, predictor := .reset,
    committedInstructionCount := 0, commitHalted := false, imem := s.imem,
    frontend := s.frontend.resetSequence, cycles := 0, halted := false,
    haltDispatched := false, branchesExecuted := 0, branchMispredictions := 0 }

/-- The constructor `SuperScalarCPU()`: member initialisers, then `reset()`. -/
def construct (cfg : Config) : SuperScalarCPU cfg :=
  reset
    { freeList := .reset cfg.prfCount cfg.arfCount, rat := .init cfg.prfCount,
      predictor := .reset }

/-- `load_program(words)`. -/
def loadProgram (s : SuperScalarCPU cfg) (words : List Word) : SuperScalarCPU cfg :=
  reset { s with imem := ⟨words⟩ }

/-- `set_data_word(word_index, value)`. -/
def setDataWord (s : SuperScalarCPU cfg) (wordIndex : Nat) (value : Word) :
    SuperScalarCPU cfg :=
  { s with dataMemory := s.dataMemory.writeWord wordIndex value }

/-! ## Stage 7: commit -/

/-- `commit_unit_.step(rob_, prf_, arf_, free_list_, rat_, &store_buffer_)`. -/
def runCommitUnit (s : SuperScalarCPU cfg) : SuperScalarCPU cfg × List CommitEvent :=
  let (u, events) :=
    CommitUnit.step
      { commitWidth := 2, committedInstructionCount := s.committedInstructionCount,
        halted := s.commitHalted, rob := s.rob, prf := s.prf, arf := s.arf,
        freeList := s.freeList, rat := s.rat, storeBuffer := some s.storeBuffer }
  ({ s with
      rob := u.rob, arf := u.arf, freeList := u.freeList, rat := u.rat,
      storeBuffer := u.storeBuffer.getD s.storeBuffer,
      committedInstructionCount := u.committedInstructionCount, commitHalted := u.halted },
    events)

/-- The store part of the event loop: pop the store buffer and write memory. -/
def writeCommittedStore (s : SuperScalarCPU cfg) : SuperScalarCPU cfg :=
  match s.storeBuffer.popCommitted with
  | some (committedStore, storeBuffer) =>
    { s with
      storeBuffer := storeBuffer,
      dataMemory := s.dataMemory.write committedStore.address committedStore.data }
  | none => s

/-- Body of the loop over the commit events. -/
def handleCommitEvent (s : SuperScalarCPU cfg) (ev : CommitEvent) : SuperScalarCPU cfg :=
  let s := if ev.store then writeCommittedStore s else s
  let s := { s with lsq := s.lsq.remove ev.robIndex }
  if ev.halt then { s with halted := true } else s

/-- Stage 7. -/
def commitStage (s : SuperScalarCPU cfg) : SuperScalarCPU cfg :=
  let (s', events) := runCommitUnit s
  events.foldl handleCommitEvent s'

/-! ## Stage 6: execution -/

/-- The references `mem_unit_` holds. -/
def memUnit (s : SuperScalarCPU cfg) : MemoryExecutionUnit cfg :=
  { rob := s.rob, issueQueue := s.iq, prf := s.prf, lsq := s.lsq,
    storeBuffer := s.storeBuffer, dataMemory := s.dataMemory }

/-- Stage 6 (A): `mem_unit_.execute()`. -/
def memoryStage (s : SuperScalarCPU cfg) : SuperScalarCPU cfg :=
  let (_, u) := s.memUnit.execute
  { s with
    rob := u.rob, iq := u.issueQueue, prf := u.prf, lsq := u.lsq,
    storeBuffer := u.storeBuffer, dataMemory := u.dataMemory }

/-- The test of the branch selector. -/
def readyBranch (e : IssueQueueEntry) : Bool :=
  e.valid && !e.issued && e.controlFlow == .BRANCH && e.rs1Ready && e.rs2Ready

/-- The issue-queue index of the branch executed this cycle. -/
def selectBranch (s : SuperScalarCPU cfg) : Option Nat := s.iq.findSlot readyBranch

/-- The outcome of the branch in issue-queue slot `i`. -/
def branchResult (s : SuperScalarCPU cfg) (i : Nat) : BranchResult :=
  BranchExecutionUnit.evaluate (s.iq.entries i) (s.iq.entries i).predictedTaken
    (s.iq.entries i).predictedTarget

/-- The branch leaves the issue queue, trains the predictor and completes. -/
def resolveBranch (s : SuperScalarCPU cfg) (i : Nat) : SuperScalarCPU cfg :=
  let result := s.branchResult i
  { s with
    iq := s.iq.remove i,
    branchesExecuted := s.branchesExecuted + 1,
    predictor := s.predictor.update result.pc result.taken result.targetPc,
    rob := s.rob.complete (s.iq.entries i).robIndex result.targetPc }

/-- The misprediction block: recover, squash the memory queues, redirect. -/
def recoverMispredicted (s : SuperScalarCPU cfg) (result : BranchResult) :
    SuperScalarCPU cfg :=
  let (_, u) :=
    BranchRecoveryUnit.recover
      { rob := s.rob, rat := s.rat, freeList := s.freeList, issueQueue := s.iq } result
  let (rob, _, squashedIndices) := u.rob.squashYoungerThan result.robIndex
  { s with
    branchMispredictions := s.branchMispredictions + 1,
    haltDispatched := false,
    rob := rob, rat := u.rat, freeList := u.freeList, iq := u.issueQueue,
    lsq := s.lsq.squash squashedIndices,
    storeBuffer := s.storeBuffer.squash squashedIndices,
    frontend := s.frontend.requestRedirect result.redirectPc }

/-- The branch resolved in stage 6 (B), if any. -/
def resolvedBranch (s : SuperScalarCPU cfg) : Option BranchResult :=
  s.selectBranch.map s.branchResult

/-- `branch_recovered`. -/
def branchRecovered (s : SuperScalarCPU cfg) : Bool :=
  match s.resolvedBranch with
  | some result => result.mispredicted
  | none => false

/-- Stage 6 (B): at most one branch a cycle. -/
def branchStage (s : SuperScalarCPU cfg) : SuperScalarCPU cfg :=
  match s.selectBranch with
  | none => s
  | some i =>
    let result := s.branchResult i
    let s := s.resolveBranch i
    if result.mispredicted then s.recoverMispredicted result else s

/-- The test of `select_ready_alu_entry`. -/
def readyAlu (e : IssueQueueEntry) : Bool :=
  e.valid && !e.issued && e.rs1Ready && e.rs2Ready && !e.memoryRead && !e.memoryWrite &&
    e.controlFlow == .NONE && !e.halt && e.aluOperation != .NONE

/-- `select_ready_alu_entry()`. -/
def selectReadyAluEntry (s : SuperScalarCPU cfg) : Option Nat := s.iq.findSlot readyAlu

/-- Operand selection and the `switch` of the ALU part of `step`. -/
def aluResult (e : IssueQueueEntry) : Word :=
  let opA := if e.operandA == .REGISTER then e.rs1Value else 0
  let opB := if e.operandB == .REGISTER then e.rs2Value else e.immediate
  match e.aluOperation with
  | .ADD => opA + opB
  | .SUB => opA - opB
  | .AND => opA &&& opB
  | .OR => opA ||| opB
  | .XOR => opA ^^^ opB
  | .NOT => ~~~opA
  | _ => 0

/-- Execute the entry in slot `i`: leave the queue, write back, complete. -/
def executeAlu (s : SuperScalarCPU cfg) (i : Nat) : SuperScalarCPU cfg :=
  let captured := s.iq.entries i
  let result := aluResult captured
  let s := { s with iq := s.iq.remove i }
  let s :=
    if captured.registerWrite then
      { s with
        prf := s.prf.write captured.physicalRd result,
        iq := s.iq.wakeup captured.physicalRd result }
    else s
  { s with rob := s.rob.complete captured.robIndex result }

/-- Stage 6 (C): the loop over the ALU lanes still to run. -/
def aluLanes : Nat → SuperScalarCPU cfg → SuperScalarCPU cfg
  | 0, s => s
  | n + 1, s =>
    match s.selectReadyAluEntry with
    | none => s
    | some i => aluLanes n (s.executeAlu i)

/-- Stage 6 (C): up to two integer operations. -/
def aluStage (s : SuperScalarCPU cfg) : SuperScalarCPU cfg := aluLanes 2 s

/-! ## Stages 4 and 5: rename and dispatch -/

/-- `decode_unit_.decode` of the lane-0 buses. -/
def decodeLane0 (s : SuperScalarCPU cfg) : DecodeBundle :=
  let d := s.frontend.decodeBundle
  DecodeUnit.decode d.pc0 d.instruction0 d.valid0

/-- `decode_unit_.decode` of the lane-1 buses. -/
def decodeLane1 (s : SuperScalarCPU cfg) : DecodeBundle :=
  let d := s.frontend.decodeBundle
  DecodeUnit.decode d.pc1 d.instruction1 d.valid1

/-- `bpu_.evaluate(...)` on the decoded pair. -/
def predictionResult (s : SuperScalarCPU cfg) : BranchPredictionResult :=
  BranchPredictionUnit.evaluate s.predictor
    s.decodeLane0.pc s.decodeLane0.valid s.decodeLane0.controlFlow
    s.decodeLane1.pc s.decodeLane1.valid s.decodeLane1.controlFlow

/-- The prediction annotation of a decoded branch. -/
def annotate (bundle : DecodeBundle) (prediction : BranchPrediction) : DecodeBundle :=
  if bundle.controlFlow == .BRANCH then
    { bundle with
      prediction :=
        { valid := true, predictedTaken := prediction.taken,
          predictedTarget := prediction.target } }
  else bundle

/-- `ren_input0`. -/
def renInput0 (s : SuperScalarCPU cfg) : DecodeBundle :=
  annotate s.decodeLane0 s.predictionResult.lane0

/-- `ren_input1`; a redirect by lane 0 invalidates it. -/
def renInput1 (s : SuperScalarCPU cfg) : DecodeBundle :=
  let bundle := annotate s.decodeLane1 s.predictionResult.lane1
  if s.predictionResult.redirect && s.predictionResult.redirectLane == 0 then
    { bundle with valid := false }
  else bundle

/-- `remove_from_iq(rob_index)`. -/
def removeFromIq (iq : IssueQueue cfg.iqCapacity) (robIndex : Nat) : IssueQueue cfg.iqCapacity :=
  match iq.findSlot (fun e => e.valid && e.robIndex == robIndex) with
  | some i => iq.remove i
  | none => iq

/-- What happens after a lane entered the ROB in slot `robIndex`: memory
    operations get their queue entries, `HALT` and `NOP` complete at once. -/
def afterDispatch (s : SuperScalarCPU cfg) (ren : RenameBundle) (robIndex : Nat) :
    SuperScalarCPU cfg :=
  if ren.memoryRead then
    { s with lsq := (s.lsq.allocate .LOAD robIndex ren.pc ren.physicalRd).getD s.lsq }
  else if ren.memoryWrite then
    { s with
      lsq := (s.lsq.allocate .STORE robIndex ren.pc 0).getD s.lsq,
      storeBuffer := (s.storeBuffer.allocate robIndex ren.pc).getD s.storeBuffer }
  else if ren.halt then
    { s with
      rob := s.rob.complete robIndex 0, haltDispatched := true,
      iq := removeFromIq s.iq robIndex }
  else if ren.opcode == .NOP then
    { s with rob := s.rob.complete robIndex 0, iq := removeFromIq s.iq robIndex }
  else s

/-- `dispatch_unit_.dispatch` of one lane, with the checkpoint the source takes
    just before it (pushed on the RAT's stack for every valid instruction, passed
    on for branches only). -/
def tryDispatch (s : SuperScalarCPU cfg) (ren : RenameBundle) :
    Option (Nat × DispatchUnit cfg) :=
  DispatchUnit.dispatch { rob := s.rob, issueQueue := s.iq, prf := s.prf } ren
    (if ren.controlFlow == .BRANCH then some s.rat.checkpoint.1 else none)

/-- The dispatch block of one lane. -/
def dispatchLane (s : SuperScalarCPU cfg) (ren : RenameBundle) : SuperScalarCPU cfg :=
  if !ren.valid then s
  else
    let s' := { s with rat := s.rat.checkpoint.2 }
    match s.tryDispatch ren with
    | none => s'
    | some (robIndex, u) => afterDispatch { s' with rob := u.rob, iq := u.issueQueue } ren robIndex

/-- `rename_unit_.rename(ren_input0, ren_input1, ren_out0, ren_out1)`. -/
def renameOutputs (s : SuperScalarCPU cfg) :
    RenameBundle × RenameBundle × RenameUnit cfg.prfCount :=
  RenameUnit.rename { rat := s.rat, freeList := s.freeList, prf := s.prf } s.renInput0 s.renInput1

/-- The state after rename, before dispatch. -/
def afterRename (s : SuperScalarCPU cfg) : SuperScalarCPU cfg :=
  let u := s.renameOutputs.2.2
  { s with rat := u.rat, freeList := u.freeList, prf := u.prf }

/-- Dispatch of both renamed lanes; lane 1 is dropped behind a `HALT`. -/
def dispatchLanes (s : SuperScalarCPU cfg) : SuperScalarCPU cfg :=
  let s0 := s.afterRename.dispatchLane s.renameOutputs.1
  if !s0.haltDispatched then s0.dispatchLane s.renameOutputs.2.1 else s0

/-- The redirect requested by a predicted-taken branch. -/
def predictRedirect (s : SuperScalarCPU cfg) : SuperScalarCPU cfg :=
  if s.predictionResult.redirect then
    { s with frontend := s.frontend.requestRedirect s.predictionResult.redirectPc }
  else s

/-- The guard of stages 4 and 5 once the backend has run. -/
def renameActive (recovered : Bool) (s : SuperScalarCPU cfg) : Bool :=
  !recovered && !s.haltDispatched

/-- Stages 4 and 5. -/
def dispatchStage (recovered : Bool) (s : SuperScalarCPU cfg) : SuperScalarCPU cfg :=
  if renameActive recovered s then
    let s := s.predictRedirect
    if RenameUnit.canRename s.freeList s.renInput0 s.renInput1 then s.dispatchLanes else s
  else s

/-! ## Stages 1 to 3: fetch -/

/-- Fetch, the clock edge, and clearing the one-shot wires; they are only ever
    raised by `branch_recovered` or `frontend_redirect_active`. -/
def fetchStage (s : SuperScalarCPU cfg) : SuperScalarCPU cfg :=
  { s with frontend := (s.frontend.fetchCycle s.imem).clearRedirect }

/-! ## The complete step -/

/-- The state at the start of stage 6, inside `step()`. -/
def committed (s : SuperScalarCPU cfg) : SuperScalarCPU cfg :=
  commitStage { s with cycles := s.cycles + 1 }

/-- The state when stage 6 (B) starts. -/
def memoryDone (s : SuperScalarCPU cfg) : SuperScalarCPU cfg := s.committed.memoryStage

/-- The state when the rename guard is tested. -/
def executed (s : SuperScalarCPU cfg) : SuperScalarCPU cfg := s.memoryDone.branchStage.aluStage

/-- The state after stages 4 and 5. -/
def dispatched (s : SuperScalarCPU cfg) : SuperScalarCPU cfg :=
  s.executed.dispatchStage s.memoryDone.branchRecovered

/-- State part of `step()`. -/
def next (s : SuperScalarCPU cfg) : SuperScalarCPU cfg :=
  if s.halted then { s with cycles := s.cycles + 1 } else s.dispatched.fetchStage

/-- How many of the two ALU lanes issue. -/
def issuedAlu (s : SuperScalarCPU cfg) : Nat :=
  match s.selectReadyAluEntry with
  | none => 0
  | some i => if (s.executeAlu i).selectReadyAluEntry.isNone then 1 else 2

/-- Whether a lane is dispatched, given the state before its dispatch block. -/
def laneDispatched (s : SuperScalarCPU cfg) (ren : RenameBundle) : Bool :=
  ren.valid && (s.tryDispatch ren).isSome

/-- The statistics returned by `step()`. -/
def stats (s : SuperScalarCPU cfg) : CycleStats :=
  if s.halted then { cycle := s.cycles, halted := true }
  else
    let events := (runCommitUnit { s with cycles := s.cycles + 1 }).2
    let resolved := s.memoryDone.resolvedBranch
    let active := renameActive s.memoryDone.branchRecovered s.executed
    let renames := active && RenameUnit.canRename s.executed.freeList s.executed.renInput0
      s.executed.renInput1
    let e := s.executed
    let s0 := e.afterRename.dispatchLane e.renameOutputs.1
    { cycle := s.cycles
      retired := events.length
      issuedMem := s.committed.memUnit.execute.1.length
      issuedBranch := if resolved.isSome then 1 else 0
      branchMispredicted := s.memoryDone.branchRecovered
      redirectPc :=
        match resolved with
        | some result => result.redirectPc
        | none => 0
      issuedAlu := s.memoryDone.branchStage.issuedAlu
      decoded :=
        if active then
          (if e.decodeLane0.valid then 1 else 0) + (if e.decodeLane1.valid then 1 else 0)
        else 0
      dispatched :=
        if renames then
          (if e.afterRename.laneDispatched e.renameOutputs.1 then 1 else 0) +
            (if !s0.haltDispatched && s0.laneDispatched e.renameOutputs.2.1 then 1 else 0)
        else 0
      halted := events.any (·.halt) }

/-- `step()`: advance the CPU by one full clock cycle. -/
def step (s : SuperScalarCPU cfg) : SuperScalarCPU cfg × CycleStats := (s.next, s.stats)

/-- The state after `n` calls of `step()`. -/
def run (s : SuperScalarCPU cfg) : Nat → SuperScalarCPU cfg
  | 0 => s
  | n + 1 => (run s n).step.1

/-- A constructed CPU with a program loaded and data words preset: the starting
    point of every run. -/
def boot (cfg : Config) (words : List Word) (data : List (Nat × Word)) : SuperScalarCPU cfg :=
  data.foldl (fun s d => s.setDataWord d.1 d.2) ((construct cfg).loadProgram words)

end SuperScalarCPU

end CpuSim.SuperScalar
