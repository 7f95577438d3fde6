/-
  CpuSim.SuperScalar.Branch

  Branch prediction (`BranchPredictor`, `BranchPredictionUnit`), resolution
  (`BranchExecutionUnit`) and misprediction recovery (`BranchRecoveryUnit`).
-/

import CpuSim.SuperScalar.Config
import CpuSim.SuperScalar.ReOrderBuffer
import CpuSim.SuperScalar.IssueQueue

namespace CpuSim.SuperScalar

/-! ## Predictor -/

/-- `BranchPrediction`. -/
structure BranchPrediction where
  taken : Bool := false
  target : Word := 0
  btbHit : Bool := false
  deriving DecidableEq, Repr

structure BTBEntry where
  valid : Bool := false
  tag : Word := 0
  target : Word := 0
  deriving DecidableEq, Repr

/-- `BranchPredictor<TableSize>`: a table of two-bit counters (kept in a
    `std::uint8_t`) and a branch target buffer of the same size. -/
structure BranchPredictor (TableSize : Nat) where
  counters : Nat → Nat
  btb : Nat → BTBEntry

namespace BranchPredictor

variable {TableSize : Nat}

/-- `reset(initial_state)`, by default `WEAK_NOT_TAKEN`. -/
def reset (initialState : Nat := 1) : BranchPredictor TableSize :=
  { counters := fun _ => initialState, btb := fun _ => {} }

def hash (TableSize : Nat) (pc : Word) : Nat := (pc >>> 2).toNat % TableSize

/-- `predict(pc)`: the direction comes from the counter alone, the target only
    from a BTB entry whose tag is this very `pc`. -/
def predict (predictor : BranchPredictor TableSize) (pc : Word) : BranchPrediction :=
  let index := hash TableSize pc
  let btbEntry := predictor.btb index
  let hit := btbEntry.valid && btbEntry.tag == pc
  { taken := decide (2 ≤ predictor.counters index),
    target := if hit then btbEntry.target else 0, btbHit := hit }

/-- `update(pc, actual_taken, actual_target)`. -/
def update (predictor : BranchPredictor TableSize) (pc : Word) (actualTaken : Bool)
    (actualTarget : Word) : BranchPredictor TableSize :=
  let index := hash TableSize pc
  let counter := predictor.counters index
  if actualTaken then
    { counters :=
        Function.update predictor.counters index (if counter < 3 then counter + 1 else counter),
      btb :=
        Function.update predictor.btb index { valid := true, tag := pc, target := actualTarget } }
  else
    { predictor with
      counters :=
        Function.update predictor.counters index (if counter > 0 then counter - 1 else counter) }

end BranchPredictor

/-- `BranchPredictionResult`. -/
structure BranchPredictionResult where
  lane0 : BranchPrediction := {}
  lane1 : BranchPrediction := {}
  lane0IsControlFlow : Bool := false
  lane1IsControlFlow : Bool := false
  redirect : Bool := false
  redirectLane : Nat := 0
  redirectPc : Word := 0
  deriving DecidableEq, Repr

namespace BranchPredictionUnit

variable {TableSize : Nat}

def isControlFlow (controlFlow : ControlFlow) : Bool := controlFlow != .NONE

/-- `evaluate`: lane 0 is older and has priority. -/
def evaluate (predictor : BranchPredictor TableSize)
    (pc0 : Word) (valid0 : Bool) (controlFlow0 : ControlFlow)
    (pc1 : Word) (valid1 : Bool) (controlFlow1 : ControlFlow) : BranchPredictionResult :=
  let lane0IsControlFlow := valid0 && isControlFlow controlFlow0
  let lane1IsControlFlow := valid1 && isControlFlow controlFlow1
  let lane0 := if lane0IsControlFlow then predictor.predict pc0 else {}
  let lane1 := if lane1IsControlFlow then predictor.predict pc1 else {}
  let result : BranchPredictionResult := { lane0, lane1, lane0IsControlFlow, lane1IsControlFlow }
  if lane0IsControlFlow && lane0.taken && lane0.btbHit then
    { result with redirect := true, redirectLane := 0, redirectPc := lane0.target }
  else if lane1IsControlFlow && lane1.taken && lane1.btbHit then
    { result with redirect := true, redirectLane := 1, redirectPc := lane1.target }
  else result

end BranchPredictionUnit

/-! ## Execution -/

/-- `BranchResult.hpp`. -/
structure BranchResult where
  valid : Bool := false
  robIndex : Nat := 0
  pc : Word := 0
  opcode : Opcode := .NOP
  taken : Bool := false
  targetPc : Word := 0
  fallthroughPc : Word := 0
  nextPc : Word := 0
  predictedTaken : Bool := false
  predictedTarget : Word := 0
  mispredicted : Bool := false
  redirectPc : Word := 0
  deriving DecidableEq, Repr

namespace BranchExecutionUnit

/-- The resolved condition; `isZero` is the zero flag of `rs1 - rs2`. -/
def resolveCondition (opcode : Opcode) (isZero : Bool) : Bool :=
  match opcode with
  | .BEQ => isZero
  | .BNE => !isZero
  | .J => true
  | _ => false

/-- `evaluate(entry, predicted_taken, predicted_target)`.  The ripple-carry adder
    and the ALU subtraction are exact modulo 2^32. -/
def evaluate (entry : IssueQueueEntry) (predictedTaken : Bool) (predictedTarget : Word) :
    BranchResult :=
  let isZero := entry.rs1Value - entry.rs2Value == 0
  let actualTaken := resolveCondition entry.opcode isZero
  let actualTarget := entry.pc + entry.immediate
  let fallthroughPc := entry.pc + 4
  let nextPc := if actualTaken then actualTarget else fallthroughPc
  let mispredicted :=
    if predictedTaken != actualTaken then true
    else actualTaken && predictedTarget != 0 && predictedTarget != actualTarget
  { valid := true, robIndex := entry.robIndex, pc := entry.pc, opcode := entry.opcode,
    taken := actualTaken, targetPc := actualTarget, fallthroughPc := fallthroughPc,
    nextPc := nextPc, predictedTaken := predictedTaken, predictedTarget := predictedTarget,
    mispredicted := mispredicted, redirectPc := if mispredicted then nextPc else 0 }

end BranchExecutionUnit

/-! ## Recovery -/

/-- The structures `BranchRecoveryUnit::recover` works on. -/
structure BranchRecoveryUnit (cfg : Config) where
  rob : ReOrderBuffer cfg.robCapacity
  rat : RegisterAliasTable
  freeList : PhysicalRegisterFreeList
  issueQueue : IssueQueue cfg.iqCapacity

namespace BranchRecoveryUnit

variable {cfg : Config}

/-- The checkpoint `recover` restores: the branch entry's own, else the latest
    one on the stack. -/
def checkpointToRestore (rat : RegisterAliasTable) (branchEntry : ROBEntry) :
    Option Checkpoint :=
  if branchEntry.hasCheckpoint then some branchEntry.checkpoint
  else if rat.checkpointCount > 0 then rat.latestCheckpoint
  else none

/-- `recover(branch_result, ...)`: whether recovery took place, and the updated
    structures. -/
def recover (u : BranchRecoveryUnit cfg) (result : BranchResult) :
    Bool × BranchRecoveryUnit cfg :=
  if !result.valid then (false, u)
  else if !result.mispredicted then (false, u)
  else
    match u.rob.entry result.robIndex with
    | none => (false, u)
    | some branchEntry =>
      if !branchEntry.valid then (false, u)
      else
        match checkpointToRestore u.rat branchEntry with
        | none => (false, u)
        | some cp =>
          if !cp.valid then (false, u)
          else
            let (rob, squashed, indices) := u.rob.squashYoungerThan result.robIndex
            let freeList :=
              squashed.foldl
                (fun f entry => if !entry.registerWrite then f else f.release entry.physicalRd)
                u.freeList
            (true,
              { rob := rob, rat := u.rat.restore cp, freeList := freeList,
                issueQueue := u.issueQueue.squash indices })

/-- `BranchRecoveryUnit::Control`. -/
structure Control where
  recover : Bool := false
  fetchRedirect : Bool := false
  redirectPc : Word := 0
  fetchDecodeFlush : Bool := false
  deriving DecidableEq, Repr

/-- `control()` after `recover(branch_result, ...)`: the signals are pulses, cleared first and
    raised where recovery took place. -/
def control (u : BranchRecoveryUnit cfg) (result : BranchResult) : Control :=
  if (u.recover result).1 then
    { recover := true, fetchRedirect := true, redirectPc := result.redirectPc,
      fetchDecodeFlush := true }
  else {}

end BranchRecoveryUnit

end CpuSim.SuperScalar
