/-
  CpuSim.Vector.Datapath

  The vector datapath: thirty-two registers of four lanes, the execution unit, the lane mask
  and the masked writeback that feeds the registers again.
-/

import CpuSim.Lib.TwoPhase
import CpuSim.Logic.FourValued
import Mathlib.Logic.Function.Iterate

namespace CpuSim.Vector

open Logic

/-! ## Registers -/

/-- `VectorRegister<VectorWidth>`. -/
abbrev VectorRegister (width : Nat) := Logic.Register (Bus width)

/-- `VectorRegister::evaluate`: the load mux, the reset mux, then the register. -/
def VectorRegister.evaluate {width : Nat} (lib : Components) (r : VectorRegister width)
    (data : Bus width) (clock : Bool) (we reset : LogicState) : VectorRegister width :=
  let loadOutput := lib.mux r.output data we
  let regInput := lib.mux loadOutput (.fill .LOW) reset
  Logic.Register.evaluate r clock regInput

/-- `VectorRegisterFile<NumRegisters, DataWidth>`: the registers and the read ports. -/
structure VectorRegisterFile (numRegisters dataWidth : Nat) where
  registers : Fin numRegisters → VectorRegister dataWidth
  readData1 : Bus dataWidth
  readData2 : Bus dataWidth
  readData3 : Bus dataWidth

namespace VectorRegisterFile

variable {numRegisters dataWidth addressWidth : Nat} (lib : Components)

/-- What the registers drive. -/
def contents (f : VectorRegisterFile numRegisters dataWidth) : Fin numRegisters → Bus dataWidth :=
  fun i => (f.registers i).output

/-- `evaluate_read`. -/
def evaluateRead (f : VectorRegisterFile numRegisters dataWidth)
    (readAddr1 readAddr2 readAddr3 : Bus addressWidth) :
    VectorRegisterFile numRegisters dataWidth :=
  { f with
    readData1 := lib.muxTree f.contents readAddr1
    readData2 := lib.muxTree f.contents readAddr2
    readData3 := lib.muxTree f.contents readAddr3 }

/-- `evaluate_write`: the decoder enables at most one register, then all are evaluated. -/
def evaluateWrite (f : VectorRegisterFile numRegisters dataWidth) (writeAddr : Bus addressWidth)
    (writeData : Bus dataWidth) (writeEnable reset : LogicState) (clock : Bool) :
    VectorRegisterFile numRegisters dataWidth :=
  let registerWriteEnables : Bus numRegisters := lib.decoder writeAddr writeEnable
  { f with
    registers := fun i =>
      VectorRegister.evaluate lib (f.registers i) writeData clock (registerWriteEnables i) reset }

end VectorRegisterFile

/-! ## Lanes -/

/-- The bits of one lane of a vector bus. -/
def split (bus : Bus 128) (lane : Fin 4) : Bus 32 :=
  fun bit => bus ⟨lane.val * 32 + bit.val, by omega⟩

/-- The vector bus of four lanes. -/
def combine (lanes : Fin 4 → Bus 32) : Bus 128 :=
  fun i => lanes ⟨i.val / 32, by omega⟩ ⟨i.val % 32, by omega⟩

@[simp] theorem split_combine (lanes : Fin 4 → Bus 32) (lane : Fin 4) :
    split (combine lanes) lane = lanes lane := by
  funext bit
  have hlane : (lane.val * 32 + bit.val) / 32 = lane.val := by omega
  have hbit : (lane.val * 32 + bit.val) % 32 = bit.val := by omega
  simp only [split, combine, hlane, hbit]

/-- The vector bus of four words. -/
def ofLanes (v : Fin 4 → Word) : Bus 128 := combine fun lane => .ofWord (v lane)

@[simp] theorem split_ofLanes (v : Fin 4 → Word) (lane : Fin 4) :
    split (ofLanes v) lane = .ofWord (v lane) := by
  rw [ofLanes, split_combine]

theorem binary_ofLanes (v : Fin 4 → Word) : (ofLanes v).Binary := by
  intro i
  exact Bus.binary_ofWord _ _

/-- `VectorLane::evaluate`: the result bus of the lane's ALU. -/
def VectorLane.evaluate (lib : Components) (operandA operandB : Bus 32) (opcode : Bus 3) :
    Bus 32 :=
  lib.alu operandA operandB opcode

/-- `VectorExecutionUnit::evaluate`: split, execute, combine. -/
def VectorExecutionUnit.evaluate (lib : Components) (vecA vecB : Bus 128) (opcode : Bus 3) :
    Bus 128 :=
  combine fun lane => VectorLane.evaluate lib (split vecA lane) (split vecB lane) opcode

/-- `VectorLaneMaskUnit::evaluate`: a lane is active if its index is less than the vector
    length. -/
def VectorLaneMaskUnit.evaluate (lib : Components) (vectorLength : Bus 8) : Bus 4 :=
  fun lane => (lib.comparator (.ofNat 8 lane.val) vectorLength).less

/-- `VectorMaskedWriteBackUnit::evaluate`: an active lane takes the result, the others keep the
    old destination. -/
def VectorMaskedWriteBackUnit.evaluate (lib : Components) (executionResult oldDestination : Bus 128)
    (laneMask : Bus 4) : Bus 128 :=
  combine fun lane =>
    lib.mux (split oldDestination lane) (split executionResult lane) (laneMask lane)

/-! ## The datapath -/

/-- Which of the two constructors was used. -/
inductive ClockSource where
  | wire | clock
  deriving DecidableEq, Repr

/-- The buses and wires the datapath refers to. -/
structure Signals where
  rs1 : Bus 5
  rs2 : Bus 5
  rd : Bus 5
  writeData : Bus 128
  writeAddr : Bus 5
  opcode : Bus 3
  vl : Bus 8
  enable : LogicState
  reset : LogicState

/-- `VectorDatapath`. -/
structure VectorDatapath where
  source : ClockSource
  signals : Signals
  /-- The wire `clock_wire_ref_` refers to: the caller's, or the internal one. -/
  clockWire : Bool
  /-- The level of the `logic::Clock`, if there is one. -/
  clockObject : Bool
  useExternalWrite : Bool := false
  registerFile : VectorRegisterFile 32 128
  executionResult : Bus 128
  laneMask : Bus 4
  writebackResult : Bus 128
  result : Bus 128
  rfWriteAddr : Bus 5
  rfWriteData : Bus 128

namespace VectorDatapath

variable (lib : Components)

/-- `evaluate()`. -/
def evaluate (d : VectorDatapath) : VectorDatapath :=
  let s := d.signals
  let clockWire :=
    match d.source with
    | .wire => d.clockWire
    | .clock => d.clockObject
  let file := d.registerFile.evaluateRead lib s.rs1 s.rs2 s.rd
  let executionResult := VectorExecutionUnit.evaluate lib file.readData1 file.readData2 s.opcode
  let laneMask := VectorLaneMaskUnit.evaluate lib s.vl
  let writebackResult :=
    VectorMaskedWriteBackUnit.evaluate lib executionResult file.readData3 laneMask
  let rfWriteAddr := if d.useExternalWrite then s.writeAddr else s.rd
  let rfWriteData := if d.useExternalWrite then s.writeData else writebackResult
  let file := file.evaluateWrite lib rfWriteAddr rfWriteData s.enable s.reset clockWire
  -- the reads see what the edge, if there was one, has committed
  let file := file.evaluateRead lib s.rs1 s.rs2 s.rd
  { d with
    clockWire := clockWire
    registerFile := file
    executionResult := executionResult
    laneMask := laneMask
    writebackResult := writebackResult
    result := writebackResult
    rfWriteAddr := rfWriteAddr
    rfWriteData := rfWriteData }

/-- What the registers of the datapath drive. -/
def contents (d : VectorDatapath) : Fin 32 → Bus 128 := d.registerFile.contents

/-- What they drive once the clock is HIGH. -/
def settled (d : VectorDatapath) : Fin 32 → Bus 128 := fun i => (d.registerFile.registers i).settled

/-- The clock source of the datapath goes to a level. -/
def setClock (d : VectorDatapath) (level : Bool) : VectorDatapath :=
  match d.source with
  | .wire => { d with clockWire := level }
  | .clock => { d with clockObject := level }

/-- A datapath in internal writeback mode whose registers drive `v` and last saw the clock
    LOW. -/
def holding (source : ClockSource) (s : Signals) (v : Fin 32 → Bus 128) : VectorDatapath where
  source := source
  signals := s
  clockWire := false
  clockObject := false
  registerFile :=
    { registers := fun i => ⟨v i, v i, false⟩
      readData1 := .fill .UNKNOWN
      readData2 := .fill .UNKNOWN
      readData3 := .fill .UNKNOWN }
  executionResult := .fill .UNKNOWN
  laneMask := .fill .UNKNOWN
  writebackResult := .fill .UNKNOWN
  result := .fill .UNKNOWN
  rfWriteAddr := .fill .UNKNOWN
  rfWriteData := .fill .UNKNOWN

/-! ## One evaluation -/

/-- The writeback result of an instruction on the contents of the registers. -/
def writeback (s : Signals) (v : Fin 32 → Bus 128) : Bus 128 :=
  VectorMaskedWriteBackUnit.evaluate lib
    (VectorExecutionUnit.evaluate lib (lib.muxTree v s.rs1) (lib.muxTree v s.rs2) s.opcode)
    (lib.muxTree v s.rd) (VectorLaneMaskUnit.evaluate lib s.vl)

/-- What the registers follow while the clock is LOW. -/
def registerInputs (s : Signals) (external : Bool) (v : Fin 32 → Bus 128) : Fin 32 → Bus 128 :=
  let enables : Bus 32 := lib.decoder (if external then s.writeAddr else s.rd) s.enable
  let data := if external then s.writeData else writeback lib s v
  fun i => lib.mux (lib.mux (v i) data (enables i)) (.fill .LOW) s.reset

/-- The clock level an evaluation sees. -/
def level (d : VectorDatapath) : Bool :=
  match d.source with
  | .wire => d.clockWire
  | .clock => d.clockObject

theorem registers_evaluate (d : VectorDatapath) (i : Fin 32) :
    (evaluate lib d).registerFile.registers i =
      Logic.Register.evaluate (d.registerFile.registers i) d.level
        (registerInputs lib d.signals d.useExternalWrite d.contents i) := rfl

@[simp] theorem signals_evaluate (d : VectorDatapath) :
    (evaluate lib d).signals = d.signals := rfl

@[simp] theorem source_evaluate (d : VectorDatapath) : (evaluate lib d).source = d.source := rfl

@[simp] theorem useExternalWrite_evaluate (d : VectorDatapath) :
    (evaluate lib d).useExternalWrite = d.useExternalWrite := rfl

@[simp] theorem clockObject_evaluate (d : VectorDatapath) :
    (evaluate lib d).clockObject = d.clockObject := rfl

/-- The read ports show what the registers drive now. -/
theorem readData_evaluate (d : VectorDatapath) :
    (evaluate lib d).registerFile.readData1 =
        lib.muxTree (evaluate lib d).contents d.signals.rs1 ∧
      (evaluate lib d).registerFile.readData2 =
        lib.muxTree (evaluate lib d).contents d.signals.rs2 ∧
      (evaluate lib d).registerFile.readData3 =
        lib.muxTree (evaluate lib d).contents d.signals.rd := ⟨rfl, rfl, rfl⟩

section Levels

variable {d : VectorDatapath}

theorem contents_of_low (h : d.level = false) : (evaluate lib d).contents = d.contents := by
  funext i
  show ((evaluate lib d).registerFile.registers i).output = _
  rw [registers_evaluate, h]
  rfl

theorem settled_of_low (h : d.level = false) :
    (evaluate lib d).settled =
      registerInputs lib d.signals d.useExternalWrite d.contents := by
  funext i
  show ((evaluate lib d).registerFile.registers i).settled = _
  rw [registers_evaluate, h, Logic.Register.settled_evaluate_low]

theorem contents_of_high (h : d.level = true) : (evaluate lib d).contents = d.settled := by
  funext i
  show ((evaluate lib d).registerFile.registers i).output = _
  rw [registers_evaluate, h, Logic.Register.output_evaluate_high]
  rfl

theorem settled_of_high (h : d.level = true) : (evaluate lib d).settled = d.settled := by
  funext i
  show ((evaluate lib d).registerFile.registers i).settled = _
  rw [registers_evaluate, h, Logic.Register.settled_evaluate_high]
  rfl

end Levels

@[simp] theorem level_setClock (d : VectorDatapath) (l : Bool) : (d.setClock l).level = l := by
  cases d with
  | mk source => cases source <;> rfl

@[simp] theorem contents_setClock (d : VectorDatapath) (l : Bool) :
    (d.setClock l).contents = d.contents := by
  unfold setClock
  split <;> rfl

@[simp] theorem settled_setClock (d : VectorDatapath) (l : Bool) :
    (d.setClock l).settled = d.settled := by
  unfold setClock
  split <;> rfl

@[simp] theorem signals_setClock (d : VectorDatapath) (l : Bool) :
    (d.setClock l).signals = d.signals := by
  unfold setClock
  split <;> rfl

@[simp] theorem useExternalWrite_setClock (d : VectorDatapath) (l : Bool) :
    (d.setClock l).useExternalWrite = d.useExternalWrite := by
  unfold setClock
  split <;> rfl

/-! ## Clocking -/

/-- What is set up from outside before an evaluation: the signals and `set_external_write`. -/
structure Drive where
  signals : Signals
  external : Bool

/-- The setup of the datapath. -/
def current (d : VectorDatapath) : Drive := ⟨d.signals, d.useExternalWrite⟩

/-- Set the datapath up. -/
def drive (d : VectorDatapath) (u : Drive) : VectorDatapath :=
  { d with signals := u.signals, useExternalWrite := u.external }

/-- The registers of the datapath are clocked in two phases, from either clock source. -/
def clocked : Lib.TwoPhase VectorDatapath Drive (Fin 32 → Bus 128) where
  evaluate d level u := evaluate lib ((d.drive u).setClock level)
  output := contents
  settled := settled
  next u v := registerInputs lib u.signals u.external v
  output_low d u := by
    rw [contents_of_low lib (level_setClock _ _), contents_setClock]
    rfl
  settled_low d u := by
    rw [settled_of_low lib (level_setClock _ _), signals_setClock, useExternalWrite_setClock,
      contents_setClock]
    rfl
  output_high d u := by
    rw [contents_of_high lib (level_setClock _ _), settled_setClock]
    rfl
  settled_high d u := by
    rw [settled_of_high lib (level_setClock _ _), settled_setClock]
    rfl

/-- One evaluation with the clock source at a level. -/
def tick (level : Bool) (d : VectorDatapath) : VectorDatapath := evaluate lib (d.setClock level)

/-- A clock cycle: `n + 1` evaluations with the clock LOW, then `m + 1` with it HIGH. -/
def clockCycle (n m : Nat) (d : VectorDatapath) : VectorDatapath :=
  (tick lib true)^[m + 1] ((tick lib false)^[n + 1] d)

theorem current_tick (level : Bool) (d : VectorDatapath) :
    (tick lib level d).current = d.current := by
  rw [current, tick, signals_evaluate, signals_setClock, useExternalWrite_evaluate,
    useExternalWrite_setClock]
  rfl

/-- Evaluations in a row are a phase with a constant setup. -/
theorem iterate_tick (level : Bool) (k : Nat) (d : VectorDatapath) :
    (tick lib level)^[k] d = (clocked lib).phase d level (List.replicate k d.current) ∧
      ((tick lib level)^[k] d).current = d.current := by
  induction k generalizing d with
  | zero => exact ⟨rfl, rfl⟩
  | succ k ih =>
      obtain ⟨hphase, hcurrent⟩ := ih (tick lib level d)
      rw [current_tick] at hphase hcurrent
      exact ⟨hphase, hcurrent⟩

/-- A cycle drives what the registers followed, once. -/
theorem contents_clockCycle (n m : Nat) (d : VectorDatapath) :
    (clockCycle lib n m d).contents =
      registerInputs lib d.signals d.useExternalWrite d.contents := by
  obtain ⟨hlow, hcurrent⟩ := iterate_tick lib false (n + 1) d
  obtain ⟨hhigh, -⟩ := iterate_tick lib true (m + 1) ((tick lib false)^[n + 1] d)
  rw [hcurrent, hlow] at hhigh
  -- the last LOW evaluation is set up like every other one
  have hcycle : clockCycle lib n m d = (clocked lib).cycle d
      ⟨List.replicate n d.current, d.current, d.current, List.replicate m d.current⟩ := by
    rw [clockCycle, hlow, hhigh, Lib.TwoPhase.cycle, List.replicate_succ', List.replicate_succ]
  rw [hcycle]
  exact (clocked lib).output_cycle d _

end VectorDatapath

end CpuSim.Vector
