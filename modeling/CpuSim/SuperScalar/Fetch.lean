/-
  CpuSim.SuperScalar.Fetch

  The clocked front end: `ProgramCounter`, `FetchUnit`, `FetchDecodeReg` and
  `SuperScalarInstructionMemory`, evaluated wire by wire as the source does.
-/

import CpuSim.Isa.Instruction
import CpuSim.Logic.Register

namespace CpuSim.SuperScalar

open CpuSim.Logic (mux)

/-! ## Program counter and fetch unit -/

/-- `ProgramCounter<32>::evaluate`: enable mux, reset mux, register. -/
def ProgramCounter.evaluate (pcReg : Logic.Register Word) (clock reset enable : Bool)
    (next : Word) : Logic.Register Word :=
  let enableMuxOut := mux pcReg.output next enable
  let registerInput := mux enableMuxOut 0 reset
  pcReg.evaluate clock registerInput

/-- `FetchUnit<32, 32>`: the program counter, its `next` bus and the buses and
    wires the unit drives. -/
structure FetchUnit where
  programCounter : Logic.Register Word := ⟨0, 0, false⟩
  pcNext : Word := 0
  pc0 : Word := 0
  pc1 : Word := 0
  nextPc : Word := 0
  valid0 : Bool := false
  valid1 : Bool := false
  deriving DecidableEq, Repr

namespace FetchUnit

/-- `evaluate()` of the variant with redirect inputs and no stall wire (the
    program counter is always enabled). -/
def evaluate (f : FetchUnit) (clock reset hit0 hit1 redirect : Bool) (redirectPc : Word) :
    FetchUnit :=
  let pcReg := ProgramCounter.evaluate f.programCounter clock reset true f.pcNext
  let pcPlus4 := pcReg.output + 4
  let pcPlus8 := pcReg.output + 8
  let pcNext := if redirect then redirectPc else pcPlus8
  -- re-evaluated so that the new `pc_next_` reaches the register input
  let pcReg := ProgramCounter.evaluate pcReg clock reset true pcNext
  { programCounter := pcReg, pcNext := pcNext,
    pc0 := pcReg.output, pc1 := pcPlus4, nextPc := pcPlus8,
    valid0 := if reset then false else hit0,
    valid1 := if reset then false else hit1 }

end FetchUnit

/-! ## Fetch/decode register -/

/-- The six buses through `FetchDecodeReg`, in lane order. -/
structure FetchBundle where
  pc0 : Word := 0
  instruction0 : Word := 0
  valid0 : Bool := false
  pc1 : Word := 0
  instruction1 : Word := 0
  valid1 : Bool := false
  deriving DecidableEq, Repr

/-- `FetchDecodeReg::evaluate`.  The six registers share clock, enable, flush and
    reset, so they are kept as one register of a `FetchBundle`; its output drives
    the decode buses. -/
def FetchDecodeReg.evaluate (reg : Logic.Register FetchBundle)
    (clock reset enable flush : Bool) (fetch : FetchBundle) : Logic.Register FetchBundle :=
  let enableOut := mux reg.output fetch enable
  let flushOut := mux enableOut {} flush
  let regIn := mux flushOut {} reset
  reg.evaluate clock regIn

/-! ## Instruction memory -/

/-- `SuperscalarInstructionMemory<32, ROMAddressWidth, 32>`: the words loaded into
    the dual-port ROM (a word that was not loaded reads as 0). -/
structure InstructionMemory (ROMAddressWidth : Nat) where
  contents : List Word := []
  deriving DecidableEq, Repr

namespace InstructionMemory

variable {ROMAddressWidth : Nat}

/-- `convert_address`: bits `2 .. 2 + ROMAddressWidth` of the byte address. -/
def convertAddress (ROMAddressWidth : Nat) (address : Word) : Nat :=
  (address >>> 2).toNat % 2 ^ ROMAddressWidth

/-- One read port of `evaluate()` with its request wire HIGH. -/
def read (m : InstructionMemory ROMAddressWidth) (address : Word) : Word :=
  m.contents.getD (convertAddress ROMAddressWidth address) 0

end InstructionMemory

/-! ## The front end of `SuperScalarCPU` -/

/-- The front-end members of `SuperScalarCPU`: both clocked units and the wires
    between them. -/
structure Frontend where
  fetchUnit : FetchUnit := {}
  fdReg : Logic.Register FetchBundle := ⟨{}, {}, false⟩
  clock : Bool := false
  reset : Bool := false
  fdEnable : Bool := true
  fdFlush : Bool := false
  fetchInst0 : Word := 0
  fetchInst1 : Word := 0
  fetchHit0 : Bool := true
  fetchHit1 : Bool := true
  fetchRedirect : Bool := false
  fetchRedirectPc : Word := 0
  deriving DecidableEq, Repr

namespace Frontend

/-- `fetch_unit_.evaluate()`. -/
def evaluateFetchUnit (f : Frontend) : Frontend :=
  { f with
    fetchUnit :=
      f.fetchUnit.evaluate f.clock f.reset f.fetchHit0 f.fetchHit1 f.fetchRedirect
        f.fetchRedirectPc }

/-- `fd_reg_.evaluate()`. -/
def evaluateFdReg (f : Frontend) : Frontend :=
  { f with
    fdReg :=
      FetchDecodeReg.evaluate f.fdReg f.clock f.reset f.fdEnable f.fdFlush
        { pc0 := f.fetchUnit.pc0, instruction0 := f.fetchInst0, valid0 := f.fetchUnit.valid0,
          pc1 := f.fetchUnit.pc1, instruction1 := f.fetchInst1,
          valid1 := f.fetchUnit.valid1 } }

/-- `eval_clock_edge()`: both units LOW, then both units HIGH. -/
def evalClockEdge (f : Frontend) : Frontend :=
  let f := evaluateFdReg (evaluateFetchUnit { f with clock := false })
  evaluateFdReg (evaluateFetchUnit { f with clock := true })

/-- The buses at the decode side of `fd_reg_`. -/
def decodeBundle (f : Frontend) : FetchBundle := f.fdReg.output

/-- Front-end part of `SuperScalarCPU::reset`. -/
def resetSequence (f : Frontend) : Frontend :=
  let f :=
    evalClockEdge
      { f with
        clock := false, reset := true, fdEnable := true, fdFlush := false, fetchHit0 := true,
        fetchHit1 := true, fetchRedirect := false }
  evaluateFdReg (evaluateFetchUnit { f with reset := false, clock := false })

/-- Fetch part of `SuperScalarCPU::step`: read the instruction memory at the
    current fetch addresses, then clock both units. -/
def fetchCycle {ROMAddressWidth : Nat} (f : Frontend)
    (imem : InstructionMemory ROMAddressWidth) : Frontend :=
  let f :=
    { f with
      fetchInst0 := imem.read f.fetchUnit.pc0, fetchInst1 := imem.read f.fetchUnit.pc1,
      fetchHit0 := true, fetchHit1 := true }
  evalClockEdge (evaluateFetchUnit f)

/-- The writes `step` makes to redirect fetch and flush the decode register. -/
def requestRedirect (f : Frontend) (target : Word) : Frontend :=
  { f with fetchRedirect := true, fetchRedirectPc := target, fdFlush := true }

/-- Clearing the one-shot wires after the clock edge. -/
def clearRedirect (f : Frontend) : Frontend :=
  { f with fetchRedirect := false, fdFlush := false }

end Frontend

end CpuSim.SuperScalar
