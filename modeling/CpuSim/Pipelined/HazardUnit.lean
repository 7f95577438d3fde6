/-
  CpuSim.Pipelined.HazardUnit

  `HazardUnit`: forwarding selects, load-use stalls and branch flushes.
-/

import CpuSim.Pipelined.ControlUnit

namespace CpuSim.Pipelined

/-- The inputs of `HazardUnit`, a letter after the name for the stage. -/
structure HazardInputs where
  ra1D : Register
  ra2D : Register
  ra1E : Register
  ra2E : Register
  wa3E : Register
  memToRegE : Bool
  branchTakenE : Bool
  wa3M : Register
  regWriteM : Bool
  wa3W : Register
  regWriteW : Bool
  deriving DecidableEq, Repr

/-- The outputs of `HazardUnit`. -/
structure HazardOutputs where
  forwardAE : BitVec 2
  forwardBE : BitVec 2
  stallF : Bool
  stallD : Bool
  flushD : Bool
  flushE : Bool
  deriving DecidableEq, Repr

namespace HazardInputs

/-- The forwarding select of an operand in the execute stage. -/
def forward (h : HazardInputs) (raE : Register) : BitVec 2 :=
  if h.regWriteM && h.wa3M == raE then 0b10
  else if h.regWriteW && h.wa3W == raE then 0b01
  else 0b00

/-- `ldr_stall`. -/
def ldrStall (h : HazardInputs) : Bool :=
  h.memToRegE && (h.wa3E == h.ra1D || h.wa3E == h.ra2D)

/-- `HazardUnit::evaluate`. -/
def evaluate (h : HazardInputs) : HazardOutputs where
  forwardAE := h.forward h.ra1E
  forwardBE := h.forward h.ra2E
  stallF := if h.branchTakenE then false else h.ldrStall
  stallD := if h.branchTakenE then false else h.ldrStall
  flushD := h.branchTakenE
  flushE := if h.branchTakenE then true else h.ldrStall

end HazardInputs

/-- `ForwardAE_mux` and `ForwardBE_mux`: the register operand, the writeback result or the
    ALU result of the memory stage. -/
def forwardMux (rd resultW aluOutM : Word) (select : BitVec 2) : Word :=
  if select.getLsbD 1 then aluOutM else if select.getLsbD 0 then resultW else rd

end CpuSim.Pipelined
