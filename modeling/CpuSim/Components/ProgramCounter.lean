/-
  CpuSim.Components.ProgramCounter

  The registers the datapaths build around `logic::Register`: an enable mux and a reset mux
  in front of the register.
-/

import CpuSim.Isa.Instruction
import CpuSim.Logic.Register

namespace CpuSim

open CpuSim.Logic (mux)

/-- `ProgramCounter<32>::evaluate`, and the `evaluate` of the intermediate registers: an
    enable mux, a reset mux and a register. -/
def enabledRegister (register : Logic.Register Word) (clock reset enable : Bool) (next : Word) :
    Logic.Register Word :=
  let enableMuxOut := mux register.output next enable
  let registerInput := mux enableMuxOut 0 reset
  register.evaluate clock registerInput

/-- The `evaluate` of a pipeline register, whose fields share their enable and reset wires:
    the reset muxes select the all-zero contents. -/
def pipelineRegister {α : Type _} (zero : α) (register : Logic.Register α)
    (clock reset enable : Bool) (next : α) : Logic.Register α :=
  let enableMuxOut := mux register.output next enable
  let registerInput := mux enableMuxOut zero reset
  register.evaluate clock registerInput

end CpuSim
