/-
  CpuSim.SuperScalar.Config

  The template parameters of `SuperScalarCPU`, with the `static_assert`s of the
  component templates as fields.
-/

import Mathlib.Tactic.Common

namespace CpuSim.SuperScalar

/-- One instantiation of `SuperScalarCPU<...>`; the defaults are the source's. -/
structure Config where
  robCapacity : Nat := 16
  iqCapacity : Nat := 16
  prfCount : Nat := 64
  arfCount : Nat := 16
  lsqCapacity : Nat := 32
  storeBufferCapacity : Nat := 16
  dataMemoryWords : Nat := 1024
  bpTableSize : Nat := 256
  romAddressWidth : Nat := 8
  robCapacity_pos : 0 < robCapacity := by decide
  iqCapacity_pos : 0 < iqCapacity := by decide
  prfCount_pos : 0 < prfCount := by decide
  prfCount_le : prfCount ≤ 255 := by decide
  bpTableSize_pos : 0 < bpTableSize := by decide
  romAddressWidth_pos : 0 < romAddressWidth := by decide

/-- `SuperScalarCPU<>`. -/
def Config.default : Config := {}

/-- `SuperScalarCPU32 = SuperScalarCPU<32, 32, 64, 16, 32, 16, 1024, 256, 8>`. -/
def Config.superScalarCPU32 : Config := { robCapacity := 32, iqCapacity := 32 }

end CpuSim.SuperScalar
