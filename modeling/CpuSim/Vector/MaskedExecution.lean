/-
  CpuSim.Vector.MaskedExecution

  Masked vector execution is exact.  The write result feeds back to the operands, but the
  registers drive it on the rising edge only, so a cycle applies the operation once, to the
  old values.
-/

import CpuSim.Components.Alu
import CpuSim.Vector.Datapath
import Mathlib.Data.Fin.VecNotation

namespace CpuSim.Vector

open Logic

/-! ## The result of an instruction -/

/-- The lanes of a masked operation: the active ones are computed, the others keep their old
    values. -/
def maskedResult (op : Word → Word → Word) (vl : Nat) (a b old : Fin 4 → Word) : Fin 4 → Word :=
  fun lane => if lane.val < min vl 4 then op (a lane) (b lane) else old lane

namespace VectorDatapath

/-- The signals of an instruction that executes: binary operands, no reset, internal
    writeback. -/
structure Executes (d : VectorDatapath) (rs1 rs2 rd : Fin 32) (opcode : BitVec 3)
    (vl : BitVec 8) : Prop where
  rs1 : d.signals.rs1 = .ofNat 5 rs1.val
  rs2 : d.signals.rs2 = .ofNat 5 rs2.val
  rd : d.signals.rd = .ofNat 5 rd.val
  opcode : d.signals.opcode = .ofWord opcode
  vl : d.signals.vl = .ofWord vl
  reset : d.signals.reset = .LOW
  mode : d.useExternalWrite = false

section Exact

variable {lib : Components} {op : BitVec 3 → Word → Word → Word} (h : lib.Exact op)

include h

/-- The lane mask activates the lanes below the vector length. -/
theorem laneMask_exact (vl : BitVec 8) (lane : Fin 4) :
    VectorLaneMaskUnit.evaluate lib (.ofWord vl) lane = .ofBool (decide (lane.val < vl.toNat)) := by
  have hcompare := h.comparator 8 lane.val vl.toNat (by omega) vl.isLt
  rw [VectorLaneMaskUnit.evaluate, Bus.ofWord, hcompare]

/-- A mux of two words. -/
theorem mux_exact {n : Nat} {a b : Bus n} (ha : a.Binary) (hb : b.Binary) (select : Bool) :
    lib.mux a b (.ofBool select) = if select then b else a := by
  cases select with
  | false => exact (h.mux n a b ha hb).1
  | true => exact (h.mux n a b ha hb).2

/-- The execution unit computes every lane. -/
theorem execution_exact (opcode : BitVec 3) (a b : Fin 4 → Word) :
    VectorExecutionUnit.evaluate lib (ofLanes a) (ofLanes b) (.ofWord opcode) =
      ofLanes fun lane => op opcode (a lane) (b lane) := by
  unfold VectorExecutionUnit.evaluate VectorLane.evaluate
  simp only [split_ofLanes, h.alu opcode]
  rfl

/-- The writeback result of an instruction is its masked result. -/
theorem writeback_exact {d : VectorDatapath} {V : Fin 32 → Fin 4 → Word} {rs1 rs2 rd : Fin 32}
    {opcode : BitVec 3} {vl : BitVec 8} (hd : d.Executes rs1 rs2 rd opcode vl) :
    writeback lib d.signals (fun i => ofLanes (V i)) =
      ofLanes (maskedResult (op opcode) vl.toNat (V rs1) (V rs2) (V rd)) := by
  have hread : ∀ r : Fin 32, lib.muxTree (fun i => ofLanes (V i)) (.ofNat 5 r.val) =
      ofLanes (V r) := by
    intro r
    exact h.muxTree 32 128 5 _ (fun i => binary_ofLanes (V i)) r r.isLt
  rw [writeback, hd.rs1, hd.rs2, hd.rd, hd.opcode, hd.vl, hread, hread, hread,
    execution_exact h]
  unfold VectorMaskedWriteBackUnit.evaluate ofLanes
  congr 1
  funext lane
  rw [laneMask_exact h, mux_exact h]
  · -- there are four lanes, so the minimum with four changes no test
    have hlane : lane.val < min vl.toNat 4 ↔ lane.val < vl.toNat := by omega
    rw [maskedResult]
    by_cases hactive : lane.val < vl.toNat <;> simp [hactive, hlane]
  · rw [split_combine]
    exact Bus.binary_ofWord _
  · rw [split_combine]
    exact Bus.binary_ofWord _

/-- What the registers follow: the destination its masked result, if it is enabled, and every
    other register itself. -/
theorem registerInputs_exact {d : VectorDatapath} {V : Fin 32 → Fin 4 → Word}
    {rs1 rs2 rd : Fin 32} {opcode : BitVec 3} {vl : BitVec 8} (enable : Bool)
    (hd : d.Executes rs1 rs2 rd opcode vl) (henable : d.signals.enable = .ofBool enable)
    (i : Fin 32) :
    registerInputs lib d.signals d.useExternalWrite (fun i => ofLanes (V i)) i =
      ofLanes (if enable && i.val == rd.val then
        maskedResult (op opcode) vl.toNat (V rs1) (V rs2) (V rd) else V i) := by
  have hzero : (Bus.fill .LOW : Bus 128).Binary := by
    rw [Bus.fill_low]
    exact Bus.binary_ofNat 0
  have henables := congrFun (h.decoder 5 32 rd.val enable rd.isLt) i
  rw [registerInputs, hd.mode]
  simp only [Bool.false_eq_true, if_false]
  rw [hd.rd, henable, henables, writeback_exact h hd, hd.reset, mux_exact h (binary_ofLanes _)
    (binary_ofLanes _)]
  have hload : (if enable && i.val == rd.val then
      ofLanes (maskedResult (op opcode) vl.toNat (V rs1) (V rs2) (V rd)) else ofLanes (V i)) =
      ofLanes (if enable && i.val == rd.val then
        maskedResult (op opcode) vl.toNat (V rs1) (V rs2) (V rd) else V i) := by
    split <;> rfl
  rw [hload]
  -- no reset: the load mux decides
  exact (h.mux 128 _ _ (binary_ofLanes _) hzero).1

end Exact

/-- One cycle with the write enabled computes the active lanes of the destination from the old
    values and changes nothing else; with the write disabled it changes nothing. -/
theorem masked_execution_exact {lib : Components} {op : BitVec 3 → Word → Word → Word}
    (h : lib.Exact op) {d : VectorDatapath} {V : Fin 32 → Fin 4 → Word}
    (hV : d.contents = fun i => ofLanes (V i)) {rs1 rs2 rd : Fin 32} {opcode : BitVec 3}
    {vl : BitVec 8} (hd : d.Executes rs1 rs2 rd opcode vl) (n m : Nat) :
    (d.signals.enable = .HIGH →
        ∃ W : Fin 32 → Fin 4 → Word,
          (clockCycle lib n m d).contents = (fun i => ofLanes (W i)) ∧
            (∀ lane : Fin 4, W rd lane =
              if lane.val < min vl.toNat 4 then op opcode (V rs1 lane) (V rs2 lane)
              else V rd lane) ∧
            ∀ i, i ≠ rd → W i = V i) ∧
      (d.signals.enable = .LOW → (clockCycle lib n m d).contents = d.contents) := by
  constructor
  · intro henable
    refine ⟨fun i => if true && i.val == rd.val then
      maskedResult (op opcode) vl.toNat (V rs1) (V rs2) (V rd) else V i, ?_, ?_, ?_⟩
    · rw [contents_clockCycle, hV]
      funext i
      exact registerInputs_exact h true hd henable i
    · intro lane
      simp [maskedResult]
    · intro i hi
      have hne : i.val ≠ rd.val := fun heq => hi (Fin.ext heq)
      simp [hne]
  · intro henable
    rw [contents_clockCycle, hV]
    funext i
    exact registerInputs_exact h false hd henable i

/-- The operands of a sum. -/
def operands : Fin 32 → Fin 4 → Word :=
  fun i => if i = 1 then ![10, 20, 30, 40] else ![1, 2, 3, 4]

/-- `V1 := V1 + V2` with two active lanes. -/
def accumulating : VectorDatapath :=
  .holding .wire
    { rs1 := .ofNat 5 1, rs2 := .ofNat 5 2, rd := .ofNat 5 1, writeData := .fill .UNKNOWN
      writeAddr := .fill .UNKNOWN, opcode := .ofWord 0, vl := .ofWord 2, enable := .HIGH
      reset := .LOW }
    fun i => ofLanes (operands i)

/-- The destination is a source: the sum is taken once. -/
theorem masked_execution_exact_aliased :
    ∃ W : Fin 32 → Fin 4 → Word,
      (clockCycle (.standard ALUInterface.aluResult) 1 2 accumulating).contents =
          (fun i => ofLanes (W i)) ∧
        W 1 = ![11, 22, 30, 40] ∧ W 2 = ![1, 2, 3, 4] := by
  have hd : accumulating.Executes 1 2 1 0 2 := ⟨rfl, rfl, rfl, rfl, rfl, rfl, rfl⟩
  obtain ⟨W, hW, hlanes, hother⟩ := (masked_execution_exact
    (Components.standard_exact ALUInterface.aluResult) (rfl : accumulating.contents = _) hd
    1 2).1 rfl
  refine ⟨W, hW, ?_, ?_⟩
  · funext lane
    rw [hlanes]
    revert lane
    decide
  · exact hother 2 (by decide)

end VectorDatapath

end CpuSim.Vector
