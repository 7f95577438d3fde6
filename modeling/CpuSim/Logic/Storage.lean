/-
  CpuSim.Logic.Storage

  The register file and the memory of the external logic library, as the scalar
  datapaths rely on them: sixteen ordinary edge-triggered registers with combinational
  read ports, and a word memory with combinational reads, writes on the rising edge, and
  a lower half that is read-only.
-/

import CpuSim.Isa.Instruction
import CpuSim.Logic.Register
import Mathlib.Logic.Function.Basic

namespace CpuSim.Logic

/-! ## Register file -/

/-- `logic::RegisterFile<4, 32>`. -/
structure RegisterFile where
  registers : CpuSim.Register → Logic.Register Word := fun _ => ⟨0, 0, false⟩

namespace RegisterFile

/-- A read port. -/
def read (f : RegisterFile) (address : CpuSim.Register) : Word := (f.registers address).output

/-- One `evaluate()`: each register loads the write data when it is addressed and the
    write enable is HIGH, 0 under reset, and holds its value otherwise. -/
def evaluate (f : RegisterFile) (clock reset writeEnable : Bool) (rd : CpuSim.Register)
    (writeData : Word) : RegisterFile where
  registers := fun i =>
    let register := f.registers i
    let loadOut := mux register.output writeData (writeEnable && rd == i)
    register.evaluate clock (mux loadOut 0 reset)

/-- Every register has seen the clock LOW. -/
def AtRest (f : RegisterFile) : Prop := ∀ i, (f.registers i).clockHigh = false

/-- What a LOW evaluation leaves to be driven from the rising edge on. -/
theorem evaluate_low (f : RegisterFile) (reset writeEnable : Bool) (rd : CpuSim.Register)
    (writeData : Word) :
    (f.evaluate false reset writeEnable rd writeData).AtRest ∧
      (f.evaluate false reset writeEnable rd writeData).read = f.read ∧
      ∀ i, ((f.evaluate false reset writeEnable rd writeData).registers i).captured =
        if reset then 0 else if writeEnable && rd == i then writeData else f.read i := by
  refine ⟨fun _ => rfl, rfl, fun i => ?_⟩
  show mux (mux _ _ _) 0 reset = _
  cases reset <;> cases (writeEnable && rd == i) <;> rfl

/-- Further HIGH evaluations change nothing. -/
theorem evaluate_high {f : RegisterFile} (h : ∀ i, (f.registers i).clockHigh = true)
    (reset writeEnable : Bool) (rd : CpuSim.Register) (writeData : Word) :
    f.evaluate true reset writeEnable rd writeData = f := by
  cases f with
  | mk registers =>
      rw [evaluate]
      congr 1
      funext i
      have hi := h i
      dsimp only at hi ⊢
      revert hi
      cases registers i with
      | mk captured output clockHigh =>
          rintro rfl
          rfl

/-- The load mux of every register, over all registers. -/
theorem loadMux_eq (f : CpuSim.Register → Word) (e : Bool) (rd i : CpuSim.Register) (x : Word) :
    mux (f i) x (e && rd == i) = (if e then Function.update f rd x else f) i := by
  rw [mux]
  cases e with
  | false => rfl
  | true =>
      rcases eq_or_ne i rd with rfl | hne
      · simp
      · rw [Bool.true_and, if_neg (by simpa using Ne.symm hne), if_pos rfl,
          Function.update_of_ne hne]

end RegisterFile

/-! ## Memory -/

/-- `logic::Memory<AddressWidth, 32>`: its words, the read bus and the last clock level.
    Writes to words that are not `writable` are ignored. -/
structure Memory (AddressWidth : Nat) (writable : Nat → Bool) where
  contents : Nat → Word := fun _ => 0
  readData : Word := 0
  clockHigh : Bool := false

namespace Memory

variable {AddressWidth : Nat} {writable : Nat → Bool}

/-- The memory of the library: the lower half of the words is ROM. -/
def upperHalf (AddressWidth word : Nat) : Bool := 2 ^ AddressWidth ≤ 2 * word

/-- The word an address bus selects: its lower `AddressWidth` bits. -/
def wordOf (AddressWidth : Nat) (address : Word) : Nat := address.toNat % 2 ^ AddressWidth

theorem wordOf_lt (AddressWidth : Nat) (address : Word) :
    wordOf AddressWidth address < 2 ^ AddressWidth := Nat.mod_lt _ (Nat.two_pow_pos AddressWidth)

/-- The words after a write. -/
def write (AddressWidth : Nat) (writable : Nat → Bool) (contents : Nat → Word)
    (address data : Word) : Nat → Word :=
  if writable (wordOf AddressWidth address) then
    Function.update contents (wordOf AddressWidth address) data
  else contents

/-- A word after a write depends on that word alone. -/
theorem write_congr {AddressWidth : Nat} {writable : Nat → Bool} {contents contents' : Nat → Word}
    {a : Nat} (h : contents a = contents' a) (address data : Word) :
    write AddressWidth writable contents address data a =
      write AddressWidth writable contents' address data a := by
  rw [write, write]
  split
  · rw [Function.update_apply, Function.update_apply, h]
  · exact h

/-- A word that is not writable keeps its contents. -/
theorem write_of_not_writable {AddressWidth : Nat} {writable : Nat → Bool}
    {contents : Nat → Word} {a : Nat} (h : writable a = false) (address data : Word) :
    write AddressWidth writable contents address data a = contents a := by
  rw [write]
  split
  · next hwritable =>
      apply Function.update_of_ne
      rintro rfl
      rw [h] at hwritable
      cases hwritable
  · rfl

/-- One `evaluate()`: reads are combinational, a write happens on the rising edge. -/
def evaluate (m : Memory AddressWidth writable) (clock request command : Bool)
    (address data : Word) : Memory AddressWidth writable :=
  let contents :=
    if (clock && !m.clockHigh) && (request && command) then
      write AddressWidth writable m.contents address data
    else m.contents
  { contents := contents
    readData := if request && !command then contents (wordOf AddressWidth address) else m.readData
    clockHigh := clock }

end Memory

end CpuSim.Logic

namespace CpuSim.DataMemory

variable {AddressWidth : Nat} {writable : Nat → Bool}

/-- `DataMemory::evaluate`: the request and command wires of a read or a write. -/
def evaluate (m : Logic.Memory AddressWidth writable) (clock readEnable writeEnable : Bool)
    (address data : Word) : Logic.Memory AddressWidth writable :=
  m.evaluate clock (readEnable || writeEnable) writeEnable address data

/-- The words read during a LOW evaluation. -/
theorem readData_low (m : Logic.Memory AddressWidth writable) (address data : Word) :
    (evaluate m false true false address data).readData =
      m.contents (Logic.Memory.wordOf AddressWidth address) := rfl

/-- The rising edge writes when the write enable is HIGH. -/
theorem contents_rising (m : Logic.Memory AddressWidth writable) (readEnable writeEnable : Bool)
    (a a1 x x1 : Word) :
    (evaluate (evaluate m false readEnable writeEnable a x) true readEnable writeEnable a1
        x1).contents =
      if writeEnable then Logic.Memory.write AddressWidth writable m.contents a1 x1
      else m.contents := by
  simp only [evaluate, Logic.Memory.evaluate]
  cases writeEnable <;> cases readEnable <;> rfl

end CpuSim.DataMemory
