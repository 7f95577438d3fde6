/-
  CpuSim.SuperScalar.Interpreter

  What a program means: one instruction word at a time, on sixteen registers and the
  data memory, until a `HALT` is reached.  Out-of-order execution is compared with it.
-/

import CpuSim.SuperScalar.Memory
import CpuSim.SuperScalar.Fetch

namespace CpuSim.SuperScalar

/-! ## Registers and memory -/

/-- The architectural data: register values and data memory. -/
structure Machine (words : Nat) where
  regs : Register → Word
  mem : DataMemory words

namespace Machine

variable {words : Nat}

/-- The byte address of a load or a store. -/
def address (d : Machine words) (i : DecodedInstruction) : Word := d.regs i.rs1 + i.immediate

/-- The value an instruction gives its destination register, if it has one. -/
def result (d : Machine words) (i : DecodedInstruction) : Option Word :=
  match i.opcode with
  | .ADD => some (d.regs i.rs1 + d.regs i.rs2)
  | .SUB => some (d.regs i.rs1 - d.regs i.rs2)
  | .AND => some (d.regs i.rs1 &&& d.regs i.rs2)
  | .OR => some (d.regs i.rs1 ||| d.regs i.rs2)
  | .XOR => some (d.regs i.rs1 ^^^ d.regs i.rs2)
  | .NOT => some (~~~d.regs i.rs1)
  | .LI => some i.immediate
  | .ADDI => some (d.regs i.rs1 + i.immediate)
  | .LW => some ((d.mem.read (d.address i)).getD 0)
  | _ => none

/-- The effect of an instruction on the data. -/
def exec (d : Machine words) (i : DecodedInstruction) : Machine words where
  regs :=
    match d.result i with
    | some v => Function.update d.regs i.rd v
    | none => d.regs
  mem := if i.opcode = .SW then d.mem.write (d.address i) (d.regs i.rs2) else d.mem

/-- The address of the next instruction. -/
def nextPc (d : Machine words) (i : DecodedInstruction) (pc : Word) : Word :=
  match i.opcode with
  | .BEQ => if d.regs i.rs1 = d.regs i.rs2 then pc + i.immediate else pc + 4
  | .BNE => if d.regs i.rs1 ≠ d.regs i.rs2 then pc + i.immediate else pc + 4
  | _ => pc + 4

end Machine

/-! ## The sequential interpreter -/

/-- The state of the interpreter. -/
structure Interpreter (words : Nat) where
  pc : Word := 0
  data : Machine words

namespace Interpreter

variable {words w : Nat}

/-- The instruction at the program counter. -/
def current (imem : InstructionMemory w) (σ : Interpreter words) : DecodedInstruction :=
  InstructionDecoder.decode ⟨imem.read σ.pc⟩

/-- Execute one instruction. -/
def step (imem : InstructionMemory w) (σ : Interpreter words) : Interpreter words where
  pc := σ.data.nextPc (σ.current imem) σ.pc
  data := σ.data.exec (σ.current imem)

/-- The state after `k` instructions. -/
def run (imem : InstructionMemory w) (σ : Interpreter words) : Nat → Interpreter words
  | 0 => σ
  | k + 1 => (run imem σ k).step imem

/-- The `HALT` reached first is the instruction `k` steps ahead. -/
def HaltsAt (imem : InstructionMemory w) (σ : Interpreter words) (k : Nat) : Prop :=
  ((run imem σ k).current imem).opcode = .HALT ∧
    ∀ j < k, ((run imem σ j).current imem).opcode ≠ .HALT

instance (imem : InstructionMemory w) (σ : Interpreter words) (k : Nat) :
    Decidable (σ.HaltsAt imem k) := by
  unfold HaltsAt
  infer_instance

theorem HaltsAt.unique {imem : InstructionMemory w} {σ : Interpreter words} {k k' : Nat}
    (h : σ.HaltsAt imem k) (h' : σ.HaltsAt imem k') : k = k' := by
  rcases Nat.lt_trichotomy k k' with hlt | heq | hgt
  · exact absurd h.1 (h'.2 k hlt)
  · exact heq
  · exact absurd h'.1 (h.2 k' hgt)

end Interpreter

end CpuSim.SuperScalar
