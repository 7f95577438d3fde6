/-
  CpuSim.Isa.Sequential

  What an instruction means to the scalar machines: its effect on sixteen registers, a
  word-addressed memory and the program counter.  The machines differ in where branches
  and jumps go, so the targets are parameters.
-/

import CpuSim.Logic.Storage
import Mathlib.Order.Basic

namespace CpuSim.Isa

open CpuSim.Logic

/-- What a machine leaves open: its memory, and the targets of branches and jumps at a
    program counter with an immediate. -/
structure Machine where
  addressWidth : Nat
  writable : Nat → Bool
  branchTarget : Word → Word → Word
  jumpTarget : Word → Word → Word

/-- The architectural state. -/
@[ext]
structure State where
  pc : Word
  regs : Register → Word
  memory : Nat → Word

namespace State

/-- The data address of a load or a store. -/
def address (s : State) (i : DecodedInstruction) : Word := s.regs i.rs1 + i.immediate

/-- The value an instruction gives its destination register, if it has one. -/
def result (M : Machine) (s : State) (i : DecodedInstruction) : Option Word :=
  match i.opcode with
  | .ADD => some (s.regs i.rs1 + s.regs i.rs2)
  | .SUB => some (s.regs i.rs1 - s.regs i.rs2)
  | .AND => some (s.regs i.rs1 &&& s.regs i.rs2)
  | .OR => some (s.regs i.rs1 ||| s.regs i.rs2)
  | .XOR => some (s.regs i.rs1 ^^^ s.regs i.rs2)
  | .NOT => some (~~~s.regs i.rs1)
  | .LI => some i.immediate
  | .ADDI => some (s.regs i.rs1 + i.immediate)
  | .LW => some (s.memory (Memory.wordOf M.addressWidth (s.address i)))
  | _ => none

/-- The address of the next instruction. -/
def nextPc (M : Machine) (s : State) (i : DecodedInstruction) : Word :=
  match i.opcode with
  | .BEQ => if s.regs i.rs1 = s.regs i.rs2 then M.branchTarget s.pc i.immediate else s.pc + 1
  | .BNE => if s.regs i.rs1 ≠ s.regs i.rs2 then M.branchTarget s.pc i.immediate else s.pc + 1
  | .J => M.jumpTarget s.pc i.immediate
  | _ => s.pc + 1

/-- The instruction is a branch whose condition holds. -/
def Takes (s : State) (i : DecodedInstruction) : Prop :=
  match i.opcode with
  | .BEQ => s.regs i.rs1 = s.regs i.rs2
  | .BNE => s.regs i.rs1 ≠ s.regs i.rs2
  | _ => False

/-- A taken branch goes to its target. -/
theorem nextPc_of_takes {M : Machine} {s : State} {i : DecodedInstruction} (h : s.Takes i) :
    s.nextPc M i = M.branchTarget s.pc i.immediate := by
  unfold Takes at h
  unfold nextPc
  cases hop : i.opcode with
  | BEQ =>
      rw [hop] at h
      exact if_pos h
  | BNE =>
      rw [hop] at h
      exact if_pos h
  | _ =>
      rw [hop] at h
      exact absurd h id

/-- The effect of one instruction. -/
def exec (M : Machine) (s : State) (i : DecodedInstruction) : State where
  pc := s.nextPc M i
  regs :=
    match s.result M i with
    | some v => Function.update s.regs i.rd v
    | none => s.regs
  memory :=
    if i.opcode = .SW then
      Memory.write M.addressWidth M.writable s.memory (s.address i) (s.regs i.rs2)
    else s.memory

theorem exec_memory_of_store {M : Machine} {s : State} {i : DecodedInstruction}
    (h : i.opcode = .SW) :
    (s.exec M i).memory =
      Memory.write M.addressWidth M.writable s.memory (s.address i) (s.regs i.rs2) := if_pos h

theorem exec_memory_of_ne {M : Machine} {s : State} {i : DecodedInstruction}
    (h : i.opcode ≠ .SW) : (s.exec M i).memory = s.memory := if_neg h

/-- A `HALT` changes neither the registers nor the memory. -/
theorem exec_of_halt {M : Machine} {s : State} {i : DecodedInstruction} (h : i.opcode = .HALT) :
    (s.exec M i).regs = s.regs ∧ (s.exec M i).memory = s.memory := by
  rw [exec, result, h]
  exact ⟨rfl, rfl⟩

/-- One instruction of a machine that reads its instructions by `fetch`; at `HALT` it stays. -/
def step (M : Machine) (fetch : State → DecodedInstruction) (s : State) : State :=
  if (fetch s).opcode = .HALT then s else s.exec M (fetch s)

/-- The state after `n` instructions. -/
def steps (M : Machine) (fetch : State → DecodedInstruction) (s : State) : Nat → State
  | 0 => s
  | n + 1 => (steps M fetch s n).step M fetch

theorem steps_succ (M : Machine) (fetch : State → DecodedInstruction) (s : State) (n : Nat) :
    s.steps M fetch (n + 1) = (s.step M fetch).steps M fetch n := by
  induction n with
  | zero => rfl
  | succ n ih =>
      rw [steps, ih]
      rfl

/-- A `HALT` is the end of the run. -/
theorem step_of_halt {M : Machine} {fetch : State → DecodedInstruction} {s : State}
    (h : (fetch s).opcode = .HALT) : s.step M fetch = s := if_pos h

/-- Any other instruction is executed. -/
theorem step_of_ne {M : Machine} {fetch : State → DecodedInstruction} {s : State}
    (h : (fetch s).opcode ≠ .HALT) : s.step M fetch = s.exec M (fetch s) := if_neg h

/-- So is a taken branch. -/
theorem step_of_takes {M : Machine} {fetch : State → DecodedInstruction} {s : State}
    (h : s.Takes (fetch s)) :
    (s.step M fetch).pc = M.branchTarget s.pc (fetch s).immediate := by
  have hne : (fetch s).opcode ≠ .HALT := by
    intro hhalt
    rw [Takes, hhalt] at h
    exact h
  rw [step_of_ne hne]
  exact nextPc_of_takes h

/-- A run stays where it halts. -/
theorem steps_of_halt {M : Machine} {fetch : State → DecodedInstruction} {s : State} {k : Nat}
    (h : (fetch (s.steps M fetch k)).opcode = .HALT) {n : Nat} (hn : k ≤ n) :
    s.steps M fetch n = s.steps M fetch k := by
  induction n, hn using Nat.le_induction with
  | base => rfl
  | succ n _ ih =>
      show (s.steps M fetch n).step M fetch = _
      rw [ih, step_of_halt h]

end State

end CpuSim.Isa
