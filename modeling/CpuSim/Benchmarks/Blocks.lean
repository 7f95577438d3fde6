/-
  CpuSim.Benchmarks.Blocks

  Stretches of a program in which only the last instruction may branch, as steps of the
  sequential machine with the cycles they cost on the multi-cycle and the pipelined CPU.
-/

import CpuSim.Comparison.CycleCount
import CpuSim.Lib.Triple
import Mathlib.Data.List.Infix

namespace CpuSim

open Isa (State Machine)
open Lib (Triple)
open Logic.Memory (upperHalf wordOf)
open InstructionDecoder (decode)
open MultiCycle.MultiCycleDatapath (cyclesOf)
open Pipelined (redirects loadUse)

variable {words : List Word} {p : Nat} {s : State} {i : DecodedInstruction}
  {is : List DecodedInstruction}

/-! ## Code -/

/-- The instructions of a program from address `p` on. -/
def CodeAt (words : List Word) (p : Nat) (is : List DecodedInstruction) : Prop :=
  is <+: (words.drop p).map fun word => decode ⟨word⟩

instance CodeAt.decidable : Decidable (CodeAt words p is) :=
  inferInstanceAs (Decidable (is <+: _))

/-- The instructions at an address of a decoded program. -/
theorem CodeAt.of_decoded {all : List DecodedInstruction}
    (h : (words.map fun word => decode ⟨word⟩) = all) (hp : is <+: all.drop p) :
    CodeAt words p is := by
  rw [CodeAt, List.map_drop, h]
  exact hp

theorem CodeAt.tail (h : CodeAt words p (i :: is)) : CodeAt words (p + 1) is := by
  obtain ⟨rest, hrest⟩ := h
  refine ⟨rest, ?_⟩
  rw [← List.tail_drop, List.map_tail, ← hrest]
  rfl

/-- The instruction at a program counter. -/
theorem CodeAt.fetch (h : CodeAt words p (i :: is)) (hlen : words.length ≤ 128)
    (hpc : s.pc = BitVec.ofNat 32 p) :
    programFetch words s = i ∧ s.pc.toNat < words.length := by
  obtain ⟨rest, hrest⟩ := h
  have hget : ((words.drop p).map fun word => decode ⟨word⟩)[0]? = some i := by
    rw [← hrest]
    rfl
  rw [List.getElem?_map, List.getElem?_drop, Nat.add_zero, Option.map_eq_some_iff] at hget
  obtain ⟨word, hword, rfl⟩ := hget
  obtain ⟨hlt, hword⟩ := List.getElem?_eq_some_iff.mp hword
  have hnat : s.pc.toNat = p := by
    rw [hpc, BitVec.toNat_ofNat]
    omega
  have hinside : s.pc.toNat < words.length := by omega
  refine ⟨?_, hinside⟩
  obtain ⟨-, hgetD⟩ := getD_of_inside hlen hinside
  rw [programFetch, hgetD]
  simp only [hnat, hword]

/-! ## Blocks -/

/-- The instruction goes on to the next address. -/
def Straight : Opcode → Bool
  | .BEQ | .BNE | .J | .HALT => false
  | _ => true

/-- None but the last instruction branches; the last one is neither a `HALT` nor a load. -/
def IsBlock : List DecodedInstruction → Bool
  | [] => true
  | [i] => i.opcode != .HALT && i.opcode != .LW
  | i :: is => Straight i.opcode && IsBlock is

theorem Straight.ne_halt {op : Opcode} (h : Straight op = true) : op ≠ .HALT := by
  rintro rfl
  cases h

theorem IsBlock.ne_halt (h : IsBlock (i :: is) = true) : i.opcode ≠ .HALT := by
  cases is with
  | nil => exact bne_iff_ne.mp (Bool.and_eq_true_iff.mp h).1
  | cons _ _ => exact Straight.ne_halt (Bool.and_eq_true_iff.mp h).1

theorem exec_pc_of_straight {M : Machine} (h : Straight i.opcode = true) :
    (s.exec M i).pc = s.pc + 1 := by
  show s.nextPc M i = _
  unfold State.nextPc
  cases hop : i.opcode with
  | BEQ | BNE | J | HALT => simp [hop, Straight] at h
  | _ => rfl

/-- The state behind the instructions of a block. -/
def execAll (s : State) (is : List DecodedInstruction) : State :=
  is.foldl (State.exec baseMachine) s

@[simp] theorem execAll_nil (s : State) : execAll s [] = s := rfl

@[simp] theorem execAll_cons (s : State) (i : DecodedInstruction)
    (is : List DecodedInstruction) :
    execAll s (i :: is) = execAll (s.exec baseMachine i) is := rfl

/-- The loads and stores of a block go to the RAM half. -/
def AccessesAlong : State → List DecodedInstruction → Prop
  | _, [] => True
  | s, i :: is => AccessesRam s i ∧ AccessesAlong (s.exec baseMachine i) is

/-- The pipeline waits behind a load for the instruction that follows. -/
def stallsFor (i : DecodedInstruction) : List DecodedInstruction → Bool
  | [] => false
  | j :: _ => loadUse i j

/-- What the first instruction of a block costs. -/
def firstCharge (s : State) (i : DecodedInstruction) (is : List DecodedInstruction) : Nat × Nat :=
  (cyclesOf i.opcode, if redirects s i then 2 else if stallsFor i is then 1 else 0)

/-- What a block costs. -/
def blockCharge : State → List DecodedInstruction → Nat × Nat
  | _, [] => 0
  | s, i :: is => firstCharge s i is + blockCharge (s.exec baseMachine i) is

/-! ## Programs -/

/-- What the instruction of a state costs: the states it takes the multi-cycle CPU, and the
    cycles the pipeline loses behind it. -/
def charge (words : List Word) (s : State) : Nat × Nat :=
  (stateCycles words s 0, lostCycles words s 0)

/-- The program counter is inside the program, at an instruction that is no `HALT` and accesses
    no memory but the RAM half. -/
structure Going (words : List Word) (s : State) : Prop where
  inside : s.pc.toNat < words.length
  ram : AccessesRam s (programFetch words s)
  notHalt : (programFetch words s).opcode ≠ .HALT

/-- A program takes `n` instructions from one condition to the other. -/
abbrev ProgramTriple (words : List Word) (n : Nat) (c : Nat × Nat) (P Q : State → Prop) : Prop :=
  Triple (State.step baseMachine (programFetch words)) (Going words) (charge words) n c P Q

/-- The charge of an instruction can be read off the block it begins. -/
theorem charge_eq (hcode : CodeAt words p (i :: is)) (hlen : words.length ≤ 128)
    (hblock : IsBlock (i :: is) = true) (hpc : s.pc = BitVec.ofNat 32 p) :
    charge words s = firstCharge s i is := by
  obtain ⟨hfetch, -⟩ := hcode.fetch hlen hpc
  have hzero : instructionOf words s 0 = i := hfetch
  have hnext : instructionOf words s 1 = programFetch words (s.exec baseMachine i) := by
    show programFetch words (s.step baseMachine (programFetch words)) = _
    rw [State.step, hfetch, if_neg (IsBlock.ne_halt hblock)]
  have hwaits : loadUse i (programFetch words (s.exec baseMachine i)) = stallsFor i is := by
    cases is with
    | nil =>
        -- the last instruction is not a load
        have hload : i.opcode ≠ .LW := bne_iff_ne.mp (Bool.and_eq_true_iff.mp hblock).2
        rw [loadUse, beq_eq_false_iff_ne.mpr hload]
        rfl
    | cons j js =>
        have hpc' : (s.exec baseMachine i).pc = BitVec.ofNat 32 (p + 1) := by
          rw [exec_pc_of_straight (Bool.and_eq_true_iff.mp hblock).1, hpc, BitVec.ofNat_add]
          rfl
        rw [(hcode.tail.fetch hlen hpc').1]
        rfl
  rw [charge, stateCycles, lostCycles, hzero, hnext, hwaits]
  rfl

/-- A block is executed one instruction a step. -/
theorem triple_block {P Q : State → Prop} {c : Nat × Nat} (hcode : CodeAt words p is)
    (hlen : words.length ≤ 128) (hblock : IsBlock is = true)
    (h : ∀ s, P s → s.pc = BitVec.ofNat 32 p ∧ AccessesAlong s is ∧ blockCharge s is = c ∧
      Q (execAll s is)) :
    ProgramTriple words is.length c P Q := by
  intro s hs
  obtain ⟨hpc, haccess, hcharge, hpost⟩ := h s hs
  clear h hs P
  induction is generalizing p s c with
  | nil => exact ⟨nofun, hcharge, hpost⟩
  | cons i is ih =>
      obtain ⟨hfetch, hinside⟩ := hcode.fetch hlen hpc
      have hne := IsBlock.ne_halt hblock
      have hfirst : ProgramTriple words 1 (firstCharge s i is) (· = s)
          (· = s.exec baseMachine i) := by
        apply Triple.single
        rintro s' rfl
        refine ⟨⟨hinside, ?_, ?_⟩, charge_eq hcode hlen hblock hpc, ?_⟩
        · rw [hfetch]
          exact haccess.1
        · rw [hfetch]
          exact hne
        · rw [State.step, hfetch, if_neg hne]
      have hrest : ProgramTriple words is.length (blockCharge (s.exec baseMachine i) is)
          (· = s.exec baseMachine i) Q := by
        rintro s' rfl
        cases is with
        | nil => exact ⟨nofun, rfl, hpost⟩
        | cons j js =>
            obtain ⟨hstraight, hblock'⟩ := Bool.and_eq_true_iff.mp hblock
            apply ih hcode.tail hblock' _ _ haccess.2 rfl hpost
            rw [exec_pc_of_straight hstraight, hpc, BitVec.ofNat_add]
            rfl
      rw [List.length_cons, Nat.add_comm, ← hcharge]
      exact hfirst.trans hrest s rfl

/-! ## The instructions of the programs -/

namespace DecodedInstruction

/-- `add rd, a, b`. -/
def add (rd a b : Register) : DecodedInstruction :=
  { opcode := .ADD, format := .R_TYPE, rd := rd, rs1 := a, rs2 := b }

/-- `sub rd, a, b`. -/
def sub (rd a b : Register) : DecodedInstruction :=
  { opcode := .SUB, format := .R_TYPE, rd := rd, rs1 := a, rs2 := b }

/-- `li rd, immediate`. -/
def li (rd : Register) (immediate : Word) : DecodedInstruction :=
  { opcode := .LI, format := .I_TYPE, rd := rd, immediate := immediate }

/-- `lw rd, immediate(base)`. -/
def lw (rd : Register) (immediate : Word) (base : Register) : DecodedInstruction :=
  { opcode := .LW, format := .I_TYPE, rd := rd, rs1 := base, immediate := immediate }

/-- `sw source, immediate(base)`. -/
def sw (source : Register) (immediate : Word) (base : Register) : DecodedInstruction :=
  { opcode := .SW, format := .S_TYPE, rs1 := base, rs2 := source, immediate := immediate }

/-- `beq a, b` with an offset. -/
def beq (a b : Register) (offset : Word) : DecodedInstruction :=
  { opcode := .BEQ, format := .B_TYPE, rs1 := a, rs2 := b, immediate := offset }

/-- `bne a, b` with an offset. -/
def bne (a b : Register) (offset : Word) : DecodedInstruction :=
  { opcode := .BNE, format := .B_TYPE, rs1 := a, rs2 := b, immediate := offset }

end DecodedInstruction

open DecodedInstruction

section Instructions

variable (s : State) (rd a b : Register) (immediate : Word) (j : DecodedInstruction)
  (is : List DecodedInstruction)

@[simp] theorem exec_add : s.exec baseMachine (add rd a b) =
    ⟨s.pc + 1, Function.update s.regs rd (s.regs a + s.regs b), s.memory⟩ := rfl

@[simp] theorem exec_sub : s.exec baseMachine (sub rd a b) =
    ⟨s.pc + 1, Function.update s.regs rd (s.regs a - s.regs b), s.memory⟩ := rfl

@[simp] theorem exec_li : s.exec baseMachine (li rd immediate) =
    ⟨s.pc + 1, Function.update s.regs rd immediate, s.memory⟩ := rfl

@[simp] theorem exec_lw : s.exec baseMachine (lw rd immediate a) =
    ⟨s.pc + 1, Function.update s.regs rd (s.memory (wordOf 8 (s.regs a + immediate))),
      s.memory⟩ := rfl

@[simp] theorem exec_sw : s.exec baseMachine (sw b immediate a) =
    ⟨s.pc + 1, s.regs,
      Logic.Memory.write 8 (upperHalf 8) s.memory (s.regs a + immediate) (s.regs b)⟩ := rfl

@[simp] theorem exec_beq : s.exec baseMachine (beq a b immediate) =
    ⟨if s.regs a = s.regs b then s.pc + immediate else s.pc + 1, s.regs, s.memory⟩ := rfl

@[simp] theorem exec_bne : s.exec baseMachine (bne a b immediate) =
    ⟨if s.regs a ≠ s.regs b then s.pc + immediate else s.pc + 1, s.regs, s.memory⟩ := rfl

theorem accessesRam_of_register {i : DecodedInstruction}
    (h : (i.opcode == .LW || i.opcode == .SW) = false) : AccessesRam s i := by
  obtain ⟨hload, hstore⟩ := Bool.or_eq_false_iff.mp h
  intro haccess
  exact (haccess.elim (beq_eq_false_iff_ne.mp hload) (beq_eq_false_iff_ne.mp hstore)).elim

@[simp] theorem accessesRam_add : AccessesRam s (add rd a b) :=
  accessesRam_of_register s rfl

@[simp] theorem accessesRam_sub : AccessesRam s (sub rd a b) :=
  accessesRam_of_register s rfl

@[simp] theorem accessesRam_li : AccessesRam s (li rd immediate) :=
  accessesRam_of_register s rfl

@[simp] theorem accessesRam_beq : AccessesRam s (beq a b immediate) :=
  accessesRam_of_register s rfl

@[simp] theorem accessesRam_bne : AccessesRam s (bne a b immediate) :=
  accessesRam_of_register s rfl

@[simp] theorem accessesRam_lw : AccessesRam s (lw rd immediate a) ↔
    upperHalf 8 (wordOf 8 (s.regs a + immediate)) = true :=
  ⟨fun h => h (Or.inl rfl), fun h _ => h⟩

@[simp] theorem accessesRam_sw : AccessesRam s (sw b immediate a) ↔
    upperHalf 8 (wordOf 8 (s.regs a + immediate)) = true :=
  ⟨fun h => h (Or.inr rfl), fun h _ => h⟩

theorem stallsFor_of_ne {i : DecodedInstruction} (h : (i.opcode == .LW) = false) :
    stallsFor i is = false := by
  cases is with
  | nil => rfl
  | cons j js => rw [stallsFor, loadUse, h, Bool.false_and]

@[simp] theorem firstCharge_add : firstCharge s (add rd a b) is = (4, 0) := by
  rw [firstCharge, stallsFor_of_ne is rfl]
  rfl

@[simp] theorem firstCharge_sub : firstCharge s (sub rd a b) is = (4, 0) := by
  rw [firstCharge, stallsFor_of_ne is rfl]
  rfl

@[simp] theorem firstCharge_li : firstCharge s (li rd immediate) is = (4, 0) := by
  rw [firstCharge, stallsFor_of_ne is rfl]
  rfl

@[simp] theorem firstCharge_sw : firstCharge s (sw b immediate a) is = (4, 0) := by
  rw [firstCharge, stallsFor_of_ne is rfl]
  rfl

/-! The fields that are compared with the destination of a load. -/

@[simp] theorem add_rs1 : (add rd a b).rs1 = a := rfl

@[simp] theorem add_rs2 : (add rd a b).rs2 = b := rfl

@[simp] theorem li_rs1 : (li rd immediate).rs1 = 0 := rfl

@[simp] theorem li_rs2 : (li rd immediate).rs2 = 0 := rfl

@[simp] theorem firstCharge_lw : firstCharge s (lw rd immediate a) (j :: is) =
    (5, if rd = j.rs1 ∨ rd = j.rs2 then 1 else 0) := by
  simp [firstCharge, lw, redirects, stallsFor, loadUse, cyclesOf]

@[simp] theorem firstCharge_beq : firstCharge s (beq a b immediate) is =
    (3, if s.regs a = s.regs b then 2 else 0) := by
  rw [firstCharge, stallsFor_of_ne is rfl]
  simp [beq, redirects, cyclesOf]

@[simp] theorem firstCharge_bne : firstCharge s (bne a b immediate) is =
    (3, if s.regs a ≠ s.regs b then 2 else 0) := by
  rw [firstCharge, stallsFor_of_ne is rfl]
  simp [DecodedInstruction.bne, redirects, cyclesOf]

end Instructions

end CpuSim
