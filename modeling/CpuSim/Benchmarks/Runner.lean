/-
  CpuSim.Benchmarks.Runner

  `BenchmarkRunner`: one source on the single-cycle, the multi-cycle and the pipelined CPU,
  with a check of the registers and the memory each of them ends with.  A proof about the
  sequential execution of the words says what the three runs report.
-/

import CpuSim.Benchmarks.Blocks
import Mathlib.Algebra.BigOperators.Pi

namespace CpuSim

open Isa (State)
open Logic.Memory (upperHalf wordOf)
open Assembler (WordsCorrespond Architecture)
open InstructionDecoder (decode)
open Lib (elapsed Triple)

/-! ## Runs -/

/-- `ARCHITECTURES`. -/
inductive Organisation where
  | singleCycle | multiCycle | pipelined
  deriving DecidableEq, Repr

namespace Organisation

/-- Its name for the assembler. -/
def architecture : Organisation → Architecture
  | singleCycle => .singleCycle
  | multiCycle => .multiCycle
  | pipelined => .pipelined

end Organisation

/-- What is read from a CPU after `run`: the elapsed cycles, `is_halted`, the registers and the
    data memory. -/
structure Outcome where
  cycles : Nat
  halted : Bool
  registers : Register → Word
  memory : Nat → Word

namespace Outcome

/-- `run(max_cycles)` on a single-cycle CPU. -/
def singleCycle (c : SingleCycle.SingleCycleCPU 8 8 (upperHalf 8)) (maxCycles : Nat) : Outcome where
  cycles := elapsed SingleCycle.SingleCycleCPU.step SingleCycle.SingleCycleCPU.halted maxCycles c
  halted := (c.run maxCycles).halted
  registers := (c.run maxCycles).datapath.registerFile.read
  memory := (c.run maxCycles).datapath.dataMem.contents

/-- `run(max_cycles)` on a multi-cycle CPU. -/
def multiCycle (d : MultiCycle.MultiCycleDatapath 8 (upperHalf 8)) (maxCycles : Nat) : Outcome where
  cycles := elapsed MultiCycle.MultiCycleDatapath.stepCycle
    MultiCycle.MultiCycleDatapath.fsmHalted maxCycles d
  halted := (d.run maxCycles).halted
  registers := (d.run maxCycles).registerFile.read
  memory := (d.run maxCycles).memory.contents

/-- `run(max_cycles)` on a pipelined CPU. -/
def pipelined (d : Pipelined.PipelinedCycleDatapath 8 8 (upperHalf 8)) (maxCycles : Nat) :
    Outcome where
  cycles := elapsed Pipelined.PipelinedCycleDatapath.step
    Pipelined.PipelinedCycleDatapath.halted maxCycles d
  halted := (d.run maxCycles).halted
  registers := (d.run maxCycles).registerFile.read
  memory := (d.run maxCycles).dataMem.contents

end Outcome

/-- A constructed single-cycle CPU with a program, registers and a data memory. -/
def constructSingleCycle (words : List Word) (regs : Register → Word) (memory : Nat → Word) :
    SingleCycle.SingleCycleCPU 8 8 (upperHalf 8) :=
  let c := ({} : SingleCycle.SingleCycleCPU 8 8 (upperHalf 8)).loadProgram words
  { c with
    datapath :=
      { c.datapath with
        registerFile := storedRegisters regs
        dataMem := { c.datapath.dataMem with contents := memory } } }

/-- A constructed multi-cycle CPU with a program, registers and a RAM half. -/
def constructMultiCycle (words : List Word) (regs : Register → Word) (memory : Nat → Word) :
    MultiCycle.MultiCycleDatapath 8 (upperHalf 8) :=
  let d := ({} : MultiCycle.MultiCycleDatapath 8 (upperHalf 8)).loadInstructions words
  { d with
    registerFile := storedRegisters regs
    memory :=
      { d.memory with
        contents := fun a => if upperHalf 8 a then memory a else d.memory.contents a } }

/-- A constructed pipelined CPU with a program, registers and a data memory. -/
def constructPipelined (words : List Word) (regs : Register → Word) (memory : Nat → Word) :
    Pipelined.PipelinedCycleDatapath 8 8 (upperHalf 8) :=
  let d : Pipelined.PipelinedCycleDatapath 8 8 (upperHalf 8) := {}
  (d.loadInstructions words).preload regs memory

/-- `run(max_cycles)` on a CPU that was constructed and loaded; nothing resets it. -/
def runOn (o : Organisation) (words : List Word) (regs : Register → Word) (memory : Nat → Word)
    (maxCycles : Nat) : Outcome :=
  match o with
  | .singleCycle => .singleCycle (constructSingleCycle words regs memory) maxCycles
  | .multiCycle => .multiCycle (constructMultiCycle words regs memory) maxCycles
  | .pipelined => .pipelined (constructPipelined words regs memory) maxCycles

/-- The same with a `reset()` behind the construction. -/
def runAfterReset (o : Organisation) (words : List Word) (regs : Register → Word)
    (memory : Nat → Word) (maxCycles : Nat) : Outcome :=
  match o with
  | .singleCycle => .singleCycle (bootSingleCycle words regs memory) maxCycles
  | .multiCycle => .multiCycle (bootMultiCycle words regs memory) maxCycles
  | .pipelined => .pipelined (bootPipelined words regs memory) maxCycles

/-- A reset makes no difference to a constructed CPU: the first LOW evaluation drives every wire
    that the reset has driven. -/
theorem runOn_eq_runAfterReset (o : Organisation) (words : List Word) (regs : Register → Word)
    (memory : Nat → Word) (maxCycles : Nat) :
    runOn o words regs memory maxCycles = runAfterReset o words regs memory maxCycles := by
  cases maxCycles with
  | zero => cases o <;> rfl
  -- both CPUs are running, and behind one step they are the same
  | succ n =>
      cases o with
      | singleCycle =>
          have hstep : (constructSingleCycle words regs memory).step =
              (bootSingleCycle words regs memory).step := rfl
          show Outcome.mk (elapsed _ _ n (constructSingleCycle words regs memory).step + 1)
            _ _ _ = _
          rw [hstep]
          rfl
      | multiCycle =>
          have hstep : (constructMultiCycle words regs memory).stepCycle =
              (bootMultiCycle words regs memory).stepCycle := rfl
          show Outcome.mk (elapsed _ _ n (constructMultiCycle words regs memory).stepCycle + 1)
            _ _ _ = _
          rw [hstep]
          rfl
      | pipelined =>
          have hstep : (constructPipelined words regs memory).step =
              (bootPipelined words regs memory).step := rfl
          show Outcome.mk (elapsed _ _ n (constructPipelined words regs memory).step + 1) _ _ _ = _
          rw [hstep]
          rfl

/-- `ArchResult` without the times and quotients in floating point. -/
structure ArchResult where
  architecture : Organisation
  cycles : Nat
  instructions : Nat
  passed : Bool
  message : String

/-- `Benchmark`: what the runner uses of it. -/
structure Benchmark where
  asm : Assembler.Source
  initMemory : List (Nat × Word) := []
  validate : Option (Outcome → Bool × String) := none

namespace Benchmark

/-- The loop over `init_memory`: `write_memory(addr, val)`. -/
def preload (b : Benchmark) (memory : Nat → Word) : Nat → Word :=
  b.initMemory.foldl (fun m cell => Function.update m cell.1 cell.2) memory

/-- One `ArchResult` of `run_benchmark`. -/
def result (b : Benchmark) (o : Organisation) (instructions : Nat) (out : Outcome) : ArchResult :=
  let (passed, message) :=
    match b.validate with
    | some validate => validate out
    | none => (true, "OK")
  { architecture := o, cycles := out.cycles, instructions := instructions, passed := passed
    message := message }

/-- A CPU of the architecture with the initial memory and the assembled source, run. -/
def runOn (b : Benchmark) (o : Organisation) (regs : Register → Word) (memory : Nat → Word)
    (maxCycles : Nat) : Except String Outcome := do
  let words ← Assembler.assemble b.asm o.architecture
  pure (CpuSim.runOn o words regs (b.preload memory) maxCycles)

/-- `run_benchmark`: the single-cycle CPU first, whose cycles are the instruction count, then
    the others. -/
def runBenchmark (b : Benchmark) (regs : Register → Word) (memory : Nat → Word)
    (maxCycles : Nat) : Except String (List ArchResult) := do
  let single ← b.runOn .singleCycle regs memory maxCycles
  let multi ← b.runOn .multiCycle regs memory maxCycles
  let pipelined ← b.runOn .pipelined regs memory maxCycles
  pure
    [b.result .singleCycle single.cycles single, b.result .multiCycle single.cycles multi,
      b.result .pipelined single.cycles pipelined]

end Benchmark

/-! ## Proofs about programs -/

variable {words : List Word} {n : Nat} {c : Nat × Nat} {P Q : State → Prop} {s : State}
  {regs : Register → Word} {memory : Nat → Word}

/-- The program counter is inside the program, at a `HALT`. -/
structure AtHalt (words : List Word) (s : State) : Prop where
  inside : s.pc.toNat < words.length
  halt : (programFetch words s).opcode = .HALT

/-- The word is no jump and does not write R15; if it is a branch, the word before it branches
    one address less far. -/
def PortableWord (word : Word) : Prop :=
  (decode ⟨word⟩).opcode ≠ .J ∧
    ((SingleCycle.ControlSignals.generate (decode ⟨word⟩)).registerWrite = true →
      (decode ⟨word⟩).rd ≠ 15) ∧
    ((decode ⟨word⟩).opcode = .BEQ ∨ (decode ⟨word⟩).opcode = .BNE →
      decode ⟨word - 1⟩ = { decode ⟨word⟩ with immediate := (decode ⟨word⟩).immediate - 1 })

instance PortableWord.decidable (word : Word) : Decidable (PortableWord word) :=
  inferInstanceAs (Decidable (_ ∧ (_ → _) ∧ (_ → _)))

/-- Every word of the program is portable. -/
def Portable (words : List Word) : Bool := words.all fun word => decide (PortableWord word)

theorem Portable.mem {words : List Word} (h : Portable words = true) {word : Word}
    (hword : word ∈ words) : PortableWord word :=
  of_decide_eq_true (List.all_eq_true.mp h word hword)

/-- A program for all three CPUs, with its `HALT` at address `last`. -/
structure Program (words : List Word) (last : Nat) : Prop where
  length : words.length ≤ 128
  portable : Portable words = true
  halt : CodeAt words last [decode ⟨0x38000000⟩]

theorem Program.atHalt {last : Nat} (h : Program words last) (hpc : s.pc = BitVec.ofNat 32 last) :
    AtHalt words s := by
  obtain ⟨hfetch, hinside⟩ := h.halt.fetch h.length hpc
  refine ⟨hinside, ?_⟩
  rw [hfetch]
  decide

/-- The word an organisation needs for a word of the single-cycle CPU: the other two count
    branches from the next address. -/
def Organisation.word (o : Organisation) (word : Word) : Word :=
  match o with
  | .singleCycle => word
  | .multiCycle | .pipelined =>
      if (decode ⟨word⟩).opcode = .BEQ ∨ (decode ⟨word⟩).opcode = .BNE then word - 1 else word

theorem PortableWord.corresponds {word : Word} (h : PortableWord word) (o : Organisation)
    (ho : o ≠ .singleCycle) : WordsCorrespond word (o.word word) := by
  obtain ⟨-, -, hshift⟩ := h
  have hword : o.word word = if (decode ⟨word⟩).opcode = .BEQ ∨ (decode ⟨word⟩).opcode = .BNE
      then word - 1 else word := by
    cases o with
    | singleCycle => exact absurd rfl ho
    | multiCycle | pipelined => rfl
  rw [hword, WordsCorrespond]
  by_cases hbranch : (decode ⟨word⟩).opcode = .BEQ ∨ (decode ⟨word⟩).opcode = .BNE
  · rw [if_pos hbranch, hshift hbranch]
    exact Assembler.Corresponds.branch hbranch
  · rw [if_neg hbranch]
    exact Assembler.Corresponds.same hbranch

theorem sequential_eq_iterate (words : List Word) (s : State) (k : Nat) :
    sequential words s k = (State.step baseMachine (programFetch words))^[k] s := by
  induction k with
  | zero => rfl
  | succ k ih => rw [sequential_succ, ih, Function.iterate_succ_apply']

section Finished

variable (h : ProgramTriple words n c P Q) (hend : ∀ s, Q s → AtHalt words s) (hs : P s)

include h hend hs

/-- A finished program proof is about a well-behaved execution. -/
theorem wellBehaved_of_triple (hportable : Portable words = true) : WellBehaved words s := by
  have hstate : ∀ k, Going words (sequential words s k) ∨ Q (sequential words s k) := by
    intro k
    rw [sequential_eq_iterate]
    exact h.run (fun s' hq => State.step_of_halt (hend s' hq).halt) hs k
  refine ⟨fun word hword => (Portable.mem hportable hword).1,
    fun word hword => (Portable.mem hportable hword).2.1,
    ?_, ?_⟩
  · intro k
    rcases hstate k with hgoing | hq
    · exact hgoing.inside
    · exact (hend _ hq).inside
  · intro k
    rcases hstate k with hgoing | hq
    · exact hgoing.ram
    · -- a `HALT` accesses no memory
      intro haccess
      rw [(hend _ hq).halt] at haccess
      rcases haccess with h | h <;> cases h

/-- It ends at the first `HALT`. -/
theorem haltsAt_of_triple : HaltsAt words s n := by
  obtain ⟨hgoing, -, hq⟩ := h s hs
  constructor
  · rw [instructionOf, sequential_eq_iterate]
    exact (hend _ hq).halt
  · intro j hj
    rw [instructionOf, sequential_eq_iterate]
    exact (hgoing j hj).notHalt

/-- Its charge is that of the instructions in front of the `HALT`. -/
theorem charge_of_triple :
    ∑ j ∈ Finset.range (n + 1), stateCycles words s j = c.1 + 2 ∧
      ∑ j ∈ Finset.range n, lostCycles words s j = c.2 := by
  obtain ⟨-, hcharge, -⟩ := h s hs
  have hstates : ∀ j, charge words ((State.step baseMachine (programFetch words))^[j] s) =
      (stateCycles words s j, lostCycles words s j) := by
    intro j
    rw [← sequential_eq_iterate]
    rfl
  simp only [hstates] at hcharge
  have hfirst := congrArg Prod.fst hcharge
  have hsecond := congrArg Prod.snd hcharge
  rw [Prod.fst_sum] at hfirst
  rw [Prod.snd_sum] at hsecond
  refine ⟨?_, hsecond⟩
  rw [Finset.sum_range_succ, hfirst, stateCycles, (haltsAt_of_triple h hend hs).1]
  rfl

end Finished

/-- The cycles of `n` instructions with a charge, and the `HALT` behind them. -/
def Organisation.cycles (n : Nat) (c : Nat × Nat) : Organisation → Nat
  | .singleCycle => max n 1
  | .multiCycle => c.1 + 2
  | .pipelined => n + 4 + c.2

/-- What was read shows a state in which a condition holds. -/
def Outcome.Shows (out : Outcome) (Q : State → Prop) : Prop :=
  ∃ s, Q s ∧ out.registers = s.regs ∧ SameRam s.memory out.memory

/-- A program proof holds on each of the three CPUs after a reset, and counts its cycles. -/
theorem runAfterReset_of_triple {last : Nat} (hprogram : Program words last)
    (h : ProgramTriple words n c P Q) (hlast : ∀ s, Q s → s.pc = BitVec.ofNat 32 last)
    (hs : P (startState regs memory)) (o : Organisation) (maxCycles : Nat) :
    let out := runAfterReset o (words.map o.word) regs memory maxCycles
    out.cycles = min maxCycles (o.cycles n c) ∧
      (out.halted = true ↔ o.cycles n c ≤ maxCycles) ∧
      (o.cycles n c ≤ maxCycles → out.Shows Q) := by
  have hlen := hprogram.length
  have hend : ∀ s, Q s → AtHalt words s := fun s hq => hprogram.atHalt (hlast s hq)
  have hgood := wellBehaved_of_triple h hend hs hprogram.portable
  have hwords : o ≠ .singleCycle → List.Forall₂ WordsCorrespond words (words.map o.word) := by
    intro ho
    rw [List.forall₂_map_right_iff, List.forall₂_same]
    exact fun word hword => (Portable.mem hprogram.portable hword).corresponds o ho
  have hk := haltsAt_of_triple h hend hs
  obtain ⟨hmulti, hlost⟩ := charge_of_triple h hend hs
  obtain ⟨-, -, hq⟩ := h _ hs
  rw [← sequential_eq_iterate] at hq
  intro out
  -- the state a CPU halts in is the one behind the `n` instructions
  have hshows : ∀ k, (programFetch words (sequential words (startState regs memory) k)).opcode =
      .HALT → out.registers = (sequential words (startState regs memory) k).regs →
      SameRam (sequential words (startState regs memory) k).memory out.memory →
        out.Shows Q := by
    intro k hhalt hregs hmemory
    rw [sequential_halt_unique hhalt hk.1] at hregs hmemory
    exact ⟨_, hq, hregs, hmemory⟩
  cases o with
  | singleCycle =>
      have hsame : words.map Organisation.singleCycle.word = words := List.map_id words
      obtain ⟨hcycles, hhalted⟩ := bootSingleCycle_cycles hk maxCycles
      simp only [out, hsame] at *
      refine ⟨hcycles, hhalted, fun hle => ?_⟩
      obtain ⟨k, hhalt, hregs, hmemory⟩ := bootSingleCycle_run (hhalted.mpr hle)
      exact hshows k hhalt hregs fun a _ _ => congrFun hmemory.symm a
  | multiCycle =>
      obtain ⟨hcycles, hhalted⟩ :=
        bootMultiCycle_cycles (hwords nofun) hlen hgood (fun _ _ _ => rfl) hk maxCycles
      rw [hmulti] at hcycles hhalted
      have hidle : MultiCycle.MultiCycleCPU.Idle
          (bootMultiCycle (words.map Organisation.multiCycle.word) regs memory) :=
        ⟨⟨rfl, rfl⟩, rfl⟩
      rw [← (hidle.run maxCycles).halted_eq] at hhalted
      refine ⟨hcycles, hhalted, fun hle => ?_⟩
      obtain ⟨k, hhalt, hregs, hmemory⟩ :=
        bootMultiCycle_run (hwords nofun) hlen hgood (fun _ _ _ => rfl) (hhalted.mpr hle)
      exact hshows k hhalt hregs hmemory
  | pipelined =>
      obtain ⟨hcycles, hhalted⟩ :=
        bootPipelined_cycles (hwords nofun) hlen hgood (fun _ _ _ => rfl) hk maxCycles
      rw [hlost] at hcycles hhalted
      refine ⟨hcycles, hhalted, fun hle => ?_⟩
      obtain ⟨k, hhalt, hregs, hmemory⟩ :=
        bootPipelined_run (hwords nofun) hlen hgood (fun _ _ _ => rfl) (hhalted.mpr hle)
      exact hshows k hhalt hregs hmemory

/-- And so it does without one. -/
theorem runOn_of_triple {last : Nat} (hprogram : Program words last)
    (h : ProgramTriple words n c P Q) (hlast : ∀ s, Q s → s.pc = BitVec.ofNat 32 last)
    (hs : P (startState regs memory)) (o : Organisation) (maxCycles : Nat) :
    let out := runOn o (words.map o.word) regs memory maxCycles
    out.cycles = min maxCycles (o.cycles n c) ∧
      (out.halted = true ↔ o.cycles n c ≤ maxCycles) ∧
      (o.cycles n c ≤ maxCycles → out.Shows Q) := by
  rw [runOn_eq_runAfterReset]
  exact runAfterReset_of_triple hprogram h hlast hs o maxCycles

/-! ## Reports -/

/-- A report in which every organisation passes. -/
def passed (cycles : Organisation → Nat) (message : String) : List ArchResult :=
  [Organisation.singleCycle, .multiCycle, .pipelined].map fun o =>
    { architecture := o, cycles := cycles o, instructions := cycles .singleCycle, passed := true
      message := message }

/-- What `run_benchmark` reports of a program whose proof implies the check. -/
theorem runBenchmark_of_triple {last : Nat} {b : Benchmark} {validate : Outcome → Bool × String}
    {cycles : Organisation → Nat} {message : String} {maxCycles : Nat}
    (hprogram : Program words last) (h : ProgramTriple words n c P Q)
    (hlast : ∀ s, Q s → s.pc = BitVec.ofNat 32 last)
    (hasm : ∀ o : Organisation,
      Assembler.assemble b.asm o.architecture = .ok (words.map o.word))
    (hvalidate : b.validate = some validate)
    (hcheck : ∀ out : Outcome, out.Shows Q → validate out = (true, message))
    (hs : P (startState regs (b.preload memory)))
    (hcycles : ∀ o : Organisation, o.cycles n c = cycles o) (hmax : ∀ o, cycles o ≤ maxCycles) :
    b.runBenchmark regs memory maxCycles = .ok (passed cycles message) := by
  have hrun := fun o => runOn_of_triple hprogram h hlast hs o maxCycles
  simp only [hcycles] at hrun
  have hcount : ∀ o, (runOn o (words.map o.word) regs (b.preload memory) maxCycles).cycles =
      cycles o := by
    intro o
    rw [(hrun o).1, Nat.min_eq_right (hmax o)]
  have hresult : ∀ o instructions, b.result o instructions
      (runOn o (words.map o.word) regs (b.preload memory) maxCycles) =
        ⟨o, cycles o, instructions, true, message⟩ := by
    intro o instructions
    have hpass := hcheck _ ((hrun o).2.2 (hmax o))
    rw [Benchmark.result, hvalidate, hcount]
    dsimp only
    rw [hpass]
  have hone : ∀ o, b.runOn o regs memory maxCycles =
      .ok (runOn o (words.map o.word) regs (b.preload memory) maxCycles) := by
    intro o
    rw [Benchmark.runOn, hasm]
    rfl
  rw [Benchmark.runBenchmark, hone, hone, hone]
  show Except.ok [_, _, _] = _
  rw [hresult, hresult, hresult, hcount]
  rfl

end CpuSim
