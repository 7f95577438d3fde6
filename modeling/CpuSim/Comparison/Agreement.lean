/-
  CpuSim.Comparison.Agreement

  One source on the single-cycle, the multi-cycle and the pipelined CPU.  Each runs its own
  words as a sequential machine; the three machines go through states with the same program
  counter, registers and RAM half.
-/

import CpuSim.Assembler.Correspondence
import CpuSim.Comparison.Reset
import Mathlib.Data.List.GetD

namespace CpuSim

open Isa (State Machine)
open Logic.Memory (upperHalf wordOf)
open Assembler (Corresponds IsBranch WordsCorrespond)
open InstructionDecoder (decode)

/-! ## States that agree -/

/-- Two memories with the same RAM half. -/
def SameRam (memory memory' : Nat → Word) : Prop :=
  ∀ a < 2 ^ 8, upperHalf 8 a = true → memory a = memory' a

/-- Two states with the same program counter, registers and RAM half. -/
structure Agree (s t : State) : Prop where
  pc : s.pc = t.pc
  regs : s.regs = t.regs
  ram : SameRam s.memory t.memory

/-- A load or store goes to the RAM half. -/
def AccessesRam (s : State) (i : DecodedInstruction) : Prop :=
  i.opcode = .LW ∨ i.opcode = .SW → upperHalf 8 (wordOf 8 (s.address i)) = true

/-- A machine that counts branches from the next address. -/
structure FromNext (M : Machine) : Prop where
  addressWidth : M.addressWidth = 8
  writable : M.writable = upperHalf 8
  branchTarget : ∀ pc immediate, M.branchTarget pc immediate = pc + 1 + immediate

/-- The machine that counts them from the branch. -/
abbrev baseMachine : Machine := SingleCycle.machine 8 (upperHalf 8)

section Exec

variable {s t : State} {i j : DecodedInstruction} {M : Machine}

theorem Agree.result (h : Agree s t) (hM : FromNext M) (hij : Corresponds i j)
    (hram : AccessesRam s i) : s.result baseMachine i = t.result M j := by
  cases hij with
  | same hbranch =>
      unfold State.result
      cases hop : i.opcode with
      | LW =>
          have haddress : t.address i = s.address i := by
            rw [State.address, State.address, h.regs]
          show some (s.memory (wordOf 8 (s.address i))) =
            some (t.memory (wordOf M.addressWidth (t.address i)))
          rw [hM.addressWidth, haddress, h.ram _ (Logic.Memory.wordOf_lt 8 _) (hram (Or.inl hop))]
      | _ => simp only [h.regs]
  | branch hbranch =>
      unfold State.result
      rcases hbranch with hop | hop <;> simp only [hop]

theorem Agree.nextPc (h : Agree s t) (hM : FromNext M) (hij : Corresponds i j)
    (hjump : i.opcode ≠ .J) : s.nextPc baseMachine i = t.nextPc M j := by
  cases hij with
  | same hbranch =>
      unfold State.nextPc
      cases hop : i.opcode with
      | BEQ => exact absurd (Or.inl hop) hbranch
      | BNE => exact absurd (Or.inr hop) hbranch
      | J => exact absurd hop hjump
      | _ => exact congrArg (· + 1) h.pc
  | branch hbranch =>
      have htarget : baseMachine.branchTarget t.pc i.immediate =
          M.branchTarget t.pc (i.immediate - 1) := by
        rw [hM.branchTarget]
        show t.pc + i.immediate = t.pc + 1 + (i.immediate - 1)
        rw [BitVec.add_assoc, BitVec.add_comm 1, BitVec.sub_add_cancel]
      unfold State.nextPc
      rcases hbranch with hop | hop <;> simp only [hop, h.pc, h.regs, htarget]

theorem Agree.memory (h : Agree s t) (hM : FromNext M) (hij : Corresponds i j) :
    SameRam (s.exec baseMachine i).memory (t.exec M j).memory := by
  intro a hlt ha
  by_cases hstore : i.opcode = .SW
  · cases hij with
    | same hbranch =>
        have haddress : t.address i = s.address i := by
          rw [State.address, State.address, h.regs]
        rw [State.exec_memory_of_store hstore, State.exec_memory_of_store hstore, hM.addressWidth,
          hM.writable, haddress, ← h.regs]
        exact Logic.Memory.write_congr (h.ram a hlt ha) _ _
    | branch hbranch =>
        rw [IsBranch, hstore] at hbranch
        rcases hbranch with hop | hop <;> cases hop
  · have hstore' : j.opcode ≠ .SW := by
      rw [hij.opcode]
      exact hstore
    rw [State.exec_memory_of_ne hstore, State.exec_memory_of_ne hstore']
    exact h.ram a hlt ha

/-- Corresponding instructions keep the states together. -/
theorem Agree.exec (h : Agree s t) (hM : FromNext M) (hij : Corresponds i j)
    (hjump : i.opcode ≠ .J) (hram : AccessesRam s i) :
    Agree (s.exec baseMachine i) (t.exec M j) := by
  refine ⟨h.nextPc hM hij hjump, ?_, h.memory hM hij⟩
  have hresult := h.result hM hij hram
  rw [State.exec, State.exec]
  dsimp only
  rw [hresult, hij.rd, h.regs]

end Exec

/-! ## Runs -/

/-- Two machines in lockstep, by induction on the number of instructions; `Inv` is what the
    second one keeps, the program in its ROM. -/
theorem agree_steps {fetchS fetchM : State → DecodedInstruction} {M : Machine} (hM : FromNext M)
    (Inv : State → Prop) (hinv : ∀ t i, Inv t → Inv (t.exec M i)) {s t : State} (h : Agree s t)
    (ht : Inv t)
    (hfetch : ∀ k t', Agree (s.steps baseMachine fetchS k) t' → Inv t' →
      Corresponds (fetchS (s.steps baseMachine fetchS k)) (fetchM t'))
    (hjump : ∀ k, (fetchS (s.steps baseMachine fetchS k)).opcode ≠ .J)
    (hram : ∀ k, AccessesRam (s.steps baseMachine fetchS k)
      (fetchS (s.steps baseMachine fetchS k))) (k : Nat) :
    Agree (s.steps baseMachine fetchS k) (t.steps M fetchM k) ∧ Inv (t.steps M fetchM k) := by
  induction k with
  | zero => exact ⟨h, ht⟩
  | succ k ih =>
      obtain ⟨hagree, hkeep⟩ := ih
      have hij := hfetch k _ hagree hkeep
      rw [State.steps, State.steps]
      by_cases hhalt : (fetchS (s.steps baseMachine fetchS k)).opcode = .HALT
      · rw [State.step_of_halt hhalt, State.step_of_halt (hij.opcode.trans hhalt)]
        exact ⟨hagree, hkeep⟩
      · have hhalt' : (fetchM (t.steps M fetchM k)).opcode ≠ .HALT := by
          rw [hij.opcode]
          exact hhalt
        rw [State.step_of_ne hhalt, State.step_of_ne hhalt']
        exact ⟨hagree.exec hM hij (hjump k) (hram k), hinv _ _ hkeep⟩

/-! ## Programs -/

/-- The instruction of a program at the program counter. -/
def programFetch (words : List Word) (s : State) : DecodedInstruction :=
  decode ⟨words.getD (wordOf 8 s.pc) 0⟩

/-- The sequential execution of a program, after `k` instructions. -/
def sequential (words : List Word) (s : State) (k : Nat) : State :=
  s.steps baseMachine (programFetch words) k

theorem sequential_succ (words : List Word) (s : State) (k : Nat) :
    sequential words s (k + 1) =
      (sequential words s k).step baseMachine (programFetch words) := rfl

/-- An instruction that writes a register. -/
def Writes (i : DecodedInstruction) : Prop :=
  (SingleCycle.ControlSignals.generate i).registerWrite = true

/-- What is asked of a program and of its execution from a state. -/
structure WellBehaved (words : List Word) (s : State) : Prop where
  noJump : ∀ word ∈ words, (decode ⟨word⟩).opcode ≠ .J
  sparesR15 : ∀ word ∈ words, Writes (decode ⟨word⟩) → (decode ⟨word⟩).rd ≠ 15
  inside : ∀ k, (sequential words s k).pc.toNat < words.length
  ram : ∀ k, AccessesRam (sequential words s k) (programFetch words (sequential words s k))

section Programs

variable {words words' : List Word} {s t : State}

/-- The word at a program counter inside the program. -/
theorem getD_of_inside (hlen : words.length ≤ 128) (h : s.pc.toNat < words.length) :
    wordOf 8 s.pc = s.pc.toNat ∧ words.getD (wordOf 8 s.pc) 0 = words[s.pc.toNat] := by
  have hword : wordOf 8 s.pc = s.pc.toNat := Nat.mod_eq_of_lt (by omega)
  refine ⟨hword, ?_⟩
  rw [hword, List.getD_eq_getElem _ _ h]

theorem WellBehaved.mem (h : WellBehaved words s) (hlen : words.length ≤ 128) (k : Nat) :
    ∃ word ∈ words, programFetch words (sequential words s k) = decode ⟨word⟩ := by
  obtain ⟨-, hword⟩ := getD_of_inside hlen (h.inside k)
  refine ⟨_, List.getElem_mem (h.inside k), ?_⟩
  rw [programFetch, hword]

theorem WellBehaved.noJump_at (h : WellBehaved words s) (hlen : words.length ≤ 128) (k : Nat) :
    (programFetch words (sequential words s k)).opcode ≠ .J := by
  obtain ⟨word, hmem, hword⟩ := h.mem hlen k
  rw [hword]
  exact h.noJump word hmem

/-- Corresponding programs at the same program counter. -/
theorem fetch_corresponds (hwords : List.Forall₂ WordsCorrespond words words')
    (hlen : words.length ≤ 128) (hinside : s.pc.toNat < words.length) (hpc : s.pc = t.pc) :
    Corresponds (programFetch words s) (programFetch words' t) := by
  have hinside' : t.pc.toNat < words'.length := by
    rw [← hpc, ← hwords.length_eq]
    exact hinside
  obtain ⟨-, hword⟩ := getD_of_inside hlen hinside
  obtain ⟨-, hword'⟩ := getD_of_inside (hwords.length_eq ▸ hlen) hinside'
  rw [programFetch, programFetch, hword, hword']
  have hget := hwords.get hinside (by rw [← hwords.length_eq]; exact hinside)
  have hsame : words'[t.pc.toNat] = words'.get ⟨s.pc.toNat, by rw [hpc]; exact hinside'⟩ := by
    simp only [hpc, List.get_eq_getElem]
  rw [hsame]
  exact hget

end Programs

/-! ## The three CPUs -/

/-- Registers and memory written from outside. -/
def storedRegisters (regs : Register → Word) : Logic.RegisterFile where
  registers i := ⟨regs i, regs i, false⟩

/-- A constructed and reset single-cycle CPU with a program, registers and a data memory. -/
def bootSingleCycle (words : List Word) (regs : Register → Word) (memory : Nat → Word) :
    SingleCycle.SingleCycleCPU 8 8 (upperHalf 8) :=
  let c := (({} : SingleCycle.SingleCycleCPU 8 8 (upperHalf 8)).reset).loadProgram words
  { c with
    datapath :=
      { c.datapath with
        registerFile := storedRegisters regs
        dataMem := { c.datapath.dataMem with contents := memory } } }

/-- A constructed and reset multi-cycle CPU with a program, registers and a RAM half. -/
def bootMultiCycle (words : List Word) (regs : Register → Word) (memory : Nat → Word) :
    MultiCycle.MultiCycleDatapath 8 (upperHalf 8) :=
  let d := (({} : MultiCycle.MultiCycleDatapath 8 (upperHalf 8)).resetDatapath).loadInstructions
    words
  { d with
    registerFile := storedRegisters regs
    memory :=
      { d.memory with
        contents := fun a => if upperHalf 8 a then memory a else d.memory.contents a } }

/-- A constructed and reset pipelined CPU with a program, registers and a data memory. -/
def bootPipelined (words : List Word) (regs : Register → Word) (memory : Nat → Word) :
    Pipelined.PipelinedCycleDatapath 8 8 (upperHalf 8) :=
  let d := (({} : Pipelined.PipelinedCycleDatapath 8 8 (upperHalf 8)).resetDatapath)
  (d.loadInstructions words).preload regs memory

/-- Where all three start. -/
def startState (regs : Register → Word) (memory : Nat → Word) : State where
  pc := 0
  regs := regs
  memory := memory

section Organisations

variable {words words' : List Word} {regs : Register → Word} {memory memory' : Nat → Word} {n : Nat}

/-- The single-cycle CPU ends at a `HALT` of the sequential execution. -/
theorem bootSingleCycle_run (h : ((bootSingleCycle words regs memory).run n).halted = true) :
    ∃ k, (programFetch words (sequential words (startState regs memory) k)).opcode = .HALT ∧
      ((bootSingleCycle words regs memory).run n).datapath.registerFile.read =
        (sequential words (startState regs memory) k).regs ∧
      ((bootSingleCycle words regs memory).run n).datapath.dataMem.contents =
        (sequential words (startState regs memory) k).memory := by
  rw [SingleCycle.SingleCycleCPU.run_eq_steps] at h ⊢
  have hrun := SingleCycle.SingleCycleCPU.steps_runningAt
    (show (bootSingleCycle words regs memory).datapath.AtRest from ⟨rfl, rfl⟩) rfl n
  have harch : ((bootSingleCycle words regs memory).steps n).datapath.architecture =
      sequential words (startState regs memory) n := hrun.architecture
  refine ⟨n, ?_, congrArg State.regs harch, congrArg State.memory harch⟩
  have hhalt := hrun.halted h
  rw [harch] at hhalt
  exact hhalt

/-- What the ROM half of the multi-cycle CPU holds. -/
def HoldsProgram (words : List Word) (s : State) : Prop :=
  ∀ a, upperHalf 8 a = false → s.memory a = words.getD a 0

/-- No instruction writes the ROM half. -/
theorem HoldsProgram.exec {s : State} (h : HoldsProgram words s) (i : DecodedInstruction) :
    HoldsProgram words
      (s.exec (MultiCycle.MultiCycleDatapath.machine 8 (upperHalf 8)) i) := by
  intro a ha
  rw [← h a ha]
  by_cases hstore : i.opcode = .SW
  · rw [State.exec_memory_of_store hstore]
    exact Logic.Memory.write_of_not_writable ha _ _
  · rw [State.exec_memory_of_ne hstore]

/-- The multi-cycle CPU keeps up with the sequential execution. -/
theorem bootMultiCycle_agree (hwords : List.Forall₂ WordsCorrespond words words')
    (hlen : words.length ≤ 128) (hgood : WellBehaved words (startState regs memory))
    (hram : SameRam memory memory') (k : Nat) :
    Agree (sequential words (startState regs memory) k)
        ((bootMultiCycle words' regs memory').sequential k) ∧
      Corresponds (programFetch words (sequential words (startState regs memory) k))
        (MultiCycle.MultiCycleDatapath.fetch 8
          ((bootMultiCycle words' regs memory').sequential k)) := by
  have hstart : Agree (startState regs memory)
      (bootMultiCycle words' regs memory').architecture := by
    refine ⟨rfl, rfl, ?_⟩
    intro a hlt ha
    show memory a = if upperHalf 8 a = true then memory' a else _
    rw [if_pos ha, hram a hlt ha]
  have hholds : HoldsProgram words' (bootMultiCycle words' regs memory').architecture := by
    intro a ha
    show (if upperHalf 8 a = true then memory' a else if upperHalf 8 a = true then _ else
      words'.getD a 0) = _
    rw [ha]
    rfl
  -- the program counter is in the ROM half
  have hfetch : ∀ k t', Agree (sequential words (startState regs memory) k) t' →
      HoldsProgram words' t' →
        Corresponds (programFetch words (sequential words (startState regs memory) k))
          (MultiCycle.MultiCycleDatapath.fetch 8 t') := by
    intro k t' hagree hkeep
    have hinside := hgood.inside k
    have hcorr := fetch_corresponds hwords hlen hinside hagree.pc
    have hrom : upperHalf 8 (wordOf 8 t'.pc) = false := by
      rw [← hagree.pc, (getD_of_inside hlen hinside).1, upperHalf, decide_eq_false_iff_not]
      omega
    rw [MultiCycle.MultiCycleDatapath.fetch, hkeep _ hrom]
    exact hcorr
  have hM : FromNext (MultiCycle.MultiCycleDatapath.machine 8 (upperHalf 8)) :=
    ⟨rfl, rfl, fun _ _ => rfl⟩
  have hboth := agree_steps hM (HoldsProgram words') (fun _ i ht => ht.exec i) hstart hholds hfetch
    (hgood.noJump_at hlen) hgood.ram k
  exact ⟨hboth.1, hfetch k _ hboth.1 hboth.2⟩

/-- The multi-cycle CPU ends at a `HALT` of the sequential execution. -/
theorem bootMultiCycle_run (hwords : List.Forall₂ WordsCorrespond words words')
    (hlen : words.length ≤ 128) (hgood : WellBehaved words (startState regs memory))
    (hram : SameRam memory memory')
    (h : ((bootMultiCycle words' regs memory').run n).halted = true) :
    ∃ k, (programFetch words (sequential words (startState regs memory) k)).opcode = .HALT ∧
      ((bootMultiCycle words' regs memory').run n).registerFile.read =
        (sequential words (startState regs memory) k).regs ∧
      SameRam (sequential words (startState regs memory) k).memory
        ((bootMultiCycle words' regs memory').run n).memory.contents := by
  have hidle : MultiCycle.MultiCycleCPU.Idle (bootMultiCycle words' regs memory') :=
    ⟨⟨rfl, rfl⟩, rfl⟩
  rw [(hidle.run n).halted_eq] at h
  obtain ⟨k, hhalt, hregs, hmemory⟩ :=
    MultiCycle.MultiCycleDatapath.run_halted hidle.rest rfl h
  obtain ⟨hagree, hcorr⟩ := bootMultiCycle_agree hwords hlen hgood hram k
  refine ⟨k, ?_, ?_, ?_⟩
  · rw [← hcorr.opcode]
    exact hhalt
  · rw [hregs, hagree.regs]
  · rw [hmemory]
    exact hagree.ram

theorem bootPipelined_fresh (words : List Word) (regs : Register → Word) (memory : Nat → Word) :
    (bootPipelined words regs memory).Fresh :=
  ((Pipelined.PipelinedCycleDatapath.resetDatapath_fresh ⟨rfl, rfl⟩).loadInstructions
    words).preload regs memory

/-- The pipelined CPU keeps up with the sequential execution. -/
theorem bootPipelined_agree (hwords : List.Forall₂ WordsCorrespond words words')
    (hlen : words.length ≤ 128) (hgood : WellBehaved words (startState regs memory))
    (hram : SameRam memory memory') (k : Nat) :
    Agree (sequential words (startState regs memory) k)
        ((bootPipelined words' regs memory').sequential k) ∧
      Corresponds (programFetch words (sequential words (startState regs memory) k))
        (Pipelined.fetch (bootPipelined words' regs memory').fetched
          ((bootPipelined words' regs memory').sequential k)) := by
  have hM : FromNext (Pipelined.machine 8 (upperHalf 8)) := ⟨rfl, rfl, fun _ _ => rfl⟩
  have hstart : Agree (startState regs memory)
      (bootPipelined words' regs memory').sequentialStart := ⟨rfl, rfl, hram⟩
  have hfetch : ∀ k t', Agree (sequential words (startState regs memory) k) t' → True →
      Corresponds (programFetch words (sequential words (startState regs memory) k))
        (Pipelined.fetch (bootPipelined words' regs memory').fetched t') := by
    intro k t' hagree _
    exact fetch_corresponds hwords hlen (hgood.inside k) hagree.pc
  have hboth := agree_steps hM (fun _ => True) (fun _ _ ht => ht) hstart trivial hfetch
    (hgood.noJump_at hlen) hgood.ram k
  exact ⟨hboth.1, hfetch k _ hboth.1 hboth.2⟩

/-- Only instructions that write a register have a result. -/
theorem writes_of_result {M : Machine} {s : State} {i : DecodedInstruction}
    (h : (s.result M i).isSome = true) : Writes i := by
  unfold State.result at h
  unfold Writes SingleCycle.ControlSignals.generate
  revert h
  cases i.opcode <;> first | exact fun _ => rfl | exact nofun

/-- The pipelined program spares R15. -/
theorem bootPipelined_sparesR15 (hwords : List.Forall₂ WordsCorrespond words words')
    (hlen : words.length ≤ 128) (hgood : WellBehaved words (startState regs memory))
    (hram : SameRam memory memory') (k : Nat) :
    Pipelined.SparesR15 (bootPipelined words' regs memory').fetched 8 (upperHalf 8)
      ((bootPipelined words' regs memory').sequential k) := by
  obtain ⟨-, hcorr⟩ := bootPipelined_agree hwords hlen hgood hram k
  obtain ⟨word, hmem, hword⟩ := hgood.mem hlen k
  intro hresult
  have hwrites := writes_of_result hresult
  rw [hcorr.rd, hword]
  apply hgood.sparesR15 word hmem
  rw [← hword]
  generalize programFetch words (sequential words (startState regs memory) k) = i at hcorr
  revert hcorr hwrites
  generalize Pipelined.fetch (bootPipelined words' regs memory').fetched
    ((bootPipelined words' regs memory').sequential k) = j
  intro hwrites hcorr
  cases hcorr with
  | same => exact hwrites
  | branch => exact hwrites

/-- The pipelined CPU ends at a `HALT` of the sequential execution. -/
theorem bootPipelined_run (hwords : List.Forall₂ WordsCorrespond words words')
    (hlen : words.length ≤ 128) (hgood : WellBehaved words (startState regs memory))
    (hram : SameRam memory memory')
    (h : ((bootPipelined words' regs memory').run n).halted = true) :
    ∃ k, (programFetch words (sequential words (startState regs memory) k)).opcode = .HALT ∧
      ((bootPipelined words' regs memory').run n).registerFile.read =
        (sequential words (startState regs memory) k).regs ∧
      SameRam (sequential words (startState regs memory) k).memory
        ((bootPipelined words' regs memory').run n).dataMem.contents := by
  have hfresh := bootPipelined_fresh words' regs memory'
  obtain ⟨k, hhalt, hregs, hmemory⟩ :=
    hfresh.run_halted (bootPipelined_sparesR15 hwords hlen hgood hram) h
  obtain ⟨hagree, hcorr⟩ := bootPipelined_agree hwords hlen hgood hram k
  refine ⟨k, ?_, ?_, ?_⟩
  · rw [← hcorr.opcode]
    exact hhalt
  · rw [hregs, hagree.regs]
  · rw [hmemory]
    exact hagree.ram

/-- A sequential execution has one end. -/
theorem sequential_halt_unique {s : State} {k k' : Nat}
    (h : (programFetch words (sequential words s k)).opcode = .HALT)
    (h' : (programFetch words (sequential words s k')).opcode = .HALT) :
    sequential words s k = sequential words s k' := by
  rcases Nat.le_total k k' with hle | hle
  · exact (State.steps_of_halt h hle).symm
  · exact State.steps_of_halt h' hle

/-- If the sequential execution comes to a `HALT`, each of the three CPUs halts. -/
theorem organisations_halt {words'' : List Word} {memory'' : Nat → Word}
    (hwords : List.Forall₂ WordsCorrespond words words')
    (hwords' : List.Forall₂ WordsCorrespond words words'') (hlen : words.length ≤ 128)
    (hgood : WellBehaved words (startState regs memory)) (hram : SameRam memory memory')
    (hram' : SameRam memory memory'') {k : Nat}
    (hk : (programFetch words (sequential words (startState regs memory) k)).opcode = .HALT) :
    (∃ n, ((bootSingleCycle words regs memory).run n).halted = true) ∧
      (∃ n, ((bootMultiCycle words' regs memory').run n).halted = true) ∧
      ∃ n, ((bootPipelined words'' regs memory'').run n).halted = true := by
  refine ⟨⟨k + 1, ?_⟩, ?_, ?_⟩
  · rw [SingleCycle.SingleCycleCPU.run_eq_steps]
    exact SingleCycle.SingleCycleCPU.steps_halted
      (show (bootSingleCycle words regs memory).datapath.AtRest from ⟨rfl, rfl⟩) rfl hk
  · have hidle : MultiCycle.MultiCycleCPU.Idle (bootMultiCycle words' regs memory') :=
      ⟨⟨rfl, rfl⟩, rfl⟩
    obtain ⟨-, hcorr⟩ := bootMultiCycle_agree hwords hlen hgood hram k
    obtain ⟨n, hn⟩ := MultiCycle.MultiCycleDatapath.run_halts hidle.rest rfl
      (hcorr.opcode.trans hk)
    exact ⟨n, by rw [(hidle.run n).halted_eq, hn]⟩
  · have hfresh := bootPipelined_fresh words'' regs memory''
    obtain ⟨-, hcorr⟩ := bootPipelined_agree hwords' hlen hgood hram' k
    obtain ⟨n, hn⟩ := hfresh.halts (bootPipelined_sparesR15 hwords' hlen hgood hram')
      (hcorr.opcode.trans hk)
    exact ⟨n, by rw [Pipelined.PipelinedCycleDatapath.run_eq_steps, hn]⟩

end Organisations

/-- Run until they halt, the three scalar CPUs end with the same registers and the same RAM. -/
theorem scalar_organisations_agree {source : Assembler.Source} {wordsS wordsM wordsP : List Word}
    (hS : Assembler.assemble source .singleCycle = .ok wordsS)
    (hM : Assembler.assemble source .multiCycle = .ok wordsM)
    (hP : Assembler.assemble source .pipelined = .ok wordsP)
    (hshort : Assembler.statementCount (Assembler.items source.rawLines) ≤ 128)
    (hlabels : Assembler.BranchesToLabels (Assembler.items source.rawLines))
    {regs : Register → Word} {memoryS memoryM memoryP : Nat → Word}
    (hramM : SameRam memoryS memoryM) (hramP : SameRam memoryS memoryP)
    (hgood : WellBehaved wordsS (startState regs memoryS)) {nS nM nP : Nat}
    (haltS : ((bootSingleCycle wordsS regs memoryS).run nS).halted = true)
    (haltM : ((bootMultiCycle wordsM regs memoryM).run nM).halted = true)
    (haltP : ((bootPipelined wordsP regs memoryP).run nP).halted = true) :
    let s := ((bootSingleCycle wordsS regs memoryS).run nS).datapath
    let m := (bootMultiCycle wordsM regs memoryM).run nM
    let p := (bootPipelined wordsP regs memoryP).run nP
    (s.registerFile.read = m.registerFile.read ∧ s.registerFile.read = p.registerFile.read) ∧
      SameRam s.dataMem.contents m.memory.contents ∧
      SameRam s.dataMem.contents p.dataMem.contents := by
  have hlen : wordsS.length ≤ 128 := Nat.le_trans (Assembler.length_le_statementCount hS) hshort
  have hwordsM := Assembler.assemble_correspond (Or.inl rfl) hS hM hshort hlabels
  have hwordsP := Assembler.assemble_correspond (Or.inr rfl) hS hP hshort hlabels
  -- each CPU ends at a HALT of the sequential execution, and there is only one
  obtain ⟨k, hk, hregs, hmemory⟩ := bootSingleCycle_run haltS
  obtain ⟨kM, hkM, hregsM, hmemoryM⟩ := bootMultiCycle_run hwordsM hlen hgood hramM haltM
  obtain ⟨kP, hkP, hregsP, hmemoryP⟩ := bootPipelined_run hwordsP hlen hgood hramP haltP
  rw [sequential_halt_unique hkM hk] at hregsM hmemoryM
  rw [sequential_halt_unique hkP hk] at hregsP hmemoryP
  intro s m p
  refine ⟨⟨hregs.trans hregsM.symm, hregs.trans hregsP.symm⟩, ?_, ?_⟩
  · rw [show s.dataMem.contents = _ from hmemory]
    exact hmemoryM
  · rw [show s.dataMem.contents = _ from hmemory]
    exact hmemoryP

/-- A branch over an instruction, and a store. -/
def skipSource : Assembler.Source :=
  .text "li r1, 7\nb skip ; over the next line\nli r1, 9\nskip: sw r1, 128(r0)\nhalt".toList

/-- Its words, but for the offset of the branch. -/
def skipWords (branch : Word) : List Word :=
  [0x1C400007, branch, 0x1C400009, 0x28400080, 0x38000000]

/-- Registers that start with r0 at zero. -/
def zeroRegisters : Register → Word := fun _ => 0

/-- Its sequential execution: the third line is skipped. -/
theorem skip_sequential :
    sequential (skipWords 0x2C000002) (startState zeroRegisters fun _ => 0) 1 =
        ⟨1, Function.update zeroRegisters 1 7, fun _ => 0⟩ ∧
      sequential (skipWords 0x2C000002) (startState zeroRegisters fun _ => 0) 2 =
        ⟨3, Function.update zeroRegisters 1 7, fun _ => 0⟩ ∧
      sequential (skipWords 0x2C000002) (startState zeroRegisters fun _ => 0) 3 =
        ⟨4, Function.update zeroRegisters 1 7, Function.update (fun _ => 0) 128 7⟩ := by
  have h1 : sequential (skipWords 0x2C000002) (startState zeroRegisters fun _ => 0) 1 =
      ⟨1, Function.update zeroRegisters 1 7, fun _ => 0⟩ := rfl
  have h2 : sequential (skipWords 0x2C000002) (startState zeroRegisters fun _ => 0) 2 =
      ⟨3, Function.update zeroRegisters 1 7, fun _ => 0⟩ := by
    rw [sequential_succ, h1]
    rfl
  refine ⟨h1, h2, ?_⟩
  rw [sequential_succ, h2]
  rfl

theorem skip_wellBehaved :
    WellBehaved (skipWords 0x2C000002) (startState zeroRegisters fun _ => 0) := by
  obtain ⟨h1, h2, h3⟩ := skip_sequential
  have hstay : ∀ k, 3 ≤ k →
      sequential (skipWords 0x2C000002) (startState zeroRegisters fun _ => 0) k =
        ⟨4, Function.update zeroRegisters 1 7, Function.update (fun _ => 0) 128 7⟩ := by
    intro k hk
    rw [← h3]
    apply State.steps_of_halt _ hk
    show (programFetch (skipWords 0x2C000002)
      (sequential (skipWords 0x2C000002) (startState zeroRegisters fun _ => 0) 3)).opcode = .HALT
    rw [h3]
    rfl
  refine ⟨?_, ?_, ?_, ?_⟩
  · intro word hword
    simp only [skipWords, List.mem_cons, List.not_mem_nil, or_false] at hword
    rcases hword with rfl | rfl | rfl | rfl | rfl <;> decide
  · intro word hword
    unfold Writes
    simp only [skipWords, List.mem_cons, List.not_mem_nil, or_false] at hword
    rcases hword with rfl | rfl | rfl | rfl | rfl <;> decide
  · intro k
    match k with
    | 0 => decide
    | 1 =>
        rw [h1]
        decide
    | 2 =>
        rw [h2]
        decide
    | n + 3 =>
        rw [hstay _ (Nat.le_add_left 3 n)]
        decide
  · intro k
    unfold AccessesRam
    match k with
    | 0 => decide
    | 1 =>
        rw [h1]
        decide
    | 2 =>
        rw [h2]
        decide
    | n + 3 =>
        rw [hstay _ (Nat.le_add_left 3 n)]
        decide

/-- All three store the word of the first line. -/
theorem scalar_organisations_agree_skip :
    let s := ((bootSingleCycle (skipWords 0x2C000002) zeroRegisters fun _ => 0).run 5).datapath
    let m := (bootMultiCycle (skipWords 0x2C000001) zeroRegisters fun _ => 0).run 20
    let p := (bootPipelined (skipWords 0x2C000001) zeroRegisters fun _ => 0).run 12
    s.dataMem.contents 128 = 7 ∧ m.memory.contents 128 = 7 ∧ p.dataMem.contents 128 = 7 ∧
      s.registerFile.read = m.registerFile.read := by
  have h := scalar_organisations_agree
    (show Assembler.assemble skipSource .singleCycle = .ok (skipWords 0x2C000002) by
      decide +kernel)
    (show Assembler.assemble skipSource .multiCycle = .ok (skipWords 0x2C000001) by
      decide +kernel)
    (show Assembler.assemble skipSource .pipelined = .ok (skipWords 0x2C000001) by
      decide +kernel)
    (by decide +kernel) (by unfold Assembler.BranchesToLabels; decide +kernel)
    (fun _ _ _ => rfl) (fun _ _ _ => rfl) skip_wellBehaved
    (show ((bootSingleCycle _ zeroRegisters _).run 5).halted = true by decide +kernel)
    (show ((bootMultiCycle _ zeroRegisters _).run 20).halted = true by decide +kernel)
    (show ((bootPipelined _ zeroRegisters _).run 12).halted = true by decide +kernel)
  obtain ⟨⟨hregs, -⟩, hramM, hramP⟩ := h
  have hstored : ((bootSingleCycle (skipWords 0x2C000002) zeroRegisters
      fun _ => 0).run 5).datapath.dataMem.contents 128 = 7 := by decide +kernel
  refine ⟨hstored, ?_, ?_, hregs⟩
  · rw [← hramM 128 (by decide) (by decide)]
    exact hstored
  · rw [← hramP 128 (by decide) (by decide)]
    exact hstored

end CpuSim
