/-
  CpuSim.Comparison.CycleCount

  One source on the single-cycle, the multi-cycle and the pipelined CPU, and how many cycles
  `run` makes on each: the three counts are functions of the same sequential execution.
-/

import CpuSim.Comparison.Agreement
import CpuSim.MultiCycle.Timing
import CpuSim.Pipelined.Timing

namespace CpuSim

open Isa (State Machine)
open Logic.Memory (upperHalf)
open Assembler (Corresponds WordsCorrespond)
open Lib (Paced elapsed runFor)

/-! ## The single-cycle CPU -/

namespace SingleCycle.SingleCycleCPU

variable {iw w : Nat} {writable : Nat → Bool} {c e : SingleCycleCPU iw w writable} {k : Nat}

/-- The sequential machine of a CPU. -/
def sequential (c : SingleCycleCPU iw w writable) (k : Nat) : State :=
  c.datapath.architecture.steps (machine w writable) c.datapath.fetch k

/-- Instruction `k` of the sequential machine is a `HALT`. -/
def HaltAt (c : SingleCycleCPU iw w writable) (k : Nat) : Prop :=
  (c.datapath.fetch (c.sequential k)).opcode = .HALT

/-- `step()` tests the control signals of its last evaluation: those of the next instruction. -/
theorem RunningAt.halted_step_iff (h : RunningAt c.datapath k e) (hrun : e.halted = false) :
    e.step.halted = true ↔ c.HaltAt (k + 1) := by
  have hnext := h.step.1
  constructor
  · intro hhalted
    have hhalt := hnext.halted hhalted
    rw [hnext.architecture] at hhalt
    exact hhalt
  · intro hhalt
    have hstep : e.step =
        { datapath := e.datapath.cycle
          halted := if e.datapath.cycle.control.halt then true else e.halted } := by
      rw [SingleCycleCPU.step, if_neg (by rw [hrun]; exact Bool.false_ne_true)]
    have hfetch : e.datapath.fetch = c.datapath.fetch := by
      funext s
      rw [SingleCycleDatapath.fetch, SingleCycleDatapath.fetch, h.instructionMem]
    obtain ⟨-, -, hcontrol⟩ := SingleCycleDatapath.cycle_software h.rest
    have harch := hnext.architecture
    rw [hstep] at harch
    dsimp only at harch
    have hop : (c.datapath.fetch e.datapath.cycle.architecture).opcode = .HALT := by
      rw [harch]
      exact hhalt
    have hcycle : e.datapath.cycle.control.halt = true := by
      rw [hcontrol, hfetch]
      unfold ControlSignals.generate
      rw [hop]
    rw [hstep, hcycle]
    rfl

/-- The CPU works through the instructions, one in each step, and stops in front of a `HALT`. -/
theorem paced (c : SingleCycleCPU iw w writable) :
    Paced step halted (fun k e => RunningAt c.datapath k e ∧ e.halted = false)
      (fun k => RunningAt c.datapath (k + 1)) (fun _ => 1) fun k => c.HaltAt (k + 1) where
  cost_pos _ := Nat.one_pos
  busy := by
    intro k e h j hj
    obtain rfl : j = 0 := by omega
    exact h.2
  next := by
    intro k e h hne
    refine ⟨h.1.step.1, ?_⟩
    show e.step.halted = false
    rw [← Bool.not_eq_true, h.1.halted_step_iff h.2]
    exact hne
  stop := by
    intro k e h hhalt
    exact ⟨(h.1.halted_step_iff h.2).mpr hhalt, h.1.step.1⟩

theorem run_eq_runFor (c : SingleCycleCPU iw w writable) (maxCycles : Nat) :
    c.run maxCycles = runFor step halted maxCycles c := by
  induction maxCycles generalizing c with
  | zero => rfl
  | succ n ih => rw [run, runFor, ih]

/-- A program that has come to its `HALT` stays there. -/
theorem HaltAt.stays {j : Nat} (h : c.HaltAt k) (hj : k ≤ j) : c.HaltAt j := by
  have hstay : c.sequential j = c.sequential k := State.steps_of_halt h hj
  rw [HaltAt, hstay]
  exact h

/-- `run` makes one cycle for each instruction in front of the first `HALT`, and one for a `HALT`
    at the start. -/
theorem run_cycles (hrest : c.datapath.AtRest) (hrun : c.halted = false)
    (hhalt : c.HaltAt k) (hk : ∀ j < k, ¬c.HaltAt j) (maxCycles : Nat) :
    elapsed step halted maxCycles c = min maxCycles (max k 1) ∧
      ((c.run maxCycles).halted = true ↔ max k 1 ≤ maxCycles) := by
  have hstart : RunningAt c.datapath 0 c ∧ c.halted = false :=
    ⟨⟨hrest, rfl, rfl, fun hhalted => absurd (hrun.symm.trans hhalted) Bool.false_ne_true⟩, hrun⟩
  -- a `HALT` at address 0 is found by the first step like one that follows it
  have hlast : c.HaltAt (k - 1 + 1) := hhalt.stays (by omega)
  have hfirst : ∀ j < k - 1, ¬c.HaltAt (j + 1) := fun j hj => hk (j + 1) (by omega)
  obtain ⟨helapsed, hhalted, -⟩ := c.paced.run hstart hfirst hlast maxCycles
  rw [run_eq_runFor]
  have hsum : ∑ j ∈ Finset.range (k - 1 + 1), 1 = max k 1 := by
    rw [← Finset.card_eq_sum_ones, Finset.card_range]
    omega
  rw [hsum] at helapsed hhalted
  exact ⟨helapsed, hhalted⟩

end SingleCycle.SingleCycleCPU

/-! ## The sequential execution of a program -/

/-- Instruction `k` of the sequential execution. -/
def instructionOf (words : List Word) (s : State) (k : Nat) : DecodedInstruction :=
  programFetch words (sequential words s k)

/-- The first `HALT` of the sequential execution is instruction `k`. -/
def HaltsAt (words : List Word) (s : State) (k : Nat) : Prop :=
  (instructionOf words s k).opcode = .HALT ∧ ∀ j < k, (instructionOf words s j).opcode ≠ .HALT

/-- The cycles instruction `k` takes through the states of the multi-cycle CPU. -/
def stateCycles (words : List Word) (s : State) (k : Nat) : Nat :=
  MultiCycle.MultiCycleDatapath.cyclesOf (instructionOf words s k).opcode

/-- The cycles the pipeline loses behind instruction `k`. -/
def lostCycles (words : List Word) (s : State) (k : Nat) : Nat :=
  if Pipelined.redirects (sequential words s k) (instructionOf words s k) then 2
  else if Pipelined.loadUse (instructionOf words s k) (instructionOf words s (k + 1)) then 1
  else 0

/-- A cycle lost by the pipeline is one the multi-cycle CPU needs too. -/
theorem lostCycles_lt (words : List Word) (s : State) (k : Nat) :
    lostCycles words s k + 1 ≤ stateCycles words s k := by
  unfold lostCycles stateCycles Pipelined.redirects Pipelined.loadUse
    MultiCycle.MultiCycleDatapath.cyclesOf
  cases (instructionOf words s k).opcode with
  | BEQ | BNE =>
      dsimp only
      split
      · exact Nat.le_refl 3
      · exact Nat.succ_le_succ (Nat.zero_le 2)
  | LW =>
      dsimp only
      rw [if_neg Bool.false_ne_true]
      split
      · exact Nat.le_of_ble_eq_true rfl
      · exact Nat.le_of_ble_eq_true rfl
  | _ => exact Nat.le_of_ble_eq_true rfl

section Boot

variable {words words' : List Word} {regs : Register → Word} {memory memory' : Nat → Word} {k : Nat}

/-- The multi-cycle CPU goes through the states of these instructions. -/
theorem bootMultiCycle_cost (hwords : List.Forall₂ WordsCorrespond words words')
    (hlen : words.length ≤ 128) (hgood : WellBehaved words (startState regs memory))
    (hram : SameRam memory memory') (k : Nat) :
    (bootMultiCycle words' regs memory').cost k =
        stateCycles words (startState regs memory) k ∧
      ((bootMultiCycle words' regs memory').HaltAt k ↔
        (instructionOf words (startState regs memory) k).opcode = .HALT) := by
  obtain ⟨-, hcorr⟩ := bootMultiCycle_agree hwords hlen hgood hram k
  have hop := hcorr.opcode
  constructor
  · exact congrArg MultiCycle.MultiCycleDatapath.cyclesOf hop
  · rw [MultiCycle.MultiCycleDatapath.HaltAt, hop]
    rfl

/-- The pipeline executes these instructions. -/
theorem bootPipelined_haltAt (hwords : List.Forall₂ WordsCorrespond words words')
    (hlen : words.length ≤ 128) (hgood : WellBehaved words (startState regs memory))
    (hram : SameRam memory memory') (k : Nat) :
    (bootPipelined words' regs memory').HaltAt k ↔
      (instructionOf words (startState regs memory) k).opcode = .HALT := by
  obtain ⟨-, hcorr⟩ := bootPipelined_agree hwords hlen hgood hram k
  rw [Pipelined.PipelinedCycleDatapath.HaltAt, hcorr.opcode]
  rfl

/-- A load goes on to the next address. -/
theorem step_pc_of_load {M : Machine} {fetch : State → DecodedInstruction} {s : State}
    (h : (fetch s).opcode = .LW) : (s.step M fetch).pc = s.pc + 1 := by
  have hne : (fetch s).opcode ≠ .HALT := by
    rw [h]
    decide
  rw [State.step_of_ne hne]
  show s.nextPc M (fetch s) = _
  unfold State.nextPc
  rw [h]

theorem redirects_congr {s t : State} {i j : DecodedInstruction} (hregs : s.regs = t.regs)
    (hij : Corresponds i j) : Pipelined.redirects t j = Pipelined.redirects s i := by
  unfold Pipelined.redirects
  cases hij with
  | same => rw [hregs]
  | branch => rw [hregs]

theorem loadUse_congr {i i' j j' : DecodedInstruction} (hi : Corresponds i i')
    (hj : Corresponds j j') : Pipelined.loadUse i' j' = Pipelined.loadUse i j := by
  unfold Pipelined.loadUse
  cases hi <;> cases hj <;> rfl

/-- The gaps of the pipeline are those between these instructions. -/
theorem bootPipelined_gap (hwords : List.Forall₂ WordsCorrespond words words')
    (hlen : words.length ≤ 128) (hgood : WellBehaved words (startState regs memory))
    (hram : SameRam memory memory') (k : Nat) :
    Pipelined.gap (bootPipelined words' regs memory').fetched
        ((bootPipelined words' regs memory').sequential k) =
      lostCycles words (startState regs memory) k + 1 := by
  obtain ⟨hagree, hcorr⟩ := bootPipelined_agree hwords hlen hgood hram k
  obtain ⟨-, hnext⟩ := bootPipelined_agree hwords hlen hgood hram (k + 1)
  have hredirect := redirects_congr hagree.regs hcorr
  unfold Pipelined.gap lostCycles
  rw [hredirect]
  show _ = (if Pipelined.redirects (sequential words (startState regs memory) k)
    (programFetch words (sequential words (startState regs memory) k)) then 2 else _) + 1
  cases htaken : Pipelined.redirects (sequential words (startState regs memory) k)
      (programFetch words (sequential words (startState regs memory) k)) with
  | true => rfl
  | false =>
      rw [if_neg Bool.false_ne_true, if_neg Bool.false_ne_true]
      have hload : Pipelined.loadUse
          (Pipelined.fetch (bootPipelined words' regs memory').fetched
            ((bootPipelined words' regs memory').sequential k))
          (Pipelined.instructionAt (bootPipelined words' regs memory').fetched
            (((bootPipelined words' regs memory').sequential k).pc + 1)) =
          Pipelined.loadUse (instructionOf words (startState regs memory) k)
            (instructionOf words (startState regs memory) (k + 1)) := by
        by_cases hop : (Pipelined.fetch (bootPipelined words' regs memory').fetched
          ((bootPipelined words' regs memory').sequential k)).opcode = .LW
        · -- behind a load the next instruction is the one at the next address
          have hpc : ((bootPipelined words' regs memory').sequential (k + 1)).pc =
              ((bootPipelined words' regs memory').sequential k).pc + 1 := step_pc_of_load hop
          rw [← hpc]
          exact loadUse_congr hcorr hnext
        · have hop' : (instructionOf words (startState regs memory) k).opcode ≠ .LW := by
            rw [instructionOf, ← hcorr.opcode]
            exact hop
          unfold Pipelined.loadUse
          rw [beq_eq_false_iff_ne.mpr hop, beq_eq_false_iff_ne.mpr hop', Bool.false_and,
            Bool.false_and]
      rw [hload]
      split <;> rfl

/-- What `run` makes on the single-cycle CPU. -/
theorem bootSingleCycle_cycles (hk : HaltsAt words (startState regs memory) k)
    (maxCycles : Nat) :
    elapsed SingleCycle.SingleCycleCPU.step SingleCycle.SingleCycleCPU.halted maxCycles
        (bootSingleCycle words regs memory) = min maxCycles (max k 1) ∧
      (((bootSingleCycle words regs memory).run maxCycles).halted = true ↔
        max k 1 ≤ maxCycles) :=
  SingleCycle.SingleCycleCPU.run_cycles
    (show (bootSingleCycle words regs memory).datapath.AtRest from ⟨rfl, rfl⟩) rfl hk.1 hk.2
    maxCycles

/-- What it makes on the multi-cycle CPU. -/
theorem bootMultiCycle_cycles (hwords : List.Forall₂ WordsCorrespond words words')
    (hlen : words.length ≤ 128) (hgood : WellBehaved words (startState regs memory))
    (hram : SameRam memory memory') (hk : HaltsAt words (startState regs memory) k)
    (maxCycles : Nat) :
    elapsed MultiCycle.MultiCycleDatapath.stepCycle MultiCycle.MultiCycleDatapath.fsmHalted
        maxCycles (bootMultiCycle words' regs memory') =
      min maxCycles (∑ j ∈ Finset.range (k + 1), stateCycles words (startState regs memory) j) ∧
    (((bootMultiCycle words' regs memory').run maxCycles).fsm.isHalted = true ↔
      ∑ j ∈ Finset.range (k + 1), stateCycles words (startState regs memory) j ≤ maxCycles) := by
  have hcost := fun j => bootMultiCycle_cost hwords hlen hgood hram j
  have hsum : ∑ j ∈ Finset.range (k + 1), (bootMultiCycle words' regs memory').cost j =
      ∑ j ∈ Finset.range (k + 1), stateCycles words (startState regs memory) j :=
    Finset.sum_congr rfl fun j _ => (hcost j).1
  obtain ⟨helapsed, hhalted, -⟩ :=
    (MultiCycle.MultiCycleDatapath.paced (bootMultiCycle words' regs memory')).run
      (MultiCycle.MultiCycleDatapath.FetchingAt.start ⟨rfl, rfl⟩ rfl)
      (fun j hj => (hcost j).2.not.mpr (hk.2 j hj)) ((hcost k).2.mpr hk.1) maxCycles
  rw [hsum] at helapsed hhalted
  rw [MultiCycle.MultiCycleDatapath.run_eq_runFor]
  exact ⟨helapsed, hhalted⟩

/-- What it makes on the pipelined CPU. -/
theorem bootPipelined_cycles (hwords : List.Forall₂ WordsCorrespond words words')
    (hlen : words.length ≤ 128) (hgood : WellBehaved words (startState regs memory))
    (hram : SameRam memory memory') (hk : HaltsAt words (startState regs memory) k)
    (maxCycles : Nat) :
    elapsed Pipelined.PipelinedCycleDatapath.step Pipelined.PipelinedCycleDatapath.halted
        maxCycles (bootPipelined words' regs memory') =
      min maxCycles
        (k + 4 + ∑ j ∈ Finset.range k, lostCycles words (startState regs memory) j) ∧
    (((bootPipelined words' regs memory').run maxCycles).halted = true ↔
      k + 4 + ∑ j ∈ Finset.range k, lostCycles words (startState regs memory) j ≤
        maxCycles) := by
  have hhaltAt := fun j => bootPipelined_haltAt hwords hlen hgood hram j
  have hsum : (bootPipelined words' regs memory').cyclesTo k =
      k + 4 + ∑ j ∈ Finset.range k, lostCycles words (startState regs memory) j := by
    rw [Pipelined.PipelinedCycleDatapath.cyclesTo]
    congr 1
    apply Finset.sum_congr rfl
    intro j _
    rw [bootPipelined_gap hwords hlen hgood hram j, Nat.add_sub_cancel]
  obtain ⟨helapsed, hhalted, -⟩ := (bootPipelined_fresh words' regs memory').run_to_halt
    (bootPipelined_sparesR15 hwords hlen hgood hram) ((hhaltAt k).mpr hk.1)
    (fun j hj => (hhaltAt j).not.mpr (hk.2 j hj)) maxCycles
  rw [hsum] at helapsed hhalted
  exact ⟨helapsed, hhalted⟩

end Boot

/-- The cycles of the three CPUs for one source: one for each instruction on the single-cycle
    CPU, those of the states on the multi-cycle CPU, and on the pipelined one four more than
    instructions and those lost.  The pipeline is never more than two cycles behind the
    multi-cycle CPU. -/
theorem organisations_cycles {source : Assembler.Source} {wordsS wordsM wordsP : List Word}
    (hS : Assembler.assemble source .singleCycle = .ok wordsS)
    (hM : Assembler.assemble source .multiCycle = .ok wordsM)
    (hP : Assembler.assemble source .pipelined = .ok wordsP)
    (hshort : Assembler.statementCount (Assembler.items source.rawLines) ≤ 128)
    (hlabels : Assembler.BranchesToLabels (Assembler.items source.rawLines))
    {regs : Register → Word} {memoryS memoryM memoryP : Nat → Word}
    (hramM : SameRam memoryS memoryM) (hramP : SameRam memoryS memoryP)
    (hgood : WellBehaved wordsS (startState regs memoryS)) {k : Nat}
    (hk : HaltsAt wordsS (startState regs memoryS) k) (maxCycles : Nat) :
    let s := startState regs memoryS
    let single := max k 1
    let multi := ∑ j ∈ Finset.range (k + 1), stateCycles wordsS s j
    let pipelined := k + 4 + ∑ j ∈ Finset.range k, lostCycles wordsS s j
    elapsed SingleCycle.SingleCycleCPU.step SingleCycle.SingleCycleCPU.halted maxCycles
        (bootSingleCycle wordsS regs memoryS) = min maxCycles single ∧
      elapsed MultiCycle.MultiCycleDatapath.stepCycle MultiCycle.MultiCycleDatapath.fsmHalted
        maxCycles (bootMultiCycle wordsM regs memoryM) = min maxCycles multi ∧
      elapsed Pipelined.PipelinedCycleDatapath.step Pipelined.PipelinedCycleDatapath.halted
        maxCycles (bootPipelined wordsP regs memoryP) = min maxCycles pipelined ∧
      single + 3 ≤ pipelined ∧ pipelined ≤ multi + 2 := by
  have hlen : wordsS.length ≤ 128 := Nat.le_trans (Assembler.length_le_statementCount hS) hshort
  have hwordsM := Assembler.assemble_correspond (Or.inl rfl) hS hM hshort hlabels
  have hwordsP := Assembler.assemble_correspond (Or.inr rfl) hS hP hshort hlabels
  intro s single multi pipelined
  refine ⟨(bootSingleCycle_cycles hk maxCycles).1,
    (bootMultiCycle_cycles hwordsM hlen hgood hramM hk maxCycles).1,
    (bootPipelined_cycles hwordsP hlen hgood hramP hk maxCycles).1, ?_, ?_⟩
  · show max k 1 + 3 ≤ k + 4 + _
    omega
  · -- every instruction in front of the `HALT` takes the multi-cycle CPU a cycle more than it
    -- loses in the pipeline, and the `HALT` takes two
    have hsum : ∑ j ∈ Finset.range k, (lostCycles wordsS s j + 1) ≤
        ∑ j ∈ Finset.range k, stateCycles wordsS s j :=
      Finset.sum_le_sum fun j _ => lostCycles_lt wordsS s j
    rw [Finset.sum_add_distrib, ← Finset.card_eq_sum_ones, Finset.card_range] at hsum
    have hhalt : stateCycles wordsS s k = 2 := by
      rw [stateCycles, hk.1]
      rfl
    show k + 4 + _ ≤ ∑ j ∈ Finset.range (k + 1), stateCycles wordsS s j + 2
    rw [Finset.sum_range_succ, hhalt]
    omega

/-- What the assembler makes of the branch over a line. -/
theorem skip_assembles :
    Assembler.assemble skipSource .singleCycle = .ok (skipWords 0x2C000002) ∧
      Assembler.assemble skipSource .multiCycle = .ok (skipWords 0x2C000001) ∧
      Assembler.assemble skipSource .pipelined = .ok (skipWords 0x2C000001) ∧
      Assembler.statementCount (Assembler.items skipSource.rawLines) ≤ 128 ∧
      Assembler.BranchesToLabels (Assembler.items skipSource.rawLines) := by
  -- the characters of the source, before the evaluation
  rw [skipSource, String.toList_ofList, Assembler.BranchesToLabels]
  decide +kernel

/-- A branch over a line and a store: three instructions in front of the `HALT`, thirteen cycles
    on the multi-cycle CPU, and nine on the pipelined one. -/
theorem organisations_cycles_skip :
    elapsed SingleCycle.SingleCycleCPU.step SingleCycle.SingleCycleCPU.halted 100
        (bootSingleCycle (skipWords 0x2C000002) zeroRegisters fun _ => 0) = 3 ∧
      elapsed MultiCycle.MultiCycleDatapath.stepCycle MultiCycle.MultiCycleDatapath.fsmHalted
        100 (bootMultiCycle (skipWords 0x2C000001) zeroRegisters fun _ => 0) = 13 ∧
      elapsed Pipelined.PipelinedCycleDatapath.step Pipelined.PipelinedCycleDatapath.halted
        100 (bootPipelined (skipWords 0x2C000001) zeroRegisters fun _ => 0) = 9 := by
  have hk : HaltsAt (skipWords 0x2C000002) (startState zeroRegisters fun _ => 0) 3 := by
    unfold HaltsAt
    decide
  obtain ⟨hS, hM, hP, hshort, hlabels⟩ := skip_assembles
  obtain ⟨hsingle, hmulti, hpipelined, -⟩ := organisations_cycles hS hM hP hshort hlabels
    (fun _ _ _ => rfl) (fun _ _ _ => rfl) skip_wellBehaved hk 100
  refine ⟨hsingle, hmulti.trans ?_, hpipelined.trans ?_⟩ <;> decide

end CpuSim
