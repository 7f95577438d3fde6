/-
  CpuSim.Pipelined.Timing

  How many cycles a program takes.  Every instruction leaves the execute stage one cycle after
  the one before it, two cycles later behind a taken branch or a jump, one cycle later behind a
  load whose destination is a source field of the instruction that follows.
-/

import CpuSim.Lib.Paced
import CpuSim.Pipelined.Refinement

namespace CpuSim.Pipelined

open CpuSim.Logic (mux)
open CpuSim.Lib (Paced elapsed runFor)

variable {rom : Word → Word} {w : Nat} {writable : Nat → Bool} {s : Isa.State} {o : Outputs}
  {readData : Word}

/-! ## What an instruction costs -/

/-- The instruction does not go to the next address. -/
def redirects (s : Isa.State) (i : DecodedInstruction) : Bool :=
  match i.opcode with
  | .BEQ => s.regs i.rs1 == s.regs i.rs2
  | .BNE => !(s.regs i.rs1 == s.regs i.rs2)
  | .J => true
  | _ => false

/-- A load, and an instruction with its destination in one of the source fields. -/
def loadUse (i j : DecodedInstruction) : Bool :=
  i.opcode == .LW && (i.rd == j.rs1 || i.rd == j.rs2)

/-- The cycles from the instruction of a state to the one after it. -/
def gap (rom : Word → Word) (s : Isa.State) : Nat :=
  if redirects s (fetch rom s) then 3
  else if loadUse (fetch rom s) (instructionAt rom (s.pc + 1)) then 2
  else 1

theorem gap_pos (rom : Word → Word) (s : Isa.State) : 0 < gap rom s := by
  unfold gap
  split
  · decide
  · split <;> decide

/-- The hazard unit stalls for exactly the loads whose value is asked for. -/
theorem ldrStall_eq (he : Executing (instructionAt rom s.pc) s.pc o)
    (hd : Decoding rom (s.pc + 1) o) :
    o.ldrStall = loadUse (fetch rom s) (instructionAt rom (s.pc + 1)) := by
  have hdecoded : o.decoded = instructionAt rom (s.pc + 1) := by
    rw [Outputs.decoded, hd.ifId]
    rfl
  have hload : o.idEx.controls.memToReg = ((fetch rom s).opcode == .LW) := by
    rw [he.controls]
    show (ControlSignals.generate (fetch rom s)).memToReg = _
    unfold ControlSignals.generate
    cases (fetch rom s).opcode <;> rfl
  rw [Outputs.ldrStall, hload, he.rd, hdecoded]
  rfl

/-- An instruction that is not `HALT` leaves the execute stage, and the front is as many cycles
    behind as the instruction costs. -/
theorem front_gap (h : o.Draining w writable s)
    (he : Executing (instructionAt rom s.pc) s.pc o) (hd : Decoding rom (s.pc + 1) o)
    (hrun : (instructionAt rom s.pc).opcode ≠ .HALT) (hmem : o.memOpcode ≠ .HALT)
    (hid : o.ldrStall = false → o.idOpcode = o.decoded.opcode) :
    Front rom (s.exec (machine w writable) (instructionAt rom s.pc))
      (o.next rom w writable readData) (gap rom s) := by
  have hex : o.exOpcode ≠ .HALT := by
    rw [he.opcode]
    exact hrun
  have hbranch : o.executed.branchTaken = redirects s (fetch rom s) := executed_branch h he
  unfold gap
  rw [← hbranch, ← ldrStall_eq he hd]
  cases htaken : o.executed.branchTaken with
  | true =>
      obtain ⟨hstallF, -, hflushD, hflushE⟩ := hazard_of_taken htaken
      have henable : o.pcEnable = true := by
        rw [Outputs.pcEnable, htaken, hstallF]
        rfl
      refine Front.flushed (next_bubble hflushE) ?_ ?_ hex ?_
      · show (mux _ _ o.hazard.flushD : IF_ID).instruction = 0
        rw [hflushD]
        rfl
      · rw [next_pc h, henable, htaken, exec_pc_of_taken h he htaken]
        rfl
      · show (if o.hazard.flushD = true then _ else _) = _
        rw [hflushD]
        rfl
  | false =>
      have hpc := exec_pc_of_not_taken h he htaken
      rw [← hpc] at hd
      cases hstall : o.ldrStall with
      | true =>
          obtain ⟨hstallF, hstallD, hflushD, hflushE⟩ := hazard_of_not_taken htaken
          rw [hstall] at hstallF hstallD hflushE
          have henable : o.pcEnable = false := by
            rw [Outputs.pcEnable, hstallF, Bool.not_true, Bool.and_false]
          have hbubble : Bubble (o.next rom w writable readData) := next_bubble hflushE
          -- the decode stage and the program counter stay
          have hkeep : Decoding rom (s.exec (machine w writable) (instructionAt rom s.pc)).pc
              (o.next rom w writable readData) := by
            constructor
            · rw [← hd.ifId]
              show mux (mux _ _ (!o.hazard.stallD)) _ o.hazard.flushD = _
              rw [hstallD, hflushD]
              rfl
            · rw [next_pc h, henable, ← hd.pc]
              rfl
          exact Front.refilled hbubble hkeep hex
            (next_idOpcode hflushD (Bubble.hazard hbubble.controls).2)
      | false => exact front_advance h hd htaken hstall (hid hstall) hex hmem

/-! ## One cycle -/

/-- A pipeline that refills comes one cycle closer to the next instruction. -/
theorem Running.refill {rank : Nat} (h : Running rom w writable s o (rank + 2))
    (hread : Reads w o readData) :
    Running rom w writable s (o.next rom w writable readData) (rank + 1) := by
  obtain ⟨hfront, hdrain⟩ := h
  cases hfront with
  | refilled he hd hmem hid =>
      obtain ⟨htaken, hstall⟩ := Bubble.hazard he.controls
      have hex : o.exOpcode ≠ .HALT := by
        rw [he.opcode]
        decide
      exact ⟨front_advance hdrain hd htaken hstall hid hex hmem,
        hdrain.bubble hread he.controls hmem⟩
  | flushed he hd hpc hmem hid =>
      exact ⟨front_flushed hdrain he hd hpc hmem hid, hdrain.bubble hread he.controls hmem⟩

/-- The instruction in the execute stage is executed. -/
theorem Running.execute (h : Running rom w writable s o 1) (hread : Reads w o readData)
    (h15 : SparesR15 rom w writable s) (hne : (fetch rom s).opcode ≠ .HALT) :
    Running rom w writable (s.step (machine w writable) (fetch rom))
      (o.next rom w writable readData) (gap rom s) := by
  obtain ⟨hfront, hdrain⟩ := h
  cases hfront with
  | full he hd hrun hmem hid =>
      rw [Isa.State.step_of_ne hne]
      exact ⟨front_gap hdrain he hd hrun hmem hid, hdrain.exec hread he h15 hmem⟩
  | halting _ hhalt _ => exact absurd hhalt hne

/-- A `HALT` in the execute stage goes to the memory stage. -/
theorem Running.halt (h : Running rom w writable s o 1) (hread : Reads w o readData)
    (h15 : SparesR15 rom w writable s) (hhalt : (fetch rom s).opcode = .HALT) :
    Running rom w writable s (o.next rom w writable readData) 0 := by
  obtain ⟨rank', hlt, hrun⟩ | ⟨hne, -⟩ | hstop := h.next hread h15
  · obtain rfl : rank' = 0 := by omega
    exact hrun
  · exact absurd hhalt hne
  · -- the writeback stage holds what was in the memory stage
    obtain ⟨hfront, -⟩ := h
    have hmem : o.memOpcode = .HALT := hstop.wbOpcode
    cases hfront with
    | full _ _ _ hne _ => exact absurd hmem hne
    | halting _ _ hne => exact absurd hmem hne

namespace PipelinedCycleDatapath

variable {iw : Nat} {d0 d : PipelinedCycleDatapath iw w writable} {k rank : Nat}

/-- One step of a run, as the storage elements see it. -/
theorem RunningAt.next (h : d0.RunningAt k rank d) :
    Along d0 d.step ∧ ∃ readData, Reads w d.outputs readData ∧
      d.step.outputs = d.outputs.next d0.fetched w writable readData := by
  obtain ⟨⟨hrest, hrom⟩, hrun⟩ := h
  have hnot : d.halted = false := beq_eq_false_iff_ne.mpr hrun.draining.wbOpcode
  obtain ⟨hrest', hrom', readData, hread, hnext⟩ := step_outputs hrest hnot
  have hfetched : d.fetched = d0.fetched := by
    funext pc
    rw [fetched, fetched, hrom]
  rw [hfetched] at hnext
  exact ⟨⟨hrest', hrom'.trans hrom⟩, readData, hread, hnext⟩

theorem RunningAt.not_halted (h : d0.RunningAt k rank d) : d.halted = false :=
  beq_eq_false_iff_ne.mpr h.2.draining.wbOpcode

theorem RunningAt.refill (h : d0.RunningAt k (rank + 2) d) : d0.RunningAt k (rank + 1) d.step := by
  obtain ⟨halong, readData, hread, hnext⟩ := h.next
  refine ⟨halong, ?_⟩
  rw [hnext]
  exact h.2.refill hread

theorem RunningAt.execute (h : d0.RunningAt k 1 d)
    (h15 : SparesR15 d0.fetched w writable (d0.sequential k))
    (hne : (fetch d0.fetched (d0.sequential k)).opcode ≠ .HALT) :
    d0.RunningAt (k + 1) (gap d0.fetched (d0.sequential k)) d.step := by
  obtain ⟨halong, readData, hread, hnext⟩ := h.next
  refine ⟨halong, ?_⟩
  rw [hnext]
  exact h.2.execute hread h15 hne

theorem RunningAt.halt (h : d0.RunningAt k 1 d)
    (h15 : SparesR15 d0.fetched w writable (d0.sequential k))
    (hhalt : (fetch d0.fetched (d0.sequential k)).opcode = .HALT) :
    d0.RunningAt k 0 d.step := by
  obtain ⟨halong, readData, hread, hnext⟩ := h.next
  refine ⟨halong, ?_⟩
  rw [hnext]
  exact h.2.halt hread h15 hhalt

/-- Behind the memory stage the `HALT` stops the pipeline. -/
theorem RunningAt.stop (h : d0.RunningAt k 0 d)
    (h15 : SparesR15 d0.fetched w writable (d0.sequential k)) : d0.StoppedAt k d.step := by
  rcases h.step h15 with ⟨rank', hlt, -⟩ | ⟨hne, -⟩ | hstop
  · exact absurd hlt (Nat.not_lt_zero _)
  · obtain ⟨-, hfront, -⟩ := h
    cases hfront with
    | halted hhalt => exact absurd hhalt hne
  · exact hstop

/-- The rank counts the steps to the next instruction. -/
theorem RunningAt.countdown (h : d0.RunningAt k rank d) {j : Nat} (hj : j < rank) :
    d0.RunningAt k (rank - j) (PipelinedCycleDatapath.step^[j] d) := by
  induction j with
  | zero => exact h
  | succ j ih =>
      have hprev := ih (by omega)
      obtain ⟨r, hr⟩ : ∃ r, rank - j = r + 2 := ⟨rank - j - 2, by omega⟩
      have hr' : rank - (j + 1) = r + 1 := by omega
      rw [hr] at hprev
      rw [Function.iterate_succ_apply', hr']
      exact hprev.refill

/-! ## Runs -/

/-- The cycles in front of instruction `k`: the first one is fetched into an empty pipeline. -/
def lead (d : PipelinedCycleDatapath iw w writable) : Nat → Nat
  | 0 => 3
  | k + 1 => gap d.fetched (d.sequential k)

/-- Instruction `k` of the sequential machine is a `HALT`. -/
def HaltAt (d : PipelinedCycleDatapath iw w writable) (k : Nat) : Prop :=
  (fetch d.fetched (d.sequential k)).opcode = .HALT

instance (d : PipelinedCycleDatapath iw w writable) (k : Nat) : Decidable (d.HaltAt k) := by
  unfold HaltAt
  infer_instance

/-- What instruction `k` costs; a `HALT` has to reach the writeback stage. -/
def cost (d : PipelinedCycleDatapath iw w writable) (k : Nat) : Nat :=
  d.lead k + if d.HaltAt k then 1 else 0

theorem lead_pos (d : PipelinedCycleDatapath iw w writable) (k : Nat) : 0 < d.lead k := by
  cases k with
  | zero => exact Nat.succ_pos 2
  | succ k => exact gap_pos _ _

/-- The pipeline works through the instructions of the sequential machine. -/
theorem paced (h15 : ∀ k, SparesR15 d.fetched w writable (d.sequential k)) :
    Paced step halted (fun k => d.RunningAt k (d.lead k)) (fun k => d.StoppedAt k) d.cost
      d.HaltAt := by
  have harrive {k : Nat} {e : PipelinedCycleDatapath iw w writable}
      (h : d.RunningAt k (d.lead k) e) : d.RunningAt k 1 (step^[d.lead k - 1] e) := by
    have hpos := d.lead_pos k
    have hone := RunningAt.countdown h (show d.lead k - 1 < d.lead k by omega)
    rwa [show d.lead k - (d.lead k - 1) = 1 by omega] at hone
  have hlead (k : Nat) (e : PipelinedCycleDatapath iw w writable) :
      step^[d.lead k] e = step (step^[d.lead k - 1] e) := by
    have hpos := d.lead_pos k
    rw [← Function.iterate_succ_apply' step, show (d.lead k - 1).succ = d.lead k by omega]
  constructor
  · intro k
    exact Nat.lt_of_lt_of_le (d.lead_pos k) (Nat.le_add_right _ _)
  · intro k e h j hj
    rcases Nat.lt_or_ge j (d.lead k) with hlt | hge
    · exact (RunningAt.countdown h hlt).not_halted
    · -- only a HALT takes the cycle behind the execute stage
      rw [cost] at hj
      split at hj
      · next hhalt =>
          obtain rfl : j = d.lead k := by omega
          rw [hlead]
          exact ((harrive h).halt (h15 k) hhalt).not_halted
      · omega
  · intro k e h hne
    have hcost : d.cost k = d.lead k := by
      rw [cost, if_neg hne]
      rfl
    rw [hcost, hlead]
    exact (harrive h).execute (h15 k) hne
  · intro k e h hhalt
    have hstop : d.StoppedAt k (step^[d.cost k] e) := by
      rw [cost, if_pos hhalt, Function.iterate_succ_apply', hlead]
      exact ((harrive h).halt (h15 k) hhalt).stop (h15 k)
    exact ⟨beq_iff_eq.mpr hstop.2.wbOpcode, hstop⟩

theorem run_eq_runFor (d : PipelinedCycleDatapath iw w writable) (maxCycles : Nat) :
    d.run maxCycles = runFor step halted maxCycles d := by
  induction maxCycles generalizing d with
  | zero => rfl
  | succ n ih => rw [run, runFor, ih]

/-- The cycles up to and with a `HALT` that is instruction `k`: one for each instruction, two
    more for each redirect, one more for each load that is waited for, and four that fill and
    drain the pipeline. -/
def cyclesTo (d : PipelinedCycleDatapath iw w writable) (k : Nat) : Nat :=
  k + 4 + ∑ j ∈ Finset.range k, (gap d.fetched (d.sequential j) - 1)

theorem sum_cost {k : Nat} (hk : ∀ j < k, ¬d.HaltAt j) (hhalt : d.HaltAt k) :
    ∑ j ∈ Finset.range (k + 1), d.cost j = d.cyclesTo k := by
  have hlead : ∀ m, ∑ j ∈ Finset.range (m + 1), d.lead j =
      m + 3 + ∑ j ∈ Finset.range m, (gap d.fetched (d.sequential j) - 1) := by
    intro m
    induction m with
    | zero => rfl
    | succ m ih =>
        have hpos := gap_pos d.fetched (d.sequential m)
        have hnext : d.lead (m + 1) = gap d.fetched (d.sequential m) := rfl
        rw [Finset.sum_range_succ, ih, Finset.sum_range_succ _ m, hnext]
        omega
  have hcost : ∑ j ∈ Finset.range k, d.cost j = ∑ j ∈ Finset.range k, d.lead j := by
    apply Finset.sum_congr rfl
    intro j hj
    rw [cost, if_neg (hk j (Finset.mem_range.mp hj))]
    rfl
  have hlast : d.cost k = d.lead k + 1 := by rw [cost, if_pos hhalt]
  have htotal := hlead k
  rw [Finset.sum_range_succ] at htotal
  rw [Finset.sum_range_succ, hcost, hlast, cyclesTo]
  omega

/-- `run` up to the first `HALT`. -/
theorem Fresh.run_to_halt (h : d.Fresh) (h15 : ∀ k, SparesR15 d.fetched w writable (d.sequential k))
    (hhalt : d.HaltAt k) (hk : ∀ j < k, ¬d.HaltAt j) (maxCycles : Nat) :
    elapsed step halted maxCycles d = min maxCycles (d.cyclesTo k) ∧
      ((d.run maxCycles).halted = true ↔ d.cyclesTo k ≤ maxCycles) ∧
      (d.cyclesTo k ≤ maxCycles → d.StoppedAt k (d.run maxCycles)) := by
  have hrun := (paced h15).run (show d.RunningAt 0 (d.lead 0) d from h.running) hk hhalt maxCycles
  rw [sum_cost hk hhalt] at hrun
  rw [run_eq_runFor]
  exact hrun

/-- `run` makes exactly the cycles of the instructions up to the first `HALT`, and halts, with
    the registers and the memory of the sequential machine there, exactly if its bound leaves it
    as many; without a `HALT` it makes all it may. -/
theorem pipelined_cycles_exact (h : d.Fresh)
    (h15 : ∀ k, SparesR15 d.fetched w writable (d.sequential k)) (maxCycles : Nat) :
    (∀ k, d.HaltAt k → (∀ j < k, ¬d.HaltAt j) →
      elapsed step halted maxCycles d = min maxCycles (d.cyclesTo k) ∧
        ((d.run maxCycles).halted = true ↔ d.cyclesTo k ≤ maxCycles) ∧
        (d.cyclesTo k ≤ maxCycles →
          (d.run maxCycles).registerFile.read = (d.sequential k).regs ∧
            (d.run maxCycles).dataMem.contents = (d.sequential k).memory)) ∧
      ((∀ k, ¬d.HaltAt k) →
        elapsed step halted maxCycles d = maxCycles ∧ (d.run maxCycles).halted = false) := by
  constructor
  · intro k hhalt hk
    obtain ⟨helapsed, hhalted, hdone⟩ := h.run_to_halt h15 hhalt hk maxCycles
    exact ⟨helapsed, hhalted, fun hle => ⟨(hdone hle).2.regs, (hdone hle).2.memory⟩⟩
  · intro hnone
    rw [run_eq_runFor]
    exact (paced h15).run_forever (show d.RunningAt 0 (d.lead 0) d from h.running) hnone maxCycles

/-- A program that has come to its `HALT` without writing R15 never writes it. -/
theorem sparesR15_of_halt {k : Nat} (hhalt : d.HaltAt k)
    (h15 : ∀ j ≤ k, SparesR15 d.fetched w writable (d.sequential j)) (j : Nat) :
    SparesR15 d.fetched w writable (d.sequential j) := by
  rcases Nat.le_total j k with hle | hge
  · exact h15 j hle
  · have hstay : d.sequential j = d.sequential k := Isa.State.steps_of_halt hhalt hge
    rw [hstay]
    exact h15 k (Nat.le_refl k)

/-- `LI r1, 128; LW r2, 0(r1); ADD r3, r2, r1; BEQ r0, r0, 1; LI r3, 9; HALT`, loaded and reset. -/
def hazardProgram : PipelinedCycleDatapath 8 8 (Logic.Memory.upperHalf 8) :=
  ((({} : PipelinedCycleDatapath 8 8 (Logic.Memory.upperHalf 8)).loadInstructions
    [0x1C400080, 0x24840000, 0x04C84000, 0x2C000001, 0x1CC00009, 0x38000000]).resetDatapath)

/-- Five instructions in eleven cycles: the sum waits for the load, and the branch is taken. -/
theorem pipelined_cycles_exact_hazards :
    elapsed step halted 100 hazardProgram = 11 ∧ (hazardProgram.run 10).halted = false ∧
      (hazardProgram.run 11).halted = true := by
  have hhalt : hazardProgram.HaltAt 4 := by decide +kernel
  have hfresh : hazardProgram.Fresh := resetDatapath_fresh ⟨rfl, rfl⟩
  have h15 := sparesR15_of_halt hhalt (by
    intro j hj
    rw [SparesR15]
    interval_cases j <;> decide +kernel)
  have hfirst : ∀ j < 4, ¬hazardProgram.HaltAt j := by decide +kernel
  have hcycles : hazardProgram.cyclesTo 4 = 11 := by decide +kernel
  obtain ⟨helapsed, -⟩ := (pipelined_cycles_exact hfresh h15 100).1 4 hhalt hfirst
  obtain ⟨-, hbusy, -⟩ := (pipelined_cycles_exact hfresh h15 10).1 4 hhalt hfirst
  obtain ⟨-, hdone, -⟩ := (pipelined_cycles_exact hfresh h15 11).1 4 hhalt hfirst
  rw [hcycles] at helapsed hbusy hdone
  refine ⟨helapsed, ?_, hdone.mpr (Nat.le_refl 11)⟩
  rw [← Bool.not_eq_true, hbusy]
  decide

end PipelinedCycleDatapath

end CpuSim.Pipelined
