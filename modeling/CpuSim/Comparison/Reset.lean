/-
  CpuSim.Comparison.Reset

  What `reset()` leaves behind on each of the four CPUs.  Three of them drive a clock edge
  under reset; the single-cycle CPU does not, so its program counter keeps its value.
-/

import CpuSim.MultiCycle.InstructionCycle
import CpuSim.Pipelined.Refinement
import CpuSim.SingleCycle.InstructionCycle
import CpuSim.SuperScalar.FrontendStream

namespace CpuSim

/-! ## The single-cycle CPU -/

namespace SingleCycle.SingleCycleCPU

variable {iw w : Nat} {writable : Nat → Bool}

/-- The states of the CPU. -/
inductive Reached : SingleCycleCPU iw w writable → Prop where
  | constructed (contents : Nat → Word) :
      Reached { datapath := { dataMem := { contents := contents } } }
  | load {c : SingleCycleCPU iw w writable} (h : Reached c) (instructions : List Word) :
      Reached (c.loadProgram instructions)
  | reset {c : SingleCycleCPU iw w writable} (h : Reached c) : Reached c.reset
  | step {c : SingleCycleCPU iw w writable} (h : Reached c) : Reached c.step
  | run {c : SingleCycleCPU iw w writable} (h : Reached c) (maxCycles : Nat) :
      Reached (c.run maxCycles)

theorem step_atRest {c : SingleCycleCPU iw w writable} (h : c.datapath.AtRest) :
    c.step.datapath.AtRest := by
  rw [step]
  split
  · exact h
  · exact (SingleCycleDatapath.cycle_software h).1

theorem steps_atRest {c : SingleCycleCPU iw w writable} (h : c.datapath.AtRest) (n : Nat) :
    (c.steps n).datapath.AtRest := by
  induction n with
  | zero => exact h
  | succ n ih => exact step_atRest ih

/-- Every operation leaves the clock and the reset wire LOW. -/
theorem Reached.atRest {c : SingleCycleCPU iw w writable} (h : Reached c) :
    c.datapath.AtRest := by
  induction h with
  | constructed => exact ⟨rfl, rfl⟩
  | load h _ ih => exact ⟨ih.clock, ih.reset⟩
  | reset h ih => exact ⟨ih.clock, rfl⟩
  | step h ih => exact step_atRest ih
  | run h n ih =>
      rw [run_eq_steps]
      exact steps_atRest ih n

/-- After `reset()` the CPU is at address 0, not halted, and first executes the instruction
    there, the one a constructed and reset CPU with the same program has decoded. -/
structure ResetComplete (c : SingleCycleCPU iw w writable) : Prop where
  pc : c.reset.pc = 0
  halted : c.reset.halted = false
  first : c.reset.step.datapath.architecture =
    { c.reset.datapath.architecture with pc := 0 }.step (machine w writable) c.reset.datapath.fetch
  fresh :
    let fresh : SingleCycleCPU iw w writable :=
      { datapath := { instructionMem := c.datapath.instructionMem } }
    c.reset.pc = fresh.reset.pc ∧ c.reset.halted = fresh.reset.halted ∧
      c.reset.datapath.decodedInstruction = fresh.reset.datapath.decodedInstruction ∧
      c.reset.datapath.control = fresh.reset.datapath.control

/-- Without a clock edge program counter, registers and memory keep their values. -/
theorem reset_architecture {c : SingleCycleCPU iw w writable} (h : c.datapath.AtRest) :
    c.reset.datapath.architecture = c.datapath.architecture := by
  obtain ⟨hclock, hreset⟩ := h
  cases c with
  | mk d halted =>
      cases d with
      | mk clock reset pc rom rf dataMem decoded control =>
          dsimp only at hclock hreset
          subst hclock hreset
          rfl

theorem reset_pc {c : SingleCycleCPU iw w writable} (h : c.datapath.AtRest) :
    c.reset.pc = c.pc := congrArg Isa.State.pc (reset_architecture h)

/-- What `reset()` has decoded depends on the program counter and the program alone. -/
theorem reset_decoded {c : SingleCycleCPU iw w writable} (h : c.datapath.AtRest) :
    c.reset.datapath.decodedInstruction =
        InstructionDecoder.decode ⟨c.datapath.instructionMem (Logic.Memory.wordOf iw c.pc)⟩ ∧
      c.reset.datapath.control =
        ControlSignals.generate c.reset.datapath.decodedInstruction := by
  obtain ⟨hclock, hreset⟩ := h
  cases c with
  | mk d halted =>
      cases d with
      | mk clock reset pc rom rf dataMem decoded control =>
          dsimp only at hclock hreset
          subst hclock hreset
          exact ⟨rfl, rfl⟩

/-- The reset is complete exactly when the program counter was 0 before it. -/
theorem resetComplete_iff {c : SingleCycleCPU iw w writable} (h : Reached c) :
    c.ResetComplete ↔ c.pc = 0 := by
  have hpc := reset_pc h.atRest
  constructor
  · intro hc
    rw [← hpc]
    exact hc.pc
  · intro h0
    rw [h0] at hpc
    refine ⟨hpc, rfl, ?_, ?_⟩
    · have hstep : c.reset.step.datapath = c.reset.datapath.cycle := rfl
      rw [hstep, SingleCycleDatapath.cycle_architecture h.reset.atRest, ← hpc]
      rfl
    · obtain ⟨hdecoded, hcontrol⟩ := reset_decoded h.atRest
      rw [h0] at hdecoded
      refine ⟨hpc, rfl, hdecoded, ?_⟩
      rw [hcontrol, hdecoded]
      rfl

end SingleCycle.SingleCycleCPU

/-! ## The multi-cycle CPU -/

namespace MultiCycle.MultiCycleCPU

open MultiCycleDatapath

variable {w : Nat} {writable : Nat → Bool}

/-- The states of the CPU. -/
inductive Reached : MultiCycleDatapath w writable → Prop where
  | constructed (contents : Nat → Word) : Reached { memory := { contents := contents } }
  | load {d : MultiCycleDatapath w writable} (h : Reached d) (instructions : List Word) :
      Reached (d.loadInstructions instructions)
  | reset {d : MultiCycleDatapath w writable} (h : Reached d) : Reached d.resetDatapath
  | step {d : MultiCycleDatapath w writable} (h : Reached d) : Reached (MultiCycleCPU.step d)
  | run {d : MultiCycleDatapath w writable} (h : Reached d) (maxCycles : Nat) :
      Reached (d.run maxCycles)

/-- At rest, with a control word of a state that is not `HALT`. -/
structure Idle (d : MultiCycleDatapath w writable) : Prop where
  rest : d.AtRest
  control : d.control.halt = false

theorem generate_halt (f : FSMControlUnit) (i : DecodedInstruction) (h : f.isHalted = false) :
    (f.generate i).halt = false := by
  unfold FSMControlUnit.isHalted at h
  unfold FSMControlUnit.generate
  revert h
  cases f.currentState <;> first | exact fun _ => rfl | exact nofun

theorem Idle.stepCycle {d : MultiCycleDatapath w writable} (h : Idle d)
    (hrun : d.fsm.isHalted = false) : Idle d.stepCycle := by
  have hrest : AtRest { d with control := d.fsm.generate d.decodedInstruction } :=
    ⟨h.rest.clock, h.rest.reset⟩
  obtain ⟨hrest', hcontrol, -, -⟩ := step_software hrest
  have hword : d.stepCycle.control = d.fsm.generate d.decodedInstruction := hcontrol
  refine ⟨⟨hrest'.clock, hrest'.reset⟩, ?_⟩
  rw [hword]
  exact generate_halt _ _ hrun

theorem Idle.run {d : MultiCycleDatapath w writable} (h : Idle d) (n : Nat) : Idle (d.run n) := by
  induction n generalizing d with
  | zero => exact h
  | succ n ih =>
      rw [MultiCycleDatapath.run]
      split
      · exact h
      · next hrun => exact ih (h.stepCycle (Bool.not_eq_true _ ▸ hrun))

/-- The halted flag is the one of the state machine. -/
theorem Idle.halted_eq {d : MultiCycleDatapath w writable} (h : Idle d) :
    d.halted = d.fsm.isHalted := by
  rw [halted, h.control, Bool.false_or]

/-- The CPU never clocks a halted state machine. -/
theorem Reached.idle {d : MultiCycleDatapath w writable} (h : Reached d) : Idle d := by
  induction h with
  | constructed => exact ⟨⟨rfl, rfl⟩, rfl⟩
  | load h _ ih => exact ⟨⟨ih.rest.clock, ih.rest.reset⟩, ih.control⟩
  | reset h ih =>
      refine ⟨⟨?_, rfl⟩, ih.control⟩
      show (!!_) = false
      rw [Bool.not_not]
      exact ih.rest.clock
  | @step d h ih =>
      rw [MultiCycleCPU.step]
      split
      · exact ih
      · next hrun =>
          rw [ih.halted_eq, Bool.not_eq_true] at hrun
          exact ih.stepCycle hrun
  | run h n ih => exact ih.run n

/-- After `reset()` the CPU is at address 0, not halted, and first executes the instruction
    there; but for the memory it is a constructed and reset CPU. -/
structure ResetComplete (d : MultiCycleDatapath w writable) : Prop where
  pc : d.resetDatapath.programCounter.output = 0
  halted : d.resetDatapath.halted = false
  first :
    let i := InstructionDecoder.decode
      ⟨d.resetDatapath.memory.contents (Logic.Memory.wordOf w 0)⟩
    (d.resetDatapath.cycles (cyclesOf i.opcode)).architecture =
      d.resetDatapath.architecture.exec (machine w writable) i
  fresh :
    let fresh : MultiCycleDatapath w writable :=
      { memory := { contents := d.resetDatapath.memory.contents } }
    d.resetDatapath.outputs = fresh.resetDatapath.outputs ∧
      d.resetDatapath.fsm = fresh.resetDatapath.fsm

/-- What `reset()` drives, whatever was running. -/
theorem reset_outputs {d : MultiCycleDatapath w writable} (h : d.AtRest) :
    d.resetDatapath.outputs =
      { pc := 0, instructionRegister := 0, memoryDataRegister := 0, operandA := 0, operandB := 0
        aluOut := 0, regs := fun _ => 0, memory := d.resetDatapath.memory.contents } := by
  obtain ⟨hclock, -⟩ := h
  cases d
  dsimp only at hclock
  subst hclock
  rfl

theorem resetComplete {d : MultiCycleDatapath w writable} (h : Reached d) : ResetComplete d := by
  have hout := reset_outputs h.idle.rest
  have hpc : d.resetDatapath.programCounter.output = 0 := congrArg Outputs.pc hout
  refine ⟨hpc, ?_, ?_, ?_⟩
  · show (d.control.halt || false) = false
    rw [h.idle.control]
    rfl
  · have hat : d.resetDatapath.At .FETCH d.resetDatapath.outputs :=
      ⟨h.reset.idle.rest, rfl, rfl, fun hne => absurd rfl hne⟩
    obtain ⟨o', hruns, harch⟩ := hat.instruction
    rw [← hpc]
    exact hruns.reach.architecture_eq.trans harch.symm
  · have hfresh := @reset_outputs w writable
      { memory := { contents := d.resetDatapath.memory.contents } } ⟨rfl, rfl⟩
    exact ⟨hout.trans hfresh.symm, rfl⟩

end MultiCycle.MultiCycleCPU

/-! ## The pipelined CPU -/

namespace Pipelined.PipelinedCycleDatapath

variable {iw w : Nat} {writable : Nat → Bool}

/-- The states of the CPU. -/
inductive Reached : PipelinedCycleDatapath iw w writable → Prop where
  | constructed (contents : Nat → Word) : Reached { dataMem := { contents := contents } }
  | load {d : PipelinedCycleDatapath iw w writable} (h : Reached d) (instructions : List Word) :
      Reached (d.loadInstructions instructions)
  | reset {d : PipelinedCycleDatapath iw w writable} (h : Reached d) : Reached d.resetDatapath
  | step {d : PipelinedCycleDatapath iw w writable} (h : Reached d) : Reached d.step
  | run {d : PipelinedCycleDatapath iw w writable} (h : Reached d) (maxCycles : Nat) :
      Reached (d.run maxCycles)

theorem step_atRest {d : PipelinedCycleDatapath iw w writable} (h : d.AtRest) :
    d.step.AtRest := by
  cases hhalted : d.halted with
  | false => exact (step_outputs h hhalted).1
  | true =>
      rw [step_of_halted hhalted]
      exact h

theorem steps_atRest {d : PipelinedCycleDatapath iw w writable} (h : d.AtRest) (n : Nat) :
    (d.steps n).AtRest := by
  induction n with
  | zero => exact h
  | succ n ih => exact step_atRest ih

/-- Every operation leaves the clock and the reset wire LOW. -/
theorem Reached.atRest {d : PipelinedCycleDatapath iw w writable} (h : Reached d) :
    d.AtRest := by
  induction h with
  | constructed => exact ⟨rfl, rfl⟩
  | load h _ ih => exact ⟨ih.clock, ih.reset⟩
  | reset h ih => exact (resetDatapath_fresh ih).rest
  | step h ih => exact step_atRest ih
  | run h n ih =>
      rw [run_eq_steps]
      exact steps_atRest ih n

/-- After `reset()` the CPU is at address 0, not halted, and the first instruction in the
    execute stage is the one there; but for the memory it is a constructed and reset CPU with
    the same program. -/
structure ResetComplete (d : PipelinedCycleDatapath iw w writable) : Prop where
  pc : d.resetDatapath.programCounter.output = 0
  halted : d.resetDatapath.halted = false
  empty : ∀ n ≤ 1, Bubble (d.resetDatapath.steps n).outputs
  first : Executing (instructionAt d.fetched 0) 0 (d.resetDatapath.steps 2).outputs
  fresh :
    let fresh : PipelinedCycleDatapath iw w writable :=
      { instructionMem := d.instructionMem
        dataMem := { contents := d.resetDatapath.dataMem.contents } }
    d.resetDatapath.outputs = fresh.resetDatapath.outputs ∧
      d.resetDatapath.instructionMem = fresh.resetDatapath.instructionMem

/-- What `reset()` drives, whatever was in flight. -/
theorem reset_outputs {d : PipelinedCycleDatapath iw w writable} (h : d.AtRest) :
    d.resetDatapath.outputs =
      { pc := 0, ifId := {}, idEx := {}, exMem := {}, memWb := {}, regs := fun _ => 0
        memory := d.resetDatapath.dataMem.contents
        idOpcode := .NOP, exOpcode := .NOP, memOpcode := .NOP, wbOpcode := .NOP } := by
  obtain ⟨hclock, -⟩ := h
  cases d
  dsimp only at hclock
  subst hclock
  rfl

/-- A fresh pipeline fetches and decodes its first instruction in two steps. -/
theorem Fresh.first {d : PipelinedCycleDatapath iw w writable} (h : d.Fresh) :
    (∀ n ≤ 1, Bubble (d.steps n).outputs) ∧
      Executing (instructionAt d.fetched 0) 0 (d.steps 2).outputs := by
  obtain ⟨-, hfront, hdrain⟩ := h.running
  have hnot : d.halted = false := beq_eq_false_iff_ne.mpr hdrain.wbOpcode
  obtain ⟨hrest1, hrom1, readData, hread, hnext⟩ := step_outputs h.rest hnot
  cases hfront with
  | flushed he hd hpc hmem hid =>
      -- the first step fills the decode stage
      have hfront1 : Front d.fetched (d.sequential 0) d.step.outputs 2 := by
        rw [hnext]
        exact front_flushed hdrain he hd hpc hmem hid
      have hdrain1 : d.step.outputs.Draining w writable (d.sequential 0) := by
        rw [hnext]
        exact hdrain.bubble hread he.controls hmem
      cases hfront1 with
      | refilled he1 hd1 hmem1 hid1 =>
          -- the second step moves the instruction on to the execute stage
          have hnot1 : d.step.halted = false := beq_eq_false_iff_ne.mpr hdrain1.wbOpcode
          obtain ⟨-, -, readData1, -, hnext1⟩ := step_outputs hrest1 hnot1
          have hfetched : d.step.fetched = d.fetched := by
            funext pc
            rw [fetched, fetched, hrom1]
          obtain ⟨htaken, hstall⟩ := Bubble.hazard he1.controls
          have hex1 : d.step.outputs.exOpcode ≠ .HALT := by
            rw [he1.opcode]
            decide
          have hfront2 : Front d.fetched (d.sequential 0) d.step.step.outputs 1 := by
            rw [hnext1, hfetched]
            exact front_advance hdrain1 hd1 htaken hstall hid1 hex1 hmem1
          constructor
          · intro n hn
            interval_cases n
            · exact he
            · exact he1
          · cases hfront2 with
            | full he2 => exact he2
            | halting he2 => exact he2

theorem resetComplete {d : PipelinedCycleDatapath iw w writable} (h : Reached d) :
    ResetComplete d := by
  have hfresh := resetDatapath_fresh h.atRest
  obtain ⟨hempty, hfirst⟩ := hfresh.first
  refine ⟨hfresh.pc, ?_, hempty, hfirst, ?_⟩
  · rw [halted, hfresh.wbOpcode]
    rfl
  · have hout := @reset_outputs iw w writable
      { instructionMem := d.instructionMem
        dataMem := { contents := d.resetDatapath.dataMem.contents } } ⟨rfl, rfl⟩
    exact ⟨(reset_outputs h.atRest).trans hout.symm, rfl⟩

end Pipelined.PipelinedCycleDatapath

/-! ## The superscalar CPU -/

namespace SuperScalar.SuperScalarCPU

variable {cfg : Config} {s : SuperScalarCPU cfg}

/-- `reset()` makes a booted machine. -/
theorem Steps.reset (s : SuperScalarCPU cfg) : Steps s.reset :=
  ⟨(Sound.boot cfg [] []).congr rfl rfl rfl rfl, (Fence.boot cfg [] []).congr rfl rfl rfl rfl, rfl⟩

theorem Streaming.reset (s : SuperScalarCPU cfg) : Streaming s.reset := by
  have hrest := Frontend.resetSequence_atRest s.frontend
  have hpc : s.reset.fetchPc = 0 := hrest.pc0
  refine ⟨?_, Or.inl (Frontend.resetSequence_decode _)⟩
  rw [hpc]
  exact hrest

/-- A step with an empty issue queue resolves no branch. -/
theorem Steps.no_branch (h : Steps s) (hempty : s.iq.live = []) :
    s.memoryDone.selectBranch = none := by
  obtain ⟨es, hes⟩ := h.commits
  have hcommitted : s.committed.iq.live = [] := by
    rw [hes.iq]
    exact hempty
  have hno : ∀ i, ¬ s.committed.MemReady i := by
    intro i hi
    have hmem := hi.live
    rw [hcommitted] at hmem
    cases hmem
  have hiq : s.memoryDone.iq.live = [] := by
    have hcase := h.memoryCase
    revert hcase
    generalize s.committed.memUnit.execute.1 = results
    intro hcase
    cases hcase with
    | idle q _ ht =>
        rw [ht]
        exact hcommitted
    | load q i _ hi _ _ ht => exact absurd hi (hno i)
    | store q i _ hi _ _ ht => exact absurd hi (hno i)
  cases hselect : s.memoryDone.selectBranch with
  | none => rfl
  | some i =>
      obtain ⟨-, hlive, -⟩ := selectBranch_some hselect
      rw [hiq] at hlive
      cases hlive

/-- A step with an empty issue queue and an empty decode register redirects nothing. -/
theorem Steps.no_redirect (h : Steps s) (hempty : s.iq.live = [])
    (hdecode : s.frontend.decodeBundle = {}) : s.redirectTarget = none := by
  have hselect := h.no_branch hempty
  have hrecovered := branchRecovered_none hselect
  obtain ⟨es, hes⟩ := h.commits
  have hfrontend : s.executed.frontend = s.frontend := by
    rw [executed, aluStage_frame]
    dsimp only
    rw [branchCase_frontend h.branchCase, hrecovered]
    exact (memoryCase_frame h.memoryCase).1.trans hes.frontend
  have hvalid0 : s.executed.decodeLane0.valid = false := by
    rw [decodeLane0, hfrontend, hdecode]
    rfl
  have hvalid1 : s.executed.decodeLane1.valid = false := by
    rw [decodeLane1, hfrontend, hdecode]
    rfl
  have hpredict : s.executed.predictionResult.redirect = false := by
    rw [predictionResult, hvalid0, hvalid1]
    rfl
  rw [redirectTarget, hrecovered, hpredict, Bool.and_false]
  rfl

/-- After `reset()` the CPU is at address 0, not halted, decodes nothing in its first step and
    the two instructions from address 0 on in its second; but for the hidden wires of the front
    end it is a constructed and reset CPU with the same program. -/
structure ResetComplete (s : SuperScalarCPU cfg) : Prop where
  pc : s.reset.fetchPc = 0
  halted : s.reset.halted = false
  empty : s.reset.frontend.decodeBundle = {}
  first : s.reset.next.frontend.decodeBundle = s.imem.bundleAt 0
  fresh : s.reset =
    { (construct cfg).loadProgram s.imem.contents with
      frontend := s.frontend.resetSequence, rat := s.rat.reset }

theorem resetComplete (s : SuperScalarCPU cfg) : ResetComplete s := by
  have hpc : s.reset.fetchPc = 0 := (Frontend.resetSequence_atRest s.frontend).pc0
  have hdecode : s.reset.frontend.decodeBundle = {} := Frontend.resetSequence_decode s.frontend
  refine ⟨hpc, rfl, hdecode, ?_, rfl⟩
  have hredirect := (Steps.reset s).no_redirect IssueQueue.live_reset hdecode
  obtain ⟨hfirst, -, -⟩ := (Streaming.reset s).sequential (Steps.reset s) hredirect
  rw [hfirst, hpc]
  rfl

end SuperScalar.SuperScalarCPU

/-! ## All four -/

/-- A reset is complete on every organisation but the single-cycle one, and there exactly when
    the program counter was 0 already. -/
theorem reset_complete {iw w : Nat} {writable : Nat → Bool} {cfg : SuperScalar.Config} :
    (∀ c : SingleCycle.SingleCycleCPU iw w writable, c.Reached → (c.ResetComplete ↔ c.pc = 0)) ∧
      (∀ d : MultiCycle.MultiCycleDatapath w writable,
        MultiCycle.MultiCycleCPU.Reached d → MultiCycle.MultiCycleCPU.ResetComplete d) ∧
      (∀ d : Pipelined.PipelinedCycleDatapath iw w writable, d.Reached → d.ResetComplete) ∧
      ∀ s : SuperScalar.SuperScalarCPU cfg, s.ResetComplete := by
  refine ⟨?_, ?_, ?_, ?_⟩
  · intro c h
    exact SingleCycle.SingleCycleCPU.resetComplete_iff h
  · intro d h
    exact MultiCycle.MultiCycleCPU.resetComplete h
  · intro d h
    exact Pipelined.PipelinedCycleDatapath.resetComplete h
  · exact SuperScalar.SuperScalarCPU.resetComplete

/-- `LI r1, 7; HALT`, on a constructed single-cycle CPU. -/
def loadedLi : SingleCycle.SingleCycleCPU 8 8 (Logic.Memory.upperHalf 8) :=
  SingleCycle.SingleCycleCPU.loadProgram { datapath := {} } [0x1C400007, 0x38000000]

theorem loadedLi_reached : loadedLi.Reached :=
  .load (.constructed fun _ => 0) _

/-- `LI r1, 7; J -1`, a loop, on the same CPU. -/
def loadedLoop : SingleCycle.SingleCycleCPU 8 8 (Logic.Memory.upperHalf 8) :=
  loadedLi.loadProgram [0x1C400007, 0x37FFFFFF]

/-- The reset of a CPU that has come back to address 0 is complete; its registers keep what
    the run has left in them. -/
theorem reset_complete_li :
    (loadedLoop.run 2).Reached ∧ (loadedLoop.run 2).ResetComplete ∧
      (loadedLoop.run 2).reset.datapath.registerFile.read 1 = 7 := by
  have h := @reset_complete 8 8 (Logic.Memory.upperHalf 8) .default
  have hreached : (loadedLoop.run 2).Reached := .run (.load loadedLi_reached _) 2
  exact ⟨hreached, (h.1 _ hreached).mpr (by decide), by decide⟩

/-- Once the program has run, a reset leaves the single-cycle CPU at its `HALT`. -/
theorem reset_not_complete :
    (loadedLi.run 10).Reached ∧ (loadedLi.run 10).halted = true ∧
      (loadedLi.run 10).reset.pc = 1 ∧ (loadedLi.run 10).reset.step.halted = true ∧
      ¬ (loadedLi.run 10).ResetComplete := by
  have hpc : (loadedLi.run 10).reset.pc = 1 := by decide +kernel
  refine ⟨.run loadedLi_reached 10, by decide +kernel, hpc, by decide +kernel, ?_⟩
  intro h
  have hzero := h.pc
  rw [hpc] at hzero
  revert hzero
  decide

end CpuSim
