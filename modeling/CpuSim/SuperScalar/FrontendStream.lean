/-
  CpuSim.SuperScalar.FrontendStream

  The front end seen once per `step()`.  Between steps its registers are at rest
  and hold two things: the bundle presented to decode and the address being
  fetched.  One fetch cycle presents what was being fetched and moves on by two
  instructions, or presents a bubble and moves to the redirect target.
-/

import CpuSim.SuperScalar.HaltFence

namespace CpuSim.SuperScalar

variable {cfg : Config}

/-! ## The registers at rest -/

/-- The bundle fetched at address `pc`. -/
def InstructionMemory.bundleAt {w : Nat} (imem : InstructionMemory w) (pc : Word) : FetchBundle :=
  { pc0 := pc, instruction0 := imem.read pc, valid0 := true,
    pc1 := pc + 4, instruction1 := imem.read (pc + 4), valid1 := true }

namespace Frontend

/-- All one-shot wires are low and the fetch unit drives the address `pc`. -/
structure AtRest (f : Frontend) (pc : Word) : Prop where
  reset : f.reset = false
  enable : f.fdEnable = true
  redirect : f.fetchRedirect = false
  flush : f.fdFlush = false
  level : f.fetchUnit.programCounter.clockHigh = f.clock
  output : f.fetchUnit.programCounter.output = pc
  pc0 : f.fetchUnit.pc0 = pc
  pc1 : f.fetchUnit.pc1 = pc + 4

theorem resetSequence_atRest (f : Frontend) : f.resetSequence.AtRest 0 := by
  refine ⟨rfl, rfl, rfl, rfl, rfl, ?_, ?_, ?_⟩ <;>
    simp [resetSequence, evalClockEdge, evaluateFdReg, evaluateFetchUnit, FetchUnit.evaluate,
      ProgramCounter.evaluate, Logic.mux]

theorem resetSequence_decode (f : Frontend) : f.resetSequence.decodeBundle = {} := by
  simp [resetSequence, evalClockEdge, evaluateFdReg, evaluateFetchUnit, FetchDecodeReg.evaluate,
    Logic.mux, decodeBundle]

/-- One clock edge with nothing requested. -/
theorem fetchCycle_sequential {w : Nat} {f : Frontend} {pc : Word} (h : f.AtRest pc)
    (imem : InstructionMemory w) :
    (f.fetchCycle imem).clearRedirect.AtRest (pc + 8) ∧
      (f.fetchCycle imem).clearRedirect.decodeBundle = imem.bundleAt pc := by
  obtain ⟨h1, h2, h3, h4, h5, h6, h7, h8⟩ := h
  obtain ⟨⟨⟨captured, output, clockHigh⟩, pcNext, pc0, pc1, nextPc, valid0, valid1⟩, fdReg, clock,
    reset, enable, flush, inst0, inst1, hit0, hit1, redirect, redirectPc⟩ := f
  simp only at h1 h2 h3 h4 h5 h6 h7 h8
  subst h1 h2 h3 h4 h5 h6 h7 h8
  cases clockHigh <;>
    refine ⟨⟨rfl, rfl, rfl, rfl, ?_, ?_, ?_, ?_⟩, ?_⟩ <;>
    simp [fetchCycle, clearRedirect, evalClockEdge, evaluateFdReg, evaluateFetchUnit,
      FetchUnit.evaluate, ProgramCounter.evaluate, FetchDecodeReg.evaluate, Logic.mux,
      decodeBundle, InstructionMemory.bundleAt]

/-- One clock edge with a redirect to `target` requested. -/
theorem fetchCycle_redirected {w : Nat} {f : Frontend} {pc : Word} (h : f.AtRest pc)
    (imem : InstructionMemory w) (target : Word) :
    ((f.requestRedirect target).fetchCycle imem).clearRedirect.AtRest target ∧
      ((f.requestRedirect target).fetchCycle imem).clearRedirect.decodeBundle = {} := by
  obtain ⟨h1, h2, h3, h4, h5, h6, h7, h8⟩ := h
  obtain ⟨⟨⟨captured, output, clockHigh⟩, pcNext, pc0, pc1, nextPc, valid0, valid1⟩, fdReg, clock,
    reset, enable, flush, inst0, inst1, hit0, hit1, redirect, redirectPc⟩ := f
  simp only at h1 h2 h3 h4 h5 h6 h7 h8
  subst h1 h2 h3 h4 h5 h6 h7 h8
  cases clockHigh <;>
    refine ⟨⟨rfl, rfl, rfl, rfl, ?_, ?_, ?_, ?_⟩, ?_⟩ <;>
    simp [requestRedirect, fetchCycle, clearRedirect, evalClockEdge, evaluateFdReg,
      evaluateFetchUnit, FetchUnit.evaluate, ProgramCounter.evaluate, FetchDecodeReg.evaluate,
      Logic.mux, decodeBundle]

end Frontend

namespace SuperScalarCPU

variable {s t : SuperScalarCPU cfg}

/-! ## The instruction stream of a run -/

/-- The address the fetch unit drives. -/
def fetchPc (s : SuperScalarCPU cfg) : Word := s.frontend.fetchUnit.pc0

/-- The front end between steps: at rest, and decode sees either a bubble or the
    bundle fetched just before the current address. -/
structure Streaming (s : SuperScalarCPU cfg) : Prop where
  rest : s.frontend.AtRest s.fetchPc
  decode : s.frontend.decodeBundle = {} ∨
    ∃ p, s.frontend.decodeBundle = s.imem.bundleAt p ∧ s.fetchPc = p + 8

/-- The redirect a step asks for: of a recovery, else of a prediction acted on. -/
def redirectTarget (s : SuperScalarCPU cfg) : Option Word :=
  if s.memoryDone.branchRecovered then s.memoryDone.resolvedBranch.map BranchResult.redirectPc
  else if !s.haltDispatched && s.executed.predictionResult.redirect then
    some s.executed.predictionResult.redirectPc
  else none

theorem branchCase_frontend (hc : BranchCase s t) :
    t.frontend =
      if s.branchRecovered then
        s.frontend.requestRedirect ((s.resolvedBranch.map BranchResult.redirectPc).getD 0)
      else s.frontend := by
  cases hc with
  | none hi ht => rw [ht, branchRecovered_none hi]; rfl
  | correct i hi hm ht =>
      rw [ht, branchRecovered_some hi, hm]
      rfl
  | mispredicted i hi hm pre b post _ _ hr =>
      rw [hr.frame, branchRecovered_some hi, hm]
      simp [resolvedBranch, hi]

theorem dispatchStage_frontend (s : SuperScalarCPU cfg) (recovered : Bool) :
    (s.dispatchStage recovered).frontend =
      if renameActive recovered s && s.predictionResult.redirect then
        s.frontend.requestRedirect s.predictionResult.redirectPc
      else s.frontend := by
  have hp : s.predictRedirect.frontend =
      if s.predictionResult.redirect then
        s.frontend.requestRedirect s.predictionResult.redirectPc
      else s.frontend := by
    rw [predictRedirect]
    split <;> rfl
  rw [dispatchStage]
  cases ha : renameActive recovered s with
  | false => simp
  | true =>
      simp only [if_true, Bool.true_and]
      rw [← hp]
      split
      · rw [dispatchLanes]
        split
        · rw [dispatchLane_frame, dispatchLane_frame s.predictRedirect.afterRename, afterRename]
        · rw [dispatchLane_frame, afterRename]
      · rfl

/-- The front end when fetch starts. -/
theorem Steps.fetch_frontend (h : Steps s) :
    (s.executed.dispatchStage s.memoryDone.branchRecovered).frontend =
      match s.redirectTarget with
      | some target => s.frontend.requestRedirect target
      | none => s.frontend := by
  obtain ⟨es, hes⟩ := h.commits
  have hmem : s.memoryDone.frontend = s.frontend :=
    (memoryCase_frame h.memoryCase).1.trans hes.frontend
  have hexec : s.executed.frontend = s.memoryDone.branchStage.frontend := by
    rw [executed, aluStage_frame]
  rw [dispatchStage_frontend, hexec, branchCase_frontend h.branchCase, h.renameActive_eq, hmem,
    redirectTarget]
  cases hr : s.memoryDone.branchRecovered with
  | true =>
      obtain ⟨b, hb⟩ : ∃ b, s.memoryDone.resolvedBranch = some b := by
        cases hres : s.memoryDone.resolvedBranch with
        | none => simp [branchRecovered, hres] at hr
        | some b => exact ⟨b, rfl⟩
      simp [hb]
  | false =>
      cases hp : s.executed.predictionResult.redirect <;> cases hd : s.haltDispatched <;> simp

theorem Steps.next_imem (h : Steps s) : s.next.imem = s.imem := by
  obtain ⟨es, hes⟩ := h.commits
  rw [h.next_eq, fetchStage, dispatchStage_frame]
  dsimp only
  rw [executed, aluStage_frame]
  dsimp only
  rw [branchCase_frame h.branchCase]
  exact (memoryCase_frame h.memoryCase).2.2.2.1.trans hes.imem

/-- The stages before fetch leave the instruction memory alone. -/
theorem Steps.fetch_imem (h : Steps s) :
    (s.executed.dispatchStage s.memoryDone.branchRecovered).imem = s.imem := by
  have := h.next_imem
  rwa [h.next_eq] at this

/-- The front end after a step. -/
theorem Steps.next_frontend (h : Steps s) :
    s.next.frontend = ((match s.redirectTarget with
      | some target => s.frontend.requestRedirect target
      | none => s.frontend).fetchCycle s.imem).clearRedirect := by
  rw [h.next_eq, fetchStage]
  dsimp only
  rw [h.fetch_imem, h.fetch_frontend]

/-- Without a redirect the next bundle is presented. -/
theorem Streaming.sequential (hs : Streaming s) (h : Steps s) (hr : s.redirectTarget = none) :
    s.next.frontend.decodeBundle = s.imem.bundleAt s.fetchPc ∧ s.next.fetchPc = s.fetchPc + 8 ∧
      s.next.frontend.AtRest (s.fetchPc + 8) := by
  obtain ⟨hrest, hdec⟩ := Frontend.fetchCycle_sequential hs.rest s.imem
  have hnext := h.next_frontend
  rw [hr] at hnext
  refine ⟨by rw [hnext]; exact hdec, ?_, by rw [hnext]; exact hrest⟩
  rw [SuperScalarCPU.fetchPc, hnext]
  exact hrest.pc0

/-- A redirect presents a bubble and fetches from its target. -/
theorem Streaming.redirected (hs : Streaming s) (h : Steps s) {target : Word}
    (hr : s.redirectTarget = some target) :
    s.next.frontend.decodeBundle = {} ∧ s.next.fetchPc = target ∧
      s.next.frontend.AtRest target := by
  obtain ⟨hrest, hdec⟩ := Frontend.fetchCycle_redirected hs.rest s.imem target
  have hnext := h.next_frontend
  rw [hr] at hnext
  refine ⟨by rw [hnext]; exact hdec, ?_, by rw [hnext]; exact hrest⟩
  rw [SuperScalarCPU.fetchPc, hnext]
  exact hrest.pc0

theorem Streaming.next (hs : Streaming s) (h : Steps s) : Streaming s.next := by
  cases hr : s.redirectTarget with
  | none =>
      obtain ⟨hdec, hpc, hrest⟩ := hs.sequential h hr
      exact ⟨by rw [hpc]; exact hrest, Or.inr ⟨s.fetchPc, by rw [h.next_imem, hdec], hpc⟩⟩
  | some target =>
      obtain ⟨hdec, hpc, hrest⟩ := hs.redirected h hr
      exact ⟨by rw [hpc]; exact hrest, Or.inl hdec⟩

theorem Streaming.boot (cfg : Config) (words : List Word) (data : List (Nat × Word)) :
    Streaming (boot cfg words data) := by
  rw [boot_frame]
  have hrest := Frontend.resetSequence_atRest (construct cfg).frontend
  have hpc : ((construct cfg).loadProgram words).fetchPc = 0 := hrest.pc0
  exact ⟨hpc ▸ hrest, Or.inl (Frontend.resetSequence_decode _)⟩

/-- Every state of a run streams. -/
theorem run_streaming (cfg : Config) (words : List Word) (data : List (Nat × Word)) (n : Nat) :
    Streaming (run (boot cfg words data) n) := by
  induction n with
  | zero => exact Streaming.boot cfg words data
  | succ n ih =>
      show Streaming (run (boot cfg words data) n).next
      by_cases hh : (run (boot cfg words data) n).halted = true
      · rw [SuperScalarCPU.next, if_pos hh]
        exact ⟨ih.rest, ih.decode⟩
      · exact ih.next (run_steps (eq_false_of_ne_true hh))

/-- The instruction memory is the loaded program throughout. -/
theorem run_imem (cfg : Config) (words : List Word) (data : List (Nat × Word)) (n : Nat) :
    (run (boot cfg words data) n).imem = ⟨words⟩ := by
  induction n with
  | zero => rw [run, boot_frame]; rfl
  | succ n ih =>
      show (run (boot cfg words data) n).next.imem = _
      by_cases hh : (run (boot cfg words data) n).halted = true
      · rw [SuperScalarCPU.next, if_pos hh]
        exact ih
      · rw [(run_steps (eq_false_of_ne_true hh)).next_imem, ih]

end SuperScalarCPU

end CpuSim.SuperScalar
