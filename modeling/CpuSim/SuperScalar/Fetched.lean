/-
  CpuSim.SuperScalar.Fetched

  What flows from fetch into the window: every entry carries the word of the
  program at its address, the two lanes of a step are consecutive words, and the
  branch target buffer only ever holds targets of branches of the program.
-/

import CpuSim.SuperScalar.StepWindow

namespace CpuSim.SuperScalar

variable {cfg : Config}

/-! ## The prediction unit -/

/-- The instruction at `pc`, decoded. -/
def InstructionMemory.decodedAt {w : Nat} (imem : InstructionMemory w) (pc : Word) :
    DecodeBundle := decodeWord pc (imem.read pc)

/-- Every valid entry of the branch target buffer holds the target of the branch its
    tag addresses. -/
def BranchPredictor.Trained {n w : Nat} (predictor : BranchPredictor n)
    (imem : InstructionMemory w) : Prop :=
  ∀ i, (predictor.btb i).valid = true →
    (predictor.btb i).target =
      (predictor.btb i).tag + (imem.decodedAt (predictor.btb i).tag).immediate

namespace BranchPredictor

variable {n w : Nat} {predictor : BranchPredictor n} {imem : InstructionMemory w}

theorem trained_reset : (reset : BranchPredictor n).Trained imem := fun i hv => by
  cases hv

theorem Trained.predict (h : predictor.Trained imem) {pc : Word}
    (hhit : (predictor.predict pc).btbHit = true) :
    (predictor.predict pc).target = pc + (imem.decodedAt pc).immediate := by
  simp only [BranchPredictor.predict] at hhit ⊢
  rw [if_pos hhit]
  rw [Bool.and_eq_true, beq_iff_eq] at hhit
  have := h _ hhit.1
  rwa [hhit.2] at this

/-- A valid entry of the target buffer behind an update was there before, or is the one
    written. -/
theorem update_entry (pc target : Word) (taken : Bool) (i : Nat)
    (hv : ((predictor.update pc taken target).btb i).valid = true) :
    ((predictor.btb i).valid = true ∧
        (predictor.update pc taken target).btb i = predictor.btb i) ∨
      (((predictor.update pc taken target).btb i).tag = pc ∧
        ((predictor.update pc taken target).btb i).target = target) := by
  cases taken with
  | false => exact Or.inl ⟨hv, rfl⟩
  | true =>
      simp only [BranchPredictor.update, if_true] at hv ⊢
      by_cases hi : i = hash n pc
      · rw [hi, Function.update_self]
        exact Or.inr ⟨rfl, rfl⟩
      · rw [Function.update_of_ne hi] at hv ⊢
        exact Or.inl ⟨hv, rfl⟩

theorem Trained.update (h : predictor.Trained imem) (pc : Word) (taken : Bool) :
    (predictor.update pc taken (pc + (imem.decodedAt pc).immediate)).Trained imem := by
  intro i hv
  rcases update_entry pc _ taken i hv with ⟨hold, heq⟩ | ⟨htag, htarget⟩
  · rw [heq]
    exact h i hold
  · rw [htag, htarget]

end BranchPredictor

/-- A redirect goes to the older lane that is predicted taken with a hit. -/
theorem BranchPredictionUnit.evaluate_redirect {n : Nat} (predictor : BranchPredictor n)
    (pc0 : Word) (valid0 : Bool) (flow0 : ControlFlow) (pc1 : Word) (valid1 : Bool)
    (flow1 : ControlFlow) :
    let r := evaluate predictor pc0 valid0 flow0 pc1 valid1 flow1
    (r.redirect && r.redirectLane == 0) = (r.lane0.taken && r.lane0.btbHit) ∧
      r.redirect =
        (r.lane0.taken && r.lane0.btbHit || r.lane1.taken && r.lane1.btbHit) ∧
      (r.redirect = true → r.redirectPc =
        if r.lane0.taken && r.lane0.btbHit then r.lane0.target else r.lane1.target) := by
  cases h0 : valid0 && isControlFlow flow0 <;> cases h1 : valid1 && isControlFlow flow1 <;>
    cases t0 : (predictor.predict pc0).taken <;> cases b0 : (predictor.predict pc0).btbHit <;>
    cases t1 : (predictor.predict pc1).taken <;> cases b1 : (predictor.predict pc1).btbHit <;>
    simp [evaluate, h0, h1, t0, b0, t1, b1]

/-- Each control-flow lane gets the prediction for its own address. -/
theorem BranchPredictionUnit.evaluate_lanes {n : Nat} (predictor : BranchPredictor n)
    (pc0 : Word) (valid0 : Bool) (flow0 : ControlFlow) (pc1 : Word) (valid1 : Bool)
    (flow1 : ControlFlow) :
    let r := evaluate predictor pc0 valid0 flow0 pc1 valid1 flow1
    (r.lane0 = if valid0 && isControlFlow flow0 then predictor.predict pc0 else {}) ∧
      (r.lane1 = if valid1 && isControlFlow flow1 then predictor.predict pc1 else {}) := by
  cases h0 : valid0 && isControlFlow flow0 <;> cases h1 : valid1 && isControlFlow flow1 <;>
    cases t0 : (predictor.predict pc0).taken <;> cases b0 : (predictor.predict pc0).btbHit <;>
    cases t1 : (predictor.predict pc1).taken <;> cases b1 : (predictor.predict pc1).btbHit <;>
    simp [evaluate, h0, h1, t0, b0, t1, b1]

/-- The target of a prediction with a hit is the target of the branch at that lane. -/
theorem BranchPredictor.Trained.evaluate {n w : Nat} {predictor : BranchPredictor n}
    {imem : InstructionMemory w} (h : predictor.Trained imem) (pc0 : Word) (valid0 : Bool)
    (flow0 : ControlFlow) (pc1 : Word) (valid1 : Bool) (flow1 : ControlFlow) :
    let r := BranchPredictionUnit.evaluate predictor pc0 valid0 flow0 pc1 valid1 flow1
    (r.lane0.btbHit = true → r.lane0.target = pc0 + (imem.decodedAt pc0).immediate) ∧
      (r.lane1.btbHit = true → r.lane1.target = pc1 + (imem.decodedAt pc1).immediate) := by
  obtain ⟨h0, h1⟩ :=
    BranchPredictionUnit.evaluate_lanes predictor pc0 valid0 flow0 pc1 valid1 flow1
  dsimp only
  rw [h0, h1]
  constructor
  · split
    · exact h.predict
    · intro hhit
      cases hhit
  · split
    · exact h.predict
    · intro hhit
      cases hhit

namespace SuperScalarCPU

variable {s t : SuperScalarCPU cfg}

/-! ## What was fetched, and what the predictor learned -/

/-- Entries carry the words of the program, and the target buffer their targets. -/
structure Fetched (s : SuperScalarCPU cfg) : Prop where
  window : ∀ e ∈ s.rob.window, e.instruction = s.imem.read e.pc
  trained : s.predictor.Trained s.imem

namespace Fetched

theorem congr (h : Fetched s) (hrob : t.rob = s.rob) (himem : t.imem = s.imem)
    (hpred : t.predictor = s.predictor) : Fetched t :=
  ⟨by rw [hrob, himem]; exact h.window, by rw [himem, hpred]; exact h.trained⟩

theorem commit (h : Fetched s) {es : List ROBEntry} (hc : Commits s t es) : Fetched t := by
  refine ⟨fun e he => ?_, by rw [hc.imem, hc.predictor]; exact h.trained⟩
  rw [hc.imem]
  refine h.window e ?_
  rw [hc.window]
  exact List.mem_append_right _ he

theorem finish (h : Fetched s) (hs : Sound s) (i : Nat) (r : Word) : Fetched (s.finish i r) :=
  ⟨hs.forall_finish i r h.window fun _ he => he, h.trained⟩

theorem memory {rs : List MemoryResult} (h : Fetched s) (hs : Sound s)
    (hc : MemoryCase s t rs) : Fetched t :=
  hc.preserves h (fun i r _ _ => h.finish hs i r) fun _ _ _ hu => hu.congr rfl rfl rfl

/-- The target of the branch in slot `i` is the one its word encodes. -/
theorem branchTarget (h : Fetched s) (hs : Sound s) {i : Nat} (hi : s.selectBranch = some i) :
    (s.branchResult i).targetPc =
      (s.branchResult i).pc + (s.imem.decodedAt (s.branchResult i).pc).immediate := by
  obtain ⟨-, hlive, -, -, -⟩ := selectBranch_some hi
  obtain ⟨b, hb, -, hm⟩ := hs.inFlight.backed _ hlive
  have hword : (s.iq.entries i).instruction = s.imem.read (s.iq.entries i).pc := by
    rw [hm.instruction, hm.pc, h.window b hb]
  show (s.iq.entries i).pc + (s.iq.entries i).immediate =
    (s.iq.entries i).pc + (s.imem.decodedAt (s.iq.entries i).pc).immediate
  rw [(hs.inFlight.queueDecoded _ hlive).immediate, hword]
  rfl

theorem branch (h : Fetched s) (hs : Sound s) (hc : BranchCase s t) : Fetched t := by
  cases hc with
  | none _ ht => rw [ht]; exact h
  | correct i hi _ ht =>
      have hfin := h.finish hs i (s.branchResult i).targetPc
      rw [ht, hs.resolveBranch_eq hi]
      refine ⟨hfin.window, ?_⟩
      dsimp only
      -- the predictor is trained with the decoded target
      rw [h.branchTarget hs hi]
      exact h.trained.update _ _
  | mispredicted i hi _ pre b post _ _ hr =>
      refine ⟨?_, ?_⟩
      · rw [hr.frame]
        dsimp only
        rw [hr.window]
        intro e he
        rcases List.mem_append.mp he with he | he
        · exact h.window e (by rw [hr.split]; exact List.mem_append_left _ he)
        · rw [List.mem_singleton.mp he]
          exact h.window b (by rw [hr.split]; simp)
      · rw [hr.frame]
        dsimp only
        rw [h.branchTarget hs hi]
        exact h.trained.update _ _

theorem executed (h : Fetched s) (hs : Steps s) : Fetched s.executed := by
  obtain ⟨es, hes⟩ := hs.commits
  have hmem := (h.commit hes).memory hs.sound_committed hs.memoryCase
  have hbranch := hmem.branch hs.sound_memoryDone hs.branchCase
  have hboth : Sound s.executed ∧ Fetched s.executed :=
    aluStage_induction (P := fun t => Sound t ∧ Fetched t) ⟨hs.sound_branchDone, hbranch⟩
      fun t i ht hi => ⟨ht.1.executeAlu hi, by
        rw [executeAlu_eq]
        exact ht.2.finish ht.1 i _⟩
  exact hboth.2

end Fetched

/-! ## The inputs of a lane -/

/-- When and where the prediction unit redirects, for the lanes of this step. -/
theorem predictionResult_redirect (s : SuperScalarCPU cfg) :
    (s.predictionResult.redirect && s.predictionResult.redirectLane == 0) =
        (s.predictionResult.lane0.taken && s.predictionResult.lane0.btbHit) ∧
      s.predictionResult.redirect =
        (s.predictionResult.lane0.taken && s.predictionResult.lane0.btbHit ||
          s.predictionResult.lane1.taken && s.predictionResult.lane1.btbHit) ∧
      (s.predictionResult.redirect = true → s.predictionResult.redirectPc =
        if s.predictionResult.lane0.taken && s.predictionResult.lane0.btbHit then
          s.predictionResult.lane0.target
        else s.predictionResult.lane1.target) :=
  BranchPredictionUnit.evaluate_redirect _ _ _ _ _ _ _

theorem Fetched.predictionResult_target (h : Fetched s) :
    (s.predictionResult.lane0.btbHit = true → s.predictionResult.lane0.target =
        s.decodeLane0.pc + (s.imem.decodedAt s.decodeLane0.pc).immediate) ∧
      (s.predictionResult.lane1.btbHit = true → s.predictionResult.lane1.target =
        s.decodeLane1.pc + (s.imem.decodedAt s.decodeLane1.pc).immediate) :=
  h.trained.evaluate _ _ _ _ _ _

/-- The addresses of the decoded lanes are those on the buses. -/
theorem decodeLane_pc (s : SuperScalarCPU cfg) :
    s.decodeLane0.pc = s.frontend.decodeBundle.pc0 ∧
      s.decodeLane1.pc = s.frontend.decodeBundle.pc1 := by
  rw [decodeLane0, decodeLane1]
  exact ⟨decode_pc _ _ _, decode_pc _ _ _⟩

/-- What lane 0 renames: the first word of the presented bundle. -/
theorem Steps.input0 (h : Steps s) (hs : Streaming s) (hr : s.renames = true)
    (hv : s.executed.renInput0.valid = true) :
    ∃ p, s.frontend.decodeBundle = s.imem.bundleAt p ∧ s.fetchPc = p + 8 ∧
      s.executed.renInput0.pc = p ∧ s.executed.renInput0.instruction = s.imem.read p ∧
      (s.executed.renInput0.controlFlow = .BRANCH →
        s.executed.renInput0.prediction.predictedTaken =
            s.executed.predictionResult.lane0.taken ∧
          s.executed.renInput0.prediction.predictedTarget =
            s.executed.predictionResult.lane0.target) := by
  have hfront := h.executed_frontend (h.of_renames hr).1
  obtain ⟨hvalid, pr, hin⟩ := s.executed.renInput0_decoded hv
  rw [hfront] at hvalid hin
  rcases hs.decode with hb | ⟨p, hdec, hpc⟩
  · rw [hb] at hvalid
    cases hvalid
  · rw [hdec] at hin
    refine ⟨p, hdec, hpc, ?_, ?_, fun hflow => ?_⟩
    · rw [hin]
      exact decodeWord_pc _ _
    · rw [hin]
      exact decodeWord_instruction _ _
    · have hann : s.executed.decodeLane0.controlFlow = .BRANCH := by
        rw [renInput0, annotate] at hflow
        split at hflow
        · exact hflow
        · exact hflow
      rw [renInput0, annotate, hann]
      exact ⟨rfl, rfl⟩

/-- What lane 1 renames: the second word, unless lane 0 redirects. -/
theorem Steps.input1 (h : Steps s) (hs : Streaming s) (hr : s.renames = true)
    (hv : s.executed.renInput1.valid = true) :
    ∃ p, s.frontend.decodeBundle = s.imem.bundleAt p ∧ s.fetchPc = p + 8 ∧
      s.executed.renInput1.pc = p + 4 ∧
      s.executed.renInput1.instruction = s.imem.read (p + 4) ∧
      (s.executed.predictionResult.redirect && s.executed.predictionResult.redirectLane == 0) =
        false ∧
      (s.executed.renInput1.controlFlow = .BRANCH →
        s.executed.renInput1.prediction.predictedTaken =
            s.executed.predictionResult.lane1.taken ∧
          s.executed.renInput1.prediction.predictedTarget =
            s.executed.predictionResult.lane1.target) := by
  have hfront := h.executed_frontend (h.of_renames hr).1
  obtain ⟨hvalid, pr, hin⟩ := s.executed.renInput1_decoded hv
  have hopen := s.executed.renInput1_open hv
  rw [hfront] at hvalid hin
  rcases hs.decode with hb | ⟨p, hdec, hpc⟩
  · rw [hb] at hvalid
    cases hvalid
  · rw [hdec] at hin
    refine ⟨p, hdec, hpc, ?_, ?_, hopen, fun hflow => ?_⟩
    · rw [hin]
      exact decodeWord_pc _ _
    · rw [hin]
      exact decodeWord_instruction _ _
    · rw [renInput1, if_neg (by rw [hopen]; decide)] at hflow ⊢
      -- annotation fills in a prediction and leaves the class of the instruction
      have hann : s.executed.decodeLane1.controlFlow = .BRANCH := by
        rw [annotate] at hflow
        split at hflow
        · exact hflow
        · exact hflow
      rw [annotate, hann]
      exact ⟨rfl, rfl⟩

theorem Steps.entry0_input (h : Steps s) (hd : s.dispatched0 = true) :
    s.entry0.pc = s.executed.renInput0.pc ∧
      s.entry0.instruction = s.executed.renInput0.instruction ∧
      s.entry0.branch = (s.executed.renInput0.controlFlow == .BRANCH) ∧
      s.entry0.predictedTaken = s.executed.renInput0.prediction.predictedTaken ∧
      s.entry0.predictedTarget = s.executed.renInput0.prediction.predictedTarget := by
  obtain ⟨hr, hv, -⟩ := h.of_dispatched0 hd
  obtain ⟨u0, h0, -⟩ := h.lanes hr
  exact laneEntry_input h0 hv _

theorem Steps.entry1_input (h : Steps s) (hd : s.dispatched1 = true) :
    s.entry1.pc = s.executed.renInput1.pc ∧
      s.entry1.instruction = s.executed.renInput1.instruction ∧
      s.entry1.branch = (s.executed.renInput1.controlFlow == .BRANCH) ∧
      s.entry1.predictedTaken = s.executed.renInput1.prediction.predictedTaken ∧
      s.entry1.predictedTarget = s.executed.renInput1.prediction.predictedTarget := by
  obtain ⟨hr, hv, -, -⟩ := h.of_dispatched1 hd
  obtain ⟨u0, -, h1⟩ := h.lanes hr
  exact laneEntry_input h1 hv _

/-- Members of the entered list. -/
theorem mem_entered {e : ROBEntry} (he : e ∈ s.entered) :
    (s.dispatched0 = true ∧ e = s.entry0) ∨ (s.dispatched1 = true ∧ e = s.entry1) := by
  rw [entered] at he
  rcases List.mem_append.mp he with he | he
  · split at he
    · rename_i hd
      exact Or.inl ⟨hd, List.mem_singleton.mp he⟩
    · cases he
  · split at he
    · rename_i hd
      exact Or.inr ⟨hd, List.mem_singleton.mp he⟩
    · cases he

theorem Steps.executed_imem (h : Steps s) : s.executed.imem = s.imem := by
  have := h.fetch_imem
  rw [dispatchStage_frame] at this
  exact this

theorem Steps.next_predictor (h : Steps s) : s.next.predictor = s.executed.predictor := by
  rw [h.next_eq, fetchStage, dispatchStage_frame]

theorem Fetched.next (hf : Fetched s) (hs : Streaming s) (h : Steps s) : Fetched s.next := by
  have hexec := hf.executed h
  refine ⟨?_, ?_⟩
  · rw [h.window_next, h.next_imem]
    intro e he
    rcases List.mem_append.mp he with he | he
    · rw [← h.executed_imem]
      exact hexec.window e he
    · rcases mem_entered he with ⟨hd, rfl⟩ | ⟨hd, rfl⟩
      · obtain ⟨hr, hv, -⟩ := h.of_dispatched0 hd
        obtain ⟨p, -, -, hpc, hword, -⟩ := h.input0 hs hr hv
        obtain ⟨h1, h2, -⟩ := h.entry0_input hd
        rw [h1, h2, hpc, hword]
      · obtain ⟨hr, hv, -, -⟩ := h.of_dispatched1 hd
        obtain ⟨p, -, -, hpc, hword, -⟩ := h.input1 hs hr hv
        obtain ⟨h1, h2, -⟩ := h.entry1_input hd
        rw [h1, h2, hpc, hword]
  · rw [h.next_predictor, h.next_imem, ← h.executed_imem]
    exact hexec.trained

theorem run_fetched (cfg : Config) (words : List Word) (data : List (Nat × Word)) (n : Nat) :
    Fetched (run (boot cfg words data) n) := by
  induction n with
  | zero =>
      rw [run, boot_frame]
      refine ⟨fun e he => ?_, BranchPredictor.trained_reset⟩
      rw [show (((construct cfg).loadProgram words).rob : ReOrderBuffer cfg.robCapacity) = .reset
        from rfl, ReOrderBuffer.window_reset] at he
      cases he
  | succ n ih =>
      show Fetched (run (boot cfg words data) n).next
      by_cases hh : (run (boot cfg words data) n).halted = true
      · rw [SuperScalarCPU.next, if_pos hh]
        exact ih.congr rfl rfl rfl
      · exact ih.next (run_streaming cfg words data n) (run_steps (eq_false_of_ne_true hh))

end SuperScalarCPU

end CpuSim.SuperScalar
