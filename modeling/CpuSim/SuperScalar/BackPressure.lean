/-
  CpuSim.SuperScalar.BackPressure

  What happens to a fetched bundle when the backend is short of room.  Fetch
  never waits, so a lane that is not dispatched in the step it is presented is
  gone: the bundle survives exactly when the free list, the reorder buffer and
  the issue queue have room for it (`Room`).
-/

import CpuSim.SuperScalar.FrontendStream

namespace CpuSim.SuperScalar

namespace SuperScalarCPU

variable {cfg : Config} {s t : SuperScalarCPU cfg} {ren : RenameBundle}

/-! ## The lanes of a step -/

/-- Lane 1 is discarded on purpose: lane 0 redirects, or is a `HALT`. -/
def discarded1 (s : SuperScalarCPU cfg) : Bool :=
  s.executed.predictionResult.redirect && s.executed.predictionResult.redirectLane == 0 ||
    s.executed.decodeLane0.valid && s.executed.decodeLane0.halt

/-- Whether this step renames. -/
def renames (s : SuperScalarCPU cfg) : Bool :=
  renameActive s.memoryDone.branchRecovered s.executed &&
    RenameUnit.canRename s.executed.freeList s.executed.renInput0 s.executed.renInput1

/-- Lane 0 enters the reorder buffer and the issue queue. -/
def dispatched0 (s : SuperScalarCPU cfg) : Bool :=
  s.renames && s.executed.afterRename.laneDispatched s.executed.renameOutputs.1

/-- The state between the dispatch blocks of the two lanes. -/
def betweenLanes (s : SuperScalarCPU cfg) : SuperScalarCPU cfg :=
  s.executed.afterRename.dispatchLane s.executed.renameOutputs.1

/-- Lane 1 enters the reorder buffer and the issue queue. -/
def dispatched1 (s : SuperScalarCPU cfg) : Bool :=
  s.renames && (!s.betweenLanes.haltDispatched &&
    s.betweenLanes.laneDispatched s.executed.renameOutputs.2.1)

/-- The word `instruction` at `pc` is at the decode outputs of the next step. -/
def PresentedAgain (s : SuperScalarCPU cfg) (pc instruction : Word) : Prop :=
  let d := s.next.frontend.decodeBundle
  (d.valid0 = true ∧ d.pc0 = pc ∧ d.instruction0 = instruction) ∨
    (d.valid1 = true ∧ d.pc1 = pc ∧ d.instruction1 = instruction)

/-- No presented instruction is lost in this step. -/
def NothingLost (s : SuperScalarCPU cfg) : Prop :=
  let d := s.frontend.decodeBundle
  (d.valid0 = true → s.dispatched0 = true ∨ s.PresentedAgain d.pc0 d.instruction0) ∧
    (d.valid1 = true → s.discarded1 = false →
      s.dispatched1 = true ∨ s.PresentedAgain d.pc1 d.instruction1)

/-- The three resources have room for what is presented: registers for both lanes,
    and a reorder buffer and issue queue slot for each lane that is not discarded
    (a `NOP` in lane 0 hands its issue queue slot on). -/
def Room (s : SuperScalarCPU cfg) : Prop :=
  let d := s.frontend.decodeBundle
  RenameUnit.canRename s.executed.freeList s.executed.renInput0 s.executed.renInput1 = true ∧
    (d.valid0 = true →
      s.executed.rob.count < cfg.robCapacity ∧ s.executed.iq.count < cfg.iqCapacity) ∧
    (d.valid1 = true → s.discarded1 = false →
      s.executed.rob.count + 1 < cfg.robCapacity ∧
        s.executed.iq.count + (if s.executed.decodeLane0.opcode = .NOP then 0 else 1) <
          cfg.iqCapacity)

instance (s : SuperScalarCPU cfg) (pc instruction : Word) :
    Decidable (s.PresentedAgain pc instruction) := by
  unfold PresentedAgain
  infer_instance

instance (s : SuperScalarCPU cfg) : Decidable s.NothingLost := by
  unfold NothingLost
  infer_instance

instance (s : SuperScalarCPU cfg) : Decidable s.Room := by
  unfold Room
  infer_instance

/-! ## When a lane is dispatched -/

theorem robFull_eq (h : InFlight s.rob s.iq) :
    s.rob.full = false ↔ s.rob.count < cfg.robCapacity := by
  have := h.rob_wf.count_le
  rw [ReOrderBuffer.full, beq_eq_false_iff_ne]
  omega

theorem iqFull_eq (h : InFlight s.rob s.iq) :
    s.iq.full = false ↔ s.iq.count < cfg.iqCapacity := by
  have hle : s.iq.count ≤ cfg.iqCapacity := by
    rw [h.iq_wf, IssueQueue.live]
    exact (List.length_filter_le _ _).trans_eq IssueQueue.length_slotList
  rw [IssueQueue.full, beq_eq_false_iff_ne]
  omega

theorem laneDispatched_iff (h : InFlight s.rob s.iq) :
    s.laneDispatched ren = true ↔
      ren.valid = true ∧ s.rob.count < cfg.robCapacity ∧ s.iq.count < cfg.iqCapacity := by
  rw [← robFull_eq h, ← iqFull_eq h, laneDispatched, Bool.and_eq_true]
  refine and_congr_right fun hv => ?_
  rw [tryDispatch, DispatchUnit.dispatch]
  cases hrob : s.rob.full with
  | true => simp [hv]
  | false =>
      cases hiq : s.iq.full with
      | true => simp [hv]
      | false =>
          obtain ⟨⟨idx, rob1⟩, hall⟩ := Option.isSome_iff_exists.mp
            (show (s.rob.allocate ren (s.laneCheckpoint ren)).isSome = true by
              rw [ReOrderBuffer.allocate_isSome, hv, hrob]; rfl)
          obtain ⟨iq1, hins⟩ := Option.isSome_iff_exists.mp
            (show (s.iq.insert (DispatchUnit.makeIssueEntry s.prf ren idx)).isSome = true by
              rw [h.iq_wf.insert_isSome, hiq]; rfl)
          rw [laneCheckpoint] at hall
          simp only [hv, hall, hins, Bool.not_true, Bool.false_eq_true, if_false,
            Option.isSome_some, true_and]

/-- Occupancy and fence after lane 0 has been dispatched. -/
theorem entered_counts (h : Sound s) (hb : Sound.Renamed ren) (hv : ren.valid = true)
    (hrob : s.rob.count < cfg.robCapacity) (hiq : s.iq.count < cfg.iqCapacity) :
    (s.dispatchLane ren).rob.count = s.rob.count + 1 ∧
      (s.dispatchLane ren).iq.count = s.iq.count + (if ren.completesAtOnce then 0 else 1) ∧
      (s.dispatchLane ren).haltDispatched = (s.haltDispatched || ren.halt) := by
  have hcase := dispatchLane_cases h.inFlight fun hv => (hb hv).1
  have hnext := h.dispatchLane hb
  generalize s.dispatchLane ren = t at hcase hnext
  cases hcase with
  | bubble hb0 _ => rw [hv] at hb0; cases hb0
  | refused _ hfull _ =>
      rw [(robFull_eq h.inFlight).mpr hrob, (iqFull_eq h.inFlight).mpr hiq] at hfull
      rcases hfull with hfull | hfull <;> cases hfull
  | entered idx rob1 iq1 _ _ he =>
      obtain ⟨-, hin, hwin, hperm⟩ := he.spec h.inFlight (hb hv).1
      refine ⟨?_, ?_, by rw [he.frame]⟩
      · rw [← ReOrderBuffer.length_window, hwin, List.length_append, ReOrderBuffer.length_window,
          List.length_singleton]
      · rw [hin.iq_wf, hperm.length_eq, h.inFlight.iq_wf]
        split <;> simp

/-! ## What rename is given -/

theorem annotate_fields (bundle : DecodeBundle) (prediction : BranchPrediction) :
    (annotate bundle prediction).valid = bundle.valid ∧
      (annotate bundle prediction).halt = bundle.halt ∧
      (annotate bundle prediction).opcode = bundle.opcode := by
  rw [annotate]
  split <;> exact ⟨rfl, rfl, rfl⟩

/-- The flags of the renamed lane 0 are those of the decoded one. -/
theorem renamed0_fields (h : Sound s)
    (hcan : RenameUnit.canRename s.freeList s.renInput0 s.renInput1 = true)
    (hv : s.decodeLane0.valid = true) :
    s.renameOutputs.1.valid = true ∧ s.renameOutputs.1.halt = s.decodeLane0.halt ∧
      s.renameOutputs.1.opcode = s.decodeLane0.opcode := by
  obtain ⟨u0, h0, -⟩ := RenameUnit.rename_renames
    (u := { rat := s.rat, freeList := s.freeList, prf := s.prf }) hcan
    h.numbered.invalid_not_free
  obtain ⟨hav, hah, hao⟩ := annotate_fields s.decodeLane0 s.predictionResult.lane0
  have hin : s.renInput0.valid = true := hav.trans hv
  change RenameUnit.Renames _ s.renInput0 s.renameOutputs.1 u0 at h0
  obtain ⟨old, p, ho⟩ := h0.out_eq hin
  exact ⟨h0.valid.trans hin, by rw [← hah, ho]; rfl, by rw [← hao, ho]; rfl⟩

theorem renamed1_valid (h : Sound s)
    (hcan : RenameUnit.canRename s.freeList s.renInput0 s.renInput1 = true) :
    s.renameOutputs.2.1.valid =
      (s.decodeLane1.valid &&
        !(s.predictionResult.redirect && s.predictionResult.redirectLane == 0)) := by
  obtain ⟨u0, -, h1⟩ := RenameUnit.rename_renames
    (u := { rat := s.rat, freeList := s.freeList, prf := s.prf }) hcan
    h.numbered.invalid_not_free
  rw [show s.renameOutputs.2.1.valid = s.renInput1.valid from h1.valid, renInput1,
    ← (annotate_fields s.decodeLane1 s.predictionResult.lane1).1]
  cases hr : s.predictionResult.redirect && s.predictionResult.redirectLane == 0 <;> simp

/-- Both lanes dispatch exactly when there is room for both. -/
theorem dispatched_iff (h : Sound s)
    (hcan : RenameUnit.canRename s.freeList s.renInput0 s.renInput1 = true)
    (hd : s.haltDispatched = false) (hv0 : s.decodeLane0.valid = true)
    (hv1 : s.decodeLane1.valid = true) :
    (s.afterRename.laneDispatched s.renameOutputs.1 = true ↔
      s.rob.count < cfg.robCapacity ∧ s.iq.count < cfg.iqCapacity) ∧
    (s.rob.count < cfg.robCapacity → s.iq.count < cfg.iqCapacity →
      (s.predictionResult.redirect && s.predictionResult.redirectLane == 0) = false →
      s.decodeLane0.halt = false →
      ((s.afterRename.dispatchLane s.renameOutputs.1).haltDispatched = false ∧
        ((s.afterRename.dispatchLane s.renameOutputs.1).laneDispatched s.renameOutputs.2.1 = true ↔
          s.rob.count + 1 < cfg.robCapacity ∧
            s.iq.count + (if s.decodeLane0.opcode = .NOP then 0 else 1) < cfg.iqCapacity))) := by
  obtain ⟨hsound, hr0, hr1⟩ := h.rename hcan
  obtain ⟨hren0, hhalt0, hop0⟩ := renamed0_fields h hcan hv0
  refine ⟨?_, fun hrob hiq hredirect hhalt => ?_⟩
  · rw [laneDispatched_iff hsound.inFlight, hren0]
    exact ⟨fun hx => hx.2, fun hx => ⟨rfl, hx⟩⟩
  · -- behind lane 0 each structure has one entry less to give, the queue only if it took one
    obtain ⟨hc1, hc2, hc3⟩ := entered_counts hsound hr0 hren0 hrob hiq
    have hflag : s.afterRename.haltDispatched = false := hd
    have hnext := hsound.dispatchLane hr0
    refine ⟨by rw [hc3, hflag, hhalt0, hhalt]; rfl, ?_⟩
    have hren1 := renamed1_valid h hcan
    rw [hv1, hredirect] at hren1
    have hrobeq : s.afterRename.rob.count = s.rob.count := rfl
    have hiqeq : s.afterRename.iq.count = s.iq.count := rfl
    rw [laneDispatched_iff hnext.inFlight, hc1, hc2, hrobeq, hiqeq, hren1,
      RenameBundle.completesAtOnce, hhalt0, hhalt, hop0]
    simp

/-! ## The law -/

/-- Without a recovery the backend leaves the front end alone. -/
theorem Steps.executed_frontend (h : Steps s) (hr : s.memoryDone.branchRecovered = false) :
    s.executed.frontend = s.frontend := by
  obtain ⟨es, hes⟩ := h.commits
  rw [executed, aluStage_frame]
  dsimp only
  rw [branchCase_frontend h.branchCase, hr, (memoryCase_frame h.memoryCase).1, hes.frontend]
  rfl

/-- Fetch has moved on: what was presented is never presented again. -/
theorem not_presentedAgain (hs : Streaming s) (h : Steps s) {p : Word}
    (hdec : s.frontend.decodeBundle = s.imem.bundleAt p) (w : Word) :
    ¬ s.PresentedAgain p w ∧ ¬ s.PresentedAgain (p + 4) w := by
  -- fetch is already two words further
  have hpc : s.fetchPc = p + 8 := by
    rcases hs.decode with hb | ⟨q, hq, hpc⟩
    · rw [hdec] at hb
      have := congrArg FetchBundle.valid0 hb
      cases this
    · rw [hdec] at hq
      rw [hpc, show p = q from congrArg FetchBundle.pc0 hq]
  cases hr : s.redirectTarget with
  | some target =>
      -- a redirect leaves a bubble in decode
      have hbubble := (hs.redirected h hr).1
      constructor <;> (intro hp; rw [PresentedAgain, hbubble] at hp; simp at hp)
  | none =>
      have hnext := (hs.sequential h hr).1
      rw [hpc] at hnext
      constructor
      · intro hp
        rw [PresentedAgain, hnext] at hp
        rcases hp with ⟨-, hp, -⟩ | ⟨-, hp, -⟩
        · have hp : p + 8 = p := hp
          bv_omega
        · have hp : p + 8 + 4 = p := hp
          bv_omega
      · intro hp
        rw [PresentedAgain, hnext] at hp
        rcases hp with ⟨-, hp, -⟩ | ⟨-, hp, -⟩
        · have hp : p + 8 = p + 4 := hp
          bv_omega
        · have hp : p + 8 + 4 = p + 4 := hp
          bv_omega

/-- In a step that may dispatch, nothing presented is lost if and only if the three
    resources have room for it. -/
theorem Steps.nothingLost_iff (h : Steps s) (hs : Streaming s) (hd : s.haltDispatched = false)
    (hr : s.memoryDone.branchRecovered = false) : s.NothingLost ↔ s.Room := by
  have hfront := h.executed_frontend hr
  have hflag : s.executed.haltDispatched = false := by
    rw [h.executed_haltDispatched, hd, Bool.false_and]
  have hactive : renameActive s.memoryDone.branchRecovered s.executed = true := by
    rw [h.renameActive_eq, hr, hd]
    rfl
  have hl0 : s.executed.decodeLane0.valid = s.frontend.decodeBundle.valid0 := by
    rw [decodeLane0, hfront]
    exact decode_valid _ _ _
  have hl1 : s.executed.decodeLane1.valid = s.frontend.decodeBundle.valid1 := by
    rw [decodeLane1, hfront]
    exact decode_valid _ _ _
  rcases hs.decode with hbubble | ⟨p, hdec, -⟩
  · -- a bubble asks for nothing
    rw [hbubble] at hl0 hl1
    have hneed : RenameUnit.needed s.executed.renInput0 s.executed.renInput1 = 0 := by
      have hv0 : s.executed.renInput0.valid = false := (annotate_fields _ _).1.trans hl0
      have hv1 : s.executed.renInput1.valid = false := by
        rw [renInput1]
        split
        · rfl
        · exact (annotate_fields _ _).1.trans hl1
      simp [RenameUnit.needed, hv0, hv1]
    have hcan : RenameUnit.canRename s.executed.freeList s.executed.renInput0
        s.executed.renInput1 = true := by
      rw [RenameUnit.canRename, hneed]
      exact decide_eq_true (Nat.zero_le _)
    have hv0 : s.frontend.decodeBundle.valid0 = false := by rw [hbubble]
    have hv1 : s.frontend.decodeBundle.valid1 = false := by rw [hbubble]
    simp [NothingLost, Room, hv0, hv1, hcan]
  · have hv0 : s.frontend.decodeBundle.valid0 = true := by rw [hdec]; rfl
    have hv1 : s.frontend.decodeBundle.valid1 = true := by rw [hdec]; rfl
    rw [hv0] at hl0
    rw [hv1] at hl1
    have hpc0 : s.frontend.decodeBundle.pc0 = p := by rw [hdec]; rfl
    have hpc1 : s.frontend.decodeBundle.pc1 = p + 4 := by rw [hdec]; rfl
    have hagain0 := (not_presentedAgain hs h hdec s.frontend.decodeBundle.instruction0).1
    have hagain1 := (not_presentedAgain hs h hdec s.frontend.decodeBundle.instruction1).2
    rw [NothingLost, Room]
    rw [hv0, hv1, hpc0, hpc1]
    simp only [hagain0, hagain1, or_false, true_implies]
    rw [dispatched0, dispatched1, renames, hactive, Bool.true_and]
    cases hcan : RenameUnit.canRename s.executed.freeList s.executed.renInput0
        s.executed.renInput1 with
    | false => simp
    | true =>
        obtain ⟨hd0, hd1⟩ := dispatched_iff h.sound_executed hcan hflag hl0 hl1
        rw [Bool.true_and, Bool.true_and, hd0]
        simp only [true_and]
        -- lane 1 is only asked about once lane 0 is in
        refine and_congr_right fun hroom => imp_congr_right fun hkept => ?_
        rw [discarded1, hl0, Bool.true_and, Bool.or_eq_false_iff] at hkept
        obtain ⟨hopen, hiff⟩ := hd1 hroom.1 hroom.2 hkept.1 hkept.2
        rw [betweenLanes, hopen, Bool.not_false, Bool.true_and]
        exact hiff

/-- Back-pressure law of a run: in every state in which the step may dispatch, the
    presented instructions survive exactly when there is room for them. -/
theorem nothing_lost_iff_room (cfg : Config) (words : List Word) (data : List (Nat × Word))
    (n : Nat) (hrun : (run (boot cfg words data) n).halted = false)
    (hd : (run (boot cfg words data) n).haltDispatched = false)
    (hr : (run (boot cfg words data) n).memoryDone.branchRecovered = false) :
    (run (boot cfg words data) n).NothingLost ↔ (run (boot cfg words data) n).Room :=
  (run_steps hrun).nothingLost_iff (run_streaming cfg words data n) hd hr

/-- One load and a `NOP` presented to an empty machine are both dispatched. -/
theorem nothing_lost_single_load :
    (run (boot .default [0x24440000] []) 1).NothingLost :=
  (nothing_lost_iff_room .default [0x24440000] [] 1 (by decide +kernel) (by decide +kernel)
    (by decide +kernel)).mpr (by decide +kernel)

/-- Sixteen pairs of dependent loads `LW r1, 0(r1)`: one executes and retires a
    cycle while two are fetched, so the reorder buffer fills, and a presented load is
    neither dispatched nor presented again. -/
theorem load_burst_loses_instruction :
    let s := run (boot .default (List.replicate 32 0x24440000) []) 15
    s.halted = false ∧ s.haltDispatched = false ∧ s.memoryDone.branchRecovered = false ∧
      ¬ s.NothingLost := by
  decide +kernel

end SuperScalarCPU

end CpuSim.SuperScalar
