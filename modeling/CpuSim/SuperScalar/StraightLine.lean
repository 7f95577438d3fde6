/-
  CpuSim.SuperScalar.StraightLine

  Programs that run straight through integer instructions to a `HALT`.  Whatever their
  operands depend on, two instructions a cycle are fetched, dispatched, executed and retired:
  a bundle waits one cycle to execute and one to retire, so the queues never fill.
-/

import CpuSim.SuperScalar.Conservation
import CpuSim.SuperScalar.IntegerProgram
import CpuSim.SuperScalar.Progress

namespace CpuSim.SuperScalar

open CpuSim.Lib CpuSim.Lib.Renaming

variable {cfg : Config}

/-- What the stages look at in an integer instruction. -/
theorem IssueQueueEntry.FromDecode.integer {q : IssueQueueEntry} (h : q.FromDecode)
    (hop : q.opcode ∈ integerOpcodes) :
    q.memoryRead = false ∧ q.memoryWrite = false ∧ q.controlFlow = .NONE ∧ q.halt = false ∧
      q.aluOperation ≠ .NONE := by
  have hread := h.memoryRead.trans (decodeWord_memoryRead q.pc q.instruction)
  have hwrite := h.memoryWrite.trans (decodeWord_memoryWrite q.pc q.instruction)
  have hflow := h.controlFlow.trans (decodeWord_controlFlow q.pc q.instruction)
  have hhalt := h.halt.trans (decodeWord_halt q.pc q.instruction)
  have halu := h.aluOperation.trans (decodeWord_aluOperation q.pc q.instruction)
  rw [← h.opcode] at hread hwrite hflow hhalt halu
  rw [hread, hwrite, hflow, hhalt, halu]
  revert hop
  cases q.opcode <;> simp [integerOpcodes, controlFlowOf, aluOperationOf]

namespace SuperScalarCPU

variable {s t : SuperScalarCPU cfg} {m : Register → PhysicalRegister}

/-! ## Executing integer instructions -/

/-- Only integer instructions are still to execute. -/
def OpenInteger (s : SuperScalarCPU cfg) : Prop :=
  ∀ e ∈ s.rob.window, e.completed = false → e.opcode ∈ integerOpcodes

namespace OpenInteger

theorem queue (h : OpenInteger s) (hs : Sound s) {q : IssueQueueEntry} (hq : q ∈ s.iq.live) :
    q.opcode ∈ integerOpcodes := by
  obtain ⟨e, he, hc, hm⟩ := hs.inFlight.backed q hq
  have hsame : q.opcode = e.opcode := by
    rw [(hs.inFlight.queueDecoded q hq).opcode, hm.pc, hm.instruction,
      ← (hs.inFlight.entryDecoded e he).opcode]
  rw [hsame]
  exact h e he hc

theorem of_keeps (h : OpenInteger s) (hk : Keeps s t) : OpenInteger t :=
  fun e he hc => h e (hk e he hc) hc

/-- The memory unit has nothing to do. -/
theorem memory (h : OpenInteger s) (hs : Sound s) {rs : List MemoryResult}
    (hc : MemoryCase s t rs) : rs = [] ∧ t.rob = s.rob ∧ t.iq = s.iq := by
  have hno : ∀ {i : Nat}, s.MemReady i →
      ¬((s.iq.entries i).memoryRead = true ∨ (s.iq.entries i).memoryWrite = true) := by
    intro i hi hop
    obtain ⟨hread, hwrite, -⟩ := (hs.inFlight.queueDecoded _ hi.live).integer (h.queue hs hi.live)
    rw [hread, hwrite] at hop
    rcases hop with hop | hop <;> cases hop
  cases hc with
  | idle q _ ht =>
      rw [ht]
      exact ⟨rfl, rfl, rfl⟩
  | load q i _ hi hr _ _ => exact absurd (Or.inl hr) (hno hi)
  | store q i _ hi _ hw _ => exact absurd (Or.inr hw) (hno hi)

/-- Nor has the branch unit. -/
theorem selectBranch (h : OpenInteger s) (hs : Sound s) : s.selectBranch = none := by
  cases hi : s.selectBranch with
  | none => rfl
  | some i =>
      obtain ⟨-, hlive, hflow, -, -⟩ := selectBranch_some hi
      obtain ⟨-, -, hnone, -⟩ := (hs.inFlight.queueDecoded _ hlive).integer (h.queue hs hlive)
      rw [hnone] at hflow
      cases hflow

end OpenInteger

/-- An instruction whose elders are all completed has its operands. -/
theorem Delivery.ready_behind (h : Delivery m s) (harf : 16 ≤ cfg.arfCount)
    {q : IssueQueueEntry} (hq : q ∈ s.iq.live) {pre post : List ROBEntry}
    (hw : s.rob.window = pre ++ post) (hdone : ∀ e ∈ pre, e.completed = true)
    (hsrc : SourcesOf m pre q) : q.rs1Ready = true ∧ q.rs2Ready = true := by
  -- a register named behind `pre` is as ready as if `pre` had retired
  have hproduced : ∀ e ∈ pre, e.registerWrite = true →
      s.commitUnit.prf.ready e.physicalRd = true := by
    intro e he hwrite
    have hmem : e ∈ s.rob.window := by
      rw [hw]
      exact List.mem_append_left _ he
    exact (h.produced e hmem hwrite).1.trans (hdone e he)
  have hname : ∀ r, s.prf.ready (mapAfter m pre r) = true := fun r =>
    (retireAll_committed harf hproduced h.committed r).1
  have hready : ∀ {reads ready : Bool} {p : PhysicalRegister} {v : Word},
      OperandHolds s.prf reads p ready v → (∃ r, p = mapAfter m pre r) → ready = true := by
    rintro reads ready p v hop ⟨r, rfl⟩
    rw [OperandHolds] at hop
    split at hop
    · exact hop.1.trans (hname r)
    · exact hop
  obtain ⟨h1, h2⟩ := h.operands q hq
  exact ⟨hready h1 ⟨_, hsrc.1⟩, hready h2 ⟨_, hsrc.2⟩⟩

/-- The oldest entry still to execute. -/
theorem exists_first_open {es : List ROBEntry} (h : 0 < unfinished es) :
    ∃ pre e post, es = pre ++ e :: post ∧ (∀ x ∈ pre, x.completed = true) ∧
      e.completed = false := by
  induction es with
  | nil => cases h
  | cons e es ih =>
      cases hc : e.completed with
      | false => exact ⟨[], e, es, rfl, by simp, hc⟩
      | true =>
          rw [unfinished_cons, hc, if_pos rfl, Nat.add_zero] at h
          obtain ⟨pre, x, post, rfl, hpre, hx⟩ := ih h
          refine ⟨e :: pre, x, post, rfl, fun y hy => ?_, hx⟩
          rcases List.mem_cons.mp hy with rfl | hy
          · exact hc
          · exact hpre y hy

/-- While an integer instruction is still to execute, an ALU lane finds one. -/
theorem OpenInteger.selects (h : OpenInteger s) (hs : Sound s) (hR : Renaming m s)
    (hD : Delivery m s) (harf : 16 ≤ cfg.arfCount) (hopen : 0 < unfinished s.rob.window) :
    s.selectReadyAluEntry ≠ none := by
  obtain ⟨pre, e, post, hw, hpre, hc⟩ := exists_first_open hopen
  have he : e ∈ s.rob.window := by
    rw [hw]
    simp
  obtain ⟨q, hq, hm⟩ := hs.inFlight.queued e he hc
  obtain ⟨pre', e', post', hw', hm', hsrc⟩ := hR.sources q hq
  -- the two splits of the window are at the same slot
  have hsame : pre' = pre := (split_unique hs.inFlight.rob_wf.nodup_robIndex hw' hw
    (hm'.robIndex.symm.trans hm.robIndex)).1
  rw [hsame] at hsrc
  obtain ⟨h1, h2⟩ := hD.ready_behind harf hq hw hpre hsrc
  obtain ⟨hread, hwrite, hflow, hhalt, halu⟩ :=
    (hs.inFlight.queueDecoded q hq).integer (h.queue hs hq)
  obtain ⟨⟨i, hi, hqi⟩, hv⟩ := IssueQueue.mem_live.mp hq
  intro hnone
  have hno := IssueQueue.findSlot_none hnone hi
  rw [hqi, readyAlu, hv, hs.inFlight.unissued q hq, h1, h2, hread, hwrite, hflow, hhalt] at hno
  simp [halu] at hno

/-- Both lanes together finish up to two integer instructions. -/
theorem OpenInteger.aluStage_finishes (h : OpenInteger s) (hs : Sound s) (hR : Renaming m s)
    (hD : Delivery m s) (harf : 16 ≤ cfg.arfCount) (hopen : unfinished s.rob.window ≤ 2) :
    unfinished s.aluStage.rob.window = 0 := by
  have hone : ∀ {t : SuperScalarCPU cfg} {i : Nat}, Sound t → t.selectReadyAluEntry = some i →
      unfinished (t.executeAlu i).rob.window + 1 = unfinished t.rob.window := by
    intro t i ht hi
    obtain ⟨-, hlive, -⟩ := selectReadyAluEntry_some hi
    rw [executeAlu_eq]
    exact (ht.finish_counts hlive (aluResult (t.iq.entries i))).2
  have hnone : ∀ {t : SuperScalarCPU cfg}, OpenInteger t → Sound t → Renaming m t →
      Delivery m t → t.selectReadyAluEntry = none → unfinished t.rob.window = 0 := by
    intro t ht hst hRt hDt hi
    by_contra hpos
    exact ht.selects hst hRt hDt harf (Nat.pos_of_ne_zero hpos) hi
  rw [aluStage, aluLanes]
  cases hi : s.selectReadyAluEntry with
  | none => exact hnone h hs hR hD hi
  | some i =>
      have hfirst := hone hs hi
      have hs' := hs.executeAlu hi
      have hR' := hR.executeAlu hs hi
      have hD' := hD.executeAlu hR hs hi
      have h' : OpenInteger (s.executeAlu i) := h.of_keeps (by
        rw [executeAlu_eq]
        exact hs.finish_keeps i _)
      dsimp only
      rw [aluLanes]
      cases hj : (s.executeAlu i).selectReadyAluEntry with
      | none => exact hnone h' hs' hR' hD' hj
      | some j =>
          have hsecond := hone hs' hj
          show unfinished ((s.executeAlu i).executeAlu j).rob.window = 0
          omega

/-! ## Steps without memory operations and branches -/

/-- The execution of a step with only integer instructions behind what retires. -/
structure Quiet (s : SuperScalarCPU cfg) : Prop where
  memory : s.committed.memUnit.execute.1 = []
  branch : s.memoryDone.selectBranch = none
  finished : ∀ e ∈ s.executed.rob.window, e.completed = true
  length : s.executed.rob.window.length = s.committed.rob.window.length
  queue : s.executed.iq.count = 0

theorem Steps.quiet (h : Steps s) (hint : OpenInteger s.committed) (hR : Renaming m s.committed)
    (hD : Delivery m s.committed) (harf : 16 ≤ cfg.arfCount)
    (hopen : unfinished s.committed.rob.window ≤ 2) : Quiet s := by
  have hs := h.sound_committed
  obtain ⟨hmem, hrob, hiq⟩ := hint.memory hs h.memoryCase
  have hint' : OpenInteger s.memoryDone := by
    intro e he
    rw [hrob] at he
    exact hint e he
  have hbranch := hint'.selectBranch h.sound_memoryDone
  have hstill : s.memoryDone.branchStage = s.memoryDone := by rw [branchStage, hbranch]
  have hexec : s.executed = s.memoryDone.aluStage := by rw [executed, hstill]
  have hzero : unfinished s.executed.rob.window = 0 := by
    rw [hexec]
    refine hint'.aluStage_finishes h.sound_memoryDone (hR.memory hs h.memoryCase)
      (hD.memory hR hs h.memoryCase) harf ?_
    rw [hrob]
    exact hopen
  refine ⟨hmem, hbranch, fun e he => ?_, ?_, ?_⟩
  · rw [unfinished, List.countP_eq_zero] at hzero
    simpa using hzero e he
  · rw [hexec, (aluStage_counts h.sound_memoryDone).1, hrob]
  · rw [h.sound_executed.inFlight.count_eq, hzero]

namespace Quiet

variable {s0 : SuperScalarCPU cfg} {n : Nat}

theorem no_recovery (h : Quiet s) : s.memoryDone.branchRecovered = false :=
  branchRecovered_none h.branch

theorem clean (h : Quiet s) : RecoveryClean s := fun i hi => by
  rw [h.branch] at hi
  cases hi

/-- Such a step is orderly if what is presented finds room. -/
theorem orderly (h : Quiet (run s0 n)) (hrun : (run s0 n).halted = false)
    (hrange : RegistersInRange (run s0 n))
    (hroom : (run s0 n).haltDispatched = false → Room (run s0 n))
    (hallocated : AllocationsSucceed (run s0 n)) : OrderlyStep s0 n where
  inRange := hrange
  room := fun hd _ => hroom hd
  clean := h.clean
  kept := fun i hi => by
    rw [h.branch] at hi
    cases hi
  allocated := hallocated
  exact := by
    rw [LoadsExact, memoryResults, hrun, if_neg Bool.false_ne_true, h.memory]
    intro r hr
    cases hr
  hit := fun i hi => by
    rw [h.branch] at hi
    cases hi

end Quiet

/-! ## Bundles of integer instructions -/

/-- An instruction that runs straight on: an integer one or a `HALT`. -/
def StraightOn (op : Opcode) : Prop := op ∈ integerOpcodes ∨ op = .HALT

theorem StraightOn.plain {op : Opcode} (h : StraightOn op) :
    controlFlowOf op = .NONE ∧ op ≠ .LW ∧ op ≠ .SW ∧ op ≠ .NOP := by
  rcases h with h | rfl
  · revert h
    cases op <;> simp [integerOpcodes, controlFlowOf]
  · simp [controlFlowOf]

section Bundle

variable {p : Word}

/-- The lanes of a presented bundle, once the backend has run. -/
theorem Steps.decode_lanes (h : Steps s) (hrec : s.memoryDone.branchRecovered = false)
    (hdec : s.frontend.decodeBundle = s.imem.bundleAt p) :
    s.executed.decodeLane0 = s.imem.decodedAt p ∧
      s.executed.decodeLane1 = s.imem.decodedAt (p + 4) := by
  rw [decodeLane0, decodeLane1, h.executed_frontend hrec, hdec]
  exact ⟨rfl, rfl⟩

/-- Lanes that are no branches redirect nothing. -/
theorem redirect_of_no_branch
    (h0 : s.decodeLane0.valid = true → s.decodeLane0.controlFlow = .NONE) :
    (s.predictionResult.redirect && s.predictionResult.redirectLane == 0) = false ∧
      ((s.decodeLane1.valid = true → s.decodeLane1.controlFlow = .NONE) →
        s.predictionResult.redirect = false) := by
  have hflow0 : (s.decodeLane0.valid &&
      BranchPredictionUnit.isControlFlow s.decodeLane0.controlFlow) = false := by
    cases hv : s.decodeLane0.valid with
    | false => rfl
    | true => rw [h0 hv]; rfl
  have hlane0 : s.predictionResult.lane0 = {} := by
    rw [predictionResult, (BranchPredictionUnit.evaluate_lanes _ _ _ _ _ _ _).1, hflow0]
    rfl
  obtain ⟨hpast, hredirect, -⟩ := predictionResult_redirect s
  rw [hlane0] at hpast hredirect
  refine ⟨hpast, fun h1 => ?_⟩
  have hflow1 : (s.decodeLane1.valid &&
      BranchPredictionUnit.isControlFlow s.decodeLane1.controlFlow) = false := by
    cases hv : s.decodeLane1.valid with
    | false => rfl
    | true => rw [h1 hv]; rfl
  have hlane1 : s.predictionResult.lane1 = {} := by
    rw [predictionResult, (BranchPredictionUnit.evaluate_lanes _ _ _ _ _ _ _).2, hflow1]
    rfl
  rw [hredirect, hlane1]
  rfl

/-- The queues and the free list of a machine with two instructions in the window have room
    for two more. -/
structure Roomy (s : SuperScalarCPU cfg) : Prop where
  registers : 2 ≤ s.executed.freeList.size
  window : s.executed.rob.count ≤ 2
  queue : s.executed.iq.count = 0

theorem Quiet.roomy (h : Quiet s) (hfew : s.committed.rob.window.length ≤ 2)
    (hA : Accounted m s.executed) : Roomy s := by
  have hcount : s.executed.rob.count ≤ 2 := by
    rw [← ReOrderBuffer.length_window, h.length]
    exact hfew
  refine ⟨?_, hcount, h.queue⟩
  -- of the 64 registers 16 are mapped, and an entry in the window holds at most one
  have hcard := congrArg Multiset.card hA.total
  have hnames : (names ROBEntry.dst s.executed.rob.window).length ≤ 2 :=
    (List.length_filterMap_le _ _).trans (by rw [h.length]; exact hfew)
  rw [pool, Multiset.card_add, Multiset.card_add, Multiset.coe_card, Multiset.coe_card,
    Multiset.card_range, image, Multiset.card_map, Finset.card_val, Finset.card_univ,
    Fintype.card_fin] at hcard
  rw [PhysicalRegisterFreeList.size]
  omega

theorem Roomy.canRename (h : Roomy s) (input0 input1 : DecodeBundle) :
    RenameUnit.canRename s.executed.freeList input0 input1 = true := by
  have hneed : RenameUnit.needed input0 input1 ≤ 2 := by
    rw [RenameUnit.needed]
    split <;> split <;> decide
  rw [RenameUnit.canRename, decide_eq_true_iff]
  exact hneed.trans h.registers

theorem Roomy.room (h : Roomy s) (hrob : 4 ≤ cfg.robCapacity) (hiq : 2 ≤ cfg.iqCapacity) :
    Room s := by
  have hwindow := h.window
  have hqueue := h.queue
  refine ⟨h.canRename _ _, fun _ => ⟨by omega, by omega⟩, fun _ _ => ⟨by omega, ?_⟩⟩
  split <;> omega

theorem Roomy.allPlaced (h : Roomy s) (hrob : 4 ≤ cfg.robCapacity) (hiq : 2 ≤ cfg.iqCapacity)
    (hhalt : s.executed.decodeLane0.halt = false) : AllPlaced s := by
  have hwindow := h.window
  have hqueue := h.queue
  have hone : s.RoomForOne := ⟨by omega, by omega⟩
  refine fun _ => ⟨fun _ _ => hone, fun _ _ => ⟨hone, hhalt, by omega, ?_⟩⟩
  split <;> omega

/-- No queue is asked for an entry. -/
theorem laneAllocates_of_plain {ren : RenameBundle} (hb : ren.valid = true → ren.FromDecode)
    (hop : ren.valid = true → ren.opcode ≠ .LW ∧ ren.opcode ≠ .SW) : s.LaneAllocates ren := by
  intro hv d _
  have hfield : ∀ {α : Type} (f : DecodeBundle → α),
      f ren.control = f (decodeWord ren.pc ren.instruction) := fun f => congrArg f (hb hv)
  have hread :=
    (hfield DecodeBundle.memoryRead).trans (decodeWord_memoryRead ren.pc ren.instruction)
  have hwrite :=
    (hfield DecodeBundle.memoryWrite).trans (decodeWord_memoryWrite ren.pc ren.instruction)
  rw [← hfield DecodeBundle.opcode] at hread hwrite
  change ren.memoryRead = (ren.opcode == .LW) at hread
  change ren.memoryWrite = (ren.opcode == .SW) at hwrite
  obtain ⟨hlw, hsw⟩ := hop hv
  rw [hread, hwrite, beq_eq_false_iff_ne.mpr hlw, beq_eq_false_iff_ne.mpr hsw]
  rw [if_neg Bool.false_ne_true]
  intro hno
  cases hno

theorem decodedAt_halt {imem : InstructionMemory cfg.romAddressWidth} (p : Word) :
    (imem.decodedAt p).halt = ((imem.decodedAt p).opcode == .HALT) :=
  decodeWord_halt p (imem.read p)

theorem StraightOn.controlFlow {imem : InstructionMemory cfg.romAddressWidth}
    (h : StraightOn (imem.decodedAt p).opcode) : (imem.decodedAt p).controlFlow = .NONE :=
  (decodeWord_controlFlow p (imem.read p)).trans h.plain.1

/-- A bundle that finds room enters: lane 1 too, unless lane 0 is a `HALT`. -/
theorem Steps.bundle_enters (h : Steps s) (hstr : Streaming s)
    (hrec : s.memoryDone.branchRecovered = false) (hd : s.haltDispatched = false)
    (hroom : Room s) (hdec : s.frontend.decodeBundle = s.imem.bundleAt p)
    (hcode : StraightOn (s.imem.decodedAt p).opcode) :
    s.dispatched0 = true ∧ s.dispatched1 = ((s.imem.decodedAt p).opcode != .HALT) := by
  have hlost := (h.nothingLost_iff hstr hd hrec).mpr hroom
  have hagain0 := (not_presentedAgain hstr h hdec s.frontend.decodeBundle.instruction0).1
  have hagain1 := (not_presentedAgain hstr h hdec s.frontend.decodeBundle.instruction1).2
  have hd0 : s.dispatched0 = true :=
    (hlost.1 (by rw [hdec]; rfl)).resolve_right (by rw [hdec] at hagain0 ⊢; exact hagain0)
  have hd1 : s.discarded1 = false → s.dispatched1 = true := fun hkept =>
    (hlost.2 (by rw [hdec]; rfl) hkept).resolve_right (by rw [hdec] at hagain1 ⊢; exact hagain1)
  have hflow := hcode.controlFlow
  have hhalt := @decodedAt_halt _ s.imem p
  obtain ⟨hlane0, -⟩ := h.decode_lanes hrec hdec
  have hvalid : s.executed.decodeLane0.valid = true := by
    rw [hlane0]
    exact decode_valid _ _ _
  refine ⟨hd0, ?_⟩
  by_cases hstop : (s.imem.decodedAt p).opcode = .HALT
  · rw [hstop, bne_self_eq_false]
    apply eq_false_of_ne_true
    intro hyes
    -- nothing enters behind a `HALT`
    obtain ⟨hr, -, -⟩ := h.of_dispatched0 hd0
    obtain ⟨-, hentry, -⟩ := renamed0_fields h.sound_executed (canRename_of_renames hr) hvalid
    have hlast := (next_sound_fence h.sound h.fence).2.last s.executed.rob.window s.entry0
      [s.entry1] (by rw [h.window_next, entered, hd0, hyes]; rfl) (by
        rw [entry0, laneEntry_eq]
        exact hentry.trans (by rw [hlane0, hhalt, hstop]; rfl))
    cases hlast
  · rw [bne_iff_ne.mpr hstop]
    apply hd1
    rw [discarded1, (redirect_of_no_branch fun _ => by rw [hlane0, hflow]).1, hlane0, hhalt,
      beq_eq_false_iff_ne.mpr hstop, Bool.and_false]
    rfl

/-- Renaming keeps the opcodes of a bundle. -/
theorem Steps.renamed_opcodes (h : Steps s) (hrec : s.memoryDone.branchRecovered = false)
    (hdec : s.frontend.decodeBundle = s.imem.bundleAt p) (hr : s.renames = true) :
    s.executed.renameOutputs.1.opcode = (s.imem.decodedAt p).opcode ∧
      (s.executed.renameOutputs.2.1.valid = true →
        s.executed.renameOutputs.2.1.opcode = (s.imem.decodedAt (p + 4)).opcode) := by
  obtain ⟨hlane0, hlane1⟩ := h.decode_lanes hrec hdec
  obtain ⟨u0, -, h1⟩ := h.lanes hr
  have hvalid : s.executed.decodeLane0.valid = true := by
    rw [hlane0]
    exact decode_valid _ _ _
  constructor
  · rw [(renamed0_fields h.sound_executed (canRename_of_renames hr) hvalid).2.2, hlane0]
  · intro hv
    obtain ⟨old, q, hout⟩ := h1.out_eq (h1.valid.symm.trans hv)
    rw [hout, ← hlane1]
    show s.executed.renInput1.opcode = _
    rw [renInput1]
    split
    · exact (annotate_fields _ _).2.2
    · exact (annotate_fields _ _).2.2

/-- Dispatching a bundle that runs straight on asks no memory queue for an entry. -/
theorem Steps.allocationsSucceed (h : Steps s) (hrec : s.memoryDone.branchRecovered = false)
    (hone : s.RoomForOne) (hdec : s.frontend.decodeBundle = s.imem.bundleAt p)
    (hcode0 : StraightOn (s.imem.decodedAt p).opcode)
    (hcode1 : (s.imem.decodedAt p).opcode ≠ .HALT → StraightOn (s.imem.decodedAt (p + 4)).opcode) :
    AllocationsSucceed s := by
  intro hr
  obtain ⟨-, -, hb0, hb1⟩ := h.sound_lanes hr
  obtain ⟨hop0, hop1⟩ := h.renamed_opcodes hrec hdec hr
  constructor
  · refine laneAllocates_of_plain (fun hv => (hb0 hv).1) fun _ => ?_
    rw [hop0]
    exact ⟨hcode0.plain.2.1, hcode0.plain.2.2.1⟩
  · intro hopen
    refine laneAllocates_of_plain (fun hv => (hb1 hv).1) fun hv => ?_
    -- behind a `HALT` dispatch would be closed
    have hgo : (s.imem.decodedAt p).opcode ≠ .HALT := by
      intro hcode
      obtain ⟨hlane0, -⟩ := h.decode_lanes hrec hdec
      have hvalid : s.executed.decodeLane0.valid = true := by
        rw [hlane0]
        exact decode_valid _ _ _
      obtain ⟨hs0, hr0, -⟩ := h.sound_executed.rename (canRename_of_renames hr)
      obtain ⟨hren, hhalt, -⟩ :=
        renamed0_fields h.sound_executed (canRename_of_renames hr) hvalid
      rw [betweenLanes, (entered_counts hs0 hr0 hren hone.1 hone.2).2.2, hhalt, hlane0,
        decodedAt_halt, hcode, Bool.or_eq_false_iff] at hopen
      cases hopen.2
    rw [hop1 hv]
    exact ⟨(hcode1 hgo).plain.2.1, (hcode1 hgo).plain.2.2.1⟩

/-- Nor does a bubble. -/
theorem Steps.allocationsSucceed_bubble (h : Steps s) (hbubble : s.frontend.decodeBundle = {}) :
    AllocationsSucceed s := by
  intro hr
  obtain ⟨u0, h0, h1⟩ := h.lanes hr
  have hfront := h.executed_frontend (h.of_renames hr).1
  have hv0 : s.executed.renameOutputs.1.valid = false := by
    rw [h0.valid, renInput0, (annotate_fields _ _).1, decodeLane0, hfront, hbubble]
    rfl
  have hv1 : s.executed.renameOutputs.2.1.valid = false := by
    rw [h1.valid, renInput1]
    split
    · rfl
    · rw [(annotate_fields _ _).1, decodeLane1, hfront, hbubble]
      rfl
  refine ⟨fun hv => ?_, fun _ hv => ?_⟩
  · rw [hv0] at hv
    cases hv
  · rw [hv1] at hv
    cases hv

/-- What enters from such a bundle is completed exactly if it is a `HALT`. -/
theorem Steps.entered_completed (h : Steps s) (hrec : s.memoryDone.branchRecovered = false)
    (hdec : s.frontend.decodeBundle = s.imem.bundleAt p)
    (hcode0 : StraightOn (s.imem.decodedAt p).opcode)
    (hcode1 : s.dispatched1 = true → StraightOn (s.imem.decodedAt (p + 4)).opcode)
    {e : ROBEntry} (he : e ∈ s.entered) : e.completed = e.halt := by
  have hlane : ∀ (t : SuperScalarCPU cfg) {ren : RenameBundle}, ren.opcode ≠ .NOP →
      (t.laneEntry ren).completed = (t.laneEntry ren).halt := by
    intro t ren hop
    rw [laneEntry_eq]
    show ren.completesAtOnce = ren.halt
    rw [RenameBundle.completesAtOnce, beq_eq_false_iff_ne.mpr hop, Bool.or_false]
  rcases mem_entered he with ⟨hd, rfl⟩ | ⟨hd, rfl⟩
  · apply hlane
    rw [(h.renamed_opcodes hrec hdec (h.of_dispatched0 hd).1).1]
    exact hcode0.plain.2.2.2
  · obtain ⟨hr, hv, -⟩ := h.of_dispatched1 hd
    obtain ⟨u0, -, h1⟩ := h.lanes hr
    apply hlane
    rw [(h.renamed_opcodes hrec hdec hr).2 (h1.valid.trans hv)]
    exact (hcode1 hd).plain.2.2.2

end Bundle

/-- What retires is the front of the window. -/
theorem Commits.getElem_window {es : List ROBEntry} (hc : Commits s t es) {i : Nat}
    (hi : i < es.length) (hmem : i < s.rob.window.length) : s.rob.window[i] = es[i] := by
  simp only [hc.window]
  exact List.getElem_append_left hi

/-- The number of entries that retire, from the ones that could. -/
theorem Steps.retires_exactly (h : Steps s) {es : List ROBEntry} (hc : Commits s s.committed es)
    {r : Nat} (hr : r ≤ s.rob.window.length) (hwidth : r ≤ 2)
    (hdone : ∀ i (hi : i < s.rob.window.length), i < r → s.rob.window[i].completed = true)
    (hhalt : ∀ i (hi : i < s.rob.window.length), i + 1 < r → s.rob.window[i].halt = false)
    (hstop : r = 2 ∨ ∀ hi : r < s.rob.window.length, s.rob.window[r].completed = false) :
    es.length = r := by
  have hlen : es.length = (CommitUnit.retired 2 s.rob.window).length := by
    have hloop := CommitUnit.stepLoop_eq (u := s.commitUnit) 2 h.sound.inFlight.rob_wf.inRing
      h.commitHalted
    have hevents : (s.commitUnit.stepLoop 2).2 = es.map (CommitUnit.makeEvent s.prf) := hc.events
    rw [hloop] at hevents
    have hsame := congrArg List.length hevents
    rw [List.length_map, List.length_map] at hsame
    exact hsame.symm
  have hlist : ∀ i (hi : i < (s.rob.window.take r).length) (hmem : i < s.rob.window.length),
      (s.rob.window.take r)[i] = s.rob.window[i] := fun i hi _ => List.getElem_take
  have htake : (s.rob.window.take r).length = r := by
    rw [List.length_take, Nat.min_eq_left hr]
  apply Nat.le_antisymm
  · rcases hstop with htwo | hopen
    · rw [htwo]
      exact hc.width
    · -- the entry behind those is still to execute
      by_contra hgt
      have hlt : r < es.length := Nat.lt_of_not_le hgt
      have hmem : r < s.rob.window.length := by
        rw [hc.window, List.length_append]
        omega
      have hno := hopen hmem
      rw [hc.getElem_window hlt, hc.completed _ (List.getElem_mem hlt)] at hno
      cases hno
  · rw [hlen]
    have hprefix := CommitUnit.retired_longest (n := 2) (List.take_prefix r s.rob.window)
      ⟨by rw [htake]; exact hwidth, fun e he => ?_, fun pre e post hsplit hyes => ?_⟩
    · rwa [htake] at hprefix
    · obtain ⟨i, hi, rfl⟩ := List.getElem_of_mem he
      have hir : i < r := by rw [htake] at hi; exact hi
      rw [hlist i hi (Nat.lt_of_lt_of_le hir hr)]
      exact ⟨h.sound.inFlight.rob_wf.valid_of_mem (List.getElem_mem _), hdone i _ hir⟩
    · by_contra hne
      have hpos := List.length_pos_of_ne_nil hne
      have hi : pre.length < (s.rob.window.take r).length := by
        rw [hsplit, List.length_append, List.length_cons]
        omega
      have hentry : (s.rob.window.take r)[pre.length] = e := by
        simp only [hsplit]
        rw [List.getElem_append_right (Nat.le_refl _)]
        simp
      have hsum := congrArg List.length hsplit
      rw [htake, List.length_append, List.length_cons] at hsum
      have hno := hhalt pre.length (by omega) (by omega)
      rw [← hlist _ hi (by omega), hentry, hyes] at hno
      cases hno

/-! ## Straight-line programs -/

/-- The address of instruction `j`. -/
def addressOf (j : Nat) : Word := BitVec.ofNat 32 (4 * j)

theorem addressOf_succ (j : Nat) : addressOf (j + 1) = addressOf j + 4 := by
  rw [addressOf, addressOf, Nat.mul_add, BitVec.ofNat_add]
  rfl

/-- Integer instructions at the first `k` addresses, and a `HALT` behind them. -/
structure StraightLine {w : Nat} (imem : InstructionMemory w) (k : Nat) : Prop where
  integer : ∀ j < k, (imem.decodedAt (addressOf j)).opcode ∈ integerOpcodes
  halt : (imem.decodedAt (addressOf k)).opcode = .HALT

instance {w : Nat} (imem : InstructionMemory w) (k : Nat) : Decidable (StraightLine imem k) :=
  decidable_of_iff ((∀ j < k, (imem.decodedAt (addressOf j)).opcode ∈ integerOpcodes) ∧
    (imem.decodedAt (addressOf k)).opcode = .HALT) ⟨fun h => ⟨h.1, h.2⟩, fun h => ⟨h.1, h.2⟩⟩

namespace StraightLine

variable {w k : Nat} {imem : InstructionMemory w}

theorem straightOn (h : StraightLine imem k) {j : Nat} (hj : j ≤ k) :
    StraightOn (imem.decodedAt (addressOf j)).opcode := by
  rcases Nat.lt_or_eq_of_le hj with hlt | rfl
  · exact Or.inl (h.integer j hlt)
  · exact Or.inr h.halt

theorem halt_iff (h : StraightLine imem k) {j : Nat} (hj : j ≤ k) :
    (imem.decodedAt (addressOf j)).opcode = .HALT ↔ j = k := by
  constructor
  · intro hcode
    by_contra hne
    have hint := h.integer j (Nat.lt_of_le_of_ne hj hne)
    rw [hcode] at hint
    revert hint
    decide
  · rintro rfl
    exact h.halt

/-- The interpreter goes straight on to the `HALT`. -/
theorem pc_run (h : StraightLine imem k) {words : Nat} {σ : Interpreter words}
    (hσ : σ.pc = addressOf 0) {j : Nat} (hj : j ≤ k) : (σ.run imem j).pc = addressOf j := by
  induction j with
  | zero => exact hσ
  | succ j ih =>
      have hpc := ih (Nat.le_of_succ_le hj)
      have hflow := (h.straightOn (Nat.le_of_succ_le hj)).plain.1
      have hcode : ((σ.run imem j).current imem).opcode =
          (imem.decodedAt (addressOf j)).opcode := by
        rw [Interpreter.current, hpc, InstructionMemory.decodedAt, decodeWord_opcode]
      rw [Interpreter.run, Interpreter.step, addressOf_succ, ← hpc]
      rw [← hcode] at hflow
      show Machine.nextPc _ _ _ = _
      rw [Machine.nextPc]
      cases hop : ((σ.run imem j).current imem).opcode <;> rw [hop] at hflow <;>
        first | rfl | cases hflow

end StraightLine

/-- Entries that are no branches stand at consecutive addresses. -/
theorem follow_straight {words j : Nat} {σ : Interpreter words} {way : ROBEntry → Word}
    {es : List ROBEntry} (h : σ.Follow way es) (hσ : σ.pc = addressOf j)
    (hdec : ∀ e ∈ es, e.FromDecode)
    (hflow : ∀ i (hi : i < es.length), es[i].pc = addressOf (j + i) → es[i].branch = false) :
    (∀ i (hi : i < es.length), es[i].pc = addressOf (j + i)) ∧
      (σ.along way es).pc = addressOf (j + es.length) := by
  induction es generalizing j σ with
  | nil => exact ⟨fun i hi => absurd hi (Nat.not_lt_zero i), hσ⟩
  | cons e es ih =>
      have hpc : e.pc = addressOf j := h.1.trans hσ
      have hb : e.branch = false := hflow 0 (Nat.zero_lt_succ _) hpc
      have hnext : (σ.advance way e).pc = addressOf (j + 1) := by
        rw [Interpreter.advance, hb, Bool.false_and, addressOf_succ, ← hpc]
        exact nextPc_of_not_branch (hdec e List.mem_cons_self) hb σ.data
      have hshift : ∀ i, addressOf (j + 1 + i) = addressOf (j + (i + 1)) := fun i => by
        rw [Nat.add_assoc, Nat.add_comm 1 i]
      obtain ⟨hes, halong⟩ := ih h.2 hnext (fun x hx => hdec x (List.mem_cons_of_mem _ hx))
        fun i hi hat => hflow (i + 1) (Nat.succ_lt_succ hi) (by rw [hshift] at hat; exact hat)
      refine ⟨fun i hi => ?_, ?_⟩
      · rcases i with _ | i
        · exact hpc
        · rw [← hshift]
          exact hes i (Nat.lt_of_succ_lt_succ hi)
      · rw [Interpreter.along_cons, halong, List.length_cons, hshift]

section Flow

variable {words : List Word} {data : List (Nat × Word)} {k n : Nat}

/-- The machine `n` steps into a straight-line program.  Two instructions a cycle pass fetch,
    dispatch, execution and retirement, so the counts depend on `n` alone. -/
structure Flowing (words : List Word) (data : List (Nat × Word)) (k : Nat)
    (s0 : SuperScalarCPU cfg) (n : Nat) : Prop where
  running : (run s0 n).halted = false
  retiring : Retiring words data s0 n
  retired : (run s0 n).committedInstructionCount = 2 * (n - 3)
  inFlight : 2 * (n - 3) + (run s0 n).rob.window.length = min (k + 1) (2 * (n - 1))
  done : ∀ i (hi : i < (run s0 n).rob.window.length), (run s0 n).rob.window[i].completed =
    (decide (2 * (n - 3) + i < 2 * (n - 2)) || (run s0 n).rob.window[i].halt)
  shown : n ≤ k / 2 + 1 → (run s0 n).frontend.decodeBundle.valid0 = decide (n ≠ 0)
  accounted : n ≤ k / 2 + 1 → ∃ m, Accounted m (run s0 n)

/-- The step before which everything left of the program can retire. -/
def lastStep (k : Nat) : Nat := if k = 0 then 2 else k / 2 + 3

/-- Decode shows instructions up to the `HALT` before the last step. -/
theorem lastStep_ge (hn : n ≤ k / 2 + 1) : n ≤ lastStep k := by
  rw [lastStep]
  split <;> omega

theorem lastStep_early (hn : n < lastStep k) : n ≤ 2 ∨ n ≤ k / 2 + 2 := by
  rw [lastStep] at hn
  split at hn <;> omega

theorem lastStep_cases (hn : n = lastStep k) : k = 0 ∧ n = 2 ∨ n = k / 2 + 3 := by
  rw [lastStep] at hn
  split at hn <;> omega

/-- What has retired by then is in front of the `HALT`. -/
theorem lastStep_retired (hn : n ≤ lastStep k) : 2 * (n - 3) ≤ k := by
  rw [lastStep] at hn
  split at hn <;> omega

/-- The instructions of a bundle the machine fetches. -/
theorem StraightLine.codes (hp : StraightLine (instructionMemory cfg words) k)
    (data : List (Nat × Word)) (n : Nat) {j : Nat} (hj : j ≤ k) :
    let imem := (run (boot cfg words data) n).imem
    StraightOn (imem.decodedAt (addressOf j)).opcode ∧
      ((imem.decodedAt (addressOf j)).opcode = .HALT ↔ j = k) ∧
      ((imem.decodedAt (addressOf j)).opcode ≠ .HALT →
        StraightOn (imem.decodedAt (addressOf j + 4)).opcode) := by
  intro imem
  have himem : imem = instructionMemory cfg words := run_imem cfg words data n
  rw [himem]
  refine ⟨hp.straightOn hj, hp.halt_iff hj, fun hgo => ?_⟩
  have hne : j ≠ k := fun heq => hgo ((hp.halt_iff hj).mpr heq)
  rw [← addressOf_succ]
  exact hp.straightOn (Nat.lt_of_le_of_ne hj hne)

namespace Flowing

variable (h : Flowing words data k (boot cfg words data) n)
  (hp : StraightLine (instructionMemory cfg words) k)

include h

theorem live : Live (boot cfg words data) n := run_live h.running

include hp

/-- The window holds the instructions behind the retired ones, and decode shows the next. -/
theorem located (hn : n ≤ lastStep k) :
    (∀ i (hi : i < (run (boot cfg words data) n).rob.window.length),
      (run (boot cfg words data) n).rob.window[i].opcode =
        ((instructionMemory cfg words).decodedAt (addressOf (2 * (n - 3) + i))).opcode) ∧
      ((run (boot cfg words data) n).haltDispatched = false →
        (run (boot cfg words data) n).shownPc =
          addressOf (2 * (n - 3) + (run (boot cfg words data) n).rob.window.length)) := by
  obtain ⟨m, own, -, hsim⟩ := h.retiring
  obtain ⟨pc, horder, hshown⟩ := hsim.path
  have hle := lastStep_retired hn
  have hlen := h.inFlight
  rw [h.retired] at horder
  have hdec : ∀ e ∈ (run (boot cfg words data) n).rob.window, e.FromDecode :=
    h.live.steps.sound.inFlight.entryDecoded
  have hword : ∀ e ∈ (run (boot cfg words data) n).rob.window,
      e.opcode = ((instructionMemory cfg words).decodedAt e.pc).opcode := by
    intro e he
    have hread := h.live.fetched.window e he
    rw [run_imem] at hread
    rw [(hdec e he).opcode, hread]
    rfl
  obtain ⟨hpcs, halong⟩ := follow_straight horder.follow (hp.pc_run rfl hle) hdec
    fun i hi hat => by
      have he := List.getElem_mem hi
      have hflow := (hp.straightOn (j := 2 * (n - 3) + i) (by omega)).plain.1
      rw [(hdec _ he).branch, decodeWord_controlFlow, ← (hdec _ he).opcode, hword _ he, hat,
        hflow]
      rfl
  refine ⟨fun i hi => ?_, fun hd => ?_⟩
  · rw [hword _ (List.getElem_mem hi), hpcs i hi]
  · rw [hshown hd, ← horder.goesOn, halong]

/-- The `HALT` is instruction `k`. -/
theorem halt_at (hn : n ≤ lastStep k) {i : Nat}
    (hi : i < (run (boot cfg words data) n).rob.window.length) :
    (run (boot cfg words data) n).rob.window[i].halt = decide (2 * (n - 3) + i = k) := by
  have hdec := h.live.steps.sound.inFlight.entryDecoded _ (List.getElem_mem hi)
  have hlen := h.inFlight
  have hiff := hp.halt_iff (j := 2 * (n - 3) + i) (by omega)
  rw [hdec.halt_eq, ← hdec.opcode_eq, (h.located hp hn).1 i hi, Bool.beq_eq_decide_eq]
  exact decide_eq_decide.mpr hiff

/-- Dispatch closes behind the `HALT`. -/
theorem fence (hn : n ≤ lastStep k) :
    (run (boot cfg words data) n).haltDispatched = decide (k / 2 + 1 < n) := by
  have hlen := h.inFlight
  have hflag := h.live.steps.fence.flag
  rw [h.running] at hflag
  rw [Bool.eq_iff_iff, hflag, decide_eq_true_iff]
  constructor
  · rintro (⟨e, he, hyes⟩ | hno)
    · obtain ⟨i, hi, rfl⟩ := List.getElem_of_mem he
      rw [h.halt_at hp hn hi, decide_eq_true_iff] at hyes
      omega
    · cases hno
  · intro hlt
    have hle := lastStep_retired hn
    have hi : k - 2 * (n - 3) < (run (boot cfg words data) n).rob.window.length := by omega
    refine Or.inl ⟨_, List.getElem_mem hi, ?_⟩
    rw [h.halt_at hp hn hi, decide_eq_true_iff]
    omega

/-- Before the last step two instructions retire, from the fourth step on. -/
theorem retires (hn : n < lastStep k) {es : List ROBEntry}
    (hes : Commits (run (boot cfg words data) n) (run (boot cfg words data) n).committed es) :
    es.length = 2 * (n - 2) - 2 * (n - 3) := by
  have hlen := h.inFlight
  have hfit := lastStep_early hn
  have hzero : n = 2 → k ≠ 0 := by
    rintro rfl rfl
    exact absurd hn (by decide)
  refine h.live.steps.retires_exactly hes (by omega) (by omega) (fun i hi hlt => ?_)
    (fun i hi hlt => ?_) ?_
  · rw [h.done i hi, decide_eq_true (by omega), Bool.true_or]
  · rw [h.halt_at hp (Nat.le_of_lt hn) hi, decide_eq_false_iff_not]
    omega
  · by_cases hearly : n ≤ 2
    · refine Or.inr fun hi => ?_
      rw [h.done _ hi, h.halt_at hp (Nat.le_of_lt hn) hi, decide_eq_false (by omega),
        decide_eq_false (by omega)]
      rfl
    · exact Or.inl (by omega)

/-- In the last step everything left retires. -/
theorem retires_last (hn : n = lastStep k) {es : List ROBEntry}
    (hes : Commits (run (boot cfg words data) n) (run (boot cfg words data) n).committed es) :
    es.length = (run (boot cfg words data) n).rob.window.length := by
  have hlen := h.inFlight
  have hfit := lastStep_cases hn
  refine h.live.steps.retires_exactly hes (Nat.le_refl _) (by omega) (fun i hi _ => ?_)
    (fun i hi hlt => ?_) (Or.inr fun hi => absurd hi (Nat.lt_irrefl _))
  · rw [h.done i hi, h.halt_at hp (Nat.le_of_eq hn) hi, Bool.or_eq_true, decide_eq_true_iff,
      decide_eq_true_iff]
    omega
  · rw [h.halt_at hp (Nat.le_of_eq hn) hi, decide_eq_false_iff_not]
    omega

/-- At most two instructions stay, none of them but the `HALT` completed. -/
theorem committed_window (hn : n ≤ lastStep k) {es : List ROBEntry}
    (hes : Commits (run (boot cfg words data) n) (run (boot cfg words data) n).committed es) :
    (run (boot cfg words data) n).committed.rob.window.length ≤ 2 ∧
      OpenInteger (run (boot cfg words data) n).committed := by
  have hlen := h.inFlight
  have hsplit := congrArg List.length hes.window
  rw [List.length_append] at hsplit
  constructor
  · rcases Nat.lt_or_eq_of_le hn with hlt | heq
    · have hcount := h.retires hp hlt hes
      have hfit := lastStep_early hlt
      omega
    · have hcount := h.retires_last hp heq hes
      omega
  · intro e he hopen
    have hmem : e ∈ (run (boot cfg words data) n).rob.window := by
      rw [hes.window]
      exact List.mem_append_right _ he
    obtain ⟨i, hi, rfl⟩ := List.getElem_of_mem hmem
    have hhalt := h.halt_at hp hn hi
    have hdone := h.done i hi
    rw [hopen, eq_comm, Bool.or_eq_false_iff] at hdone
    rw [hdone.2, eq_comm, decide_eq_false_iff_not] at hhalt
    rw [(h.located hp hn).1 i hi]
    exact hp.integer _ (by omega)

theorem quiet (harf : 16 ≤ cfg.arfCount) (hn : n ≤ lastStep k) :
    Quiet (run (boot cfg words data) n) := by
  obtain ⟨m, own, -, hsim⟩ := h.retiring
  obtain ⟨es, hes⟩ := h.live.steps.commits
  obtain ⟨hfew, hint⟩ := h.committed_window hp hn hes
  exact h.live.steps.quiet hint (hsim.renamed.commit h.live.steps.sound hes)
    (hsim.delivery.commit harf hes) harf ((List.countP_le_length).trans hfew)

/-- The bundle at decode while the fence is down. -/
theorem presented (hn : n ≤ k / 2 + 1) (hpos : n ≠ 0) :
    (run (boot cfg words data) n).frontend.decodeBundle =
      (run (boot cfg words data) n).imem.bundleAt (addressOf (2 * (n - 1))) := by
  have hle := lastStep_ge hn
  have hvalid := h.shown hn
  rw [decide_eq_true hpos] at hvalid
  have hlen := h.inFlight
  have hshown := (h.located hp hle).2 (by rw [h.fence hp hle]; exact decide_eq_false (by omega))
  rw [shownPc, hvalid, if_pos rfl, hlen, Nat.min_eq_right (by omega)] at hshown
  rcases h.live.streaming.decode with hbubble | ⟨p, hdec, -⟩
  · rw [hbubble] at hvalid
    cases hvalid
  · rw [hdec] at hshown ⊢
    rw [← hshown]
    rfl

/-- While the fence is down a step has room for two instructions. -/
theorem roomy (harf : 16 ≤ cfg.arfCount) (hn : n ≤ k / 2 + 1) :
    ∃ m, Accounted m (run (boot cfg words data) n).executed ∧
      Roomy (run (boot cfg words data) n) := by
  have hle := lastStep_ge hn
  obtain ⟨m, hA⟩ := h.accounted hn
  have hq := h.quiet hp harf hle
  obtain ⟨es, hes, hexec⟩ := hA.executed h.live.steps hq.clean
  exact ⟨_, hexec, hq.roomy (h.committed_window hp hle hes).1 hexec⟩

/-- What a step dispatches. -/
theorem enters (harf : 16 ≤ cfg.arfCount) (hrob : 4 ≤ cfg.robCapacity)
    (hiq : 2 ≤ cfg.iqCapacity) (hn : n ≤ lastStep k) :
    min (k + 1) (2 * (n - 1)) + (run (boot cfg words data) n).entered.length =
        min (k + 1) (2 * n) ∧
      ∀ e ∈ (run (boot cfg words data) n).entered, e.completed = e.halt := by
  have hq := h.quiet hp harf hn
  have hclosed := h.fence hp hn
  by_cases hopen : n ≤ k / 2 + 1
  swap
  · -- the fence is up
    have hidle : (run (boot cfg words data) n).renames = false := eq_false_of_ne_true fun hr => by
      rw [(h.live.steps.of_renames hr).2, eq_comm, decide_eq_false_iff_not] at hclosed
      omega
    have hnone : (run (boot cfg words data) n).entered = [] := by
      rw [entered, dispatched0, dispatched1, hidle]
      rfl
    rw [hnone]
    refine ⟨?_, fun e he => by cases he⟩
    rw [List.length_nil]
    omega
  rw [decide_eq_false (by omega)] at hclosed
  by_cases hzero : n = 0
  · -- decode shows a bubble
    have hvalid := h.shown hopen
    rw [decide_eq_false (by omega)] at hvalid
    have hnone : (run (boot cfg words data) n).entered = [] := by
      have hno0 : (run (boot cfg words data) n).dispatched0 = false :=
        eq_false_of_ne_true fun hd => by
          obtain ⟨hr, hv, -⟩ := h.live.steps.of_dispatched0 hd
          obtain ⟨p, hdec, -⟩ := h.live.steps.input0 h.live.streaming hr hv
          rw [hdec] at hvalid
          cases hvalid
      have hno1 : (run (boot cfg words data) n).dispatched1 = false :=
        eq_false_of_ne_true fun hd => by
          obtain ⟨hr, hv, -⟩ := h.live.steps.of_dispatched1 hd
          obtain ⟨p, hdec, -⟩ := h.live.steps.input1 h.live.streaming hr hv
          rw [hdec] at hvalid
          cases hvalid
      rw [entered, hno0, hno1]
      rfl
    rw [hnone, hzero]
    exact ⟨rfl, fun e he => by cases he⟩
  · obtain ⟨m, -, hroomy⟩ := h.roomy hp harf hopen
    have hdec := h.presented hp hopen hzero
    obtain ⟨hcode0, hhalt, hcode1⟩ := hp.codes data n (show 2 * (n - 1) ≤ k by omega)
    obtain ⟨hd0, hd1⟩ := h.live.steps.bundle_enters h.live.streaming hq.no_recovery hclosed
      (hroomy.room hrob hiq) hdec hcode0
    refine ⟨?_, fun e he => h.live.steps.entered_completed hq.no_recovery hdec hcode0
      (fun hyes => hcode1 ?_) he⟩
    · rw [entered, hd0, hd1]
      by_cases hlast : 2 * (n - 1) = k
      · rw [hhalt.mpr hlast, bne_self_eq_false]
        show _ + 1 = _
        omega
      · rw [bne_iff_ne.mpr fun hcode => hlast (hhalt.mp hcode)]
        show _ + 2 = _
        omega
    · rw [hyes, eq_comm, bne_iff_ne] at hd1
      exact hd1

theorem orderly (hprf : cfg.prfCount = 64) (harf : 16 ≤ cfg.arfCount) (hrob : 4 ≤ cfg.robCapacity)
    (hiq : 2 ≤ cfg.iqCapacity) (hn : n ≤ lastStep k) :
    OrderlyStep (boot cfg words data) n := by
  have hq := h.quiet hp harf hn
  have hopen : (run (boot cfg words data) n).haltDispatched = false → n ≤ k / 2 + 1 := by
    intro hd
    rw [h.fence hp hn, decide_eq_false_iff_not] at hd
    omega
  have hroomy : (run (boot cfg words data) n).haltDispatched = false →
      Roomy (run (boot cfg words data) n) := fun hd =>
    (h.roomy hp harf (hopen hd)).choose_spec.2
  refine hq.orderly h.running (h.live.steps.registersInRange hprf)
    (fun hd => (hroomy hd).room hrob hiq) fun hr => ?_
  have hd := (h.live.steps.of_renames hr).2
  by_cases hzero : n = 0
  · have hvalid := h.shown (hopen hd)
    rw [decide_eq_false (by omega)] at hvalid
    have hbubble : (run (boot cfg words data) n).frontend.decodeBundle = {} := by
      rcases h.live.streaming.decode with hdec | ⟨p, hdec, -⟩
      · exact hdec
      · rw [hdec] at hvalid
        cases hvalid
    exact h.live.steps.allocationsSucceed_bubble hbubble hr
  · have hwindow := (hroomy hd).window
    have hqueue := (hroomy hd).queue
    have hearly := hopen hd
    obtain ⟨hcode0, -, hcode1⟩ := hp.codes data n (j := 2 * (n - 1)) (by omega)
    exact h.live.steps.allocationsSucceed hq.no_recovery ⟨by omega, by omega⟩
      (h.presented hp (hopen hd) hzero) hcode0 hcode1 hr

/-- No bundle in front of the one with the `HALT` redirects the front end. -/
theorem no_redirect (harf : 16 ≤ cfg.arfCount) (hn : n ≤ k / 2) :
    (run (boot cfg words data) n).redirectTarget = none ∧
      (run (boot cfg words data) n).executed.decodeLane0.halt = false := by
  have hle : n ≤ lastStep k := lastStep_ge (by omega)
  have hrec := (h.quiet hp harf hle).no_recovery
  have hfront := h.live.steps.executed_frontend hrec
  by_cases hzero : n = 0
  · have hvalid := h.shown (by omega)
    rw [decide_eq_false (by omega)] at hvalid
    rcases h.live.streaming.decode with hdec | ⟨p, hdec, -⟩
    · refine ⟨h.live.steps.bubble_redirect hdec hrec, ?_⟩
      rw [decodeLane0, hfront, hdec]
      rfl
    · rw [hdec] at hvalid
      cases hvalid
  · obtain ⟨hcode0, hhalt, hcode1⟩ :=
      hp.codes data n (j := 2 * (n - 1)) (by omega)
    have hgo := mt hhalt.mp (show 2 * (n - 1) ≠ k by omega)
    obtain ⟨hlane0, hlane1⟩ :=
      h.live.steps.decode_lanes hrec (h.presented hp (by omega) hzero)
    constructor
    · rw [redirectTarget, hrec, (redirect_of_no_branch fun _ => ?_).2 fun _ => ?_,
        Bool.and_false]
      · rfl
      · rw [hlane0]
        exact hcode0.controlFlow
      · rw [hlane1]
        exact (hcode1 hgo).controlFlow
    · rw [hlane0, decodedAt_halt]
      exact beq_eq_false_iff_ne.mpr hgo

theorem next (hprf : cfg.prfCount = 64) (harf : 16 ≤ cfg.arfCount) (hrob : 4 ≤ cfg.robCapacity)
    (hiq : 2 ≤ cfg.iqCapacity) (hn : n < lastStep k) :
    Flowing words data k (boot cfg words data) (n + 1) := by
  have hle := Nat.le_of_lt hn
  have hq := h.quiet hp harf hle
  have hlen := h.inFlight
  have hs := h.live.steps
  obtain ⟨es, hes⟩ := hs.commits
  have hretired := h.retires hp hn hes
  obtain ⟨hentered, hopen⟩ := h.enters hp harf hrob hiq hle
  have hcount := (hs.retired_counts hes).2.1
  have hexec := hq.length
  have hfit := lastStep_early hn
  have hrunning : (run (boot cfg words data) (n + 1)).halted = false := by
    show (run (boot cfg words data) n).next.halted = false
    rw [hs.next_halted, hes.halted, h.running, Bool.false_or, List.any_eq_false]
    intro e he
    obtain ⟨i, hi, rfl⟩ := List.getElem_of_mem he
    have hmem : i < (run (boot cfg words data) n).rob.window.length := by omega
    rw [← hes.getElem_window hi hmem, h.halt_at hp hle hmem, decide_eq_true_iff]
    omega
  have hwindow : (run (boot cfg words data) (n + 1)).rob.window =
      (run (boot cfg words data) n).executed.rob.window ++
        (run (boot cfg words data) n).entered := hs.window_next
  refine ⟨hrunning, ?_, ?_, ?_, fun i hi => ?_, fun hmore => ?_, fun hmore => ?_⟩
  · exact ((h.retiring.next harf h.live (h.orderly hp hprf harf hrob hiq hle)).2 hrunning).1
  · show (run (boot cfg words data) n).next.committedInstructionCount = _
    rw [hs.next_counters.1, hs.committed_count, (hs.retired_counts hes).1, hretired, h.retired]
    omega
  · rw [hwindow, List.length_append]
    omega
  · -- what was in flight has executed, and what entered has not
    simp only [hwindow]
    by_cases hold : i < (run (boot cfg words data) n).executed.rob.window.length
    · rw [List.getElem_append_left hold, hq.finished _ (List.getElem_mem hold),
        decide_eq_true (by omega)]
      rfl
    · have hnew : i - (run (boot cfg words data) n).executed.rob.window.length <
          (run (boot cfg words data) n).entered.length := by
        rw [hwindow, List.length_append] at hi
        omega
      rw [List.getElem_append_right (Nat.le_of_not_lt hold), hopen _ (List.getElem_mem hnew),
        decide_eq_false (by omega), Bool.false_or]
  · show (run (boot cfg words data) n).next.frontend.decodeBundle.valid0 = _
    rw [(h.live.streaming.sequential hs (h.no_redirect hp harf (by omega)).1).1,
      decide_eq_true (Nat.succ_ne_zero n)]
    rfl
  · obtain ⟨m, hA, hroomy⟩ := h.roomy hp harf (by omega)
    exact ⟨m, hA.next hprf hs h.live.streaming
      (hroomy.allPlaced hrob hiq (h.no_redirect hp harf (by omega)).2)⟩

/-- The last step retires the `HALT`. -/
theorem halts (hn : n = lastStep k) : (run (boot cfg words data) (n + 1)).halted = true := by
  have hle := Nat.le_of_eq hn
  have hlen := h.inFlight
  have hs := h.live.steps
  obtain ⟨es, hes⟩ := hs.commits
  have hall := h.retires_last hp hn hes
  have hfit := lastStep_cases hn
  have hi : k - 2 * (n - 3) < es.length := by omega
  show (run (boot cfg words data) n).next.halted = true
  rw [hs.next_halted, hes.halted, h.running, Bool.false_or, List.any_eq_true]
  refine ⟨es[k - 2 * (n - 3)], List.getElem_mem hi, ?_⟩
  rw [← hes.getElem_window hi (by omega), h.halt_at hp hle, decide_eq_true_iff]
  omega

end Flowing

theorem Flowing.start (harf : 16 ≤ cfg.arfCount) (hprf : 16 ≤ cfg.prfCount) (words : List Word)
    (data : List (Nat × Word)) (k : Nat) : Flowing words data k (boot cfg words data) 0 := by
  have hframe := @boot_frame cfg words data
  have hwin : (run (boot cfg words data) 0).rob.window = [] := by
    rw [run, hframe]
    exact ReOrderBuffer.window_reset
  refine ⟨?_, Retiring.boot harf hprf words data, ?_, ?_, fun i hi => ?_, fun _ => ?_, fun _ =>
    ⟨_, Accounted.boot cfg words data⟩⟩
  · rw [run, hframe]
    rfl
  · rw [run, hframe]
    rfl
  · rw [hwin]
    rfl
  · rw [hwin] at hi
    exact absurd hi (Nat.not_lt_zero i)
  · have hbubble : (run (boot cfg words data) 0).frontend.decodeBundle = {} := by
      rw [run, hframe]
      exact Frontend.resetSequence_decode _
    rw [hbubble]
    rfl

theorem flowing (hprf : cfg.prfCount = 64) (harf : 16 ≤ cfg.arfCount) (hrob : 4 ≤ cfg.robCapacity)
    (hiq : 2 ≤ cfg.iqCapacity) (hp : StraightLine (instructionMemory cfg words) k)
    (data : List (Nat × Word)) (hn : n ≤ lastStep k) :
    Flowing words data k (boot cfg words data) n := by
  induction n with
  | zero => exact Flowing.start harf (by omega) words data k
  | succ n ih => exact (ih (Nat.le_of_succ_le hn)).next hp hprf harf hrob hiq hn

/-- The interpreter halts at instruction `k`. -/
theorem StraightLine.haltsAt (hp : StraightLine (instructionMemory cfg words) k)
    (data : List (Nat × Word)) :
    (interpreter cfg data).HaltsAt (instructionMemory cfg words) k := by
  have hcode : ∀ j ≤ k, (((interpreter cfg data).run (instructionMemory cfg words) j).current
      (instructionMemory cfg words)).opcode =
        ((instructionMemory cfg words).decodedAt (addressOf j)).opcode := by
    intro j hj
    rw [Interpreter.current, hp.pc_run rfl hj, InstructionMemory.decodedAt, decodeWord_opcode]
  refine ⟨(hcode k (Nat.le_refl k)).trans hp.halt, fun j hj hno => ?_⟩
  rw [hcode j (Nat.le_of_lt hj), hp.halt_iff (Nat.le_of_lt hj)] at hno
  exact Nat.ne_of_lt hj hno

/-- A straight-line program runs at two instructions a cycle whatever its data dependences:
    `run(max_cycles)` takes a cycle for each pair in front of the `HALT` and four more, and
    after the first three cycles each retires two instructions until the `HALT` retires. -/
theorem straight_line_cycles (cfg : Config) (hprf : cfg.prfCount = 64) (harf : 16 ≤ cfg.arfCount)
    (hrob : 4 ≤ cfg.robCapacity) (hiq : 2 ≤ cfg.iqCapacity) (words : List Word)
    (data : List (Nat × Word)) (k : Nat) (hp : StraightLine (instructionMemory cfg words) k)
    (maxCycles : Nat) :
    let s := runUntil maxCycles (boot cfg words data)
    let cycles := if k = 0 then 3 else k / 2 + 4
    s.cycles = min maxCycles cycles ∧ (s.halted = true ↔ cycles ≤ maxCycles) ∧
      (cycles ≤ maxCycles → Completed words data s k) ∧
      (maxCycles < cycles → s.committedInstructionCount = 2 * (maxCycles - 3)) := by
  intro s cycles
  have hcycles : cycles = lastStep k + 1 := by
    show (if k = 0 then 3 else k / 2 + 4) = _
    rw [lastStep]
    split <;> rfl
  have hflow := fun n hn => flowing (n := n) hprf harf hrob hiq hp data hn
  have hlast := (hflow _ (Nat.le_refl _)).halts hp rfl
  rw [← hcycles] at hlast
  have hstart : (run (boot cfg words data) 0).cycles = 0 := by
    rw [run, boot_frame]
    rfl
  obtain ⟨stop, hle, heq, hcount, hbefore, hend⟩ := runUntil_run maxCycles (boot cfg words data) 0
    hstart (Nat.zero_le maxCycles) fun j hj => absurd hj (Nat.not_lt_zero j)
  change s = _ at heq
  -- the loop ends with the `HALT` or with its last cycle
  have hstop : stop ≤ cycles := by
    by_contra hgt
    rw [hbefore cycles (Nat.lt_of_not_le hgt)] at hlast
    cases hlast
  have hrunning : stop < cycles → (run (boot cfg words data) stop).halted = false := fun hlt =>
    (hflow stop (by omega)).running
  have hmin : stop = min maxCycles cycles := by
    rcases Nat.lt_or_eq_of_le hstop with hlt | hsame
    · rcases hend with hhalt | hmax
      · rw [hrunning hlt] at hhalt
        cases hhalt
      · omega
    · omega
  rw [heq]
  refine ⟨hcount.trans hmin, ?_, fun henough => ?_, fun hfew => ?_⟩
  · constructor
    · intro hhalt
      by_contra hfew
      rw [hrunning (by omega)] at hhalt
      cases hhalt
    · intro henough
      rw [show stop = cycles by omega]
      exact hlast
  · rw [show stop = cycles by omega]
    have horderly := @orderly_of_halted _ (boot cfg words data) cycles
      (fun n hn => (hflow n (by omega)).orderly hp hprf harf hrob hiq (by omega)) hlast
    obtain ⟨j, hj⟩ := completed_of_halted harf (by omega) horderly hlast
    obtain rfl := hj.completes.1.unique (hp.haltsAt data)
    exact hj
  · rw [(hflow stop (by omega)).retired, show stop = maxCycles by omega]

/-- `LI r1, 10; ADDI r1, r1, 5; ADD r2, r1, r1; HALT`: each instruction needs the result of
    the one in front, and the four take five cycles. -/
theorem straight_line_cycles_chain :
    let s := runUntil 100 (boot .default [0x1C40000A, 0x20440005, 0x04844000, 0x38000000] [])
    s.cycles = 5 ∧ s.halted = true ∧ s.arf.read 2 = 30 := by
  obtain ⟨hcycles, hhalted, hdone, -⟩ := straight_line_cycles .default (by decide) (by decide)
    (by decide) (by decide) [0x1C40000A, 0x20440005, 0x04844000, 0x38000000] [] 3
    (by decide +kernel) 100
  exact ⟨hcycles, hhalted.mpr (by decide), ((hdone (by decide)).regs 2).trans (by decide +kernel)⟩

end Flow

end SuperScalarCPU

end CpuSim.SuperScalar
