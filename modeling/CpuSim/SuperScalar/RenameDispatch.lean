/-
  CpuSim.SuperScalar.RenameDispatch

  Stages 4 and 5 said once.  With a register for each lane `rename` treats the
  lanes one after the other (`Renames`); the dispatch block of a lane ignores a
  bubble, refuses when the reorder buffer or the issue queue is full, and
  otherwise enters the instruction in both (`LaneCase`).
-/

import CpuSim.SuperScalar.Stages

namespace CpuSim.SuperScalar

variable {cfg : Config}

/-! ## Rename -/

namespace RenameUnit

variable {n : Nat} {u : RenameUnit n} {input input0 input1 : DecodeBundle}

/-- `rename` of one instruction when a register is there for it. -/
inductive Renames (u : RenameUnit n) (input : DecodeBundle) (out : RenameBundle)
    (u' : RenameUnit n) : Prop
  | bubble (hv : input.valid = false) (ho : out = {}) (hu : u' = u)
  | reader (hv : input.valid = true) (hw : input.registerWrite = false)
      (ho : out = { preserve u.rat input with physicalRd := INVALID_REGISTER }) (hu : u' = u)
  | writer (p : PhysicalRegister) (rest : List PhysicalRegister) (hv : input.valid = true)
      (hw : input.registerWrite = true) (hf : u.freeList.freeRegisters = p :: rest)
      (ho : out =
        { preserve u.rat input with
          oldPhysicalRd := u.rat.lookup input.rd, physicalRd := p })
      (hu : u' =
        { u with
          freeList := ⟨rest⟩, prf := u.prf.allocate p, rat := u.rat.set input.rd p })

theorem renameOne_renames
    (hroom : input.valid = true → input.registerWrite = true → 0 < u.freeList.size)
    (hfree : INVALID_REGISTER ∉ u.freeList.freeRegisters) :
    Renames u input (renameOne u input).1 (renameOne u input).2 := by
  cases hv : input.valid with
  | false => exact .bubble hv (by simp [renameOne, hv]) (by simp [renameOne, hv])
  | true =>
      cases hw : input.registerWrite with
      | false => exact .reader hv hw (by simp [renameOne, hv, hw]) (by simp [renameOne, hv, hw])
      | true =>
          have hpos := hroom hv hw
          cases hf : u.freeList.freeRegisters with
          | nil => simp [PhysicalRegisterFreeList.size, hf] at hpos
          | cons p rest =>
              have hp : p ≠ INVALID_REGISTER := fun h => hfree (by simp [hf, h])
              refine .writer p rest hv hw hf ?_ ?_ <;>
                simp [renameOne, hv, hw, PhysicalRegisterFreeList.allocate, hf, hp]

theorem Renames.valid {out : RenameBundle} {u' : RenameUnit n} (h : Renames u input out u') :
    out.valid = input.valid := by
  cases h with
  | bubble hv ho _ => rw [ho, hv]
  | reader hv _ ho _ => rw [ho, hv]; rfl
  | writer p rest hv _ _ ho _ => rw [ho, hv]; rfl

/-- A valid bundle is the preserved input with its destination renamed. -/
theorem Renames.out_eq {out : RenameBundle} {u' : RenameUnit n} (h : Renames u input out u')
    (hv : input.valid = true) :
    ∃ old p, out = { preserve u.rat input with oldPhysicalRd := old, physicalRd := p } := by
  cases h with
  | bubble hb _ _ => rw [hv] at hb; cases hb
  | reader _ _ ho _ => exact ⟨_, _, ho⟩
  | writer p rest _ _ _ ho _ => exact ⟨_, _, ho⟩

/-- `can_rename` has a register for each lane: the pair renames lane by lane. -/
theorem rename_renames (hcan : canRename u.freeList input0 input1 = true)
    (hfree : INVALID_REGISTER ∉ u.freeList.freeRegisters) :
    ∃ u0,
      Renames { u with stalled := false } input0 (rename u input0 input1).1 u0 ∧
        Renames u0 input1 (rename u input0 input1).2.1 (rename u input0 input1).2.2 := by
  have hneed : needed input0 input1 ≤ u.freeList.size := of_decide_eq_true hcan
  rw [needed] at hneed
  -- lane 0 finds a register because both lanes together find enough
  have h0 : Renames { u with stalled := false } input0
      (renameOne { u with stalled := false } input0).1
      (renameOne { u with stalled := false } input0).2 := by
    refine renameOne_renames (fun hv hw => ?_) hfree
    rw [hv, hw] at hneed
    simp only [Bool.and_self, if_true] at hneed
    show 0 < u.freeList.size
    omega
  -- lane 1 finds one behind lane 0, which takes at most the register it needs
  have h1 : Renames (renameOne { u with stalled := false } input0).2 input1
      (renameOne (renameOne { u with stalled := false } input0).2 input1).1
      (renameOne (renameOne { u with stalled := false } input0).2 input1).2 := by
    refine renameOne_renames (fun hv hw => ?_) ?_
    · rw [hv, hw] at hneed
      cases h0 with
      | bubble hv0 _ hu => rw [hu]; simp_all; omega
      | reader hv0 hw0 _ hu => rw [hu]; simp_all; omega
      | writer p rest hv0 hw0 hf _ hu =>
          rw [hu]
          simp only [hv0, hw0, Bool.and_self, if_true, PhysicalRegisterFreeList.size] at hneed ⊢
          rw [show u.freeList.freeRegisters = p :: rest from hf, List.length_cons] at hneed
          omega
    · cases h0 with
      | bubble _ _ hu => rw [hu]; exact hfree
      | reader _ _ _ hu => rw [hu]; exact hfree
      | writer p rest _ _ hf _ hu =>
          rw [hu]
          intro hmem
          apply hfree
          rw [show u.freeList.freeRegisters = p :: rest from hf]
          exact List.mem_cons_of_mem _ hmem
  refine ⟨(renameOne { u with stalled := false } input0).2, ?_⟩
  -- so neither lane comes back invalid, and the restore of the failed case is not taken
  have hok0 :
      (input0.valid && !(renameOne { u with stalled := false } input0).1.valid) = false := by
    rw [h0.valid]
    simp
  have hok1 : (input1.valid &&
      !(renameOne (renameOne { u with stalled := false } input0).2 input1).1.valid) = false := by
    rw [h1.valid]
    simp
  have heq : rename u input0 input1 =
      ((renameOne { u with stalled := false } input0).1,
        (renameOne (renameOne { u with stalled := false } input0).2 input1).1,
        (renameOne (renameOne { u with stalled := false } input0).2 input1).2) := by
    simp only [rename, hok0, hok1, Bool.false_eq_true, if_false]
  rw [heq]
  exact ⟨h0, h1⟩

end RenameUnit

/-! ## What reaches rename -/

/-- A bundle whose control fields decode from a word, with any prediction. -/
def DecodeBundle.Decoded (input : DecodeBundle) : Prop :=
  ∃ pc w p, input = { decodeWord pc w with prediction := p }

/-- The control fields of a preserved bundle. -/
theorem RenameUnit.preserve_control (rat : RegisterAliasTable) {input : DecodeBundle}
    (h : input.Decoded) :
    (preserve rat input).control = decodeWord input.pc input.instruction := by
  obtain ⟨pc, w, p, rfl⟩ := h
  have hv := decodeWord_valid pc w
  have hp := decodeWord_prediction pc w
  rw [show ({ decodeWord pc w with prediction := p } : DecodeBundle).pc = pc
      from decodeWord_pc pc w,
    show ({ decodeWord pc w with prediction := p } : DecodeBundle).instruction = w
      from decodeWord_instruction pc w]
  generalize decodeWord pc w = d at hv hp ⊢
  cases d
  simp only at hv hp
  subst hv hp
  rfl

theorem RenameUnit.Renames.fromDecode {n : Nat} {u u' : RenameUnit n} {input : DecodeBundle}
    {out : RenameBundle} (h : Renames u input out u') (hin : input.valid = true → input.Decoded)
    (hv : out.valid = true) : out.FromDecode := by
  have hd := hin (h.valid ▸ hv)
  cases h with
  | bubble _ ho _ => rw [ho] at hv; cases hv
  | reader _ _ ho _ => rw [ho]; exact preserve_control u.rat hd
  | writer p rest _ _ _ ho _ => rw [ho]; exact preserve_control u.rat hd

namespace SuperScalarCPU

variable (s : SuperScalarCPU cfg)

/-- A lane that is not a bubble was decoded from the word on its bus. -/
theorem renInput0_decoded (hv : s.renInput0.valid = true) :
    s.frontend.decodeBundle.valid0 = true ∧
      ∃ p, s.renInput0 =
        { decodeWord s.frontend.decodeBundle.pc0 s.frontend.decodeBundle.instruction0 with
          prediction := p } := by
  cases hb : s.frontend.decodeBundle.valid0 with
  | false =>
      have : s.decodeLane0.valid = false := by simp [decodeLane0, DecodeUnit.decode, hb]
      simp only [renInput0, annotate] at hv
      split at hv <;> simp [this] at hv
  | true =>
      refine ⟨rfl, ?_⟩
      have hd : s.decodeLane0 =
          decodeWord s.frontend.decodeBundle.pc0 s.frontend.decodeBundle.instruction0 := by
        simp [decodeLane0, decodeWord, hb]
      simp only [renInput0, annotate, hd]
      split
      · exact ⟨_, rfl⟩
      · exact ⟨_, rfl⟩

/-- A valid lane 1 was not discarded by a redirect of lane 0. -/
theorem renInput1_open (hv : s.renInput1.valid = true) :
    (s.predictionResult.redirect && s.predictionResult.redirectLane == 0) = false := by
  by_contra hno
  rw [renInput1, if_pos (eq_true_of_ne_false hno)] at hv
  cases hv

theorem renInput1_decoded (hv : s.renInput1.valid = true) :
    s.frontend.decodeBundle.valid1 = true ∧
      ∃ p, s.renInput1 =
        { decodeWord s.frontend.decodeBundle.pc1 s.frontend.decodeBundle.instruction1 with
          prediction := p } := by
  -- a lane whose neighbour redirected is a bubble, so this one was annotated
  have hann : (annotate s.decodeLane1 s.predictionResult.lane1).valid = true ∧
      s.renInput1 = annotate s.decodeLane1 s.predictionResult.lane1 := by
    rw [renInput1] at hv ⊢
    split at hv
    · simp at hv
    · rename_i hr
      exact ⟨hv, by rw [if_neg hr]⟩
  rw [hann.2]
  cases hb : s.frontend.decodeBundle.valid1 with
  | false =>
      have : s.decodeLane1.valid = false := by simp [decodeLane1, DecodeUnit.decode, hb]
      have hv := hann.1
      simp only [annotate] at hv
      split at hv <;> simp [this] at hv
  | true =>
      refine ⟨rfl, ?_⟩
      have hd : s.decodeLane1 =
          decodeWord s.frontend.decodeBundle.pc1 s.frontend.decodeBundle.instruction1 := by
        simp [decodeLane1, decodeWord, hb]
      simp only [annotate, hd]
      split
      · exact ⟨_, rfl⟩
      · exact ⟨_, rfl⟩

theorem renInput0_isDecoded (hv : s.renInput0.valid = true) : s.renInput0.Decoded := by
  obtain ⟨-, p, hin⟩ := s.renInput0_decoded hv
  exact ⟨_, _, p, hin⟩

theorem renInput1_isDecoded (hv : s.renInput1.valid = true) : s.renInput1.Decoded := by
  obtain ⟨-, p, hin⟩ := s.renInput1_decoded hv
  exact ⟨_, _, p, hin⟩

/-- The redirect request changes wires that rename does not read. -/
theorem predictRedirect_frame :
    s.predictRedirect = { s with frontend := s.predictRedirect.frontend } ∧
      s.predictRedirect.frontend.decodeBundle = s.frontend.decodeBundle := by
  rw [predictRedirect]
  split
  · exact ⟨rfl, rfl⟩
  · exact ⟨rfl, rfl⟩

theorem renInput0_predictRedirect : s.predictRedirect.renInput0 = s.renInput0 := by
  rw [predictRedirect]
  split <;> rfl

theorem renInput1_predictRedirect : s.predictRedirect.renInput1 = s.renInput1 := by
  rw [predictRedirect]
  split <;> rfl

end SuperScalarCPU

/-! ## Dispatch of one lane -/

/-- `HALT` and `NOP` complete as they are dispatched. -/
def RenameBundle.completesAtOnce (ren : RenameBundle) : Bool := ren.halt || ren.opcode == .NOP

/-- The classes of a decoded bundle exclude each other. -/
theorem RenameBundle.FromDecode.classes {ren : RenameBundle} (h : ren.FromDecode) :
    (ren.memoryRead = true → ren.memoryWrite = false ∧ ren.completesAtOnce = false) ∧
      (ren.memoryWrite = true → ren.completesAtOnce = false) ∧
      (ren.halt = true → ren.opcode ≠ .NOP) := by
  have hb : ∀ {α : Type} (f : DecodeBundle → α),
      f ren.control = f (decodeWord ren.pc ren.instruction) := fun f => congrArg f h
  have hop : ren.opcode = (decodeWord ren.pc ren.instruction).opcode := hb DecodeBundle.opcode
  have hr : ren.memoryRead = (ren.opcode == .LW) := by
    rw [hop, ← decodeWord_memoryRead]
    exact hb DecodeBundle.memoryRead
  have hw : ren.memoryWrite = (ren.opcode == .SW) := by
    rw [hop, ← decodeWord_memoryWrite]
    exact hb DecodeBundle.memoryWrite
  have hh : ren.halt = (ren.opcode == .HALT) := by
    rw [hop, ← decodeWord_halt]
    exact hb DecodeBundle.halt
  rw [RenameBundle.completesAtOnce, hr, hw, hh]
  cases ren.opcode <;> simp

/-- An instruction with a destination register does not complete at dispatch. -/
theorem RenameBundle.FromDecode.writer_late {ren : RenameBundle} (h : ren.FromDecode)
    (hw : ren.registerWrite = true) : ren.completesAtOnce = false := by
  have hb : ∀ {α : Type} (f : DecodeBundle → α),
      f ren.control = f (decodeWord ren.pc ren.instruction) := fun f => congrArg f h
  have hop : ren.opcode = (decodeWord ren.pc ren.instruction).opcode := hb DecodeBundle.opcode
  have hreg : ren.registerWrite = writesRegister ren.opcode := by
    rw [hop, ← decodeWord_registerWrite]
    exact hb DecodeBundle.registerWrite
  have hhalt : ren.halt = (ren.opcode == .HALT) := by
    rw [hop, ← decodeWord_halt]
    exact hb DecodeBundle.halt
  rw [hreg] at hw
  rw [RenameBundle.completesAtOnce, hhalt]
  revert hw
  cases ren.opcode <;> simp [writesRegister]

namespace SuperScalarCPU

variable {s t : SuperScalarCPU cfg} {ren : RenameBundle}

/-- The checkpoint handed to dispatch with a bundle. -/
def laneCheckpoint (s : SuperScalarCPU cfg) (ren : RenameBundle) : Option Checkpoint :=
  if ren.controlFlow == .BRANCH then some s.rat.checkpoint.1 else none

/-- A bundle entered in slot `idx`, the structures being `rob1` and `iq1` before an
    instruction that completes at once is taken out again. -/
structure Enters (s t : SuperScalarCPU cfg) (ren : RenameBundle) (idx : Nat)
    (rob1 : ReOrderBuffer cfg.robCapacity) (iq1 : IssueQueue cfg.iqCapacity) : Prop where
  valid : ren.valid = true
  allocate : s.rob.allocate ren (s.laneCheckpoint ren) = some (idx, rob1)
  insert : s.iq.insert (DispatchUnit.makeIssueEntry s.prf ren idx) = some iq1
  frame :
    t =
      { s with
        rob := if ren.completesAtOnce then rob1.complete idx 0 else rob1,
        iq := if ren.completesAtOnce then removeFromIq iq1 idx else iq1,
        rat := s.rat.checkpoint.2,
        lsq :=
          if ren.memoryRead then (s.lsq.allocate .LOAD idx ren.pc ren.physicalRd).getD s.lsq
          else if ren.memoryWrite then (s.lsq.allocate .STORE idx ren.pc 0).getD s.lsq
          else s.lsq,
        storeBuffer :=
          if ren.memoryWrite then (s.storeBuffer.allocate idx ren.pc).getD s.storeBuffer
          else s.storeBuffer,
        haltDispatched := s.haltDispatched || ren.halt }

/-- The cases of the dispatch block of one lane. -/
inductive LaneCase (s t : SuperScalarCPU cfg) (ren : RenameBundle) : Prop
  | bubble (hv : ren.valid = false) (h : t = s)
  | refused (hv : ren.valid = true) (hfull : s.rob.full = true ∨ s.iq.full = true)
      (h : t = { s with rat := s.rat.checkpoint.2 })
  | entered (idx : Nat) (rob1 : ReOrderBuffer cfg.robCapacity)
      (iq1 : IssueQueue cfg.iqCapacity) (hrob : s.rob.full = false) (hiq : s.iq.full = false)
      (h : Enters s t ren idx rob1 iq1)

theorem afterDispatch_eq (hb : ren.FromDecode) (idx : Nat) :
    afterDispatch s ren idx =
      { s with
        rob := if ren.completesAtOnce then s.rob.complete idx 0 else s.rob,
        iq := if ren.completesAtOnce then removeFromIq s.iq idx else s.iq,
        lsq :=
          if ren.memoryRead then (s.lsq.allocate .LOAD idx ren.pc ren.physicalRd).getD s.lsq
          else if ren.memoryWrite then (s.lsq.allocate .STORE idx ren.pc 0).getD s.lsq
          else s.lsq,
        storeBuffer :=
          if ren.memoryWrite then (s.storeBuffer.allocate idx ren.pc).getD s.storeBuffer
          else s.storeBuffer,
        haltDispatched := s.haltDispatched || ren.halt } := by
  -- the branches of the source exclude each other for a decoded instruction
  obtain ⟨h1, h2, h3⟩ := hb.classes
  cases hr : ren.memoryRead with
  | true =>
      obtain ⟨hw, hc⟩ := h1 hr
      have hh : ren.halt = false := by
        rw [RenameBundle.completesAtOnce, Bool.or_eq_false_iff] at hc
        exact hc.1
      simp [afterDispatch, hr, hw, hc, hh]
  | false =>
      cases hw : ren.memoryWrite with
      | true =>
          have hc := h2 hw
          have hh : ren.halt = false := by
            rw [RenameBundle.completesAtOnce, Bool.or_eq_false_iff] at hc
            exact hc.1
          simp [afterDispatch, hr, hw, hc, hh]
      | false =>
          cases hh : ren.halt with
          | true => simp [afterDispatch, hr, hw, hh, RenameBundle.completesAtOnce]
          | false =>
              cases hn : ren.opcode == .NOP <;>
                simp [afterDispatch, hr, hw, hh, hn, RenameBundle.completesAtOnce]

theorem dispatchLane_cases (h : InFlight s.rob s.iq) (hb : ren.valid = true → ren.FromDecode) :
    LaneCase s (s.dispatchLane ren) ren := by
  cases hv : ren.valid with
  | false => exact .bubble hv (by simp [dispatchLane, hv])
  | true =>
      by_cases hrob : s.rob.full = true
      · refine .refused hv (Or.inl hrob) ?_
        simp [dispatchLane, hv, tryDispatch, DispatchUnit.dispatch, hrob]
      by_cases hiq : s.iq.full = true
      · refine .refused hv (Or.inr hiq) ?_
        simp [dispatchLane, hv, tryDispatch, DispatchUnit.dispatch, hrob, hiq]
      have hrob' := eq_false_of_ne_true hrob
      have hiq' := eq_false_of_ne_true hiq
      -- with room in both the two allocations succeed
      have hall : (s.rob.allocate ren (s.laneCheckpoint ren)).isSome = true := by
        rw [ReOrderBuffer.allocate_isSome, hv, hrob']
        rfl
      obtain ⟨⟨idx, rob1⟩, hall⟩ := Option.isSome_iff_exists.mp hall
      have hins : (s.iq.insert (DispatchUnit.makeIssueEntry s.prf ren idx)).isSome = true := by
        rw [h.iq_wf.insert_isSome, hiq']
        rfl
      obtain ⟨iq1, hins⟩ := Option.isSome_iff_exists.mp hins
      refine .entered idx rob1 iq1 hrob' hiq' ⟨hv, hall, hins, ?_⟩
      have htry :
          s.tryDispatch ren = some (idx, { rob := rob1, issueQueue := iq1, prf := s.prf }) := by
        have hall' := hall
        rw [laneCheckpoint] at hall'
        simp only [tryDispatch, DispatchUnit.dispatch, hv, hrob', hiq', hall', hins, Bool.not_true,
          Bool.false_eq_true, if_false]
      simp only [dispatchLane, hv, htry, Bool.not_true, Bool.false_eq_true, if_false]
      rw [afterDispatch_eq (hb hv)]

/-- The ROB entry a bundle leaves in the window. -/
def laneEntry (s : SuperScalarCPU cfg) (ren : RenameBundle) : ROBEntry :=
  if ren.completesAtOnce then
    (ReOrderBuffer.makeEntry ren s.rob.tail (s.laneCheckpoint ren)).finish 0
  else ReOrderBuffer.makeEntry ren s.rob.tail (s.laneCheckpoint ren)

/-- The entry field by field. -/
theorem laneEntry_eq (s : SuperScalarCPU cfg) (ren : RenameBundle) :
    s.laneEntry ren =
      { valid := true, completed := ren.completesAtOnce, robIndex := s.rob.tail, pc := ren.pc,
        instruction := ren.instruction, opcode := ren.opcode,
        registerWrite := ren.registerWrite, architecturalRd := ren.rd,
        physicalRd := ren.physicalRd, oldPhysicalRd := ren.oldPhysicalRd,
        memoryRead := ren.memoryRead, memoryWrite := ren.memoryWrite,
        branch := ren.controlFlow == .BRANCH, jump := ren.controlFlow == .JUMP,
        halt := ren.halt, predictedTaken := ren.prediction.predictedTaken,
        predictedTarget := ren.prediction.predictedTarget,
        hasPrediction := ren.prediction.valid,
        hasCheckpoint := ren.controlFlow == .BRANCH,
        checkpoint :=
          if ren.controlFlow == .BRANCH then { mappings := s.rat.table, valid := true }
          else {} } := by
  cases hc : ren.completesAtOnce <;> cases hb : ren.controlFlow == .BRANCH <;>
    simp [laneEntry, laneCheckpoint, ReOrderBuffer.makeEntry, hc, hb, ROBEntry.finish,
      RegisterAliasTable.checkpoint]

/-- `remove_from_iq` of a slot that is queued removes exactly that entry. -/
theorem removeFromIq_spec {rob : ReOrderBuffer cfg.robCapacity} {iq : IssueQueue cfg.iqCapacity}
    (h : InFlight rob iq) {q : IssueQueueEntry} (hq : q ∈ iq.live) (r : Word) :
    InFlight (rob.complete q.robIndex r) (removeFromIq iq q.robIndex) ∧
      iq.live.Perm (q :: (removeFromIq iq q.robIndex).live) := by
  obtain ⟨⟨i, hi, rfl⟩, hv⟩ := IssueQueue.mem_live.mp hq
  rw [removeFromIq]
  cases hf : iq.findSlot (fun e => e.valid && e.robIndex == (iq.entries i).robIndex) with
  | none =>
      have := IssueQueue.findSlot_none hf hi
      simp [hv] at this
  | some j =>
      obtain ⟨hj, hp⟩ := IssueQueue.findSlot_some hf
      rw [Bool.and_eq_true, beq_iff_eq] at hp
      have heq : iq.entries j = iq.entries i :=
        h.eq_of_robIndex (IssueQueue.entries_mem_live hj hp.1) hq hp.2
      have := h.execute hj hp.1 r
      rw [heq] at this
      exact ⟨this, heq ▸ (h.iq_wf.remove hj hp.1).2⟩

/-- Entering a bundle appends its entry to the window and, unless it completes at
    once, queues it. -/
theorem Enters.spec (h : InFlight s.rob s.iq) (hb : ren.FromDecode) {idx : Nat}
    {rob1 : ReOrderBuffer cfg.robCapacity} {iq1 : IssueQueue cfg.iqCapacity}
    (he : Enters s t ren idx rob1 iq1) :
    idx = s.rob.tail ∧ InFlight t.rob t.iq ∧
      t.rob.window = s.rob.window ++ [s.laneEntry ren] ∧
      t.iq.live.Perm
        (if ren.completesAtOnce then s.iq.live
         else DispatchUnit.makeIssueEntry s.prf ren s.rob.tail :: s.iq.live) := by
  have hin := h.dispatch he.valid hb he.allocate he.insert
  obtain ⟨hwf1, hwin1, -, hidx, -⟩ := h.rob_wf.allocate he.allocate
  obtain ⟨-, hperm1⟩ := h.iq_wf.insert he.insert
  subst hidx
  have hnew : ({ DispatchUnit.makeIssueEntry s.prf ren s.rob.tail with valid := true } :
      IssueQueueEntry) = DispatchUnit.makeIssueEntry s.prf ren s.rob.tail := by
    simp [DispatchUnit.makeIssueEntry, he.valid]
  rw [hnew] at hperm1
  refine ⟨rfl, ?_⟩
  rw [he.frame]
  dsimp only
  cases hc : ren.completesAtOnce with
  | false => exact ⟨hin, by simpa [laneEntry, hc] using hwin1, hperm1⟩
  | true =>
      -- the entry is finished and taken from the queue again in the same step
      have hq : DispatchUnit.makeIssueEntry s.prf ren s.rob.tail ∈ iq1.live :=
        hperm1.mem_iff.mpr (by simp)
      obtain ⟨hin2, hperm2⟩ := removeFromIq_spec hin hq 0
      have hslot : (DispatchUnit.makeIssueEntry s.prf ren s.rob.tail).robIndex = s.rob.tail := rfl
      rw [hslot] at hin2 hperm2
      have hsplit : rob1.window = s.rob.window ++
          ReOrderBuffer.makeEntry ren s.rob.tail (s.laneCheckpoint ren) :: [] := hwin1
      have hwin2 := (window_complete_split hwf1 hsplit 0).2
      rw [ReOrderBuffer.makeEntry_robIndex] at hwin2
      refine ⟨hin2, by simpa [laneEntry, hc] using hwin2, ?_⟩
      exact (List.perm_cons _).mp (hperm2.symm.trans hperm1)

/-! ## The front end does not matter to dispatch -/

/-- Two states that differ in the front end at most. -/
def withFrontend (s : SuperScalarCPU cfg) (f : Frontend) : SuperScalarCPU cfg :=
  { s with frontend := f }

theorem afterDispatch_withFrontend (s : SuperScalarCPU cfg) (f : Frontend) (ren : RenameBundle)
    (idx : Nat) :
    afterDispatch (s.withFrontend f) ren idx = (afterDispatch s ren idx).withFrontend f := by
  simp only [afterDispatch, withFrontend]
  split
  · rfl
  split
  · rfl
  split
  · rfl
  split <;> rfl

theorem dispatchLane_withFrontend (s : SuperScalarCPU cfg) (f : Frontend) (ren : RenameBundle) :
    (s.withFrontend f).dispatchLane ren = (s.dispatchLane ren).withFrontend f := by
  have htry : (s.withFrontend f).tryDispatch ren = s.tryDispatch ren := rfl
  simp only [dispatchLane, htry]
  split
  · rfl
  split
  · rfl
  · rename_i idx u _
    exact afterDispatch_withFrontend
      { s with rat := s.rat.checkpoint.2, rob := u.rob, iq := u.issueQueue } f ren idx

theorem predictRedirect_eq (s : SuperScalarCPU cfg) :
    s.predictRedirect = s.withFrontend s.predictRedirect.frontend := s.predictRedirect_frame.1

theorem renameOutputs_predictRedirect (s : SuperScalarCPU cfg) :
    s.predictRedirect.renameOutputs = s.renameOutputs := by
  rw [renameOutputs, renInput0_predictRedirect, renInput1_predictRedirect, predictRedirect_eq]
  rfl

theorem dispatchLanes_predictRedirect (s : SuperScalarCPU cfg) :
    s.predictRedirect.dispatchLanes = s.dispatchLanes.withFrontend s.predictRedirect.frontend := by
  have hren : s.predictRedirect.afterRename =
      s.afterRename.withFrontend s.predictRedirect.frontend := by
    rw [afterRename, renameOutputs_predictRedirect]
    conv_lhs => rw [predictRedirect_eq]
    rfl
  rw [dispatchLanes, renameOutputs_predictRedirect, hren, dispatchLane_withFrontend, dispatchLanes]
  have hflag : ((s.afterRename.dispatchLane s.renameOutputs.1).withFrontend
      s.predictRedirect.frontend).haltDispatched =
        (s.afterRename.dispatchLane s.renameOutputs.1).haltDispatched := rfl
  rw [hflag]
  split
  · rw [dispatchLane_withFrontend]
  · rfl

/-- Stages 4 and 5 as the backend sees them: the redirect request aside, both lanes
    are dispatched or nothing happens. -/
theorem dispatchStage_eq (s : SuperScalarCPU cfg) (recovered : Bool) :
    s.dispatchStage recovered =
      (if renameActive recovered s && RenameUnit.canRename s.freeList s.renInput0 s.renInput1 then
          s.dispatchLanes
        else s).withFrontend
        (if renameActive recovered s then s.predictRedirect.frontend else s.frontend) := by
  rw [dispatchStage]
  cases renameActive recovered s with
  | false => rfl
  | true =>
      have hfree : s.predictRedirect.freeList = s.freeList := by rw [predictRedirect_eq]; rfl
      simp only [if_true, Bool.true_and, renInput0_predictRedirect, renInput1_predictRedirect,
        hfree, dispatchLanes_predictRedirect]
      split
      · rfl
      · exact predictRedirect_eq s

/-! ## What dispatch leaves alone -/

theorem afterDispatch_frame (s : SuperScalarCPU cfg) (ren : RenameBundle) (idx : Nat) :
    afterDispatch s ren idx =
      { s with
        rob := (afterDispatch s ren idx).rob, iq := (afterDispatch s ren idx).iq,
        lsq := (afterDispatch s ren idx).lsq,
        storeBuffer := (afterDispatch s ren idx).storeBuffer,
        haltDispatched := (afterDispatch s ren idx).haltDispatched } := by
  simp only [afterDispatch]
  split
  · rfl
  split
  · rfl
  split
  · rfl
  split <;> rfl

theorem dispatchLane_frame (s : SuperScalarCPU cfg) (ren : RenameBundle) :
    s.dispatchLane ren =
      { s with
        rob := (s.dispatchLane ren).rob, iq := (s.dispatchLane ren).iq,
        rat := (s.dispatchLane ren).rat, lsq := (s.dispatchLane ren).lsq,
        storeBuffer := (s.dispatchLane ren).storeBuffer,
        haltDispatched := (s.dispatchLane ren).haltDispatched } := by
  simp only [dispatchLane]
  split
  · rfl
  split
  · rfl
  · rw [afterDispatch_frame]

/-- Dispatch pushes a checkpoint and leaves the mapping alone. -/
theorem dispatchLane_table (s : SuperScalarCPU cfg) (ren : RenameBundle) :
    (s.dispatchLane ren).rat.table = s.rat.table ∧
      (s.dispatchLane ren).rat.physicalRegCount = s.rat.physicalRegCount := by
  simp only [dispatchLane]
  split
  · exact ⟨rfl, rfl⟩
  split
  · exact ⟨rfl, rfl⟩
  · rw [afterDispatch_frame]
    exact ⟨rfl, rfl⟩

theorem dispatchStage_frame (s : SuperScalarCPU cfg) (recovered : Bool) :
    s.dispatchStage recovered =
      { s with
        rob := (s.dispatchStage recovered).rob, iq := (s.dispatchStage recovered).iq,
        rat := (s.dispatchStage recovered).rat, lsq := (s.dispatchStage recovered).lsq,
        prf := (s.dispatchStage recovered).prf,
        freeList := (s.dispatchStage recovered).freeList,
        storeBuffer := (s.dispatchStage recovered).storeBuffer,
        frontend := (s.dispatchStage recovered).frontend,
        haltDispatched := (s.dispatchStage recovered).haltDispatched } := by
  rw [dispatchStage]
  split
  · dsimp only
    split
    · rw [dispatchLanes]
      split
      · rw [dispatchLane_frame, dispatchLane_frame s.predictRedirect.afterRename]
        rw [afterRename, s.predictRedirect_frame.1]
      · rw [dispatchLane_frame, afterRename, s.predictRedirect_frame.1]
    · rw [s.predictRedirect_frame.1]
  · rfl

end SuperScalarCPU

end CpuSim.SuperScalar
