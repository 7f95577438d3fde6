/-
  CpuSim.SuperScalar.WideDispatch

  The two-wide `dispatch` of `DispatchUnit`.  It tests the room for both lanes before it
  dispatches the first, so it either does what the two single dispatches do one after the
  other, or nothing.
-/

import CpuSim.SuperScalar.Dispatch
import CpuSim.SuperScalar.IssueQueueBag
import CpuSim.SuperScalar.RobWindow

namespace CpuSim.SuperScalar

/-- What a `DispatchUnit` refers to.  The constructor with only a reorder buffer leaves both
    pointers null. -/
structure DispatchRefs (ROBCapacity IQCapacity PRFCount : Nat) where
  rob : ReOrderBuffer ROBCapacity
  issueQueue : Option (IssueQueue IQCapacity) := none
  prf : Option (PhysicalRegisterFile PRFCount) := none

/-- What a single `dispatch` leaves behind: its result, the index it was passed by
    reference, and the structures. -/
structure LaneResult (ROBCapacity IQCapacity PRFCount : Nat) where
  ok : Bool
  robIndex : Nat
  refs : DispatchRefs ROBCapacity IQCapacity PRFCount

/-- What the two-wide `dispatch` leaves behind. -/
structure PairResult (ROBCapacity IQCapacity PRFCount : Nat) where
  ok : Bool
  robIndex0 : Nat
  robIndex1 : Nat
  refs : DispatchRefs ROBCapacity IQCapacity PRFCount

namespace DispatchRefs

variable {ROBCapacity IQCapacity PRFCount : Nat}

/-- `make_issue_entry(bundle, rob_index)`. -/
def makeIssueEntry (prf : Option (PhysicalRegisterFile PRFCount)) (bundle : RenameBundle)
    (robIndex : Nat) : IssueQueueEntry :=
  match prf with
  | some prf => DispatchUnit.makeIssueEntry prf bundle robIndex
  | none =>
    { valid := bundle.valid, pc := bundle.pc, instruction := bundle.instruction,
      opcode := bundle.opcode, physicalRd := bundle.physicalRd,
      physicalRs1 := bundle.physicalRs1, physicalRs2 := bundle.physicalRs2,
      immediate := bundle.immediate, aluOperation := bundle.aluOperation,
      operandA := bundle.operandA, operandB := bundle.operandB,
      registerWrite := bundle.registerWrite, memoryRead := bundle.memoryRead,
      memoryWrite := bundle.memoryWrite, controlFlow := bundle.controlFlow,
      robIndex := robIndex, predictedTaken := bundle.prediction.predictedTaken,
      predictedTarget := bundle.prediction.predictedTarget, halt := bundle.halt,
      rs1Ready := bundle.operandA != .REGISTER,
      rs2Ready := bundle.operandB != .REGISTER && !bundle.memoryWrite }

/-- `issue_queue_ != nullptr && issue_queue_->full()`. -/
def queueFull (u : DispatchRefs ROBCapacity IQCapacity PRFCount) : Bool :=
  match u.issueQueue with
  | some iq => iq.full
  | none => false

/-- `dispatch(input, rob_index, checkpoint)`. -/
def dispatch (u : DispatchRefs ROBCapacity IQCapacity PRFCount) (input : RenameBundle)
    (robIndex : Nat) (checkpoint : Option Checkpoint) :
    LaneResult ROBCapacity IQCapacity PRFCount :=
  if !input.valid then ⟨true, robIndex, u⟩
  else if u.rob.full then ⟨false, robIndex, u⟩
  else if u.queueFull then ⟨false, robIndex, u⟩
  else
    match u.rob.allocate input checkpoint with
    | none => ⟨false, robIndex, u⟩
    | some (index, rob) =>
      match u.issueQueue with
      | none => ⟨true, index, { u with rob := rob }⟩
      | some iq =>
        match iq.insert (makeIssueEntry u.prf input index) with
        | none => ⟨false, index, { u with rob := rob }⟩
        | some iq' => ⟨true, index, { u with rob := rob, issueQueue := some iq' }⟩

/-- Fewer than `n` free slots in the issue queue, if there is one. -/
def queueShort (u : DispatchRefs ROBCapacity IQCapacity PRFCount) (n : Nat) : Bool :=
  match u.issueQueue with
  | some iq => IQCapacity - iq.count < n
  | none => false

/-- `dispatch(input0, input1, rob_index0, rob_index1)`.  The differences are those of
    `std::size_t`, which are exact as long as neither structure counts more than its
    capacity. -/
def dispatchPair (u : DispatchRefs ROBCapacity IQCapacity PRFCount)
    (input0 input1 : RenameBundle) (robIndex0 robIndex1 : Nat) :
    PairResult ROBCapacity IQCapacity PRFCount :=
  let validCount := input0.valid.toNat + input1.valid.toNat
  if validCount = 0 then ⟨true, robIndex0, robIndex1, u⟩
  else if ROBCapacity - u.rob.count < validCount then ⟨false, robIndex0, robIndex1, u⟩
  else if u.queueShort validCount then ⟨false, robIndex0, robIndex1, u⟩
  else
    let lane0 : LaneResult ROBCapacity IQCapacity PRFCount :=
      if input0.valid then u.dispatch input0 robIndex0 none else ⟨true, robIndex0, u⟩
    if !lane0.ok then ⟨false, lane0.robIndex, robIndex1, lane0.refs⟩
    else
      let lane1 : LaneResult ROBCapacity IQCapacity PRFCount :=
        if input1.valid then lane0.refs.dispatch input1 robIndex1 none
        else ⟨true, robIndex1, lane0.refs⟩
      ⟨lane1.ok, lane0.robIndex, lane1.robIndex, lane1.refs⟩

/-- Both counts are the number of valid entries. -/
structure Counted (u : DispatchRefs ROBCapacity IQCapacity PRFCount) : Prop where
  rob : u.rob.count =
    ((List.range ROBCapacity).filter fun i => (u.rob.entries i).valid).length
  issueQueue : ∀ iq, u.issueQueue = some iq →
    iq.count = ((List.range IQCapacity).filter fun i => (iq.entries i).valid).length

variable {u : DispatchRefs ROBCapacity IQCapacity PRFCount}

/-- The live slots of the ring are its valid ones. -/
theorem count_valid {rob : ReOrderBuffer ROBCapacity} (h : rob.WF) :
    rob.count = ((List.range ROBCapacity).filter fun i => (rob.entries i).valid).length := by
  have hperm : rob.liveSlots.Perm
      ((List.range ROBCapacity).filter fun i => (rob.entries i).valid) := by
    apply (List.perm_ext_iff_of_nodup h.nodup_liveSlots (List.nodup_range.filter _)).mpr
    intro i
    rw [List.mem_filter, List.mem_range]
    constructor
    · intro hi
      exact ⟨h.lt_of_mem hi, (h.live i hi).1⟩
    · rintro ⟨hi, hv⟩
      by_contra hdead
      rw [h.dead i hi hdead] at hv
      cases hv
  rw [← hperm.length_eq, ReOrderBuffer.liveSlots, Lib.Ring.length_slots]

/-- The structures of the CPU, whose operations keep both invariants, are counted. -/
theorem counted_of_wf {rob : ReOrderBuffer ROBCapacity} {iq : IssueQueue IQCapacity}
    (hrob : rob.WF) (hiq : iq.WF) (prf : Option (PhysicalRegisterFile PRFCount)) :
    Counted { rob := rob, issueQueue := some iq, prf := prf } where
  rob := count_valid hrob
  issueQueue := by
    intro jq hjq
    obtain rfl := Option.some.inj hjq
    rw [hiq, ← IssueQueue.length_occupied]
    rfl

/-- On the structures of the CPU the single dispatch is that of its `DispatchUnit`. -/
theorem dispatch_eq {cfg : Config} (u : DispatchUnit cfg) (input : RenameBundle) (i : Nat)
    (cp : Option Checkpoint) (out : Nat × DispatchUnit cfg)
    (h : u.dispatch input cp = some out) :
    let refs : DispatchUnit cfg → DispatchRefs cfg.robCapacity cfg.iqCapacity cfg.prfCount :=
      fun u => { rob := u.rob, issueQueue := some u.issueQueue, prf := some u.prf }
    (refs u).dispatch input i cp = ⟨true, if input.valid then out.1 else i, refs out.2⟩ := by
  intro refs
  cases hv : input.valid with
  | false =>
      simp only [DispatchUnit.dispatch, hv, Bool.not_false, if_true] at h
      obtain rfl := Option.some.inj h
      rw [dispatch, hv]
      rfl
  | true =>
      have hout : u.dispatch input cp = some (out.1, out.2) := h
      obtain ⟨rob, iq, hall, hins, hu⟩ := DispatchUnit.dispatch_some hv hout
      simp only [DispatchUnit.dispatch, hv, Bool.not_true, Bool.false_eq_true, if_false] at h
      split at h
      · cases h
      · next hrob =>
          split at h
          · cases h
          · next hiq =>
              have hqueue : (refs u).queueFull = false := eq_false_of_ne_true hiq
              have hring : (refs u).rob.full = false := eq_false_of_ne_true hrob
              have hall' : (refs u).rob.allocate input cp = some (out.1, rob) := hall
              have hins' : u.issueQueue.insert (makeIssueEntry (refs u).prf input out.1) =
                some iq := hins
              simp only [dispatch, hv, Bool.not_true, Bool.false_eq_true, if_false, hring, hqueue,
                hall', if_true]
              rw [hu]
              simp only [refs] at hins' ⊢
              rw [hins']

/-! ## Room for the lanes -/

/-- Fewer than `n` instructions fit. -/
def short (u : DispatchRefs ROBCapacity IQCapacity PRFCount) (n : Nat) : Bool :=
  decide (ROBCapacity - u.rob.count < n) || u.queueShort n

/-- What the capacity tests rely on. -/
structure Room (u : DispatchRefs ROBCapacity IQCapacity PRFCount) : Prop where
  rob : u.rob.count ≤ ROBCapacity
  issueQueue : ∀ iq, u.issueQueue = some iq → iq.WF

theorem Counted.room (h : u.Counted) : u.Room where
  rob := by
    have hle := List.length_filter_le (fun i => (u.rob.entries i).valid) (List.range ROBCapacity)
    rw [List.length_range] at hle
    rw [h.rob]
    exact hle
  issueQueue := by
    intro iq hiq
    rw [IssueQueue.WF, ← IssueQueue.length_occupied]
    exact h.issueQueue iq hiq

/-- The two tests of a single dispatch ask for one free place in each structure. -/
theorem Room.short_one (h : u.Room) : u.short 1 = (u.rob.full || u.queueFull) := by
  have hrob : decide (ROBCapacity - u.rob.count < 1) = u.rob.full := by
    have hle := h.rob
    rw [ReOrderBuffer.full, Bool.eq_iff_iff, decide_eq_true_iff, beq_iff_eq]
    omega
  have hqueue : u.queueShort 1 = u.queueFull := by
    cases hiq : u.issueQueue with
    | none => simp only [queueShort, queueFull, hiq]
    | some iq =>
        have hle := (h.issueQueue iq hiq).count_le
        simp only [queueShort, queueFull, hiq, IssueQueue.full]
        rw [Bool.eq_iff_iff, decide_eq_true_iff, beq_iff_eq]
        omega
  rw [short, hrob, hqueue]

theorem dispatch_invalid {input : RenameBundle} (hv : input.valid = false)
    (u : DispatchRefs ROBCapacity IQCapacity PRFCount) (i : Nat) (cp : Option Checkpoint) :
    u.dispatch input i cp = ⟨true, i, u⟩ := by
  rw [dispatch, hv]
  rfl

/-- A valid instruction is refused without a trace when there is no room. -/
theorem Room.dispatch_full (h : u.Room) {input : RenameBundle} (hv : input.valid = true)
    (hs : u.short 1 = true) (i : Nat) (cp : Option Checkpoint) :
    u.dispatch input i cp = ⟨false, i, u⟩ := by
  rw [h.short_one, Bool.or_eq_true] at hs
  rw [dispatch, hv]
  obtain hrob | hqueue := hs
  · simp only [Bool.not_true, Bool.false_eq_true, if_false, hrob, if_true]
  · simp only [Bool.not_true, Bool.false_eq_true, if_false, hqueue, if_true]
    split <;> rfl

/-- A ring with a free place gives it away. -/
theorem Room.allocate (h : u.Room) {input : RenameBundle} (hv : input.valid = true)
    (hrob : u.rob.full = false) (cp : Option Checkpoint) :
    ∃ index rob, u.rob.allocate input cp = some (index, rob) ∧ rob.count = u.rob.count + 1 ∧
      rob.count ≤ ROBCapacity := by
  obtain ⟨⟨index, rob⟩, hall⟩ : ∃ out, u.rob.allocate input cp = some out := by
    apply Option.isSome_iff_exists.mp
    rw [ReOrderBuffer.allocate_isSome, hv, hrob]
    rfl
  have hcount : rob.count = u.rob.count + 1 := by
    simp only [ReOrderBuffer.allocate, hv, hrob] at hall
    rw [if_neg (by decide)] at hall
    rw [← (Prod.mk.inj (Option.some.inj hall)).2]
  refine ⟨index, rob, hall, hcount, ?_⟩
  have hle := h.rob
  have hne := beq_eq_false_iff_ne.mp hrob
  omega

/-- So does a queue. -/
theorem insert_of_not_full {iq : IssueQueue IQCapacity} (hwf : iq.WF) (hfree : iq.full = false)
    (e : IssueQueueEntry) :
    ∃ iq', iq.insert e = some iq' ∧ iq'.WF ∧ iq'.count = iq.count + 1 := by
  obtain ⟨iq', hins⟩ : ∃ iq', iq.insert e = some iq' := by
    apply Option.isSome_iff_exists.mp
    rw [hwf.insert_isSome, hfree]
    rfl
  obtain ⟨hwf', hperm⟩ := hwf.insert hins
  refine ⟨iq', hins, hwf', ?_⟩
  rw [hwf', hperm.length_eq, List.length_cons, ← hwf]

/-- With room it enters both structures, and each has one place less. -/
theorem Room.dispatch_ok (h : u.Room) {input : RenameBundle} (hv : input.valid = true)
    (hs : u.short 1 = false) (i : Nat) (cp : Option Checkpoint) :
    (u.dispatch input i cp).ok = true ∧ (u.dispatch input i cp).refs.Room ∧
      ∀ n, (u.dispatch input i cp).refs.short n = u.short (n + 1) := by
  have htests := hs
  rw [h.short_one, Bool.or_eq_false_iff] at htests
  obtain ⟨hrob, hqueue⟩ := htests
  obtain ⟨index, rob, hall, hcount, hle⟩ := h.allocate hv hrob cp
  rw [dispatch, hv]
  simp only [Bool.not_true, Bool.false_eq_true, if_false, hrob, hqueue, hall]
  cases hiq : u.issueQueue with
  | none =>
      -- without a queue the ring alone decides
      refine ⟨rfl, ⟨hle, ?_⟩, ?_⟩
      · intro iq hsome
        cases hsome
      · intro n
        simp only [short, queueShort, hiq, hcount, Bool.or_false]
        rw [Bool.eq_iff_iff, decide_eq_true_iff, decide_eq_true_iff]
        omega
  | some iq =>
      have hfree : iq.full = false := by
        rw [queueFull, hiq] at hqueue
        exact hqueue
      obtain ⟨iq', hins, hwf', hcount'⟩ := insert_of_not_full (h.issueQueue iq hiq) hfree
        (makeIssueEntry u.prf input index)
      simp only [hins]
      refine ⟨trivial, ⟨hle, ?_⟩, ?_⟩
      · intro jq hsome
        obtain rfl := Option.some.inj hsome
        exact hwf'
      · intro n
        have hle' := hwf'.count_le
        simp only [short, queueShort, hiq, hcount, hcount']
        rw [Bool.eq_iff_iff, Bool.or_eq_true, Bool.or_eq_true, decide_eq_true_iff,
          decide_eq_true_iff, decide_eq_true_iff, decide_eq_true_iff]
        omega

/-! ## Two lanes -/

theorem short_zero (u : DispatchRefs ROBCapacity IQCapacity PRFCount) : u.short 0 = false := by
  cases hiq : u.issueQueue <;> simp [short, queueShort, hiq]

/-- No room for few is no room for more. -/
theorem short_mono {m n : Nat} (hmn : m ≤ n) (hs : u.short m = true) : u.short n = true := by
  rw [short, Bool.or_eq_true, decide_eq_true_iff] at hs ⊢
  obtain hrob | hqueue := hs
  · left
    omega
  · right
    cases hiq : u.issueQueue with
    | none => simp only [queueShort, hiq, Bool.false_eq_true] at hqueue
    | some iq =>
        simp only [queueShort, hiq, decide_eq_true_iff] at hqueue ⊢
        omega

/-- The test in front is passed exactly when both lanes find room. -/
theorem Room.lanes_ok (h : u.Room) (input0 input1 : RenameBundle) (i0 i1 : Nat) :
    u.short (input0.valid.toNat + input1.valid.toNat) = false ↔
      (u.dispatch input0 i0 none).ok = true ∧
        ((u.dispatch input0 i0 none).refs.dispatch input1 i1 none).ok = true := by
  cases h0 : input0.valid with
  | false =>
      rw [dispatch_invalid h0]
      cases h1 : input1.valid with
      | false => simp [dispatch_invalid h1, short_zero]
      | true =>
          cases hs : u.short 1 with
          | true => simp [h.dispatch_full h1 hs, hs]
          | false => simp [(h.dispatch_ok h1 hs i1 none).1, hs]
  | true =>
      cases hs : u.short 1 with
      | true =>
          have hboth : u.short (1 + input1.valid.toNat) = true := short_mono (by omega) hs
          simp [h.dispatch_full h0 hs, hboth]
      | false =>
          obtain ⟨hok, hroom, hnext⟩ := h.dispatch_ok h0 hs i0 none
          cases h1 : input1.valid with
          | false => simp [dispatch_invalid h1, hok, hs]
          | true =>
              have hstep := hnext 1
              cases hs' : u.short 2 with
              | true =>
                  rw [hs'] at hstep
                  simp [hroom.dispatch_full h1 hstep, hs']
              | false =>
                  rw [hs'] at hstep
                  simp [(hroom.dispatch_ok h1 hstep i1 none).1, hok, hs']

/-- The tests in front are one, and an invalid lane may as well be dispatched. -/
theorem dispatchPair_eq (u : DispatchRefs ROBCapacity IQCapacity PRFCount)
    (input0 input1 : RenameBundle) (i0 i1 : Nat) :
    u.dispatchPair input0 input1 i0 i1 =
      if u.short (input0.valid.toNat + input1.valid.toNat) then ⟨false, i0, i1, u⟩
      else
        let lane0 := u.dispatch input0 i0 none
        if !lane0.ok then ⟨false, lane0.robIndex, i1, lane0.refs⟩
        else
          let lane1 := lane0.refs.dispatch input1 i1 none
          ⟨lane1.ok, lane0.robIndex, lane1.robIndex, lane1.refs⟩ := by
  have hlane : ∀ (refs : DispatchRefs ROBCapacity IQCapacity PRFCount) (input : RenameBundle) i,
      (if input.valid = true then refs.dispatch input i none else ⟨true, i, refs⟩) =
        refs.dispatch input i none := by
    intro refs input i
    cases hv : input.valid with
    | true => rfl
    | false => rw [dispatch_invalid hv]; rfl
  simp only [dispatchPair, hlane]
  by_cases hn : input0.valid.toNat + input1.valid.toNat = 0
  · have h0 : input0.valid = false := by
      rw [← Bool.toNat_eq_zero]
      omega
    have h1 : input1.valid = false := by
      rw [← Bool.toNat_eq_zero]
      omega
    -- two bubbles need no room
    rw [if_pos hn, hn, short_zero, dispatch_invalid h0, dispatch_invalid h1]
    rfl
  · rw [if_neg hn]
    simp only [short, Bool.or_eq_true, decide_eq_true_iff]
    split
    · next hrob => rw [if_pos (Or.inl hrob)]
    · next hrob => simp only [hrob, false_or]

/-- With counts that are the numbers of valid entries, the two-wide dispatch succeeds exactly
    when both lanes would one after the other, and then does the same; otherwise it leaves
    the reorder buffer and the issue queue as they were. -/
theorem dispatchPair_atomic (h : u.Counted) (input0 input1 : RenameBundle) (i0 i1 : Nat) :
    let lane0 := u.dispatch input0 i0 none
    let lane1 := lane0.refs.dispatch input1 i1 none
    let out := u.dispatchPair input0 input1 i0 i1
    (out.ok = true ↔ lane0.ok = true ∧ lane1.ok = true) ∧
      (out.ok = true →
        out.refs = lane1.refs ∧ out.robIndex0 = lane0.robIndex ∧
          out.robIndex1 = lane1.robIndex) ∧
      (out.ok = false → out.refs = u) := by
  intro lane0 lane1 out
  have hlanes := h.room.lanes_ok input0 input1 i0 i1
  have hout := u.dispatchPair_eq input0 input1 i0 i1
  cases hs : u.short (input0.valid.toNat + input1.valid.toNat) with
  | true =>
      have hfail : out = ⟨false, i0, i1, u⟩ := by
        rw [hs, if_pos rfl] at hout
        exact hout
      -- refused in front, before anything was entered
      rw [hfail]
      refine ⟨?_, ?_, fun _ => rfl⟩
      · rw [← hlanes, hs]
        simp only [Bool.false_eq_true, reduceCtorEq]
      · intro hok
        cases hok
  | false =>
      obtain ⟨hok0, hok1⟩ := hlanes.mp hs
      have hdone : out = ⟨true, lane0.robIndex, lane1.robIndex, lane1.refs⟩ := by
        rw [hs, if_neg Bool.false_ne_true] at hout
        simp only [hok0, hok1, Bool.not_true, Bool.false_eq_true, if_false] at hout
        exact hout
      -- both lanes have room, so neither is refused behind the tests
      rw [hdone]
      refine ⟨⟨fun _ => ⟨hok0, hok1⟩, fun _ => rfl⟩, fun _ => ⟨rfl, rfl, rfl⟩, ?_⟩
      intro hfail
      cases hfail

/-- Two instructions for a buffer with one free place: neither is taken. -/
theorem dispatchPair_atomic_one_place :
    let u : DispatchRefs 1 16 64 :=
      { rob := .reset, issueQueue := some .reset, prf := some .reset }
    let lane0 := u.dispatch { valid := true } 0 none
    let lane1 := lane0.refs.dispatch { valid := true } 0 none
    let out := u.dispatchPair { valid := true } { valid := true } 0 0
    (out.ok = true ↔ lane0.ok = true ∧ lane1.ok = true) ∧
      (out.ok = true →
        out.refs = lane1.refs ∧ out.robIndex0 = lane0.robIndex ∧
          out.robIndex1 = lane1.robIndex) ∧
      (out.ok = false → out.refs = u) :=
  dispatchPair_atomic ⟨by decide, fun iq hiq => by obtain rfl := Option.some.inj hiq; decide⟩
    { valid := true } { valid := true } 0 0

end DispatchRefs

end CpuSim.SuperScalar
