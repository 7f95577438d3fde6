/-
  CpuSim.SuperScalar.IssueOrder

  The order in which ready integer operations execute does not matter.  Two ready
  entries write different registers, complete different reorder buffer slots and
  wait for nothing, so executing them commutes; hence the exhausted state is
  unique, and both `SuperScalarCPU` and `IntegerExecutionPipeline` reach it.
-/

import CpuSim.Lib.Confluence
import CpuSim.SuperScalar.IntegerPipeline

namespace CpuSim.SuperScalar

open Relation CpuSim.Lib.Confluence

variable {cfg : Config}

/-- The registers the queued operations will write. -/
def IssueQueue.writers {n : Nat} (iq : IssueQueue n) : List PhysicalRegister :=
  (iq.live.filter (·.registerWrite)).map (·.physicalRd)

namespace IntegerCore

variable {c c' : IntegerCore cfg} {i j : Nat}

/-! ## Executing one ready entry -/

/-- Slot `i` holds an operation that may be selected. -/
def Ready (c : IntegerCore cfg) (i : Nat) : Prop :=
  i < cfg.iqCapacity ∧ SuperScalarCPU.readyAlu (c.issueQueue.entries i) = true

/-- The entry of slot `i` executes: it leaves the queue, writes back if it has a
    destination, and completes. -/
def execute (c : IntegerCore cfg) (i : Nat) : IntegerCore cfg :=
  let captured := c.issueQueue.entries i
  let result := SuperScalarCPU.aluResult captured
  { rob := c.rob.complete captured.robIndex result
    issueQueue :=
      if captured.registerWrite then
        (c.issueQueue.remove i).wakeup captured.physicalRd result
      else c.issueQueue.remove i
    prf := if captured.registerWrite then c.prf.write captured.physicalRd result else c.prf }

/-- Any ready entry executes. -/
def Issue (c c' : IntegerCore cfg) : Prop := ∃ i, c.Ready i ∧ c' = c.execute i

/-- Nothing ready is left. -/
def Exhausted (c : IntegerCore cfg) : Prop := Normal Issue c

/-- Queue and reorder buffer describe the same instructions, and no two queued ones
    write the same register. -/
structure Coherent (c : IntegerCore cfg) : Prop where
  inFlight : InFlight c.rob c.issueQueue
  distinct : c.issueQueue.writers.Nodup

theorem exhausted_iff : c.Exhausted ↔ ∀ i, ¬ c.Ready i :=
  ⟨fun h i hi => h _ ⟨i, hi, rfl⟩, fun h _ hb => by
    obtain ⟨i, hi, -⟩ := hb
    exact h i hi⟩

namespace Ready

theorem valid (h : c.Ready i) : (c.issueQueue.entries i).valid = true := by
  have hr := h.2
  simp only [SuperScalarCPU.readyAlu, Bool.and_eq_true] at hr
  exact hr.1.1.1.1.1.1.1.1

theorem live (h : c.Ready i) : c.issueQueue.entries i ∈ c.issueQueue.live :=
  IssueQueue.entries_mem_live h.1 h.valid

/-- A broadcast passes a ready entry. -/
theorem wakeup (h : c.Ready i) (p : PhysicalRegister) (v : Word) :
    (c.issueQueue.entries i).wakeup p v = c.issueQueue.entries i := by
  have hr := h.2
  simp only [SuperScalarCPU.readyAlu, Bool.and_eq_true] at hr
  exact (c.issueQueue.entries i).wakeup_of_ready p v hr.1.1.1.1.1.1.2 hr.1.1.1.1.1.2

/-- A ready entry is as it was once another slot has executed. -/
theorem entry_execute (h : c.Ready j) (hij : j ≠ i) :
    (c.execute i).issueQueue.entries j = c.issueQueue.entries j := by
  have hrem := c.issueQueue.remove_entries_of_ne hij
  simp only [execute]
  split
  · show ((c.issueQueue.remove i).entries j).wakeup _ _ = _
    rw [hrem, h.wakeup]
  · exact hrem

theorem execute (h : c.Ready j) (hij : j ≠ i) : (c.execute i).Ready j :=
  ⟨h.1, by rw [h.entry_execute hij]; exact h.2⟩

/-- Executing slot `j` behind slot `i`, from the entry it held before. -/
theorem execute_execute (h : c.Ready j) (hij : j ≠ i) :
    (c.execute i).execute j =
      { rob :=
          (c.execute i).rob.complete (c.issueQueue.entries j).robIndex
            (SuperScalarCPU.aluResult (c.issueQueue.entries j))
        issueQueue :=
          if (c.issueQueue.entries j).registerWrite then
            ((c.execute i).issueQueue.remove j).wakeup (c.issueQueue.entries j).physicalRd
              (SuperScalarCPU.aluResult (c.issueQueue.entries j))
          else (c.execute i).issueQueue.remove j
        prf :=
          if (c.issueQueue.entries j).registerWrite then
            (c.execute i).prf.write (c.issueQueue.entries j).physicalRd
              (SuperScalarCPU.aluResult (c.issueQueue.entries j))
          else (c.execute i).prf } := by
  have hentry := h.entry_execute hij
  conv_lhs => rw [IntegerCore.execute]
  rw [hentry]

end Ready

/-! ## The invariant -/

theorem writers_wakeup {n : Nat} (iq : IssueQueue n) (p : PhysicalRegister) (v : Word) :
    (iq.wakeup p v).writers = iq.writers := by
  have hsame : ∀ q ∈ iq.live, (q.wakeup p v).registerWrite = q.registerWrite ∧
      (q.wakeup p v).physicalRd = q.physicalRd := fun q hq => by
    rw [q.wakeup_eq p v (IssueQueue.mem_live.mp hq).2]
    exact ⟨rfl, rfl⟩
  rw [IssueQueue.writers, IssueQueue.live_wakeup, List.filter_map, List.map_map,
    IssueQueue.writers]
  have hfilter : iq.live.filter ((fun q : IssueQueueEntry => q.registerWrite) ∘
      fun q => q.wakeup p v) = iq.live.filter (·.registerWrite) :=
    List.filter_congr fun q hq => (hsame q hq).1
  rw [hfilter]
  exact List.map_congr_left fun q hq => (hsame q (List.mem_of_mem_filter hq)).2

theorem execute_issueQueue (c : IntegerCore cfg) (i : Nat) :
    (c.execute i).issueQueue.live.length = (c.issueQueue.remove i).live.length ∧
      (c.execute i).issueQueue.writers = (c.issueQueue.remove i).writers := by
  simp only [execute]
  split
  · rw [IssueQueue.live_wakeup, List.length_map, writers_wakeup]
    exact ⟨rfl, rfl⟩
  · exact ⟨rfl, rfl⟩

namespace Coherent

theorem execute (h : Coherent c) (hi : c.Ready i) : Coherent (c.execute i) := by
  obtain ⟨-, hperm⟩ := h.inFlight.iq_wf.remove hi.1 hi.valid
  refine ⟨?_, ?_⟩
  · have hexec := h.inFlight.execute hi.1 hi.valid
      (SuperScalarCPU.aluResult (c.issueQueue.entries i))
    simp only [IntegerCore.execute]
    split
    · exact hexec.wakeup _ _
    · exact hexec
  · rw [(c.execute_issueQueue i).2]
    have hwriters := (hperm.filter (·.registerWrite)).map IssueQueueEntry.physicalRd
    have hnodup := hwriters.nodup_iff.mp h.distinct
    refine hnodup.sublist (List.Sublist.map _ ?_)
    exact (List.sublist_cons_self _ _).filter _

/-- Each execution takes one entry out of the queue. -/
theorem count_execute (h : Coherent c) (hi : c.Ready i) :
    (c.execute i).issueQueue.count < c.issueQueue.count := by
  obtain ⟨-, hperm⟩ := h.inFlight.iq_wf.remove hi.1 hi.valid
  have hlen := hperm.length_eq
  rw [List.length_cons, ← (c.execute_issueQueue i).1] at hlen
  rw [(h.execute hi).inFlight.iq_wf, h.inFlight.iq_wf]
  omega

/-- Two queued writers have different destinations. -/
theorem physicalRd_ne (h : Coherent c) (hi : c.Ready i) (hj : c.Ready j) (hij : i ≠ j)
    (hwi : (c.issueQueue.entries i).registerWrite = true)
    (hwj : (c.issueQueue.entries j).registerWrite = true) :
    (c.issueQueue.entries i).physicalRd ≠ (c.issueQueue.entries j).physicalRd := by
  intro heq
  have hn := h.distinct
  rw [IssueQueue.writers, IssueQueue.live, IssueQueue.slotList, List.filter_map, List.filter_map,
    List.map_map] at hn
  refine hij (List.inj_on_of_nodup_map hn ?_ ?_ heq)
  · exact List.mem_filter.mpr ⟨List.mem_filter.mpr ⟨List.mem_range.mpr hi.1, hi.valid⟩, hwi⟩
  · exact List.mem_filter.mpr ⟨List.mem_filter.mpr ⟨List.mem_range.mpr hj.1, hj.valid⟩, hwj⟩

theorem robIndex_ne (h : Coherent c) (hi : c.Ready i) (hj : c.Ready j) (hij : i ≠ j) :
    (c.issueQueue.entries i).robIndex ≠ (c.issueQueue.entries j).robIndex := fun heq =>
  hij (IssueQueue.eq_of_robIndex_eq h.inFlight.unique hi.1 hj.1 hi.valid hj.valid heq)

/-- Executing two ready entries commutes. -/
theorem execute_comm (h : Coherent c) (hi : c.Ready i) (hj : c.Ready j) (hij : i ≠ j) :
    (c.execute i).execute j = (c.execute j).execute i := by
  have hrob := h.robIndex_ne hi hj hij
  have hrd := h.physicalRd_ne hi hj hij
  have hqueue := c.issueQueue.remove_comm hij
  rw [hj.execute_execute (Ne.symm hij), hi.execute_execute hij]
  simp only [IntegerCore.execute]
  rw [c.rob.complete_comm hrob]
  cases hwi : (c.issueQueue.entries i).registerWrite <;>
    cases hwj : (c.issueQueue.entries j).registerWrite <;>
    simp only [if_true, if_false, Bool.false_eq_true, IssueQueue.remove_wakeup, hqueue]
  -- both write: their registers differ
  rw [IssueQueue.wakeup_comm _ (hrd hwi hwj), PhysicalRegisterFile.write_comm _ (hrd hwi hwj)]

end Coherent

/-- Issuing in any order is confluent on coherent cores. -/
theorem issue_confluent :
    Confluent (@Issue cfg) Coherent fun c => c.issueQueue.count where
  keeps := by
    rintro a b ha ⟨i, hi, rfl⟩
    exact ha.execute hi
  joins := by
    rintro a b c ha ⟨i, hi, rfl⟩ ⟨j, hj, rfl⟩
    by_cases hij : i = j
    · exact Or.inl (by rw [hij])
    · refine Or.inr ⟨(a.execute i).execute j, ⟨j, hj.execute (Ne.symm hij), rfl⟩, i, ?_, ?_⟩
      · exact hi.execute hij
      · exact ha.execute_comm hi hj hij
  decreases := by
    rintro a b ha ⟨i, hi, rfl⟩
    exact ha.count_execute hi

end IntegerCore

/-! ## The loop of the complete machine -/

namespace SuperScalarCPU

variable {s : SuperScalarCPU cfg} {i : Nat}

theorem integerCore_executeAlu (s : SuperScalarCPU cfg) (i : Nat) :
    (s.executeAlu i).integerCore = s.integerCore.execute i := by
  rw [executeAlu_eq]
  rfl

theorem ready_of_select (h : s.selectReadyAluEntry = some i) : s.integerCore.Ready i :=
  IssueQueue.findSlot_some h

theorem exhausted_of_select (h : s.selectReadyAluEntry = none) : s.integerCore.Exhausted :=
  IntegerCore.exhausted_iff.mpr fun i hi => by
    have hno : readyAlu (s.iq.entries i) = false := IssueQueue.findSlot_none h hi.1
    have hyes : readyAlu (s.iq.entries i) = true := hi.2
    rw [hno] at hyes
    cases hyes

/-- The lanes of a step execute one ready entry after the other. -/
theorem aluLanes_issues (n : Nat) (s : SuperScalarCPU cfg) :
    ReflTransGen IntegerCore.Issue s.integerCore (aluLanes n s).integerCore := by
  induction n generalizing s with
  | zero => exact .refl
  | succ n ih =>
      rw [aluLanes]
      split
      · exact .refl
      · rename_i i hi
        refine .head ⟨i, ready_of_select hi, rfl⟩ ?_
        rw [← integerCore_executeAlu]
        exact ih _

/-- A step executes something unless nothing is ready. -/
theorem aluStage_progress (s : SuperScalarCPU cfg) :
    TransGen IntegerCore.Issue s.integerCore s.aluStage.integerCore ∨
      (s.aluStage.integerCore = s.integerCore ∧ s.integerCore.Exhausted) := by
  cases hi : s.selectReadyAluEntry with
  | none =>
      refine Or.inr ⟨?_, exhausted_of_select hi⟩
      simp only [aluStage, aluLanes, hi]
  | some i =>
      have hstage : s.aluStage = aluLanes 1 (s.executeAlu i) := by
        rw [aluStage, aluLanes, hi]
      rw [hstage]
      refine Or.inl (.head' ⟨i, ready_of_select hi, rfl⟩ ?_)
      rw [← integerCore_executeAlu]
      exact aluLanes_issues 1 _

end SuperScalarCPU

/-! ## The two-wide pipeline -/

/-- The operand multiplexers and the ALU interface compute what the `switch` of the
    complete machine computes, for every decoded operation that may be selected. -/
theorem IntegerExecutionPipeline.executeLane_result {e : IssueQueueEntry} (hdec : e.FromDecode)
    (hready : SuperScalarCPU.readyAlu e = true) :
    (executeLane e).result = SuperScalarCPU.aluResult e := by
  simp only [SuperScalarCPU.readyAlu, Bool.and_eq_true, Bool.not_eq_true', beq_iff_eq,
    bne_iff_ne] at hready
  obtain ⟨⟨⟨⟨⟨-, hread⟩, hwrite⟩, hflow⟩, hhalt⟩, hop⟩ := hready
  rw [hdec.memoryRead, decodeWord_memoryRead] at hread
  rw [hdec.memoryWrite, decodeWord_memoryWrite] at hwrite
  rw [hdec.controlFlow, decodeWord_controlFlow] at hflow
  rw [hdec.aluOperation, decodeWord_aluOperation] at hop
  simp only [executeLane, SuperScalarCPU.aluResult, hdec.aluOperation, hdec.operandA,
    hdec.operandB, decodeWord_aluOperation, decodeWord_operandA, decodeWord_operandB]
  revert hread hwrite hflow hop
  cases (decodeWord e.pc e.instruction).opcode <;>
    simp [aluOperationOf, operandAOf, operandBOf, controlFlowOf, operandValue]

/-- The reorder buffer entry of a ready operation, and its result. -/
theorem IntegerCore.Coherent.robEntry {c : IntegerCore cfg} {i : Nat} (h : c.Coherent)
    (hi : c.Ready i) :
    let e := c.issueQueue.entries i
    e.robIndex < cfg.robCapacity ∧ (c.rob.entries e.robIndex).valid = true ∧
      (c.rob.entries e.robIndex).registerWrite = e.registerWrite ∧
      (IntegerExecutionPipeline.executeLane e).result = SuperScalarCPU.aluResult e := by
  obtain ⟨r, hr, -, hmatch⟩ := h.inFlight.backed _ hi.live
  have hdec := h.inFlight.queueDecoded _ hi.live
  have hslot := h.inFlight.rob_wf.entries_robIndex hr
  rw [← hmatch.robIndex] at hslot
  refine ⟨?_, ?_, ?_, IntegerExecutionPipeline.executeLane_result hdec hi.2⟩
  · rw [hmatch.robIndex]
    exact h.inFlight.rob_wf.robIndex_lt hr
  · rw [hslot]
    exact h.inFlight.rob_wf.valid_of_mem hr
  · rw [hslot, (h.inFlight.entryDecoded r hr).registerWrite, hdec.registerWrite, hmatch.pc,
      hmatch.instruction]

namespace IntegerExecutionPipeline

variable {u : IntegerExecutionPipeline cfg} {e : IssueQueueEntry} {i j : Nat}

/-- Write-back of an executed entry whose instruction is in flight. -/
theorem writeBack_executeLane {c : IntegerCore cfg} (hc : u.core = c)
    (hlt : e.robIndex < cfg.robCapacity)
    (hv : (c.rob.entries e.robIndex).valid = true)
    (hw : (c.rob.entries e.robIndex).registerWrite = e.registerWrite)
    (hr : (executeLane e).result = SuperScalarCPU.aluResult e) :
    (u.writeBack (executeLane e)).core =
      { rob := c.rob.complete e.robIndex (SuperScalarCPU.aluResult e)
        issueQueue :=
          if e.registerWrite then
            c.issueQueue.wakeup e.physicalRd (SuperScalarCPU.aluResult e)
          else c.issueQueue
        prf :=
          if e.registerWrite then c.prf.write e.physicalRd (SuperScalarCPU.aluResult e)
          else c.prf } := by
  subst hc
  have hentry : u.rob.entry e.robIndex = some (u.rob.entries e.robIndex) := by
    rw [ReOrderBuffer.entry, if_neg (by omega)]
  have hvalid : (executeLane e).valid = true := rfl
  have hidx : (executeLane e).robIndex = e.robIndex := rfl
  have hrd : (executeLane e).physicalRd = e.physicalRd := rfl
  simp only [core] at hv hw
  rw [writeBack, hvalid, hidx, hentry, hrd, hr]
  simp only [hv, hw, Bool.not_true, Bool.false_eq_true, if_false, core]
  cases e.registerWrite <;> rfl

/-- Execution of the selected slots, one after the other. -/
theorem executeCycle_core (h : IntegerCore.Coherent u.core) :
    u.executeCycle.core = u.selected.foldl IntegerCore.execute u.core ∧
      ∀ i ∈ u.selected, u.core.Ready i := by
  have hready : ∀ i ∈ u.selected, u.core.Ready i := fun i hi => by
    obtain ⟨hlt, hp⟩ := List.mem_filter.mp (List.mem_of_mem_take hi)
    exact ⟨List.mem_range.mp hlt, hp⟩
  have hnodup : u.selected.Nodup := (List.nodup_range.filter _).sublist (List.take_sublist _ _)
  have hlen : u.selected.length ≤ 2 := List.length_take_le _ _
  refine ⟨?_, hready⟩
  rw [executeCycle]
  revert hready hnodup hlen
  generalize u.selected = slots
  intro hready hnodup hlen
  match slots, hlen with
  | [], _ => rfl
  | [i], _ =>
      obtain ⟨hlt, hv, hw, hr⟩ := h.robEntry (hready i (by simp))
      exact writeBack_executeLane (u := { u with issueQueue := u.issueQueue.remove i }) rfl
        hlt hv hw hr
  | [i, j], _ =>
      have hij : j ≠ i := fun heq => by simp [heq] at hnodup
      have hi := hready i (by simp)
      have hj := hready j (by simp)
      obtain ⟨hlt, hv, hw, hr⟩ := h.robEntry hi
      obtain ⟨hlt', hv', hw', hr'⟩ := h.robEntry hj
      have hslot := u.core.rob.complete_entries_of_ne (h.robIndex_ne hj hi hij)
        (SuperScalarCPU.aluResult (u.core.issueQueue.entries i))
      have hfirst := writeBack_executeLane
        (u := { u with issueQueue := (u.issueQueue.remove i).remove j }) rfl hlt hv hw hr
      have hboth := writeBack_executeLane hfirst hlt' (hslot.symm ▸ hv') (hslot.symm ▸ hw') hr'
      -- the second entry is captured before the first result is written back
      have hsecond : (u.issueQueue.remove i).entries j = u.core.issueQueue.entries j :=
        u.issueQueue.remove_entries_of_ne hij
      rw [List.foldl_cons, List.foldl_cons, List.foldl_nil, hj.execute_execute hij]
      simp only [executeLanes, List.foldl_cons, List.foldl_nil, hsecond]
      refine hboth.trans ?_
      simp only [IntegerCore.execute, core]
      by_cases hwrites : (u.issueQueue.entries i).registerWrite = true <;>
        simp only [hwrites, if_true, if_false, Bool.false_eq_true, IssueQueue.remove_wakeup]

/-- A cycle executes something unless nothing is ready. -/
theorem executeCycle_progress (h : IntegerCore.Coherent u.core) :
    TransGen IntegerCore.Issue u.core u.executeCycle.core ∨
      (u.executeCycle.core = u.core ∧ u.core.Exhausted) := by
  obtain ⟨heq, hready⟩ := executeCycle_core h
  have hnone : u.selected = [] → u.core.Exhausted := fun hnil =>
    IntegerCore.exhausted_iff.mpr fun i hi => by
      rw [selected, List.take_eq_nil_iff] at hnil
      have hmem : i ∈ (List.range cfg.iqCapacity).filter fun index =>
          readyForIntegerExecution (u.issueQueue.entries index) :=
        List.mem_filter.mpr ⟨List.mem_range.mpr hi.1, hi.2⟩
      rw [hnil.resolve_left (by omega)] at hmem
      cases hmem
  have hnodup : u.selected.Nodup := (List.nodup_range.filter _).sublist (List.take_sublist _ _)
  have hlen : u.selected.length ≤ 2 := List.length_take_le _ _
  rw [heq]
  revert hready hnone hnodup hlen
  generalize u.selected = slots
  intro hready hnone hnodup hlen
  match slots, hlen with
  | [], _ => exact Or.inr ⟨rfl, hnone rfl⟩
  | [i], _ => exact Or.inl (.single ⟨i, hready i (by simp), rfl⟩)
  | [i, j], _ =>
      have hij : j ≠ i := fun heq => by simp [heq] at hnodup
      exact Or.inl (.tail (.single ⟨i, hready i (by simp), rfl⟩)
        ⟨j, (hready j (by simp)).execute hij, rfl⟩)

end IntegerExecutionPipeline

end CpuSim.SuperScalar
