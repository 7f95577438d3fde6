/-
  CpuSim.SuperScalar.Unexecuted

  Instructions that no selector of `step()` knows: `J` and the undefined opcodes.  In no
  reachable state is one of them completed, so none retires and nothing behind one retires.
-/

import CpuSim.SuperScalar.HeadProgress

namespace CpuSim.SuperScalar

variable {cfg : Config}

namespace SuperScalarCPU

variable {s t : SuperScalarCPU cfg} {q : IssueQueueEntry}

/-- An opcode that completes neither at dispatch nor by a selector. -/
def Unexecutable (op : Opcode) : Prop := selectable op = false ∧ op ≠ .NOP ∧ op ≠ .HALT

theorem unexecutable_J : Unexecutable .J := ⟨rfl, by decide, by decide⟩

/-- Memory operations, branches and what the ALU accepts have an operation. -/
theorem selectable_of_selected (hdec : q.FromDecode)
    (h : (q.memoryRead || q.memoryWrite) = true ∨ q.controlFlow = .BRANCH ∨
      readyAlu q = true) : selectable q.opcode = true := by
  have hread := hdec.memoryRead.trans (decodeWord_memoryRead q.pc q.instruction)
  have hwrite := hdec.memoryWrite.trans (decodeWord_memoryWrite q.pc q.instruction)
  have hflow := hdec.controlFlow.trans (decodeWord_controlFlow q.pc q.instruction)
  have hop := hdec.aluOperation.trans (decodeWord_aluOperation q.pc q.instruction)
  rw [← hdec.opcode] at hread hwrite hflow hop
  rw [selectable]
  rcases h with hmem | hbranch | halu
  · rw [hread, hwrite] at hmem
    revert hmem
    cases q.opcode <;> simp [aluOperationOf]
  · rw [hflow] at hbranch
    revert hbranch
    cases q.opcode <;> simp [aluOperationOf, controlFlowOf]
  · rw [readyAlu, Bool.and_eq_true, hop] at halu
    exact halu.2

/-- No instruction in flight that cannot be executed is completed. -/
def Unfinished (s : SuperScalarCPU cfg) : Prop :=
  ∀ e ∈ s.rob.window, Unexecutable e.opcode → e.completed = false

namespace Unfinished

/-- It is enough to look at entries that were there. -/
theorem of_subset (h : Unfinished s) (hsub : ∀ e ∈ t.rob.window, e ∈ s.rob.window) : Unfinished t :=
  fun e he => h e (hsub e he)

/-- Executing an instruction that has an operation completes no other. -/
theorem finish (h : Unfinished s) (hs : Sound s) {i : Nat} (hlive : s.iq.entries i ∈ s.iq.live)
    (hop : selectable (s.iq.entries i).opcode = true) (r : Word) : Unfinished (s.finish i r) := by
  intro e he hno
  rw [hs.window_finish] at he
  obtain ⟨e0, he0, rfl⟩ := List.mem_map.mp he
  rw [ReOrderBuffer.finishAt] at hno ⊢
  split
  · next heq =>
      -- the entry that completes has the opcode of the queue entry
      rw [if_pos heq] at hno
      obtain ⟨-, hm⟩ := hs.inFlight.backed_by hlive he0 heq.symm
      have hdec := hs.inFlight.queueDecoded _ hlive
      have hsame : e0.opcode = (s.iq.entries i).opcode := by
        rw [hdec.opcode, hm.pc, hm.instruction]
        exact (hs.inFlight.entryDecoded e0 he0).opcode
      have hsel : selectable e0.opcode = false := hno.1
      rw [hsame, hop] at hsel
      cases hsel
  · next hne =>
      rw [if_neg hne] at hno
      exact h e0 he0 hno

theorem commit (h : Unfinished s) {es : List ROBEntry} (hc : Commits s t es) : Unfinished t := by
  apply h.of_subset
  intro e he
  rw [hc.window]
  exact List.mem_append_right _ he

theorem memory {rs : List MemoryResult} (h : Unfinished s) (hs : Sound s) (hc : MemoryCase s t rs) :
    Unfinished t := by
  have hready : ∀ {i : Nat}, s.MemReady i →
      s.iq.entries i ∈ s.iq.live ∧ selectable (s.iq.entries i).opcode = true := by
    intro i hi
    have hlive := IssueQueue.entries_mem_live hi.1 hi.valid
    refine ⟨hlive, selectable_of_selected (hs.inFlight.queueDecoded _ hlive) (Or.inl ?_)⟩
    have hmem := hi.2
    rw [MemoryExecutionUnit.readyForMemoryExecution] at hmem
    simp only [Bool.and_eq_true] at hmem
    exact hmem.2
  exact hc.preserves h (fun _ r hi _ => h.finish hs (hready hi).1 (hready hi).2 r)
    fun _ _ _ hu => hu

theorem branch (h : Unfinished s) (hs : Sound s) (hc : BranchCase s t) : Unfinished t := by
  have hselect : ∀ {i : Nat}, s.selectBranch = some i →
      s.iq.entries i ∈ s.iq.live ∧ selectable (s.iq.entries i).opcode = true := by
    intro i hi
    obtain ⟨-, hlive, hflow, -⟩ := selectBranch_some hi
    exact ⟨hlive, selectable_of_selected (hs.inFlight.queueDecoded _ hlive) (Or.inr (Or.inl hflow))⟩
  cases hc with
  | none _ ht =>
      rw [ht]
      exact h
  | correct i hi _ ht =>
      obtain ⟨hlive, hop⟩ := hselect hi
      rw [ht, hs.resolveBranch_eq hi]
      exact h.finish hs hlive hop (s.branchResult i).targetPc
  | mispredicted i hi _ pre b post hmatch _ hr =>
      -- what survives was there when the branch completed
      obtain ⟨hlive, hop⟩ := hselect hi
      have hfin := h.finish hs hlive hop (s.branchResult i).targetPc
      have hwin := (window_complete_split hs.inFlight.rob_wf hr.split
        (s.branchResult i).targetPc).2
      rw [← hmatch.robIndex] at hwin
      apply hfin.of_subset
      intro e he
      rw [hr.window] at he
      show e ∈ (s.rob.complete (s.iq.entries i).robIndex (s.branchResult i).targetPc).window
      rw [hwin]
      rcases List.mem_append.mp he with hpre | hlast
      · exact List.mem_append_left _ hpre
      · rw [List.mem_singleton.mp hlast]
        simp

theorem executeAlu (h : Unfinished s) (hs : Sound s) {i : Nat}
    (hi : s.selectReadyAluEntry = some i) : Unfinished (s.executeAlu i) := by
  obtain ⟨-, hlive, hready⟩ := selectReadyAluEntry_some hi
  rw [executeAlu_eq]
  exact h.finish hs hlive
    (selectable_of_selected (hs.inFlight.queueDecoded _ hlive) (Or.inr (Or.inr hready))) _

/-- Only a `HALT` or a `NOP` completes at dispatch. -/
theorem dispatchLane (h : Unfinished s) (hs : Sound s) {ren : RenameBundle}
    (hb : Sound.Renamed ren) : Unfinished (s.dispatchLane ren) := by
  have hcase := dispatchLane_cases hs.inFlight fun hv => (hb hv).1
  generalize s.dispatchLane ren = t at hcase
  cases hcase with
  | bubble _ ht =>
      rw [ht]
      exact h
  | refused _ _ ht =>
      rw [ht]
      exact h
  | entered idx rob1 iq1 _ _ he =>
      obtain ⟨hdec, -⟩ := hb he.valid
      obtain ⟨-, -, hwin, -⟩ := he.spec hs.inFlight hdec
      intro e hmem hno
      rw [hwin] at hmem
      rcases List.mem_append.mp hmem with hold | hnew
      · exact h e hold hno
      · rw [List.mem_singleton.mp hnew, laneEntry_eq] at hno ⊢
        have hop : ren.opcode = (decodeWord ren.pc ren.instruction).opcode :=
          congrArg DecodeBundle.opcode hdec
        -- at dispatch only `NOP` and `HALT` are completed
        have hhalt : ren.halt = (ren.opcode == .HALT) := by
          rw [hop, ← decodeWord_halt]
          exact congrArg DecodeBundle.halt hdec
        obtain ⟨-, hnop, hne⟩ : Unexecutable ren.opcode := hno
        show ren.completesAtOnce = false
        rw [RenameBundle.completesAtOnce, hhalt, beq_eq_false_iff_ne.mpr hnop,
          beq_eq_false_iff_ne.mpr hne]
        rfl

theorem dispatchStage (h : Unfinished s) (hs : Sound s) (recovered : Bool) :
    Unfinished (s.dispatchStage recovered) := by
  rw [SuperScalarCPU.dispatchStage]
  split
  · have hp : Sound s.predictRedirect := by
      rw [s.predictRedirect_frame.1]
      exact hs.congr rfl rfl rfl rfl
    have hw : Unfinished s.predictRedirect := by
      rw [s.predictRedirect_frame.1]
      exact h
    dsimp only
    split
    · next hcan =>
        obtain ⟨h0, hr0, hr1⟩ := hp.rename hcan
        have hw0 : Unfinished s.predictRedirect.afterRename := hw
        have hw1 := hw0.dispatchLane h0 hr0
        rw [dispatchLanes]
        split
        · exact hw1.dispatchLane (h0.dispatchLane hr0) hr1
        · exact hw1
    · exact hw
  · exact h

/-- One step. -/
theorem next (h : Unfinished s) (hs : Sound s) (hf : Fence s) : Unfinished s.next := by
  rw [SuperScalarCPU.next]
  split
  · exact h
  · next hrun =>
      have hsteps : Steps s := ⟨hs, hf, eq_false_of_ne_true hrun⟩
      have hhalt := hsteps.commitHalted
      obtain ⟨es, hes⟩ := hsteps.commits
      have hc : Unfinished s.committed := h.commit hes
      have hm : Unfinished s.memoryDone :=
        hc.memory (hs.committed hhalt) (memoryStage_cases (hs.committed hhalt).inFlight)
      have hb : Unfinished s.memoryDone.branchStage :=
        hm.branch (hs.memoryDone hhalt) (branchStage_cases (hs.memoryDone hhalt).inFlight
          (hs.memoryDone hhalt).snapshots)
      have he : Sound s.executed ∧ Unfinished s.executed :=
        aluStage_induction (P := fun t => Sound t ∧ Unfinished t) ⟨hs.branchDone hhalt, hb⟩
          fun _ _ ht hi =>
          ⟨ht.1.executeAlu hi, ht.2.executeAlu ht.1 hi⟩
      exact he.2.dispatchStage he.1 _

end Unfinished

/-- In no reachable state is a `J`, or an instruction with an undefined opcode, completed. -/
theorem run_unfinished (cfg : Config) (words : List Word) (data : List (Nat × Word)) (n : Nat) :
    Unfinished (run (boot cfg words data) n) := by
  induction n with
  | zero =>
      intro e he
      rw [run, boot_frame] at he
      have hempty : e ∈ (ReOrderBuffer.reset : ReOrderBuffer cfg.robCapacity).window := he
      rw [ReOrderBuffer.window_reset] at hempty
      cases hempty
  | succ n ih =>
      obtain ⟨hs, hf⟩ := run_sound_fence cfg words data n
      exact ih.next hs hf

end SuperScalarCPU

end CpuSim.SuperScalar
