/-
  CpuSim.SuperScalar.Accounting

  Where every dispatched instruction is.  Dispatch puts instructions into the reorder buffer,
  retirement and recovery take them out, and the statistics of `step()` count the flows, so
  over a run what came in is what went out and what is still in flight.
-/

import CpuSim.Lib.Paced
import CpuSim.SuperScalar.Retirement
import CpuSim.SuperScalar.StepWindow

namespace CpuSim.SuperScalar

open CpuSim.Lib

variable {cfg : Config}

/-- The number of entries still to execute. -/
def unfinished (es : List ROBEntry) : Nat := es.countP fun e => !e.completed

@[simp] theorem unfinished_nil : unfinished [] = 0 := rfl

@[simp] theorem unfinished_append (es es' : List ROBEntry) :
    unfinished (es ++ es') = unfinished es + unfinished es' := List.countP_append

theorem unfinished_cons (e : ROBEntry) (es : List ROBEntry) :
    unfinished (e :: es) = unfinished es + if e.completed then 0 else 1 := by
  rw [unfinished, List.countP_cons]
  cases e.completed <;> rfl

/-- The operations executed in a cycle. -/
def CycleStats.issued (stats : CycleStats) : Nat :=
  stats.issuedMem + stats.issuedBranch + stats.issuedAlu

/-- The issue queue holds one entry for each instruction still to execute. -/
theorem InFlight.count_eq {n m : Nat} {rob : ReOrderBuffer n} {iq : IssueQueue m}
    (h : InFlight rob iq) : iq.count = unfinished rob.window := by
  have hopen : ((rob.window.filter fun e => !e.completed).map ROBEntry.robIndex).Nodup :=
    h.rob_wf.nodup_robIndex.sublist (List.filter_sublist.map _)
  have hperm : (iq.live.map IssueQueueEntry.robIndex).Perm
      ((rob.window.filter fun e => !e.completed).map ROBEntry.robIndex) := by
    rw [List.perm_ext_iff_of_nodup h.unique hopen]
    intro i
    constructor
    · intro hi
      obtain ⟨q, hq, rfl⟩ := List.mem_map.mp hi
      obtain ⟨e, he, hc, hm⟩ := h.backed q hq
      rw [hm.robIndex]
      exact List.mem_map_of_mem (List.mem_filter.mpr ⟨he, by rw [hc]; rfl⟩)
    · intro hi
      obtain ⟨e, he, rfl⟩ := List.mem_map.mp hi
      obtain ⟨he, hc⟩ := List.mem_filter.mp he
      obtain ⟨q, hq, hm⟩ := h.queued e he (by simpa using hc)
      rw [← hm.robIndex]
      exact List.mem_map_of_mem hq
  rw [h.iq_wf, unfinished, List.countP_eq_length_filter, ← List.length_map (f := ROBEntry.robIndex),
    ← hperm.length_eq, List.length_map]

namespace SuperScalarCPU

variable {s t : SuperScalarCPU cfg}

/-! ## The flows of a step -/

/-- The entries the recovery of this step squashes: those `squash_younger_than` returns. -/
def squashedEntries (s : SuperScalarCPU cfg) : List ROBEntry :=
  if s.halted then []
  else
    match s.memoryDone.selectBranch with
    | none => []
    | some i =>
      let result := s.memoryDone.branchResult i
      if result.mispredicted then
        ((s.memoryDone.resolveBranch i).rob.squashYoungerThan result.robIndex).2.1
      else []

/-- The entries dispatched in this step. -/
def dispatchedEntries (s : SuperScalarCPU cfg) : List ROBEntry :=
  if s.halted then [] else s.entered

/-! ## The stages -/

/-- Executing a queued instruction leaves its entry where it is, completed. -/
theorem Sound.finish_counts (h : Sound s) {i : Nat} (hlive : s.iq.entries i ∈ s.iq.live)
    (r : Word) :
    (s.finish i r).rob.window.length = s.rob.window.length ∧
      unfinished (s.finish i r).rob.window + 1 = unfinished s.rob.window := by
  obtain ⟨b, hb, hc, hm⟩ := h.inFlight.backed _ hlive
  obtain ⟨pre, post, hw⟩ := List.append_of_mem hb
  obtain ⟨-, hwin⟩ := window_complete_split h.inFlight.rob_wf hw r
  rw [← hm.robIndex] at hwin
  change (s.finish i r).rob.window = _ at hwin
  constructor
  · rw [hwin, hw, List.length_append, List.length_append, List.length_cons, List.length_cons]
  · have hdone : (b.finish r).completed = true := rfl
    rw [hwin, hw, unfinished_append, unfinished_append, unfinished_cons, unfinished_cons, hc, hdone]
    simp only [if_true, Bool.false_eq_true, if_false]
    omega

theorem memoryCase_counts {rs : List MemoryResult} (h : Sound s) (hc : MemoryCase s t rs) :
    t.rob.window.length = s.rob.window.length ∧
      unfinished t.rob.window + rs.length = unfinished s.rob.window := by
  cases hc with
  | idle q _ ht =>
      rw [ht]
      exact ⟨rfl, rfl⟩
  | load q i _ hi _ _ ht =>
      rw [ht]
      exact h.finish_counts hi.live (s.loadData q i)
  | store q i _ hi _ _ ht =>
      rw [ht]
      exact h.finish_counts hi.live (s.iq.entries i).rs2Value

/-- A resolved branch leaves the issue queue, and a recovery takes out what it squashes. -/
theorem branchCase_counts (h : Sound s) (hc : BranchCase s t) {squashed : List ROBEntry}
    (hsq : squashed =
      match s.selectBranch with
      | none => []
      | some i =>
        if (s.branchResult i).mispredicted then
          ((s.resolveBranch i).rob.squashYoungerThan (s.branchResult i).robIndex).2.1
        else []) :
    t.rob.window.length + squashed.length = s.rob.window.length ∧
      unfinished t.rob.window + unfinished squashed +
        (if s.resolvedBranch.isSome then 1 else 0) = unfinished s.rob.window ∧
      t.branchesExecuted = s.branchesExecuted + (if s.resolvedBranch.isSome then 1 else 0) ∧
      t.branchMispredictions =
        s.branchMispredictions + (if s.branchRecovered then 1 else 0) := by
  cases hc with
  | none hi ht =>
      rw [hi] at hsq
      rw [ht, hsq, branchRecovered_none hi, resolvedBranch, hi]
      exact ⟨rfl, rfl, rfl, rfl⟩
  | correct i hi hm ht =>
      rw [hi] at hsq
      dsimp only at hsq
      rw [hm, if_neg Bool.false_ne_true] at hsq
      obtain ⟨-, hlive, -⟩ := selectBranch_some hi
      obtain ⟨hlen, hopen⟩ := h.finish_counts hlive (s.branchResult i).targetPc
      rw [ht, hsq, branchRecovered_some hi, hm, resolvedBranch, hi]
      exact ⟨hlen, hopen, rfl, rfl⟩
  | mispredicted i hi hm pre b post hmatch hopen hr =>
      rw [hi] at hsq
      dsimp only at hsq
      rw [hm, if_pos rfl] at hsq
      -- what is squashed stands behind the completed branch
      obtain ⟨hwf, hwin⟩ :=
        window_complete_split h.inFlight.rob_wf hr.split (s.branchResult i).targetPc
      obtain ⟨rob', hsquash, -, -⟩ := hwf.squashYoungerThan hwin
      have hpost : squashed = post := by
        rw [hsq]
        show ((s.rob.complete (s.iq.entries i).robIndex
          (s.branchResult i).targetPc).squashYoungerThan (s.iq.entries i).robIndex).2.1 = post
        rw [hmatch.robIndex]
        exact congrArg (fun x => x.2.1) hsquash
      have hdone : (b.finish (s.branchResult i).targetPc).completed = true := rfl
      rw [hpost, hr.window, hr.split, branchRecovered_some hi, hm, resolvedBranch, hi]
      refine ⟨?_, ?_, ?_, ?_⟩
      · rw [List.length_append, List.length_append, List.length_singleton, List.length_cons]
        omega
      · rw [unfinished_append, unfinished_append, unfinished_cons, unfinished_cons, hdone, hopen]
        simp only [unfinished_nil, Option.map_some, Option.isSome_some, if_true,
          Bool.false_eq_true, if_false]
        omega
      · rw [hr.frame]
        rfl
      · rw [hr.frame]
        rfl

theorem aluStage_counts (h : Sound s) :
    s.aluStage.rob.window.length = s.rob.window.length ∧
      unfinished s.aluStage.rob.window + s.issuedAlu = unfinished s.rob.window ∧
      s.issuedAlu ≤ 2 := by
  have hone : ∀ {t : SuperScalarCPU cfg} {i : Nat}, Sound t → t.selectReadyAluEntry = some i →
      (t.executeAlu i).rob.window.length = t.rob.window.length ∧
        unfinished (t.executeAlu i).rob.window + 1 = unfinished t.rob.window := by
    intro t i ht hi
    obtain ⟨-, hlive, -⟩ := selectReadyAluEntry_some hi
    rw [executeAlu_eq]
    exact ht.finish_counts hlive (aluResult (t.iq.entries i))
  rw [aluStage, aluLanes, issuedAlu]
  cases hi : s.selectReadyAluEntry with
  | none => exact ⟨rfl, rfl, Nat.zero_le 2⟩
  | some i =>
      dsimp only
      obtain ⟨hlen, hopen⟩ := hone h hi
      rw [aluLanes]
      cases hj : (s.executeAlu i).selectReadyAluEntry with
      | none => exact ⟨hlen, hopen, by decide⟩
      | some j =>
          obtain ⟨hlen', hopen'⟩ := hone (h.executeAlu hi) hj
          refine ⟨hlen'.trans hlen, ?_, by simp⟩
          rw [← hopen, ← hopen']
          rfl

/-! ## A whole step -/

/-- What one step moves between the reorder buffer, the issue queue and the counters. -/
structure Moves (s : SuperScalarCPU cfg) : Prop where
  window : s.rob.count + s.stats.dispatched =
    s.next.rob.count + s.stats.retired + s.squashedEntries.length
  queue : s.iq.count + unfinished s.dispatchedEntries =
    s.next.iq.count + s.stats.issued + unfinished s.squashedEntries
  committed : s.next.committedInstructionCount =
    s.committedInstructionCount + s.stats.retired
  branches : s.next.branchesExecuted = s.branchesExecuted + s.stats.issuedBranch
  mispredictions : s.next.branchMispredictions =
    s.branchMispredictions + if s.stats.branchMispredicted then 1 else 0
  cycles : s.next.cycles = s.cycles + 1
  entered : s.dispatchedEntries.length = s.stats.dispatched
  width : s.stats.dispatched ≤ 2 ∧ s.stats.retired ≤ 2 ∧ s.stats.issuedAlu ≤ 2 ∧
    s.stats.issuedMem ≤ 1 ∧ s.stats.issuedBranch ≤ 1
  resolved : (if s.stats.branchMispredicted then 1 else 0) ≤ s.stats.issuedBranch

theorem Steps.entered_length (h : Steps s) : s.entered.length = s.stats.dispatched := by
  have hsum : s.entered.length =
      (if s.dispatched0 then 1 else 0) + (if s.dispatched1 then 1 else 0) := by
    rw [entered, List.length_append]
    congr 1 <;> split <;> rfl
  have hstats : s.stats.dispatched =
      if s.renames then
        (if s.executed.afterRename.laneDispatched s.executed.renameOutputs.1 then 1 else 0) +
          (if !s.betweenLanes.haltDispatched &&
              s.betweenLanes.laneDispatched s.executed.renameOutputs.2.1 then 1 else 0)
      else 0 := by
    rw [stats, h.running, if_neg Bool.false_ne_true]
    rfl
  rw [hsum, hstats, dispatched0, dispatched1]
  cases s.renames <;> rfl

/-- Commit counts what it retires. -/
theorem Steps.committed_count (h : Steps s) :
    s.committed.committedInstructionCount = s.committedInstructionCount + s.stats.retired := by
  have hloop := CommitUnit.stepLoop_eq (u := s.commitUnit) 2 h.sound.inFlight.rob_wf.inRing
    h.commitHalted
  have hstats : s.stats.retired = (s.commitUnit.stepLoop 2).2.length := by
    rw [stats, h.running, if_neg Bool.false_ne_true]
    rfl
  have hcount : s.committed.committedInstructionCount =
      (s.commitUnit.stepLoop 2).1.committedInstructionCount := by
    rw [committed, commitStage_eq, handleCommitEvents_frame]
    rfl
  rw [hcount, hstats, hloop, List.length_map]
  exact CommitUnit.retireAll_committed _ _

/-- The counters after a step: only commit and the branch unit touch them. -/
theorem Steps.next_counters (h : Steps s) :
    s.next.committedInstructionCount = s.committed.committedInstructionCount ∧
      s.next.cycles = s.cycles + 1 ∧
      s.next.branchesExecuted = s.memoryDone.branchStage.branchesExecuted ∧
      s.next.branchMispredictions = s.memoryDone.branchStage.branchMispredictions := by
  rw [h.next_eq, fetchStage, dispatchStage_frame]
  dsimp only
  rw [executed, aluStage_frame]
  dsimp only
  rw [branchCase_frame h.branchCase]
  have hmem : s.memoryDone.committedInstructionCount = s.committed.committedInstructionCount ∧
      s.memoryDone.cycles = s.committed.cycles := ⟨rfl, rfl⟩
  have hcycles : s.committed.cycles = s.cycles + 1 := by
    rw [committed, commitStage_frame]
  exact ⟨hmem.1, hmem.2.trans hcycles, rfl, rfl⟩

/-- The execution counts of a running step. -/
theorem Steps.stats_issued (h : Steps s) :
    s.stats.issuedMem = s.committed.memUnit.execute.1.length ∧
      s.stats.issuedBranch = (if s.memoryDone.resolvedBranch.isSome then 1 else 0) ∧
      s.stats.issuedAlu = s.memoryDone.branchStage.issuedAlu ∧
      s.stats.branchMispredicted = s.memoryDone.branchRecovered := by
  rw [stats, h.running, if_neg Bool.false_ne_true]
  exact ⟨rfl, rfl, rfl, rfl⟩

/-- The branch stage of a running step. -/
theorem Steps.branchDone_counts (h : Steps s) :
    s.memoryDone.branchStage.rob.window.length + s.squashedEntries.length =
        s.memoryDone.rob.window.length ∧
      unfinished s.memoryDone.branchStage.rob.window + unfinished s.squashedEntries +
        (if s.memoryDone.resolvedBranch.isSome then 1 else 0) =
          unfinished s.memoryDone.rob.window ∧
      s.memoryDone.branchStage.branchesExecuted =
        s.memoryDone.branchesExecuted + (if s.memoryDone.resolvedBranch.isSome then 1 else 0) ∧
      s.memoryDone.branchStage.branchMispredictions =
        s.memoryDone.branchMispredictions + (if s.memoryDone.branchRecovered then 1 else 0) :=
  branchCase_counts h.sound_memoryDone h.branchCase
    (by rw [squashedEntries, h.running, if_neg Bool.false_ne_true])

theorem memoryCase_width {rs : List MemoryResult} (hc : MemoryCase s t rs) : rs.length ≤ 1 := by
  cases hc with
  | idle => exact Nat.zero_le 1
  | load => exact Nat.le_refl 1
  | store => exact Nat.le_refl 1

/-- A recovery is that of the branch counted in the same step. -/
theorem recovered_le_resolved (s : SuperScalarCPU cfg) :
    (if s.branchRecovered then 1 else 0) ≤ if s.resolvedBranch.isSome then 1 else 0 := by
  rw [branchRecovered]
  cases s.resolvedBranch with
  | none => exact Nat.le_refl 0
  | some result => cases hm : result.mispredicted <;> simp [hm]

/-- What execution does to the window behind the retired instructions. -/
theorem Steps.executed_counts (h : Steps s) :
    s.executed.rob.window.length + s.squashedEntries.length = s.committed.rob.window.length ∧
      unfinished s.executed.rob.window + s.stats.issued + unfinished s.squashedEntries =
        unfinished s.committed.rob.window := by
  obtain ⟨hmlen, hmopen⟩ := memoryCase_counts h.sound_committed h.memoryCase
  obtain ⟨hblen, hbopen, -, -⟩ := h.branchDone_counts
  obtain ⟨halen, haopen, -⟩ := aluStage_counts h.sound_branchDone
  obtain ⟨hmem, hbranch, halu, -⟩ := h.stats_issued
  change s.executed.rob.window.length = _ at halen
  change unfinished s.executed.rob.window + _ = _ at haopen
  rw [CycleStats.issued, hmem, hbranch, halu]
  omega

/-- What retires in a step was there, completed, and the statistics count it. -/
theorem Steps.retired_counts (h : Steps s) {es : List ROBEntry} (hes : Commits s s.committed es) :
    s.stats.retired = es.length ∧
      s.rob.window.length = es.length + s.committed.rob.window.length ∧
      unfinished s.rob.window = unfinished s.committed.rob.window := by
  have hretired : s.stats.retired = es.length := by
    rw [stats, h.running, if_neg Bool.false_ne_true]
    show (runCommitUnit s).2.length = es.length
    rw [hes.events, List.length_map]
  have hdone : unfinished es = 0 := by
    rw [unfinished, List.countP_eq_zero]
    intro e he
    rw [hes.completed e he]
    exact Bool.false_ne_true
  refine ⟨hretired, ?_, ?_⟩
  · rw [hes.window, List.length_append]
  · rw [hes.window, unfinished_append, hdone, Nat.zero_add]

theorem Steps.moves (h : Steps s) : Moves s := by
  obtain ⟨es, hes⟩ := h.commits
  obtain ⟨hretired, hlen, hopen⟩ := h.retired_counts hes
  obtain ⟨hxlen, hxopen⟩ := h.executed_counts
  obtain ⟨-, -, hbex, hbmis⟩ := h.branchDone_counts
  obtain ⟨-, -, hawidth⟩ := aluStage_counts h.sound_branchDone
  obtain ⟨hcommitted, hcycles, hnextEx, hnextMis⟩ := h.next_counters
  obtain ⟨hmem, hbranch, halu, hmis⟩ := h.stats_issued
  have hcount := h.committed_count
  have hentered := h.entered_length
  have hdisp : s.dispatchedEntries = s.entered := by
    rw [dispatchedEntries, h.running, if_neg Bool.false_ne_true]
  have hnlen := congrArg List.length h.window_next
  have hnopen := congrArg unfinished h.window_next
  rw [List.length_append] at hnlen
  rw [unfinished_append] at hnopen
  have hbefore : s.memoryDone.branchesExecuted = s.branchesExecuted ∧
      s.memoryDone.branchMispredictions = s.branchMispredictions := by
    show s.committed.branchesExecuted = _ ∧ s.committed.branchMispredictions = _
    rw [committed, commitStage_frame]
    exact ⟨rfl, rfl⟩
  have hwide := memoryCase_width h.memoryCase
  constructor
  · rw [← ReOrderBuffer.length_window, ← ReOrderBuffer.length_window, hretired]
    omega
  · rw [h.sound.inFlight.count_eq, h.sound_next.inFlight.count_eq, hdisp]
    omega
  · rw [hcommitted, hcount]
  · rw [hnextEx, hbex, hbefore.1, hbranch]
  · rw [hnextMis, hbmis, hbefore.2, hmis]
  · exact hcycles
  · rw [hdisp, hentered]
  · refine ⟨?_, ?_, ?_, ?_, ?_⟩
    · rw [← hentered, entered, List.length_append]
      split <;> split <;> simp
    · rw [hretired]
      exact hes.width
    · rw [halu]
      exact hawidth
    · rw [hmem]
      exact hwide
    · rw [hbranch]
      split <;> decide
  · rw [hmis, hbranch]
    exact recovered_le_resolved s.memoryDone

/-- A halted machine moves nothing. -/
theorem moves_of_halted (h : s.halted = true) : Moves s := by
  have hstats : s.stats = { cycle := s.cycles, halted := true } := by rw [stats, if_pos h]
  have hdisp : s.dispatchedEntries = [] := by rw [dispatchedEntries, if_pos h]
  have hsq : s.squashedEntries = [] := by rw [squashedEntries, if_pos h]
  constructor
  · rw [next_of_halted h, hstats, hsq]
    rfl
  · rw [next_of_halted h, hstats, hsq, hdisp]
    rfl
  · rw [next_of_halted h, hstats]
    rfl
  · rw [next_of_halted h, hstats]
    rfl
  · rw [next_of_halted h, hstats]
    rfl
  · rw [next_of_halted h]
  · rw [hstats, hdisp]
    rfl
  · rw [hstats]
    exact ⟨Nat.zero_le 2, Nat.zero_le 2, Nat.zero_le 2, Nat.zero_le 1, Nat.zero_le 1⟩
  · rw [hstats]
    exact Nat.le_refl 0

/-! ## Runs -/

/-- The sum of a count over the first `n` steps. -/
def total (s0 : SuperScalarCPU cfg) (count : SuperScalarCPU cfg → Nat) (n : Nat) : Nat :=
  ∑ k ∈ Finset.range n, count (run s0 k)

@[simp] theorem total_zero (s0 : SuperScalarCPU cfg) (count : SuperScalarCPU cfg → Nat) :
    total s0 count 0 = 0 := rfl

theorem total_succ (s0 : SuperScalarCPU cfg) (count : SuperScalarCPU cfg → Nat) (n : Nat) :
    total s0 count (n + 1) = total s0 count n + count (run s0 n) := Finset.sum_range_succ _ n

/-- The books after `n` steps. -/
structure Ledger (s0 : SuperScalarCPU cfg) (n : Nat) : Prop where
  /-- A dispatched instruction has retired, was squashed, or is in the reorder buffer. -/
  instructions : total s0 (·.stats.dispatched) n =
    (run s0 n).committedInstructionCount + total s0 (·.squashedEntries.length) n +
      (run s0 n).rob.count
  /-- One that has to execute was issued once, was squashed before, or is in the queue. -/
  executions : total s0 (unfinished ·.dispatchedEntries) n =
    total s0 (·.stats.issued) n + total s0 (unfinished ·.squashedEntries) n +
      (run s0 n).iq.count
  committed : (run s0 n).committedInstructionCount = total s0 (·.stats.retired) n
  branches : (run s0 n).branchesExecuted = total s0 (·.stats.issuedBranch) n
  mispredictions : (run s0 n).branchMispredictions =
    total s0 (fun s => if s.stats.branchMispredicted then 1 else 0) n
  cycles : (run s0 n).cycles = n
  dispatched : ∀ k < n, (run s0 k).dispatchedEntries.length = (run s0 k).stats.dispatched
  /-- In every cycle at most two instructions retire and one branch resolves. -/
  widths : ∀ k < n, (run s0 k).stats.dispatched ≤ 2 ∧ (run s0 k).stats.retired ≤ 2 ∧
    (run s0 k).stats.issuedAlu ≤ 2 ∧ (run s0 k).stats.issuedMem ≤ 1 ∧
    (run s0 k).stats.issuedBranch ≤ 1
  /-- And so in the whole run. -/
  committed_le : (run s0 n).committedInstructionCount ≤ 2 * n
  mispredictions_le : (run s0 n).branchMispredictions ≤ (run s0 n).branchesExecuted
  branches_le : (run s0 n).branchesExecuted ≤ n

theorem Ledger.boot (cfg : Config) (words : List Word) (data : List (Nat × Word)) :
    Ledger (SuperScalarCPU.boot cfg words data) 0 := by
  constructor
  case dispatched => exact fun k hk => absurd hk (Nat.not_lt_zero k)
  case widths => exact fun k hk => absurd hk (Nat.not_lt_zero k)
  all_goals
    simp only [run, total_zero]
    rw [boot_frame]
    rfl

theorem Ledger.next {s0 : SuperScalarCPU cfg} {n : Nat} (h : Ledger s0 n)
    (hm : Moves (run s0 n)) : Ledger s0 (n + 1) := by
  have hnext : run s0 (n + 1) = (run s0 n).next := rfl
  obtain ⟨hwindow, hqueue, hcommitted, hbranches, hmis, hcycles, hentered, hwidth, hresolved⟩ := hm
  obtain ⟨hinstr, hexec, hretired, hbr, hmp, hcyc, hdisp, hwidths, hle, hmple, hbrle⟩ := h
  constructor
  · rw [hnext, total_succ, total_succ, hcommitted]
    omega
  · rw [hnext, total_succ, total_succ, total_succ]
    omega
  · rw [hnext, total_succ, hcommitted, hretired]
  · rw [hnext, total_succ, hbranches, hbr]
  · rw [hnext, total_succ, hmis, hmp]
  · rw [hnext, hcycles, hcyc]
  · intro k hk
    rcases Nat.lt_succ_iff_lt_or_eq.mp hk with hk | rfl
    · exact hdisp k hk
    · exact hentered
  · intro k hk
    rcases Nat.lt_succ_iff_lt_or_eq.mp hk with hk | rfl
    · exact hwidths k hk
    · exact hwidth
  · rw [hnext, hcommitted]
    omega
  · rw [hnext, hmis, hbranches]
    omega
  · rw [hnext, hbranches]
    omega

/-- Every dispatched instruction is accounted for: after any number of steps of any program
    it has retired, was squashed by a recovery, or is in the reorder buffer, and the same
    holds of executions and the issue queue; the counters of the machine are the sums of the
    statistics its steps returned, and a halted machine has nothing in flight. -/
theorem instructions_accounted (cfg : Config) (words : List Word) (data : List (Nat × Word))
    (n : Nat) :
    Ledger (boot cfg words data) n ∧
      ((run (boot cfg words data) n).halted = true →
        (run (boot cfg words data) n).rob.count = 0 ∧
          (run (boot cfg words data) n).iq.count = 0) := by
  constructor
  · induction n with
    | zero => exact Ledger.boot cfg words data
    | succ n ih =>
        apply ih.next
        cases hgo : (run (SuperScalarCPU.boot cfg words data) n).halted with
        | true => exact moves_of_halted hgo
        | false => exact (run_steps hgo).moves
  · intro hhalt
    obtain ⟨hs, hf⟩ := run_sound_fence cfg words data n
    have hempty := hf.drained hhalt
    rw [← ReOrderBuffer.length_window, hs.inFlight.count_eq, hempty]
    exact ⟨rfl, rfl⟩

end SuperScalarCPU

end CpuSim.SuperScalar
