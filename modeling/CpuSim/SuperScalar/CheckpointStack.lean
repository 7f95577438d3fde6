/-
  CpuSim.SuperScalar.CheckpointStack

  The snapshot stack of the alias table beside the branches in flight.  Dispatch
  pushes a snapshot for every instruction it is handed, commit pops the newest
  one for each retired branch and recovery pops none: the stack mirrors the
  branches of the window exactly along the runs that hand dispatch nothing but
  branches, find room for each of them and squash none (`BranchesOnly`).
-/

import CpuSim.SuperScalar.RenameStep

namespace CpuSim.SuperScalar

/-! ## Snapshots of a window -/

/-- The snapshots of the branches among `es`, oldest first. -/
def snapshots (es : List ROBEntry) : List Checkpoint :=
  (es.filter ROBEntry.branch).map ROBEntry.checkpoint

@[simp] theorem snapshots_nil : snapshots [] = [] := rfl

@[simp] theorem snapshots_append (es es' : List ROBEntry) :
    snapshots (es ++ es') = snapshots es ++ snapshots es' := by
  simp [snapshots]

theorem length_snapshots (es : List ROBEntry) :
    (snapshots es).length = es.countP ROBEntry.branch := by
  rw [snapshots, List.length_map, List.countP_eq_length_filter]

/-- The two fields of an entry that the stack is compared with. -/
def ROBEntry.kept (e : ROBEntry) : Bool × Checkpoint := (e.branch, e.checkpoint)

/-- Finishing entries changes neither field. -/
theorem map_kept_finishAt (idx : Nat) (r : Word) (es : List ROBEntry) :
    (es.map (ReOrderBuffer.finishAt idx r)).map ROBEntry.kept = es.map ROBEntry.kept := by
  rw [List.map_map]
  refine List.map_congr_left fun e _ => ?_
  rw [Function.comp, ReOrderBuffer.finishAt]
  split <;> rfl

/-! ## Rename keeps the stack -/

/-- Rename takes no snapshot, and only a destination changes the table. -/
theorem RenameUnit.Renames.checkpoints {n : Nat} {u u' : RenameUnit n} {input : DecodeBundle}
    {out : RenameBundle} (h : RenameUnit.Renames u input out u') :
    u'.rat.checkpoints = u.rat.checkpoints ∧
      ((input.valid = true → input.registerWrite = false) → u'.rat = u.rat) := by
  cases h with
  | bubble _ _ hu => rw [hu]; exact ⟨rfl, fun _ => rfl⟩
  | reader _ _ _ hu => rw [hu]; exact ⟨rfl, fun _ => rfl⟩
  | writer p rest hv hw _ _ hu =>
      rw [hu]
      refine ⟨?_, fun hno => ?_⟩
      · rw [RegisterAliasTable.set]
        split <;> rfl
      · rw [hno hv] at hw
        cases hw

/-! ## Retirement pops from the back -/

namespace CommitUnit

variable {cfg : Config}

theorem retire_checkpoints (u : CommitUnit cfg) (e : ROBEntry) :
    (retire u e).rat.checkpoints =
      if e.branch && e.hasCheckpoint then u.rat.checkpoints.dropLast else u.rat.checkpoints := by
  simp only [retire]
  split <;> split <;> split <;> split <;> rfl

/-- Each retired branch takes the newest snapshot with it. -/
theorem retireAll_checkpoints (u : CommitUnit cfg) {es : List ROBEntry}
    (hes : ∀ e ∈ es, e.branch = true → e.hasCheckpoint = true) :
    (retireAll u es).rat.checkpoints =
      u.rat.checkpoints.take (u.rat.checkpoints.length - es.countP ROBEntry.branch) := by
  induction es generalizing u with
  | nil => simp
  | cons e es ih =>
      have hrest : ∀ x ∈ es, x.branch = true → x.hasCheckpoint = true := fun x hx =>
        hes x (List.mem_cons_of_mem _ hx)
      rw [retireAll_cons, ih _ hrest, retire_checkpoints]
      cases hb : e.branch with
      | false => simp [hb]
      | true =>
          have hcp : e.hasCheckpoint = true := hes e (by simp) hb
          rw [hcp, Bool.and_self, if_pos rfl, List.countP_cons_of_pos hb, List.dropLast_eq_take,
            List.take_take, List.length_take]
          congr 1
          omega

end CommitUnit

namespace SuperScalarCPU

variable {cfg : Config} {s t : SuperScalarCPU cfg} {ren : RenameBundle}

/-- The stack holds the snapshots of the branches in flight. -/
def StackMirrors (s : SuperScalarCPU cfg) : Prop :=
  s.rat.checkpoints = snapshots s.rob.window

/-- The stack between two steps: one snapshot for each branch in flight, at most
    `ROBCapacity` of them, and the latest one is the youngest branch's. -/
structure Mirrors (s : SuperScalarCPU cfg) : Prop where
  stack : StackMirrors s
  bounded : s.rat.checkpointCount ≤ cfg.robCapacity
  youngest :
    s.rat.latestCheckpoint =
      (s.rob.window.filter ROBEntry.branch).getLast?.map ROBEntry.checkpoint

/-- The two consequences are those of the stack and the ring. -/
theorem StackMirrors.mirrors (h : StackMirrors s) (hwf : s.rob.WF) : Mirrors s := by
  refine ⟨h, ?_, ?_⟩
  · have hle : (s.rob.window.filter ROBEntry.branch).length ≤ s.rob.window.length :=
      List.length_filter_le _ _
    have hcount := hwf.count_le
    rw [ReOrderBuffer.length_window] at hle
    rw [RegisterAliasTable.checkpointCount, h, snapshots, List.length_map]
    omega
  · rw [RegisterAliasTable.latestCheckpoint, h, snapshots, List.getLast?_map]

/-! ## The condition on a step -/

/-- The entries a misprediction squashes. -/
def squashedBranches (s : SuperScalarCPU cfg) : List ROBEntry :=
  match s.memoryDone.selectBranch with
  | none => []
  | some i =>
    if (s.memoryDone.branchResult i).mispredicted then
      (s.memoryDone.rob.squashYoungerThan
        (s.memoryDone.branchResult i).robIndex).2.1.filter ROBEntry.branch
    else []

/-- What is handed to dispatch in this step is a branch and finds room, and a recovery
    squashes no branch. -/
structure BranchesOnly (s : SuperScalarCPU cfg) : Prop where
  lane0 : s.renames = true → s.executed.renInput0.valid = true →
    s.executed.renInput0.controlFlow = .BRANCH ∧ s.RoomForOne
  lane1 : s.renames = true → s.executed.renInput1.valid = true →
    s.executed.renInput1.controlFlow = .BRANCH ∧ s.RoomForTwo
  recovery : s.squashedBranches = []

/-! ## The stages -/

/-- Commit pops as many snapshots as branches retire, from the back. -/
theorem Steps.committed_checkpoints (h : Steps s) {es : List ROBEntry}
    (hes : Commits s s.committed es) :
    s.committed.rat.checkpoints =
      s.rat.checkpoints.take (s.rat.checkpoints.length - es.countP ROBEntry.branch) := by
  let u : CommitUnit cfg := commitUnit { s with cycles := s.cycles + 1 }
  obtain ⟨es', hwin, hu, -⟩ :=
    CommitUnit.stepLoop_spec (u := u) 2 h.sound.inFlight.rob_wf
  have hrat : s.committed.rat = (u.stepLoop 2).1.rat ∧
      s.committed.rob = (u.stepLoop 2).1.rob := by
    rw [committed, commitStage_eq, handleCommitEvents_frame]
    exact ⟨rfl, rfl⟩
  -- both splits of the window leave the same rest
  have hsame : es' = es := by
    have hw := hes.window
    rw [hrat.2] at hw
    exact List.append_cancel_right (hwin.symm.trans hw)
  subst hsame
  have hcp : ∀ e ∈ es', e.branch = true → e.hasCheckpoint = true := fun e he hb =>
    (h.sound.snapshots e (by rw [hes.window]; exact List.mem_append_left _ he) hb).1
  rw [hrat.1, hu]
  exact CommitUnit.retireAll_checkpoints u hcp

/-- Memory execution touches neither the stack nor the two fields. -/
theorem Steps.memoryDone_kept (h : Steps s) :
    s.memoryDone.rat = s.committed.rat ∧
      s.memoryDone.rob.window.map ROBEntry.kept = s.committed.rob.window.map ROBEntry.kept := by
  refine ⟨(memoryCase_frame h.memoryCase).2.2.2.2.1, ?_⟩
  rcases memoryCase_window h.sound_committed h.memoryCase with hw | ⟨idx, r, hw⟩
  · rw [hw]
  · rw [hw, map_kept_finishAt]

/-- Branch resolution keeps the stack and cuts off what it squashes. -/
theorem Steps.branchStage_kept (h : Steps s) :
    s.memoryDone.branchStage.rat.checkpoints = s.memoryDone.rat.checkpoints ∧
      ∃ post : List ROBEntry, s.squashedBranches = post.filter ROBEntry.branch ∧
        s.memoryDone.rob.window.map ROBEntry.kept =
          s.memoryDone.branchStage.rob.window.map ROBEntry.kept ++ post.map ROBEntry.kept ∧
        (s.memoryDone.branchStage.rat.table = s.memoryDone.rat.table ∨
          ∃ b ∈ s.memoryDone.rob.window,
            b.branch = true ∧ s.memoryDone.branchStage.rat.table = b.checkpoint.mappings) := by
  have hcase := h.branchCase
  cases hcase with
  | none hi ht =>
      rw [ht, squashedBranches, hi]
      exact ⟨rfl, [], rfl, by simp, Or.inl rfl⟩
  | correct i hi hm ht =>
      -- finishing an entry changes none of the fields kept
      obtain ⟨-, hlive, hflow, -, -⟩ := selectBranch_some hi
      have hw := InFlight.branch_registerWrite h.sound_memoryDone.inFlight hlive hflow
      rw [ht, resolveBranch_eq hw, squashedBranches, hi]
      refine ⟨rfl, [], by simp [hm], ?_, Or.inl rfl⟩
      have hwin := h.sound_memoryDone.window_finish i (s.memoryDone.branchResult i).targetPc
      rw [List.map_nil, List.append_nil]
      exact ((congrArg (List.map ROBEntry.kept) hwin).trans (map_kept_finishAt _ _ _)).symm
  | mispredicted i hi hm pre b post hb hc hr =>
      -- recovery leaves the stack as it is and takes the map of the branch
      obtain ⟨-, hlive, hflow, -, -⟩ := selectBranch_some hi
      have hmem : b ∈ s.memoryDone.rob.window := by
        rw [hr.split]
        simp
      have hbranch : b.branch = true := by
        have hin := h.sound_memoryDone.inFlight
        rw [(hin.entryDecoded b hmem).branch, ← hb.pc, ← hb.instruction,
          ← (hin.queueDecoded _ hlive).controlFlow, hflow]
        rfl
      have hidx : (s.memoryDone.branchResult i).robIndex = b.robIndex := hb.robIndex
      obtain ⟨rob', hsq, -, -⟩ :=
        h.sound_memoryDone.inFlight.rob_wf.squashYoungerThan hr.split
      refine ⟨?_, post, ?_, ?_, Or.inr ⟨b, hmem, hbranch, ?_⟩⟩
      · rw [hr.frame]
      · rw [squashedBranches, hi]
        dsimp only
        rw [if_pos hm, hidx, hsq]
      · rw [hr.split, hr.window]
        simp [ROBEntry.kept, ROBEntry.finish]
      · rw [hr.frame]

/-- Integer execution touches neither. -/
theorem Steps.executed_kept (h : Steps s) :
    s.executed.rat = s.memoryDone.branchStage.rat ∧
      s.executed.rob.window.map ROBEntry.kept =
        s.memoryDone.branchStage.rob.window.map ROBEntry.kept := by
  constructor
  · rw [executed, aluStage_frame]
  · have hboth : Sound s.executed ∧ s.executed.rob.window.map ROBEntry.kept =
        s.memoryDone.branchStage.rob.window.map ROBEntry.kept :=
      aluStage_induction
        (P := fun t => Sound t ∧ t.rob.window.map ROBEntry.kept =
          s.memoryDone.branchStage.rob.window.map ROBEntry.kept)
        ⟨h.sound_branchDone, rfl⟩ fun t i ht hi => ⟨ht.1.executeAlu hi, by
          rw [executeAlu_eq, ht.1.window_finish, map_kept_finishAt]
          exact ht.2⟩
    exact hboth.2

/-- A valid bundle pushes a snapshot, dispatched or not. -/
theorem dispatchLane_checkpoints (s : SuperScalarCPU cfg) (ren : RenameBundle) :
    (s.dispatchLane ren).rat.checkpoints =
      s.rat.checkpoints ++
        if ren.valid then [{ mappings := s.rat.table, valid := true }] else [] := by
  simp only [dispatchLane]
  cases hv : ren.valid with
  | false => simp
  | true =>
      simp only [Bool.not_true, Bool.false_eq_true, if_false, if_true]
      split
      · rfl
      · rw [afterDispatch_frame]
        rfl

theorem laneEntry_kept (s : SuperScalarCPU cfg) (hb : ren.controlFlow = .BRANCH) :
    (s.laneEntry ren).kept = (true, { mappings := s.rat.table, valid := true }) := by
  rw [laneEntry_eq, hb]
  rfl

/-! ## A branch for an input -/

theorem decodeWord_branch {pc w : Word} (h : (decodeWord pc w).controlFlow = .BRANCH) :
    (decodeWord pc w).registerWrite = false ∧ (decodeWord pc w).halt = false := by
  rw [decodeWord_controlFlow] at h
  rw [decodeWord_registerWrite, decodeWord_halt]
  revert h
  cases (decodeWord pc w).opcode <;> simp [controlFlowOf, writesRegister]

/-- A branch in lane 0 has no destination and does not halt. -/
theorem renInput0_branch (hv : s.renInput0.valid = true)
    (hb : s.renInput0.controlFlow = .BRANCH) :
    s.renInput0.registerWrite = false ∧ s.renInput0.halt = false := by
  obtain ⟨-, pr, hin⟩ := s.renInput0_decoded hv
  rw [hin] at hb ⊢
  exact decodeWord_branch hb

/-- The same for lane 1. -/
theorem renInput1_branch (hv : s.renInput1.valid = true)
    (hb : s.renInput1.controlFlow = .BRANCH) :
    s.renInput1.registerWrite = false ∧ s.renInput1.halt = false := by
  obtain ⟨-, pr, hin⟩ := s.renInput1_decoded hv
  rw [hin] at hb ⊢
  exact decodeWord_branch hb

/-- A valid lane comes in a pair of valid words. -/
theorem Steps.renInput0_valid (h : Steps s) (hs : Streaming s) (hr : s.renames = true)
    (hv : s.executed.renInput1.valid = true) : s.executed.renInput0.valid = true :=
  (annotate_fields _ _).1.trans (h.bundle_valid hs hr (Or.inr hv)).1

/-- A branch in lane 0 is no `HALT`. -/
theorem Steps.lane0_no_halt (h : Steps s) (hs : Streaming s) (hr : s.renames = true)
    (hv : s.executed.renInput1.valid = true)
    (hb : s.executed.renInput0.controlFlow = .BRANCH) : s.executed.decodeLane0.halt = false :=
  (annotate_fields _ _).2.1.symm.trans (renInput0_branch (h.renInput0_valid hs hr hv) hb).2

/-! ## Runs of branches -/

/-- The snapshot of the table no instruction has changed. -/
def baseSnapshot : Checkpoint := { mappings := RegisterAliasTable.resetTable, valid := true }

/-- Only branches are in flight, all with the snapshot of the reset table, and the stack
    has one copy of it for each. -/
structure Uniform (s : SuperScalarCPU cfg) : Prop where
  table : s.rat.table = RegisterAliasTable.resetTable
  kept : ∀ e ∈ s.rob.window, e.kept = (true, baseSnapshot)
  stack : s.rat.checkpoints = List.replicate s.rob.window.length baseSnapshot

namespace Uniform

theorem snapshots_eq {es : List ROBEntry} (h : ∀ e ∈ es, e.kept = (true, baseSnapshot)) :
    snapshots es = List.replicate es.length baseSnapshot := by
  have hall : ∀ e ∈ es, e.branch = true := fun e he => congrArg Prod.fst (h e he)
  rw [snapshots, List.filter_eq_self.mpr hall, List.map_eq_replicate_iff]
  exact fun e he => congrArg Prod.snd (h e he)

theorem countP_eq {es : List ROBEntry} (h : ∀ e ∈ es, e.kept = (true, baseSnapshot)) :
    es.countP ROBEntry.branch = es.length :=
  List.countP_eq_length.mpr fun e he => congrArg Prod.fst (h e he)

theorem mirrors (h : Uniform s) : StackMirrors s := by
  rw [StackMirrors, h.stack, snapshots_eq h.kept]

/-- `Uniform` looks at the table, the stack and the two fields only. -/
theorem congr (h : Uniform s) (htable : t.rat.table = s.rat.table)
    (hstack : t.rat.checkpoints = s.rat.checkpoints)
    (hkept : t.rob.window.map ROBEntry.kept = s.rob.window.map ROBEntry.kept) : Uniform t := by
  refine ⟨htable.trans h.table, fun e he => ?_, ?_⟩
  · have hmem : e.kept ∈ s.rob.window.map ROBEntry.kept := by
      rw [← hkept]
      exact List.mem_map_of_mem he
    obtain ⟨e', he', heq⟩ := List.mem_map.mp hmem
    rw [← heq]
    exact h.kept e' he'
  · have hlen := congrArg List.length hkept
    rw [List.length_map, List.length_map] at hlen
    rw [hstack, h.stack, hlen]

theorem boot (cfg : Config) (words : List Word) (data : List (Nat × Word)) :
    Uniform (boot cfg words data) := by
  rw [boot_frame]
  have hwin : ((construct cfg).loadProgram words).rob.window = [] := ReOrderBuffer.window_reset
  refine ⟨rfl, fun e he => ?_, ?_⟩
  · rw [hwin] at he
    cases he
  · rw [hwin]
    rfl

/-- Popping the newest of equal snapshots leaves what popping the oldest leaves. -/
theorem commit (h : Uniform s) (hs : Steps s) : Uniform s.committed := by
  obtain ⟨es, hes⟩ := hs.commits
  have hretired : ∀ e ∈ es, e.kept = (true, baseSnapshot) := fun e he =>
    h.kept e (by rw [hes.window]; exact List.mem_append_left _ he)
  refine ⟨hes.table.trans h.table, fun e he => ?_, ?_⟩
  · exact h.kept e (by rw [hes.window]; exact List.mem_append_right _ he)
  · rw [hs.committed_checkpoints hes, countP_eq hretired, h.stack, List.take_replicate,
      List.length_replicate, hes.window, List.length_append]
    congr 1
    omega

theorem memory (h : Uniform s.committed) (hs : Steps s) : Uniform s.memoryDone := by
  obtain ⟨hrat, hkept⟩ := hs.memoryDone_kept
  exact h.congr (by rw [hrat]) (by rw [hrat]) hkept

/-- A recovery that squashes no branch squashes nothing. -/
theorem branch (h : Uniform s.memoryDone) (hs : Steps s) (hclean : s.squashedBranches = []) :
    Uniform s.memoryDone.branchStage := by
  obtain ⟨hstack, post, hsq, hkept, htable⟩ := hs.branchStage_kept
  -- every entry is a branch, so a squash without branches squashes nothing
  have hpost : post = [] := by
    cases hp : post with
    | nil => rfl
    | cons e rest =>
        have hmem : e.kept ∈ s.memoryDone.rob.window.map ROBEntry.kept := by
          rw [hkept, hp]
          simp
        obtain ⟨e', he', heq⟩ := List.mem_map.mp hmem
        have hbranch : e.branch = true :=
          congrArg Prod.fst (heq.symm.trans (h.kept e' he'))
        rw [hclean, hp, List.filter_cons_of_pos hbranch] at hsq
        cases hsq
  rw [hpost, List.map_nil, List.append_nil] at hkept
  refine h.congr ?_ hstack hkept.symm
  rcases htable with heq | ⟨b, hb, -, heq⟩
  · exact heq
  · have hcp : b.checkpoint = baseSnapshot := congrArg Prod.snd (h.kept b hb)
    rw [heq, hcp, h.table]
    rfl

theorem executed (h : Uniform s.memoryDone.branchStage) (hs : Steps s) : Uniform s.executed := by
  obtain ⟨hrat, hkept⟩ := hs.executed_kept
  exact h.congr (by rw [hrat]) (by rw [hrat]) hkept

/-- Renaming branches changes no mapping. -/
theorem afterRename (h : Uniform s.executed) (hs : Steps s) (hr : s.renames = true)
    (hbr : BranchesOnly s) : Uniform s.executed.afterRename := by
  obtain ⟨u0, h0, h1⟩ := hs.lanes hr
  have hkeep0 := h0.checkpoints.2 fun hv => (renInput0_branch hv (hbr.lane0 hr hv).1).1
  have hkeep1 := h1.checkpoints.2 fun hv => (renInput1_branch hv (hbr.lane1 hr hv).1).1
  have hrat : s.executed.afterRename.rat = s.executed.rat := hkeep1.trans hkeep0
  exact h.congr (by rw [hrat]) (by rw [hrat]) rfl

/-- A dispatched branch joins the window and the stack. -/
theorem dispatchLane (h : Uniform s) (hs : Sound s) (hren : Sound.Renamed ren)
    (hbr : ren.valid = true → ren.controlFlow = .BRANCH ∧ s.laneDispatched ren = true) :
    Uniform (s.dispatchLane ren) := by
  have hwin := dispatchLane_window hs hren
  have hstack := dispatchLane_checkpoints s ren
  have htable := (dispatchLane_table s ren).1
  cases hv : ren.valid with
  | false =>
      have hidle : s.dispatchLane ren = s := by simp [SuperScalarCPU.dispatchLane, hv]
      rw [hidle]
      exact h
  | true =>
      -- the lane pushes one snapshot and enters one branch with the same one
      obtain ⟨hflow, hd⟩ := hbr hv
      rw [if_pos hd] at hwin
      rw [if_pos hv] at hstack
      have hnew := laneEntry_kept (s := s) hflow
      rw [h.table] at hnew hstack
      refine ⟨htable.trans h.table, fun e he => ?_, ?_⟩
      · rw [hwin] at he
        rcases List.mem_append.mp he with he | he
        · exact h.kept e he
        · rw [List.mem_singleton.mp he]
          exact hnew
      · rw [hstack, h.stack, hwin, List.length_append, List.length_singleton,
          List.replicate_succ']
        rfl

end Uniform

/-- A step of branches keeps the stack in line, inside the step as well. -/
theorem Uniform.next (h : Uniform s) (hs : Steps s) (hstr : Streaming s) (hbr : BranchesOnly s) :
    Uniform s.committed ∧ Uniform s.memoryDone.branchStage ∧ Uniform s.next := by
  have hcommit := h.commit hs
  have hbranch := (hcommit.memory hs).branch hs hbr.recovery
  refine ⟨hcommit, hbranch, ?_⟩
  refine hs.next_lanes (P := Uniform) (fun t f ht => ht.congr rfl rfl rfl) (hbranch.executed hs)
    (fun hr => (hbranch.executed hs).afterRename hs hr hbr) (fun hr ht => ?_)
    (fun hr _ ht => ?_)
  · -- lane 0: a branch, with room for it
    obtain ⟨hs0, -, hren0, -⟩ := hs.sound_lanes hr
    obtain ⟨u0, h0, -⟩ := hs.lanes hr
    refine ht.dispatchLane hs0 hren0 fun hv => ?_
    have hin : s.executed.renInput0.valid = true := h0.valid.symm.trans hv
    obtain ⟨hflow, hroom⟩ := hbr.lane0 hr hin
    have hd := (hs.dispatched0_iff hstr hr hin).mpr hroom
    rw [dispatched0, hr, Bool.true_and] at hd
    refine ⟨?_, hd⟩
    obtain ⟨old, p, ho⟩ := h0.out_eq hin
    rw [ho]
    exact hflow
  · -- lane 1: the same, and lane 0 in front of it did not raise the fence
    obtain ⟨-, hs1, -, hren1⟩ := hs.sound_lanes hr
    obtain ⟨u0, -, h1⟩ := hs.lanes hr
    refine ht.dispatchLane hs1 hren1 fun hv => ?_
    have hin : s.executed.renInput1.valid = true := h1.valid.symm.trans hv
    obtain ⟨hflow, hroom⟩ := hbr.lane1 hr hin
    obtain ⟨hflow0, hone⟩ := hbr.lane0 hr (hs.renInput0_valid hstr hr hin)
    have hd := (hs.dispatched1_iff hstr hr hin hone
      (hs.lane0_no_halt hstr hr hin hflow0)).2.mpr hroom
    rw [dispatched1, hr, Bool.true_and, Bool.and_eq_true] at hd
    refine ⟨?_, hd.2⟩
    obtain ⟨old, p, ho⟩ := h1.out_eq hin
    rw [ho]
    exact hflow

/-! ## Counting -/

/-- A stack that mirrors the branches before a step exceeds those left when rename
    starts by the branches squashed. -/
theorem Steps.executed_surplus (h : Steps s) (hm : StackMirrors s) :
    s.executed.rat.checkpoints.length =
      s.executed.rob.window.countP ROBEntry.branch + s.squashedBranches.length := by
  obtain ⟨es, hes⟩ := h.commits
  have hcommit := h.committed_checkpoints hes
  obtain ⟨hrat, hkept⟩ := h.memoryDone_kept
  obtain ⟨hstack, post, hsq, hcut, -⟩ := h.branchStage_kept
  obtain ⟨hrat', hkept'⟩ := h.executed_kept
  -- the branches of a window are counted by the first of the two fields
  have hcount : ∀ l : List ROBEntry,
      l.countP ROBEntry.branch = (l.map ROBEntry.kept).countP Prod.fst := fun l => by
    rw [List.countP_map]
    rfl
  have hbefore : s.rat.checkpoints.length =
      es.countP ROBEntry.branch + s.committed.rob.window.countP ROBEntry.branch := by
    rw [hm, length_snapshots, hes.window, List.countP_append]
  have hafter : s.committed.rob.window.countP ROBEntry.branch =
      s.executed.rob.window.countP ROBEntry.branch + s.squashedBranches.length := by
    rw [hcount, ← hkept, hcut, List.countP_append, ← hkept', ← hcount, ← hcount, hsq,
      List.countP_eq_length_filter (l := post)]
  rw [hrat', hstack, hrat, hcommit, List.length_take]
  omega

/-- Every valid lane that reaches dispatch adds a snapshot. -/
theorem Steps.length_next_checkpoints (h : Steps s) (hr : s.renames = true) :
    s.next.rat.checkpoints.length =
      s.executed.rat.checkpoints.length + (if s.executed.renInput0.valid then 1 else 0) +
        (if !s.betweenLanes.haltDispatched && s.executed.renInput1.valid then 1 else 0) := by
  obtain ⟨f, hf⟩ := h.next_backend
  obtain ⟨u0, h0, h1⟩ := h.lanes hr
  -- renaming itself pushes nothing
  have hrename : s.executed.afterRename.rat.checkpoints = s.executed.rat.checkpoints :=
    h1.checkpoints.1.trans h0.checkpoints.1
  -- a valid lane pushes a snapshot, whether it gets into the window or not
  have hlength : ∀ (t : SuperScalarCPU cfg) ren, (t.dispatchLane ren).rat.checkpoints.length =
      t.rat.checkpoints.length + if ren.valid then 1 else 0 := fun t ren => by
    rw [dispatchLane_checkpoints, List.length_append]
    split <;> rfl
  have hbetween : s.betweenLanes.rat.checkpoints.length =
      s.executed.rat.checkpoints.length + if s.executed.renInput0.valid then 1 else 0 := by
    rw [betweenLanes, hlength, hrename, h0.valid]
  rw [hf, hr, if_pos rfl]
  show s.executed.dispatchLanes.rat.checkpoints.length = _
  rw [← hbetween, dispatchLanes]
  change (if !s.betweenLanes.haltDispatched then
    s.betweenLanes.dispatchLane s.executed.renameOutputs.2.1 else
    s.betweenLanes).rat.checkpoints.length = _
  cases s.betweenLanes.haltDispatched with
  | true => rfl
  | false =>
      rw [Bool.not_false, if_pos rfl, hlength, h1.valid, Bool.true_and]

/-- The branches a step adds to the window. -/
theorem Steps.countP_entered (h : Steps s) :
    s.entered.countP ROBEntry.branch =
      (if s.dispatched0 && s.executed.renInput0.controlFlow == .BRANCH then 1 else 0) +
        (if s.dispatched1 && s.executed.renInput1.controlFlow == .BRANCH then 1 else 0) := by
  rw [entered, List.countP_append]
  congr 1
  · cases hd : s.dispatched0 with
    | false => rfl
    | true =>
        obtain ⟨hr, hv, -⟩ := h.of_dispatched0 hd
        obtain ⟨u0, h0, -⟩ := h.lanes hr
        have hb := (laneEntry_input h0 hv s.executed.afterRename).2.2.1
        rw [if_pos rfl, List.countP_singleton, Bool.true_and]
        exact congrArg (fun b : Bool => if b then 1 else 0) hb
  · cases hd : s.dispatched1 with
    | false => rfl
    | true =>
        obtain ⟨hr, hv, -⟩ := h.of_dispatched1 hd
        obtain ⟨u0, -, h1⟩ := h.lanes hr
        have hb := (laneEntry_input h1 hv s.betweenLanes).2.2.1
        rw [if_pos rfl, List.countP_singleton, Bool.true_and]
        exact congrArg (fun b : Bool => if b then 1 else 0) hb

/-- A lane adds a snapshot when it is valid and a branch when it is a dispatched one. -/
theorem lane_surplus {v d b : Bool} (hd : d = true → v = true) :
    (if d && b then 1 else 0) ≤ (if v then 1 else 0) ∧
      ((if v then 1 else 0) = (if d && b then 1 else 0) → v = true → d = true ∧ b = true) := by
  cases v <;> cases d <;> cases b <;> simp_all

/-- A step from one mirroring stack to another is one of branches: pushes can only
    outnumber the branches that enter. -/
theorem Steps.branchesOnly_of_mirrors (h : Steps s) (hs : Streaming s) (hm : StackMirrors s)
    (hn : StackMirrors s.next) : BranchesOnly s := by
  have hsurplus := h.executed_surplus hm
  have hnext : s.next.rat.checkpoints.length =
      s.executed.rob.window.countP ROBEntry.branch + s.entered.countP ROBEntry.branch := by
    rw [hn, length_snapshots, h.window_next, List.countP_append]
  cases hr : s.renames with
  | false =>
      have hidle : s.next.rat = s.executed.rat := by rw [h.next_idle hr]; rfl
      have hentered : s.entered = [] := by simp [entered, dispatched0, dispatched1, hr]
      rw [hidle, hentered, List.countP_nil] at hnext
      have hzero : s.squashedBranches.length = 0 := by omega
      exact ⟨fun hr' => by simp [hr] at hr', fun hr' => by simp [hr] at hr',
        List.length_eq_zero_iff.mp hzero⟩
  | true =>
      rw [h.length_next_checkpoints hr, h.countP_entered] at hnext
      have hd0 : s.dispatched0 = true → s.executed.renInput0.valid = true := fun hd =>
        (h.of_dispatched0 hd).2.1
      have hd1 : s.dispatched1 = true →
          s.betweenLanes.haltDispatched = false ∧ s.executed.renInput1.valid = true := fun hd => by
        refine ⟨?_, (h.of_dispatched1 hd).2.1⟩
        rw [dispatched1, Bool.and_eq_true, Bool.and_eq_true, Bool.not_eq_true'] at hd
        exact hd.2.1
      have hd1' : s.dispatched1 = true →
          (!s.betweenLanes.haltDispatched && s.executed.renInput1.valid) = true := fun hd => by
        rw [(hd1 hd).1, (hd1 hd).2]
        rfl
      -- no lane adds less to the stack than to the window, so nothing is left over
      obtain ⟨hle0, heq0⟩ := lane_surplus (b := s.executed.renInput0.controlFlow == .BRANCH) hd0
      obtain ⟨hle1, heq1⟩ := lane_surplus (b := s.executed.renInput1.controlFlow == .BRANCH) hd1'
      have hsq : s.squashedBranches.length = 0 := by omega
      have h0 : s.executed.renInput0.valid = true → s.dispatched0 = true ∧
          s.executed.renInput0.controlFlow = .BRANCH := fun hv => by
        obtain ⟨hd, hb⟩ := heq0 (by omega) hv
        exact ⟨hd, beq_iff_eq.mp hb⟩
      have h1 : s.betweenLanes.haltDispatched = false → s.executed.renInput1.valid = true →
          s.dispatched1 = true ∧ s.executed.renInput1.controlFlow = .BRANCH := fun ho hv => by
        obtain ⟨hd, hb⟩ := heq1 (by omega) (by rw [ho, hv]; rfl)
        exact ⟨hd, beq_iff_eq.mp hb⟩
      have hlane0 : s.executed.renInput0.valid = true →
          s.executed.renInput0.controlFlow = .BRANCH ∧ s.RoomForOne := fun hv =>
        ⟨(h0 hv).2, (h.dispatched0_iff hs hr hv).mp (h0 hv).1⟩
      refine ⟨fun _ => hlane0, fun _ hv => ?_, List.length_eq_zero_iff.mp hsq⟩
      obtain ⟨hflow0, hone⟩ := hlane0 (h.renInput0_valid hs hr hv)
      obtain ⟨hopen, hiff⟩ := h.dispatched1_iff hs hr hv hone (h.lane0_no_halt hs hr hv hflow0)
      exact ⟨(h1 hopen hv).2, hiff.mp (h1 hopen hv).1⟩

/-! ## Runs -/

/-- The stack mirrors the branches in flight in every state up to the `n`-th, and within
    the steps between them behind commit and behind branch resolution. -/
structure MirrorsThrough (s0 : SuperScalarCPU cfg) (n : Nat) : Prop where
  between : ∀ k ≤ n, Mirrors (run s0 k)
  within : ∀ k < n, (run s0 k).halted = false →
    StackMirrors (run s0 k).committed ∧ StackMirrors (run s0 k).memoryDone.branchStage

/-- The snapshot stack of a run mirrors the branches in flight exactly when every step
    hands dispatch nothing but branches, finds room for them and squashes none. -/
theorem checkpoints_mirror_iff (cfg : Config) (words : List Word) (data : List (Nat × Word))
    (n : Nat) :
    MirrorsThrough (boot cfg words data) n ↔
      ∀ k < n, (run (boot cfg words data) k).halted = false →
        BranchesOnly (run (boot cfg words data) k) := by
  constructor
  · intro h k hk hgo
    exact (run_steps hgo).branchesOnly_of_mirrors (run_streaming cfg words data k)
      (h.between k (by omega)).stack (h.between (k + 1) (by omega)).stack
  · intro h
    have huniform : ∀ k ≤ n, Uniform (run (boot cfg words data) k) := by
      intro k
      induction k with
      | zero => exact fun _ => Uniform.boot cfg words data
      | succ k ih =>
          intro hk
          have hprev := ih (by omega)
          cases hgo : (run (boot cfg words data) k).halted with
          | true =>
              -- a halted machine keeps everything
              show Uniform (run (boot cfg words data) k).next
              rw [next_of_halted hgo]
              exact hprev.congr rfl rfl rfl
          | false =>
              exact (hprev.next (run_steps hgo) (run_streaming cfg words data k)
                (h k (by omega) hgo)).2.2
    refine ⟨fun k hk => ?_, fun k hk hgo => ?_⟩
    · exact (huniform k hk).mirrors.mirrors
        (run_sound_fence cfg words data k).1.inFlight.rob_wf
    · obtain ⟨hcommit, hbranch, -⟩ := (huniform k (by omega)).next (run_steps hgo)
        (run_streaming cfg words data k) (h k hk hgo)
      exact ⟨hcommit.mirrors, hbranch.mirrors⟩

/-- `LI r1, 5` and a `NOP` are dispatched in the second step: two snapshots, and no branch
    in the window. -/
theorem snapshots_without_branch :
    let s := run (boot .default [0x1C400005, 0x00000000] []) 2
    s.rat.checkpointCount = 2 ∧ s.rob.window.filter ROBEntry.branch = [] ∧ ¬ Mirrors s := by
  have hcount : (run (boot .default [0x1C400005, 0x00000000] []) 2).rat.checkpointCount = 2 := by
    decide +kernel
  have hnone : (run (boot .default [0x1C400005, 0x00000000] []) 2).rob.window.countP
      ROBEntry.branch = 0 := by
    decide +kernel
  refine ⟨hcount, List.filter_eq_nil_iff.mpr (List.countP_eq_zero.mp hnone), fun h => ?_⟩
  have hlen := congrArg List.length h.stack
  rw [length_snapshots, hnone] at hlen
  rw [RegisterAliasTable.checkpointCount, hlen] at hcount
  cases hcount

end SuperScalarCPU

end CpuSim.SuperScalar
