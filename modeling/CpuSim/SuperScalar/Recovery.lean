/-
  CpuSim.SuperScalar.Recovery

  The rename map a misprediction restores.  Along a run whose steps are orderly,
  the map of what has retired, advanced by what is in the window, is the alias
  table after every recovery.
-/

import CpuSim.SuperScalar.RenameStep

namespace CpuSim.SuperScalar

open CpuSim.Lib.Renaming

namespace SuperScalarCPU

variable {cfg : Config} {s s0 : SuperScalarCPU cfg} {n : Nat}

/-! ## Orderly runs -/

/-- Every step before the `n`-th kept renaming orderly. -/
def OrderlyRun (s0 : SuperScalarCPU cfg) (n : Nat) : Prop :=
  ∀ k < n, (run s0 k).halted = false → OrderlyRename (run s0 k)

instance (s0 : SuperScalarCPU cfg) (n : Nat) : Decidable (OrderlyRun s0 n) := by
  unfold OrderlyRun
  infer_instance

theorem Renaming.boot (cfg : Config) (words : List Word) (data : List (Nat × Word)) :
    Renaming (committedMap []) (boot cfg words data) := by
  rw [boot_frame]
  have hwin : ((construct cfg).loadProgram words).rob.window = [] := ReOrderBuffer.window_reset
  have hlive : ((construct cfg).loadProgram words).iq.live = [] := IssueQueue.live_reset
  refine ⟨rfl, fun _ => ?_, ?_, ?_, ?_, ?_⟩
  · show RegisterAliasTable.resetTable = _
    rw [hwin]
    rfl
  · rw [hwin]
    exact trivial
  · rw [pool, hwin]
    show (image RegisterAliasTable.resetTable + 0 +
      ((PhysicalRegisterFreeList.reset).freeRegisters : Multiset PhysicalRegister)).Nodup
    decide
  · intro pre b post hw
    rw [hwin] at hw
    simp at hw
  · intro q hq
    rw [hlive] at hq
    cases hq

theorem run_renaming {words : List Word} {data : List (Nat × Word)}
    (hord : OrderlyRun (boot cfg words data) n)
    (hrun : (run (boot cfg words data) n).halted = false) :
    Renaming (committedMap (retired (boot cfg words data) n)) (run (boot cfg words data) n) := by
  refine running_induction
    (P := fun k => Renaming (committedMap (retired (boot cfg words data) k))
      (run (boot cfg words data) k)) hrun (Renaming.boot cfg words data) fun k hk hgo hR => ?_
  have h := run_steps hgo
  have ho := hord k hk hgo
  obtain ⟨es, hes, -, hexec⟩ := hR.executed h ho.clean
  rw [retired, h.stepEvents_eq hes, committedMap_append]
  exact hexec.next h (run_streaming cfg words data k) ho.inRange ho.noOrphan

/-! ## The restored map -/

/-- After a recovery the alias table is the map of what has retired and of the window,
    and names no free register. -/
theorem Renaming.recovered {m : Register → PhysicalRegister} (h : Steps s) (hR : Renaming m s)
    (hclean : RecoveryClean s) (hrec : s.memoryDone.branchRecovered = true) {es : List ROBEntry}
    (hes : Commits s s.committed es) :
    s.memoryDone.branchStage.rat.table =
        mapAfter (mapAfter m es) s.memoryDone.branchStage.rob.window ∧
      ∀ r, s.memoryDone.branchStage.rat.table r ∉
        s.memoryDone.branchStage.freeList.freeRegisters := by
  have hb : Renaming (mapAfter m es) s.memoryDone.branchStage :=
    ((hR.commit h.sound hes).memory h.sound_committed h.memoryCase).branch h.sound_memoryDone
      h.branchCase hclean
  have hopen : s.memoryDone.branchStage.haltDispatched = false := by
    rw [branchCase_haltDispatched h.branchCase, hrec]
    exact Bool.and_false _
  have htable := hb.table hopen
  refine ⟨htable, fun r => ?_⟩
  have hnodup : (image (mapAfter (mapAfter m es) s.memoryDone.branchStage.rob.window) +
      (s.memoryDone.branchStage.freeList.freeRegisters : Multiset PhysicalRegister)).Nodup := by
    have hd := hb.distinct
    rw [pool, ← image_mapping_add_olds hb.records] at hd
    refine Multiset.nodup_of_le ?_ hd
    exact add_le_add_left (Multiset.le_add_right _ _) _
  rw [htable]
  exact not_mem_of_nodup_image hnodup r

/-- The branch a recovery serves is the youngest entry it leaves. -/
theorem Steps.recovered_last (h : Steps s) (hrec : s.memoryDone.branchRecovered = true) :
    ∃ i, s.memoryDone.selectBranch = some i ∧
      s.memoryDone.branchStage.rob.window.getLast?.map ROBEntry.robIndex =
        some (s.memoryDone.branchResult i).robIndex := by
  have hcase := h.branchCase
  cases hcase with
  | none hi _ => rw [branchRecovered_none hi] at hrec; cases hrec
  | correct i hi hm _ => rw [branchRecovered_some hi, hm] at hrec; cases hrec
  | mispredicted i hi _ pre b post hb _ hr =>
      refine ⟨i, hi, ?_⟩
      rw [hr.window, List.getLast?_append_of_ne_nil _ (by simp)]
      exact congrArg some hb.robIndex.symm

/-- Recovery along an orderly run: the alias table is the reset mapping updated, in
    program order, by what has retired and by what is left in the window, which ends
    with the branch; and no register it names is free. -/
theorem recovery_restores_rename_map (cfg : Config) (words : List Word)
    (data : List (Nat × Word)) (n : Nat)
    (hrun : (run (boot cfg words data) n).halted = false)
    (hord : OrderlyRun (boot cfg words data) n)
    (hclean : RecoveryClean (run (boot cfg words data) n))
    (hrec : (run (boot cfg words data) n).memoryDone.branchRecovered = true) :
    let s := run (boot cfg words data) n
    let t := s.memoryDone.branchStage
    t.rat.table =
        mapAfter (committedMap (retired (boot cfg words data) n ++ s.stepEvents)) t.rob.window ∧
      (∀ r, t.rat.table r ∉ t.freeList.freeRegisters) ∧
      ∃ i, s.memoryDone.selectBranch = some i ∧
        t.rob.window.getLast?.map ROBEntry.robIndex =
          some (s.memoryDone.branchResult i).robIndex := by
  have h := run_steps hrun
  have hR := run_renaming hord hrun
  obtain ⟨es, hes⟩ := h.commits
  obtain ⟨htable, hfree⟩ := hR.recovered h hclean hrec hes
  refine ⟨?_, hfree, h.recovered_last hrec⟩
  rw [h.stepEvents_eq hes, committedMap_append]
  exact htable

/-- A taken `BEQ` in lane 1, predicted not taken, behind `LI r2, 5`: the map is the one
    behind the branch, and the register of `r2` is not free. -/
theorem recovery_restores_rename_map_lane1 :
    let s := run (boot .default [0x1C800005, 0x2C000008, 0x1C400005, 0x38000000] []) 2
    let t := s.memoryDone.branchStage
    t.rat.table = mapAfter (committedMap
        (retired (boot .default [0x1C800005, 0x2C000008, 0x1C400005, 0x38000000] []) 2 ++
          s.stepEvents)) t.rob.window ∧
      t.rat.table 2 ∉ t.freeList.freeRegisters := by
  have h := recovery_restores_rename_map .default
    [0x1C800005, 0x2C000008, 0x1C400005, 0x38000000] [] 2
    (by decide +kernel) (by decide +kernel) (by decide +kernel) (by decide +kernel)
  exact ⟨h.1, h.2.1 2⟩

/-- A taken `BEQ` in lane 0, predicted not taken, with `LI r1, 5` in lane 1: the snapshot
    already maps `r1` to the register of the squashed `LI`, which is free again. -/
theorem lane0_branch_recovers_mate_mapping :
    let s := run (boot .default [0x2C000008, 0x1C400005, 0x38000000] []) 2
    let t := s.memoryDone.branchStage
    s.halted = false ∧ s.memoryDone.branchRecovered = true ∧
      t.rat.table 1 ≠ mapAfter (committedMap
        (retired (boot .default [0x2C000008, 0x1C400005, 0x38000000] []) 2 ++ s.stepEvents))
        t.rob.window 1 ∧
      t.rat.table 1 ∈ t.freeList.freeRegisters := by
  decide +kernel

end SuperScalarCPU

end CpuSim.SuperScalar
