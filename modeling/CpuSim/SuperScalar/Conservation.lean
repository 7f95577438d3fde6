/-
  CpuSim.SuperScalar.Conservation

  Conservation of physical registers.  The free list, the alias table and the
  replaced registers of the window together hold each register once, as long as
  every register taken at rename ends up in the window and the file has the 64
  registers the free list is reset to.
-/

import CpuSim.SuperScalar.Recovery

namespace CpuSim.SuperScalar

open CpuSim.Lib.Renaming

namespace ReOrderBuffer

variable {Capacity : Nat} {rob : ReOrderBuffer Capacity}

/-- The valid entries, in slot order. -/
def validEntries (rob : ReOrderBuffer Capacity) : List ROBEntry :=
  ((List.range Capacity).filter fun i => (rob.entries i).valid).map rob.entries

/-- The window holds the valid entries, in program order. -/
theorem WF.validEntries_perm (h : rob.WF) : rob.validEntries.Perm rob.window := by
  apply List.Perm.map
  refine (List.perm_ext_iff_of_nodup (List.nodup_range.filter _) h.nodup_liveSlots).mpr ?_
  intro i
  rw [List.mem_filter, List.mem_range]
  constructor
  · rintro ⟨hi, hv⟩
    by_contra hdead
    rw [h.dead i hi hdead] at hv
    cases hv
  · intro hi
    exact ⟨h.lt_of_mem hi, (h.live i hi).1⟩

end ReOrderBuffer

namespace SuperScalarCPU

variable {cfg : Config} {s t s0 : SuperScalarCPU cfg} {m : Register → PhysicalRegister} {n : Nat}

/-! ## The accounts -/

/-- The free list, the 16 mappings of the alias table, and the register each valid
    register-writing entry of the reorder buffer replaced. -/
def registers (s : SuperScalarCPU cfg) : Multiset PhysicalRegister :=
  (s.freeList.freeRegisters : Multiset PhysicalRegister) + image s.rat.table +
    (olds ROBEntry.dst ROBEntry.oldPhysicalRd s.rob.validEntries : Multiset PhysicalRegister)

/-- Every register taken at rename goes to an instruction that is dispatched. -/
def AllPlaced (s : SuperScalarCPU cfg) : Prop :=
  s.renames = true →
    (s.executed.renInput0.valid = true → s.executed.renInput0.registerWrite = true →
      s.RoomForOne) ∧
    (s.executed.renInput1.valid = true → s.executed.renInput1.registerWrite = true →
      s.RoomForOne ∧ s.executed.decodeLane0.halt = false ∧ s.RoomForTwo)

instance (s : SuperScalarCPU cfg) : Decidable s.AllPlaced := by
  unfold AllPlaced
  infer_instance

theorem AllPlaced.noOrphan (h : AllPlaced s) : NoOrphan s := fun hr =>
  ⟨(h hr).1, fun hv hw => ⟨((h hr).2 hv hw).1, fun _ => ((h hr).2 hv hw).2.2⟩⟩

/-- With 64 registers every number in the free list is in range. -/
theorem Steps.registersInRange (h : Steps s) (hprf : cfg.prfCount = 64) :
    RegistersInRange s := by
  intro _ p hp
  rw [hprf]
  exact h.sound_executed.numbered.free p (List.mem_of_mem_take hp)

/-- A window that is a renaming from `m`, with the alias table its last map and every one
    of the 64 registers accounted for. -/
structure Accounted (m : Register → PhysicalRegister) (s : SuperScalarCPU cfg) : Prop where
  renamed : Renaming m s
  table : s.rat.table = mapAfter m s.rob.window
  total : pool m s = Multiset.range 64

namespace Accounted

/-- What is accounted for is what the claimants hold. -/
theorem registers_eq (h : Accounted m s) (hwf : s.rob.WF) : registers s = Multiset.range 64 := by
  have holds : (olds ROBEntry.dst ROBEntry.oldPhysicalRd s.rob.validEntries :
      Multiset PhysicalRegister) = olds ROBEntry.dst ROBEntry.oldPhysicalRd s.rob.window :=
    Multiset.coe_eq_coe.mpr (hwf.validEntries_perm.filterMap _)
  rw [registers, holds, h.table, add_assoc, image_mapping_add_olds h.renamed.records, add_comm]
  exact h.total

theorem commit (h : Accounted m s) (hs : Sound s) {es : List ROBEntry} (hc : Commits s t es) :
    Accounted (mapAfter m es) t := by
  refine ⟨h.renamed.commit hs hc, ?_, (Renaming.pool_commit h.renamed.records hs hc).trans h.total⟩
  rw [hc.table, h.table, hc.window]
  exact mapAfter_append m _ _

theorem finish (h : Accounted m s) (hs : Sound s) {i : Nat} (hi : i < cfg.iqCapacity)
    (hv : (s.iq.entries i).valid = true) (r : Word) : Accounted m (s.finish i r) := by
  refine ⟨h.renamed.finish hs hi hv r, ?_, (Renaming.pool_finish hs i r).trans h.total⟩
  rw [hs.window_finish, Renaming.mapAfter_finishAt]
  exact h.table

theorem congr (h : Accounted m s) (hrob : t.rob = s.rob) (hiq : t.iq = s.iq)
    (hrat : t.rat = s.rat) (hfree : t.freeList = s.freeList)
    (hd : t.haltDispatched = s.haltDispatched) : Accounted m t := by
  refine ⟨h.renamed.congr hrob hiq hrat hfree hd, ?_, ?_⟩
  · rw [hrat, hrob]; exact h.table
  · rw [pool, hrob, hfree]; exact h.total

theorem memory {rs : List MemoryResult} (h : Accounted m s) (hs : Sound s)
    (hc : MemoryCase s t rs) : Accounted m t :=
  hc.preserves h (fun _ r hi _ => h.finish hs hi.1 hi.valid r) fun _ _ _ hu =>
    hu.congr rfl rfl rfl rfl rfl

theorem branch (h : Accounted m s) (hs : Sound s) (hc : BranchCase s t)
    (hclean : ∀ i, s.selectBranch = some i → (s.branchResult i).mispredicted = true →
      Renaming.SnapshotClean s.rob (s.branchResult i).robIndex) : Accounted m t := by
  have hR := h.renamed.branch hs hc hclean
  cases hc with
  | none _ ht => rw [ht]; exact h
  | correct i hi _ ht =>
      obtain ⟨hlt, hlive, -, -, -⟩ := selectBranch_some hi
      rw [ht, hs.resolveBranch_eq hi]
      exact (h.finish hs hlt (IssueQueue.mem_live.mp hlive).2 _).congr rfl rfl rfl rfl rfl
  | mispredicted i _ _ pre b post _ _ hr =>
      -- the recovery re-opens dispatch, so its table is exact
      exact ⟨hR, hR.table (by rw [hr.frame]), (Renaming.pool_recovered hs hr).trans h.total⟩

theorem executeAlu (h : Accounted m s) (hs : Sound s) {i : Nat}
    (hi : s.selectReadyAluEntry = some i) : Accounted m (s.executeAlu i) := by
  obtain ⟨hlt, hlive, -⟩ := selectReadyAluEntry_some hi
  rw [executeAlu_eq]
  exact h.finish hs hlt (IssueQueue.mem_live.mp hlive).2 _

theorem executed (h : Accounted m s) (hs : Steps s) (hclean : RecoveryClean s) :
    ∃ es, Commits s s.committed es ∧ Accounted (mapAfter m es) s.executed := by
  obtain ⟨es, hes⟩ := hs.commits
  have hbranch : Accounted (mapAfter m es) s.memoryDone.branchStage :=
    ((h.commit hs.sound hes).memory hs.sound_committed hs.memoryCase).branch hs.sound_memoryDone
      hs.branchCase hclean
  have hboth : Sound s.executed ∧ Accounted (mapAfter m es) s.executed :=
    aluStage_induction (P := fun t => Sound t ∧ Accounted (mapAfter m es) t)
      ⟨hs.sound_branchDone, hbranch⟩ fun t i ht hi => ⟨ht.1.executeAlu hi, ht.2.executeAlu ht.1 hi⟩
  exact ⟨es, hes, hboth.2⟩

/-- With everything placed, an instruction that is not dispatched took no register. -/
theorem not_placed (h : Steps s) (hs : Streaming s) (hr : s.renames = true)
    (hp : AllPlaced s) (hd : s.dispatched1 = false) :
    s.executed.renameOutputs.2.1.dst = none := by
  rcases (h.orphans hs hr hp.noOrphan).2 hd with hnone | ⟨-, hhalt⟩
  · exact hnone
  · by_contra hne
    obtain ⟨u0, -, h1⟩ := h.lanes hr
    have hw := h1.dst_isSome
    rw [Option.isSome_iff_ne_none.mpr hne] at hw
    obtain ⟨hv, hw⟩ := Bool.and_eq_true_iff.mp hw.symm
    rw [((hp hr).2 hv hw).2.1] at hhalt
    cases hhalt

theorem next (hprf : cfg.prfCount = 64) (h : Steps s) (hs : Streaming s) (hp : AllPlaced s)
    (hA : Accounted m s.executed) : Accounted m s.next := by
  have hrange := h.registersInRange hprf
  have hR := hA.renamed.next h hs hrange hp.noOrphan
  cases hr : s.renames with
  | false =>
      rw [h.next_idle hr]
      exact hA.congr rfl rfl rfl rfl rfl
  | true =>
      obtain ⟨u0, ht⟩ := h.tables hs hr hA.renamed hrange hp.noOrphan
      have hpool := h.pool_next hs hr hp.noOrphan ht
      refine ⟨hR, ?_, ?_⟩
      · rw [(h.next_renamed hr).1, ht.after, ht.between, h.window_next, entered,
          ← List.append_assoc, mapAfter_append m (_ ++ _)]
        cases hd1 : s.dispatched1 with
        | true => exact advance_congr (h.dst_entry1 hd1).symm
        | false => exact advance_none (not_placed h hs hr hp hd1)
      · -- nothing is lost in lane 1
        rw [← hA.total, ← hpool]
        cases hd1 : s.dispatched1 with
        | true => exact (add_zero _).symm
        | false =>
            rw [if_neg (by decide), names_cons_none (not_placed h hs hr hp hd1)]
            exact (add_zero _).symm

end Accounted

/-! ## Runs -/

theorem Accounted.boot (cfg : Config) (words : List Word) (data : List (Nat × Word)) :
    Accounted (committedMap []) (boot cfg words data) := by
  have hR := Renaming.boot cfg words data
  rw [boot_frame] at hR ⊢
  have hwin : ((construct cfg).loadProgram words).rob.window = [] := ReOrderBuffer.window_reset
  refine ⟨hR, hR.table rfl, ?_⟩
  rw [pool, hwin]
  show image RegisterAliasTable.resetTable + 0 +
    ((PhysicalRegisterFreeList.reset).freeRegisters : Multiset PhysicalRegister) = _
  decide

theorem run_accounted (hprf : cfg.prfCount = 64) {words : List Word} {data : List (Nat × Word)}
    (hplaced : ∀ k < n, (run (boot cfg words data) k).halted = false →
      AllPlaced (run (boot cfg words data) k) ∧ RecoveryClean (run (boot cfg words data) k)) :
    Accounted (committedMap (retired (boot cfg words data) n)) (run (boot cfg words data) n) := by
  induction n with
  | zero => exact Accounted.boot cfg words data
  | succ n ih =>
      have hprev := ih fun k hk => hplaced k (Nat.lt_succ_of_lt hk)
      cases hgo : (run (boot cfg words data) n).halted with
      | true =>
          -- a halted machine stands still
          have hnext : run (boot cfg words data) (n + 1) =
              { run (boot cfg words data) n with
                cycles := (run (boot cfg words data) n).cycles + 1 } := by
            rw [run, step, SuperScalarCPU.next, if_pos hgo]
          rw [retired, stepEvents, hgo, if_pos rfl, List.append_nil, hnext]
          exact hprev.congr rfl rfl rfl rfl rfl
      | false =>
          have h := run_steps hgo
          obtain ⟨hp, hclean⟩ := hplaced n (Nat.lt_succ_self n) hgo
          obtain ⟨es, hes, hexec⟩ := hprev.executed h hclean
          rw [retired, h.stepEvents_eq hes, committedMap_append]
          exact hexec.next hprf h (run_streaming cfg words data n) hp

/-- The accounts right after reset: the free list is filled for 64 registers whatever the
    size of the register file. -/
theorem registers_boot (cfg : Config) (words : List Word) (data : List (Nat × Word)) :
    registers (boot cfg words data) = Multiset.range 64 :=
  (Accounted.boot cfg words data).registers_eq (Sound.boot cfg words data).inFlight.rob_wf

/-- Conservation along a run in which every register taken is placed and every recovery
    is clean: each register of the file is held exactly once in every state, if and only
    if the file has 64 registers. -/
theorem registers_conserved_iff (cfg : Config) (words : List Word) (data : List (Nat × Word))
    (n : Nat)
    (hplaced : ∀ k < n, (run (boot cfg words data) k).halted = false →
      AllPlaced (run (boot cfg words data) k) ∧ RecoveryClean (run (boot cfg words data) k)) :
    (∀ k ≤ n, registers (run (boot cfg words data) k) = Multiset.range cfg.prfCount) ↔
      cfg.prfCount = 64 := by
  constructor
  · intro hall
    have h0 := hall 0 (Nat.zero_le n)
    rw [run, registers_boot] at h0
    have hcard := congrArg Multiset.card h0
    rwa [Multiset.card_range, Multiset.card_range, eq_comm] at hcard
  · intro hprf k hk
    rw [hprf]
    have hA := run_accounted (n := k) hprf fun j hj => hplaced j (Nat.lt_of_lt_of_le hj hk)
    exact hA.registers_eq (run_sound_fence cfg words data k).1.inFlight.rob_wf

/-- `LI r1, 5; LI r1, 7` renamed and dispatched together. -/
theorem registers_conserved_two_writers :
    (∀ k ≤ 3, registers (run (boot .default [0x1C400005, 0x1C400007] []) k) =
        Multiset.range Config.default.prfCount) ↔ Config.default.prfCount = 64 :=
  registers_conserved_iff .default [0x1C400005, 0x1C400007] [] 3 (by decide +kernel)

/-- `HALT; LI r1, 5`: the `LI` is renamed and then dropped behind the `HALT`, and its
    register is in no account any more.  With 32 physical registers the accounts are
    wrong from reset on. -/
theorem registers_leak_behind_halt :
    registers (run (boot .default [0x38000000, 0x1C400005] []) 2) ≠
        Multiset.range Config.default.prfCount ∧
      registers (boot { prfCount := 32 } [] []) ≠ Multiset.range 32 := by
  decide +kernel

end SuperScalarCPU

end CpuSim.SuperScalar
