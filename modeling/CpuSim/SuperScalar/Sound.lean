/-
  CpuSim.SuperScalar.Sound

  The structural invariant of every reachable state.  Reorder buffer and issue
  queue agree (`InFlight`), every branch in flight carries a snapshot of the
  alias table, nothing that completes at dispatch sits in the issue queue, and
  every register number in use is one the free list was filled with.  None of it
  depends on what is executed, so it holds without any condition on the run.
-/

import CpuSim.SuperScalar.RenameDispatch

namespace CpuSim.SuperScalar

variable {cfg : Config}

/-! ## Register numbers in use -/

/-- Every register number is one of the 64 the reset state mentions. -/
structure Numbered {n : Nat} (rob : ReOrderBuffer n) (rat : RegisterAliasTable)
    (freeList : PhysicalRegisterFreeList) : Prop where
  free : ∀ p ∈ freeList.freeRegisters, p < 64
  table : ∀ r, rat.table r < 64
  entry : ∀ e ∈ rob.window,
    (e.registerWrite = true → e.physicalRd < 64 ∧ e.oldPhysicalRd < 64) ∧
      ∀ r, e.checkpoint.mappings r < 64

/-- The same of a renamed bundle. -/
def RenameBundle.Numbered (b : RenameBundle) : Prop :=
  b.registerWrite = true → b.physicalRd < 64 ∧ b.oldPhysicalRd < 64

theorem Numbered.invalid_not_free {n : Nat} {rob : ReOrderBuffer n} {rat : RegisterAliasTable}
    {freeList : PhysicalRegisterFreeList} (h : Numbered rob rat freeList) :
    INVALID_REGISTER ∉ freeList.freeRegisters := fun hmem => by
  exact absurd (h.free _ hmem) (by decide)

namespace SuperScalarCPU

variable {s t : SuperScalarCPU cfg}

/-- What holds in every reachable state, between any two stages. -/
structure Sound (s : SuperScalarCPU cfg) : Prop where
  inFlight : InFlight s.rob s.iq
  snapshots : Snapshots s.rob
  queued : ∀ q ∈ s.iq.live, q.opcode ≠ .NOP ∧ q.opcode ≠ .HALT
  numbered : Numbered s.rob s.rat s.freeList

namespace Sound

/-- `Sound` looks at the reorder buffer, the issue queue, the alias table and the
    free list only. -/
theorem congr (h : Sound s) (hrob : t.rob = s.rob) (hiq : t.iq = s.iq)
    (hrat : t.rat.table = s.rat.table) (hfree : t.freeList = s.freeList) : Sound t := by
  refine ⟨by rw [hrob, hiq]; exact h.inFlight, by rw [hrob]; exact h.snapshots,
    by rw [hiq]; exact h.queued, ⟨?_, ?_, ?_⟩⟩
  · rw [hfree]
    exact h.numbered.free
  · rw [hrat]
    exact h.numbered.table
  · rw [hrob]
    exact h.numbered.entry

/-! ## Commit -/

theorem retireAll_freeList_lt {u : CommitUnit cfg} {es : List ROBEntry}
    (hf : ∀ p ∈ u.freeList.freeRegisters, p < 64)
    (he : ∀ e ∈ es, e.registerWrite = true → e.oldPhysicalRd < 64) :
    ∀ p ∈ (u.retireAll es).freeList.freeRegisters, p < 64 := by
  induction es generalizing u with
  | nil => exact hf
  | cons e es ih =>
      rw [CommitUnit.retireAll_cons]
      refine ih ?_ fun x hx => he x (List.mem_cons_of_mem _ hx)
      rw [CommitUnit.retire_freeList]
      split
      · rename_i hw
        intro p hp
        rw [PhysicalRegisterFreeList.releaseBack] at hp
        split at hp
        · exact hf p hp
        · rcases List.mem_append.mp hp with hp | hp
          · exact hf p hp
          · rw [List.mem_singleton.mp hp]
            exact he e (by simp) hw
      · exact hf

theorem commit (h : Sound s) {es : List ROBEntry} (hc : Commits s t es) : Sound t := by
  have hsub : ∀ e ∈ t.rob.window, e ∈ s.rob.window := fun e he => by
    rw [hc.window]
    exact List.mem_append_right _ he
  refine ⟨?_, fun e he => h.snapshots e (hsub e he), ?_, ?_, ?_, ?_⟩
  · have hin := h.inFlight
    -- what retires was complete, so the queue holds nothing for it
    have hback : ∀ q ∈ s.iq.live, ∃ e ∈ t.rob.window, e.completed = false ∧ q.Matches e := by
      intro q hq
      obtain ⟨e, he, hcomp, hm⟩ := hin.backed q hq
      rw [hc.window] at he
      rcases List.mem_append.mp he with he | he
      · rw [hc.completed e he] at hcomp
        cases hcomp
      · exact ⟨e, he, hcomp, hm⟩
    rw [hc.iq]
    exact ⟨hc.wf, hin.iq_wf, hin.unique, hback, fun e he => hin.queued e (hsub e he),
      fun e he => hin.entryDecoded e (hsub e he), hin.queueDecoded, hin.unissued⟩
  · rw [hc.iq]
    exact h.queued
  · rw [hc.freeList]
    refine retireAll_freeList_lt h.numbered.free fun e he hw => ?_
    have hmem : e ∈ s.rob.window := by
      rw [hc.window]
      exact List.mem_append_left _ he
    exact ((h.numbered.entry e hmem).1 hw).2
  · rw [hc.table]
    exact h.numbered.table
  · exact fun e he => h.numbered.entry e (hsub e he)

/-! ## Execution -/

/-- Entries left in the queue after slot `i` executed. -/
theorem live_finish (h : Sound s) {i : Nat} (hi : i < cfg.iqCapacity)
    (hv : (s.iq.entries i).valid = true) (r : Word) {q : IssueQueueEntry}
    (hq : q ∈ (s.finish i r).iq.live) :
    ∃ q0 ∈ s.iq.live, q0.robIndex ≠ (s.iq.entries i).robIndex ∧
      q = if (s.iq.entries i).registerWrite then q0.wakeup (s.iq.entries i).physicalRd r
          else q0 := by
  obtain ⟨-, hperm⟩ := h.inFlight.iq_wf.remove hi hv
  have hnodup := (hperm.map IssueQueueEntry.robIndex).nodup_iff.mp h.inFlight.unique
  rw [List.map_cons, List.nodup_cons] at hnodup
  have hsub : ∀ q0 ∈ (s.iq.remove i).live,
      q0 ∈ s.iq.live ∧ q0.robIndex ≠ (s.iq.entries i).robIndex := fun q0 hq0 =>
    ⟨hperm.mem_iff.mpr (List.mem_cons_of_mem _ hq0),
      fun heq => hnodup.1 (heq ▸ List.mem_map_of_mem hq0)⟩
  simp only [SuperScalarCPU.finish] at hq
  split at hq
  · rename_i hw
    rw [IssueQueue.live_wakeup] at hq
    obtain ⟨q0, hq0, rfl⟩ := List.mem_map.mp hq
    exact ⟨q0, (hsub q0 hq0).1, (hsub q0 hq0).2, by rw [if_pos hw]⟩
  · rename_i hw
    exact ⟨q, (hsub q hq).1, (hsub q hq).2, by rw [if_neg hw]⟩

theorem window_finish (h : Sound s) (i : Nat) (r : Word) :
    (s.finish i r).rob.window =
      s.rob.window.map (ReOrderBuffer.finishAt (s.iq.entries i).robIndex r) :=
  (h.inFlight.rob_wf.complete _ r).2

/-- A fact about entries that `finish` does not touch carries over. -/
theorem forall_finish {P : ROBEntry → Prop} (h : Sound s) (i : Nat) (r : Word)
    (hP : ∀ e ∈ s.rob.window, P e) (hf : ∀ e, P e → P (e.finish r)) :
    ∀ e ∈ (s.finish i r).rob.window, P e := by
  rw [h.window_finish]
  intro e he
  obtain ⟨e0, he0, rfl⟩ := List.mem_map.mp he
  rw [ReOrderBuffer.finishAt]
  split
  · exact hf e0 (hP e0 he0)
  · exact hP e0 he0

theorem finish (h : Sound s) {i : Nat} (hi : i < cfg.iqCapacity)
    (hv : (s.iq.entries i).valid = true) (r : Word) : Sound (s.finish i r) := by
  refine ⟨InFlight.finish h.inFlight hi hv r, ?_, ?_, h.numbered.free, h.numbered.table, ?_⟩
  · exact h.forall_finish i r h.snapshots fun e he => he
  · intro q hq
    obtain ⟨q0, hq0, -, rfl⟩ := h.live_finish hi hv r hq
    have hop := h.queued q0 hq0
    split
    · rwa [q0.wakeup_eq _ _ (IssueQueue.mem_live.mp hq0).2]
    · exact hop
  · exact h.forall_finish i r h.numbered.entry fun e he => he

theorem memory {rs : List MemoryResult} (h : Sound s) (hc : MemoryCase s t rs) : Sound t :=
  hc.preserves h (fun _ r hi _ => h.finish hi.1 hi.valid r) fun _ _ _ hu =>
    hu.congr rfl rfl rfl rfl

/-- A branch resolved as predicted is finished, counted and learned. -/
theorem resolveBranch_eq (h : Sound s) {i : Nat} (hi : s.selectBranch = some i) :
    s.resolveBranch i =
      { s.finish i (s.branchResult i).targetPc with
        branchesExecuted := s.branchesExecuted + 1,
        predictor :=
          s.predictor.update (s.branchResult i).pc (s.branchResult i).taken
            (s.branchResult i).targetPc } := by
  obtain ⟨-, hlive, hflow, -, -⟩ := selectBranch_some hi
  exact SuperScalarCPU.resolveBranch_eq (InFlight.branch_registerWrite h.inFlight hlive hflow)

theorem releaseSquashed_lt {f : PhysicalRegisterFreeList} {es : List ROBEntry}
    (hf : ∀ p ∈ f.freeRegisters, p < 64)
    (he : ∀ e ∈ es, e.registerWrite = true → e.physicalRd < 64) :
    ∀ p ∈ (releaseSquashed f es).freeRegisters, p < 64 := by
  induction es generalizing f with
  | nil => exact hf
  | cons e es ih =>
      rw [releaseSquashed, List.foldl_cons]
      refine ih ?_ fun x hx => he x (List.mem_cons_of_mem _ hx)
      cases hw : e.registerWrite with
      | false => simpa using hf
      | true =>
          intro p hp
          simp only [Bool.not_true, Bool.false_eq_true, if_false,
            PhysicalRegisterFreeList.release] at hp
          split at hp
          · exact hf p hp
          · rcases List.mem_cons.mp hp with rfl | hp
            · exact he e (by simp) hw
            · exact hf p hp

theorem branch (h : Sound s) (hc : BranchCase s t) : Sound t := by
  cases hc with
  | none _ ht => rw [ht]; exact h
  | correct i hi _ ht =>
      obtain ⟨hlt, hlive, -, -, -⟩ := selectBranch_some hi
      rw [ht, h.resolveBranch_eq hi]
      exact (h.finish hlt (IssueQueue.mem_live.mp hlive).2 _).congr rfl rfl rfl rfl
  | mispredicted i hi _ pre b post hmatch _ hr =>
      obtain ⟨hlt, hlive, hflow, -, -⟩ := selectBranch_some hi
      have hv := (IssueQueue.mem_live.mp hlive).2
      have hw := InFlight.branch_registerWrite h.inFlight hlive hflow
      -- recovery finishes the branch and squashes the rest
      have hfin := h.finish hlt hv (s.branchResult i).targetPc
      have hwin := (window_complete_split h.inFlight.rob_wf hr.split
        (s.branchResult i).targetPc).2
      rw [← hmatch.robIndex] at hwin
      have hiq : (s.finish i (s.branchResult i).targetPc).iq = s.iq.remove i := by
        simp [SuperScalarCPU.finish, hw]
      have hin := hfin.inFlight.squash hwin hr.wf hr.window
      rw [hiq] at hin
      have hsub : ∀ e ∈ t.rob.window,
          e ∈ (s.finish i (s.branchResult i).targetPc).rob.window := fun e he => by
        rw [hr.window] at he
        show e ∈ (s.rob.complete (s.iq.entries i).robIndex (s.branchResult i).targetPc).window
        rw [hwin]
        rcases List.mem_append.mp he with he | he
        · exact List.mem_append_left _ he
        · rw [List.mem_singleton.mp he]
          simp
      have hb : b ∈ s.rob.window := by
        rw [hr.split]
        simp
      refine ⟨?_, fun e he => hfin.snapshots e (hsub e he), ?_, ?_, ?_,
        fun e he => hfin.numbered.entry e (hsub e he)⟩
      · rw [hr.frame]
        exact hin
      · rw [hr.frame]
        intro q hq
        dsimp only at hq
        rw [IssueQueue.live_squash] at hq
        refine hfin.queued q ?_
        rw [hiq]
        exact (List.mem_filter.mp hq).1
      · -- the registers given back were taken by entries of the window
        rw [hr.frame]
        refine releaseSquashed_lt h.numbered.free fun e he hw => ?_
        have hmem : e ∈ s.rob.window := by
          rw [hr.split]
          simp [he]
        exact ((h.numbered.entry e hmem).1 hw).1
      · rw [hr.frame]
        exact (h.numbered.entry b hb).2

theorem executeAlu (h : Sound s) {i : Nat} (hi : s.selectReadyAluEntry = some i) :
    Sound (s.executeAlu i) := by
  obtain ⟨hlt, hlive, -⟩ := selectReadyAluEntry_some hi
  rw [executeAlu_eq]
  exact h.finish hlt (IssueQueue.mem_live.mp hlive).2 _

/-! ## Rename and dispatch -/

/-- What rename hands to dispatch. -/
def Renamed (b : RenameBundle) : Prop := b.valid = true → b.FromDecode ∧ b.Numbered

theorem renames_numbered {n : Nat} {u u' : RenameUnit n} {input : DecodeBundle}
    {out : RenameBundle} (h : RenameUnit.Renames u input out u')
    (hf : ∀ p ∈ u.freeList.freeRegisters, p < 64) (ht : ∀ r, u.rat.table r < 64) :
    out.Numbered ∧ (∀ p ∈ u'.freeList.freeRegisters, p < 64) ∧ ∀ r, u'.rat.table r < 64 := by
  cases h with
  | bubble _ ho hu => rw [ho, hu]; exact ⟨fun h => (by cases h), hf, ht⟩
  | reader _ hw ho hu =>
      rw [ho, hu]
      refine ⟨fun h => ?_, hf, ht⟩
      rw [show input.registerWrite = true from h] at hw
      cases hw
  | writer p rest _ _ hfree ho hu =>
      -- the register handed out is from the free list, and the map takes it over
      have hp : p < 64 := hf p (by rw [hfree]; simp)
      rw [ho, hu]
      refine ⟨fun _ => ⟨hp, ht _⟩, fun q hq => hf q ?_, fun r => ?_⟩
      · rw [hfree]
        exact List.mem_cons_of_mem _ hq
      · simp only [RegisterAliasTable.set]
        split
        · exact ht r
        · by_cases hr : r = input.rd
          · simpa [hr] using hp
          · simpa [hr] using ht r

/-- Rename keeps the invariant and produces decoded, numbered bundles. -/
theorem rename (h : Sound s)
    (hcan : RenameUnit.canRename s.freeList s.renInput0 s.renInput1 = true) :
    Sound s.afterRename ∧ Renamed s.renameOutputs.1 ∧ Renamed s.renameOutputs.2.1 := by
  obtain ⟨u0, h0, h1⟩ := RenameUnit.rename_renames
    (u := { rat := s.rat, freeList := s.freeList, prf := s.prf }) hcan
    h.numbered.invalid_not_free
  obtain ⟨n0, f0, t0⟩ := renames_numbered h0 h.numbered.free h.numbered.table
  obtain ⟨n1, f1, t1⟩ := renames_numbered h1 f0 t0
  refine ⟨⟨h.inFlight, h.snapshots, h.queued, f1, t1, h.numbered.entry⟩,
    fun hv => ⟨h0.fromDecode (fun hin => ?_) hv, n0⟩,
    fun hv => ⟨h1.fromDecode (fun hin => ?_) hv, n1⟩⟩
  · exact ⟨_, _, (s.renInput0_decoded hin).2⟩
  · exact ⟨_, _, (s.renInput1_decoded hin).2⟩

theorem dispatchLane (h : Sound s) {ren : RenameBundle} (hb : Renamed ren) :
    Sound (s.dispatchLane ren) := by
  have hcase := dispatchLane_cases h.inFlight fun hv => (hb hv).1
  generalize s.dispatchLane ren = t at hcase
  cases hcase with
  | bubble _ ht => rw [ht]; exact h
  | refused _ _ ht => rw [ht]; exact h.congr rfl rfl rfl rfl
  | entered idx rob1 iq1 _ _ he =>
      obtain ⟨hdec, hnum⟩ := hb he.valid
      obtain ⟨-, hin, hwin, hperm⟩ := he.spec h.inFlight hdec
      -- an entry of the next window is an old one or the new one
      have hmem : ∀ {P : ROBEntry → Prop}, (∀ e ∈ s.rob.window, P e) → P (s.laneEntry ren) →
          ∀ e ∈ t.rob.window, P e := fun hP hnew e he => by
        rw [hwin] at he
        rcases List.mem_append.mp he with he | he
        · exact hP e he
        · rw [List.mem_singleton.mp he]
          exact hnew
      refine ⟨hin, hmem h.snapshots ?_, ?_, ?_, ?_, hmem h.numbered.entry ?_⟩
      · rw [laneEntry_eq]
        intro hbr
        have hbr' : (ren.controlFlow == ControlFlow.BRANCH) = true := hbr
        simp [hbr']
      · intro q hq
        rw [hperm.mem_iff] at hq
        split at hq
        · exact h.queued q hq
        · rename_i hc
          rcases List.mem_cons.mp hq with rfl | hq
          · -- what completes at dispatch is not queued
            have hop : ren.opcode = (decodeWord ren.pc ren.instruction).opcode :=
              congrArg DecodeBundle.opcode hdec
            have hh : ren.halt = (ren.opcode == .HALT) := by
              rw [hop, ← decodeWord_halt]
              exact congrArg DecodeBundle.halt hdec
            rw [RenameBundle.completesAtOnce, hh] at hc
            show ren.opcode ≠ .NOP ∧ ren.opcode ≠ .HALT
            cases ho : ren.opcode <;> simp [ho] at hc ⊢
          · exact h.queued q hq
      · rw [he.frame]
        exact h.numbered.free
      · rw [he.frame]
        exact h.numbered.table
      · rw [laneEntry_eq]
        refine ⟨hnum, fun r => ?_⟩
        dsimp only
        split
        · exact h.numbered.table r
        · exact Nat.zero_lt_succ _

theorem dispatchStage (h : Sound s) (recovered : Bool) : Sound (s.dispatchStage recovered) := by
  rw [SuperScalarCPU.dispatchStage]
  split
  · have hp : Sound s.predictRedirect := by
      rw [s.predictRedirect_frame.1]
      exact h.congr rfl rfl rfl rfl
    dsimp only
    split
    · rename_i hcan
      obtain ⟨h0, hr0, hr1⟩ := hp.rename hcan
      have h1 := h0.dispatchLane hr0
      rw [dispatchLanes]
      split
      · exact h1.dispatchLane hr1
      · exact h1
    · exact hp
  · exact h

end Sound

/-! ## The whole step and the whole run -/

/-- The stages of a step from a state that has not halted keep `Sound`. -/
theorem Sound.committed (h : Sound s) (hh : s.commitHalted = false) : Sound s.committed := by
  obtain ⟨es, hes⟩ := commitStage_spec (s := { s with cycles := s.cycles + 1 })
    h.inFlight.rob_wf hh
  exact (h.congr rfl rfl rfl rfl : Sound { s with cycles := s.cycles + 1 }).commit hes

theorem Sound.memoryDone (h : Sound s) (hh : s.commitHalted = false) : Sound s.memoryDone :=
  (h.committed hh).memory (memoryStage_cases (h.committed hh).inFlight)

theorem Sound.branchDone (h : Sound s) (hh : s.commitHalted = false) :
    Sound s.memoryDone.branchStage :=
  (h.memoryDone hh).branch
    (branchStage_cases (h.memoryDone hh).inFlight (h.memoryDone hh).snapshots)

theorem Sound.executed (h : Sound s) (hh : s.commitHalted = false) : Sound s.executed :=
  aluStage_induction (h.branchDone hh) fun _ _ ht hi => ht.executeAlu hi

theorem Sound.dispatched (h : Sound s) (hh : s.commitHalted = false) : Sound s.dispatched :=
  (h.executed hh).dispatchStage _

/-- A booted CPU is the reset one with a program and data memory. -/
theorem boot_frame (cfg : Config) (words : List Word) (data : List (Nat × Word)) :
    boot cfg words data =
      { (construct cfg).loadProgram words with
        dataMemory := (boot cfg words data).dataMemory } := by
  rw [boot]
  generalize (construct cfg).loadProgram words = s
  induction data generalizing s with
  | nil => rfl
  | cons d data ih =>
      rw [List.foldl_cons, ih (s.setDataWord d.1 d.2)]
      rfl

theorem Sound.boot (cfg : Config) (words : List Word) (data : List (Nat × Word)) :
    Sound (boot cfg words data) := by
  rw [boot_frame]
  refine ⟨InFlight.reset cfg.robCapacity_pos, ?_, ?_, ?_, ?_, ?_⟩
  · intro e he
    rw [show (((construct cfg).loadProgram words).rob : ReOrderBuffer cfg.robCapacity) = .reset
      from rfl, ReOrderBuffer.window_reset] at he
    cases he
  · intro q hq
    rw [show (((construct cfg).loadProgram words).iq : IssueQueue cfg.iqCapacity) = .reset
      from rfl, IssueQueue.live_reset] at hq
    cases hq
  · intro p hp
    have hreset : ((construct cfg).loadProgram words).freeList = .reset := rfl
    rw [hreset] at hp
    obtain ⟨q, hq, rfl⟩ := List.mem_map.mp hp
    have hlt : q < 64 := (List.mem_range'_1.mp hq).2
    exact Nat.lt_of_le_of_lt (Nat.mod_le q 256) hlt
  · intro r
    show r.val < 64
    omega
  · intro e he
    rw [show (((construct cfg).loadProgram words).rob : ReOrderBuffer cfg.robCapacity) = .reset
      from rfl, ReOrderBuffer.window_reset] at he
    cases he

theorem Sound.fetch (h : Sound s) : Sound s.fetchStage := h.congr rfl rfl rfl rfl

/-- One step from a state whose halt flags agree. -/
theorem Sound.next (h : Sound s) (hh : s.commitHalted = s.halted) : Sound s.next := by
  rw [SuperScalarCPU.next]
  split
  · exact h.congr rfl rfl rfl rfl
  · rename_i hn
    exact (h.dispatched (by rw [hh]; exact eq_false_of_ne_true hn)).fetch

/-! ## What the backend leaves alone -/

theorem memoryCase_frame {rs : List MemoryResult} (hc : MemoryCase s t rs) :
    t.frontend = s.frontend ∧ t.haltDispatched = s.haltDispatched ∧ t.predictor = s.predictor ∧
      t.imem = s.imem ∧ t.rat = s.rat ∧ t.freeList = s.freeList ∧ t.arf = s.arf ∧
      t.halted = s.halted ∧ t.commitHalted = s.commitHalted ∧ t.dataMemory = s.dataMemory := by
  cases hc with
  | idle q _ ht => rw [ht]; exact ⟨rfl, rfl, rfl, rfl, rfl, rfl, rfl, rfl, rfl, rfl⟩
  | load q i _ _ _ _ ht => rw [ht]; exact ⟨rfl, rfl, rfl, rfl, rfl, rfl, rfl, rfl, rfl, rfl⟩
  | store q i _ _ _ _ ht => rw [ht]; exact ⟨rfl, rfl, rfl, rfl, rfl, rfl, rfl, rfl, rfl, rfl⟩

theorem branchCase_frame (hc : BranchCase s t) :
    t =
      { s with
        rob := t.rob, iq := t.iq, rat := t.rat, freeList := t.freeList,
        predictor := t.predictor, frontend := t.frontend, haltDispatched := t.haltDispatched,
        branchesExecuted := t.branchesExecuted,
        branchMispredictions := t.branchMispredictions } := by
  cases hc with
  | none _ ht => rw [ht]
  | correct i hi _ ht => rw [ht, resolveBranch]
  | mispredicted i _ _ pre b post _ _ hr => rw [hr.frame]

theorem aluStage_frame (s : SuperScalarCPU cfg) :
    s.aluStage =
      { s with rob := s.aluStage.rob, iq := s.aluStage.iq, prf := s.aluStage.prf } :=
  aluStage_induction (P := fun t => t = { s with rob := t.rob, iq := t.iq, prf := t.prf }) rfl
    fun t i ht _ => by
      rw [executeAlu_eq, SuperScalarCPU.finish]
      conv_lhs => rw [ht]

end SuperScalarCPU

end CpuSim.SuperScalar
