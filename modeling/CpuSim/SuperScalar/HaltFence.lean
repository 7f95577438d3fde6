/-
  CpuSim.SuperScalar.HaltFence

  `halt_dispatched_` fences the machine: it is raised exactly while a `HALT` is
  in flight, that `HALT` is completed and the youngest entry of the reorder
  buffer, and nothing enters behind it.  `Fence` is kept by every stage; the
  point of the branch case is that no branch can be younger than a `HALT`, so a
  recovery always squashes it.
-/

import CpuSim.SuperScalar.Sound

namespace CpuSim.SuperScalar

namespace SuperScalarCPU

variable {cfg : Config} {s t : SuperScalarCPU cfg}

/-- The state of the fence, between any two stages. -/
structure Fence (s : SuperScalarCPU cfg) : Prop where
  flag : s.haltDispatched = true ↔ (∃ e ∈ s.rob.window, e.halt = true) ∨ s.halted = true
  completed : ∀ e ∈ s.rob.window, e.halt = true → e.completed = true
  last : ∀ pre e post, s.rob.window = pre ++ e :: post → e.halt = true → post = []
  drained : s.halted = true → s.rob.window = []
  agree : s.commitHalted = s.halted

namespace Fence

theorem congr (h : Fence s) (hrob : t.rob = s.rob) (hd : t.haltDispatched = s.haltDispatched)
    (hh : t.halted = s.halted) (hc : t.commitHalted = s.commitHalted) : Fence t := by
  refine ⟨?_, ?_, ?_, ?_, ?_⟩
  · rw [hd, hrob, hh]
    exact h.flag
  · rw [hrob]
    exact h.completed
  · rw [hrob]
    exact h.last
  · rw [hrob, hh]
    exact h.drained
  · rw [hc, hh]
    exact h.agree

/-- With the fence down no entry of the window is a `HALT`. -/
theorem no_halt (h : Fence s) (hd : s.haltDispatched = false) {e : ROBEntry}
    (he : e ∈ s.rob.window) : e.halt = false := by
  by_contra hh
  have := h.flag.mpr (Or.inl ⟨e, he, eq_true_of_ne_false hh⟩)
  rw [hd] at this
  cases this

/-- With the fence down the machine runs. -/
theorem running (h : Fence s) (hd : s.haltDispatched = false) : s.halted = false := by
  by_contra hh
  have := h.flag.mpr (Or.inr (eq_true_of_ne_false hh))
  rw [hd] at this
  cases this

/-- Without a `HALT` in flight the fence is down. -/
theorem of_no_halt (hd : t.haltDispatched = false) (hh : t.halted = false)
    (hc : t.commitHalted = false) (hw : ∀ e ∈ t.rob.window, e.halt = false) : Fence t := by
  refine ⟨⟨fun h => ?_, fun h => ?_⟩, fun e he hhalt => ?_, fun pre e post hsplit hhalt => ?_,
    fun h => ?_, by rw [hc, hh]⟩
  · rw [hd] at h
    cases h
  · rcases h with ⟨e, he, hhalt⟩ | h
    · rw [hw e he] at hhalt
      cases hhalt
    · rw [hh] at h
      cases h
  · rw [hw e he] at hhalt
    cases hhalt
  · have he : e ∈ t.rob.window := by
      rw [hsplit]
      simp
    rw [hw e he] at hhalt
    cases hhalt
  · rw [hh] at h
    cases h

/-! ## Commit -/

/-- If a `HALT` retires, the window is empty afterwards. -/
theorem window_of_retired_halt (h : Fence s) {es : List ROBEntry} (hc : Commits s t es)
    {e : ROBEntry} (he : e ∈ es) (hhalt : e.halt = true) : t.rob.window = [] := by
  obtain ⟨pre, post, hsplit⟩ := List.append_of_mem he
  have hpost := h.last pre e (post ++ t.rob.window)
    (by rw [hc.window, hsplit, List.append_assoc, List.cons_append]) hhalt
  exact (List.append_eq_nil_iff.mp hpost).2

theorem commit (h : Fence s) (hs : s.halted = false) {es : List ROBEntry}
    (hc : Commits s t es) : Fence t := by
  have hsub : ∀ e ∈ t.rob.window, e ∈ s.rob.window := fun e he => by
    rw [hc.window]
    exact List.mem_append_right _ he
  have hhalted : t.halted = es.any (·.halt) := by rw [hc.halted, hs, Bool.false_or]
  refine ⟨?_, fun e he => h.completed e (hsub e he), ?_, ?_, by rw [hc.commitHalted, hhalted]⟩
  · -- a `HALT` of the window stays in it or retires now
    rw [hc.haltDispatched, h.flag, hs, hhalted, List.any_eq_true, hc.window]
    constructor
    · rintro (⟨e, he, hhalt⟩ | hno)
      · rcases List.mem_append.mp he with he | he
        · exact Or.inr ⟨e, he, hhalt⟩
        · exact Or.inl ⟨e, he, hhalt⟩
      · cases hno
    · rintro (⟨e, he, hhalt⟩ | ⟨e, he, hhalt⟩)
      · exact Or.inl ⟨e, List.mem_append_right _ he, hhalt⟩
      · exact Or.inl ⟨e, List.mem_append_left _ he, hhalt⟩
  · intro pre e post hsplit hhalt
    exact h.last (es ++ pre) e post (by rw [hc.window, hsplit, List.append_assoc]) hhalt
  · intro hh
    rw [hhalted, List.any_eq_true] at hh
    obtain ⟨e, he, hhalt⟩ := hh
    exact h.window_of_retired_halt hc he hhalt

/-! ## Execution -/

theorem finish (h : Fence s) (hs : Sound s) (i : Nat) (r : Word) : Fence (s.finish i r) := by
  have hwin := hs.window_finish i r
  -- finishing an entry does not touch its halt bit
  have hhalt : ∀ e : ROBEntry,
      (ReOrderBuffer.finishAt (s.iq.entries i).robIndex r e).halt = e.halt := fun e => by
    rw [ReOrderBuffer.finishAt]
    split <;> rfl
  refine ⟨?_, hs.forall_finish i r h.completed fun e _ _ => rfl, ?_, ?_, h.agree⟩
  · show s.haltDispatched = true ↔ _
    rw [h.flag, hwin]
    constructor
    · rintro (⟨e, he, hh⟩ | hh)
      · exact Or.inl ⟨_, List.mem_map_of_mem he, by rw [hhalt, hh]⟩
      · exact Or.inr hh
    · rintro (⟨e, he, hh⟩ | hh)
      · obtain ⟨e0, he0, rfl⟩ := List.mem_map.mp he
        rw [hhalt] at hh
        exact Or.inl ⟨e0, he0, hh⟩
      · exact Or.inr hh
  · intro pre e post hsplit hh
    rw [hwin] at hsplit
    obtain ⟨pre0, rest, hw0, -, hrest⟩ := List.map_eq_append_iff.mp hsplit
    obtain ⟨e0, post0, hrest0, rfl, rfl⟩ := List.map_eq_cons_iff.mp hrest
    rw [hhalt] at hh
    rw [h.last pre0 e0 post0 (by rw [hw0, hrest0]) hh]
    rfl
  · intro hh
    rw [hwin, h.drained hh]
    rfl

theorem memory {rs : List MemoryResult} (h : Fence s) (hs : Sound s)
    (hc : MemoryCase s t rs) : Fence t :=
  hc.preserves h (fun i r _ _ => h.finish hs i r) fun _ _ _ hu => hu.congr rfl rfl rfl rfl

/-- No `HALT` survives a recovery: one in front of the branch would have been the
    youngest entry, and the branch itself is not completed. -/
theorem no_halt_recovered (h : Fence s) {i : Nat} {pre post : List ROBEntry} {b : ROBEntry}
    (hb : b.completed = false) (hr : Recovers s t i pre b post) :
    ∀ e ∈ t.rob.window, e.halt = false := by
  rw [hr.window]
  intro e he
  by_contra hh
  have hhalt := eq_true_of_ne_false hh
  rcases List.mem_append.mp he with he | he
  · obtain ⟨pre1, post1, hsplit⟩ := List.append_of_mem he
    have := h.last pre1 e (post1 ++ b :: post)
      (by rw [hr.split, hsplit, List.append_assoc, List.cons_append]) hhalt
    simp at this
  · rw [List.mem_singleton.mp he] at hhalt
    have := h.completed b (by rw [hr.split]; simp) hhalt
    rw [hb] at this
    cases this

theorem branch (h : Fence s) (hs : Sound s) (hc : BranchCase s t) : Fence t := by
  cases hc with
  | none _ ht => rw [ht]; exact h
  | correct i hi _ ht =>
      rw [ht, hs.resolveBranch_eq hi]
      exact (h.finish hs i _).congr rfl rfl rfl rfl
  | mispredicted i hi _ pre b post _ hb hr =>
      have hrun : s.halted = false := by
        by_contra hh
        have := h.drained (eq_true_of_ne_false hh)
        rw [hr.split] at this
        simp at this
      refine of_no_halt (by rw [hr.frame]) ?_ ?_ (h.no_halt_recovered hb hr)
      · rw [hr.frame]
        exact hrun
      · rw [hr.frame]
        exact h.agree.trans hrun

theorem executeAlu (h : Fence s) (hs : Sound s) (i : Nat) : Fence (s.executeAlu i) := by
  rw [executeAlu_eq]
  exact h.finish hs i _

/-! ## Dispatch -/

theorem dispatchLane (h : Fence s) (hs : Sound s) (hd : s.haltDispatched = false)
    {ren : RenameBundle} (hb : Sound.Renamed ren) : Fence (s.dispatchLane ren) := by
  have hcase := dispatchLane_cases hs.inFlight fun hv => (hb hv).1
  generalize s.dispatchLane ren = t at hcase
  cases hcase with
  | bubble _ ht => rw [ht]; exact h
  | refused _ _ ht => rw [ht]; exact h.congr rfl rfl rfl rfl
  | entered idx rob1 iq1 _ _ he =>
      obtain ⟨-, -, hwin, -⟩ := he.spec hs.inFlight (hb he.valid).1
      have hold : ∀ e ∈ s.rob.window, e.halt = false := fun e => h.no_halt hd
      have hrun := h.running hd
      have hnew : (s.laneEntry ren).halt = ren.halt := by rw [laneEntry_eq]
      have hdone : (s.laneEntry ren).completed = ren.completesAtOnce := by rw [laneEntry_eq]
      have hflag : t.haltDispatched = ren.halt := by
        rw [he.frame]
        simp [hd]
      have hhalted : t.halted = false := by
        rw [he.frame]
        exact hrun
      -- the fence was down, so the only `HALT` there can be is the new entry
      have hmem : ∀ e ∈ t.rob.window, e.halt = true → e = s.laneEntry ren := fun e hme hh => by
        rw [hwin] at hme
        rcases List.mem_append.mp hme with hme | hme
        · rw [hold e hme] at hh
          cases hh
        · exact List.mem_singleton.mp hme
      refine ⟨?_, ?_, ?_, ?_, ?_⟩
      · rw [hflag, hhalted]
        constructor
        · intro hh
          refine Or.inl ⟨s.laneEntry ren, ?_, by rw [hnew, hh]⟩
          rw [hwin]
          simp
        · rintro (⟨e, hme, hh⟩ | hno)
          · rwa [hmem e hme hh, hnew] at hh
          · cases hno
      · -- a `HALT` completes at dispatch
        intro e hme hh
        have heq := hmem e hme hh
        rw [heq] at hh ⊢
        rw [hnew] at hh
        rw [hdone, RenameBundle.completesAtOnce, hh, Bool.true_or]
      · intro pre e post hsplit hh
        rw [hwin] at hsplit
        -- with something behind it the `HALT` would be an old entry
        rcases List.eq_nil_or_concat post with rfl | ⟨front, last, rfl⟩
        · rfl
        · rw [List.concat_eq_append, ← List.cons_append, ← List.append_assoc] at hsplit
          have hfront := (List.append_inj' hsplit rfl).1
          rw [hold e (by rw [hfront]; simp)] at hh
          cases hh
      · intro hh
        rw [hhalted] at hh
        cases hh
      · rw [hhalted, he.frame]
        exact h.agree.trans hrun

theorem dispatchStage (h : Fence s) (hs : Sound s) (recovered : Bool) :
    Fence (s.dispatchStage recovered) := by
  rw [SuperScalarCPU.dispatchStage]
  split
  · rename_i hactive
    have hd : s.haltDispatched = false := by
      rw [renameActive, Bool.and_eq_true, Bool.not_eq_true'] at hactive
      simpa using hactive.2
    have hp : Sound s.predictRedirect := by
      rw [s.predictRedirect_frame.1]
      exact hs.congr rfl rfl rfl rfl
    have hpf : Fence s.predictRedirect := by
      rw [s.predictRedirect_frame.1]
      exact h.congr rfl rfl rfl rfl
    have hpd : s.predictRedirect.haltDispatched = false := by
      rw [s.predictRedirect_frame.1]
      exact hd
    dsimp only
    split
    · rename_i hcan
      obtain ⟨h0, hr0, hr1⟩ := hp.rename hcan
      have hf0 : Fence s.predictRedirect.afterRename := hpf.congr rfl rfl rfl rfl
      have hf1 := hf0.dispatchLane h0 hpd hr0
      rw [dispatchLanes]
      split
      · -- lane 1 only dispatches while lane 0 has not raised the fence
        rename_i hopen
        exact hf1.dispatchLane (h0.dispatchLane hr0) (by simpa using hopen) hr1
      · exact hf1
    · exact hpf
  · exact h

theorem boot (cfg : Config) (words : List Word) (data : List (Nat × Word)) :
    Fence (boot cfg words data) := by
  rw [boot_frame]
  refine of_no_halt rfl rfl rfl fun e he => ?_
  rw [show (((construct cfg).loadProgram words).rob : ReOrderBuffer cfg.robCapacity) = .reset
    from rfl, ReOrderBuffer.window_reset] at he
  cases he

end Fence

/-! ## Steps and runs -/

/-- The stages of a step that is not a halted one. -/
structure Steps (s : SuperScalarCPU cfg) : Prop where
  sound : Sound s
  fence : Fence s
  running : s.halted = false

namespace Steps

theorem commitHalted (h : Steps s) : s.commitHalted = false := h.fence.agree.trans h.running

theorem commits (h : Steps s) : ∃ es, Commits s s.committed es := by
  obtain ⟨es, hes⟩ := commitStage_spec (s := { s with cycles := s.cycles + 1 })
    h.sound.inFlight.rob_wf h.commitHalted
  exact ⟨es, hes.window, hes.wf, hes.width, hes.completed, hes.halt_last, hes.events, hes.arf,
    hes.freeList, hes.table, hes.physicalRegCount, hes.commitHalted, hes.halted, hes.iq, hes.prf,
    hes.predictor, hes.imem, hes.frontend, hes.haltDispatched, hes.lsq, hes.marked,
    hes.stores⟩

theorem sound_committed (h : Steps s) : Sound s.committed := h.sound.committed h.commitHalted

theorem memoryCase (h : Steps s) :
    MemoryCase s.committed s.memoryDone s.committed.memUnit.execute.1 :=
  memoryStage_cases h.sound_committed.inFlight

theorem sound_memoryDone (h : Steps s) : Sound s.memoryDone := h.sound.memoryDone h.commitHalted

theorem branchCase (h : Steps s) : BranchCase s.memoryDone s.memoryDone.branchStage :=
  branchStage_cases h.sound_memoryDone.inFlight h.sound_memoryDone.snapshots

theorem sound_branchDone (h : Steps s) : Sound s.memoryDone.branchStage :=
  h.sound.branchDone h.commitHalted

theorem sound_executed (h : Steps s) : Sound s.executed := h.sound.executed h.commitHalted

theorem fence_committed (h : Steps s) : Fence s.committed := by
  obtain ⟨es, hes⟩ := h.commits
  exact h.fence.commit h.running hes

theorem fence_memoryDone (h : Steps s) : Fence s.memoryDone :=
  h.fence_committed.memory h.sound_committed h.memoryCase

theorem fence_executed (h : Steps s) : Fence s.executed := by
  have hbranch := h.fence_memoryDone.branch h.sound_memoryDone h.branchCase
  have hboth : Sound s.executed ∧ Fence s.executed :=
    aluStage_induction (P := fun t => Sound t ∧ Fence t) ⟨h.sound_branchDone, hbranch⟩
      fun t i ht hi => ⟨ht.1.executeAlu hi, ht.2.executeAlu ht.1 i⟩
  exact hboth.2

end Steps

/-- Both invariants survive a step, halted or not. -/
theorem next_sound_fence (hs : Sound s) (hf : Fence s) : Sound s.next ∧ Fence s.next := by
  rw [SuperScalarCPU.next]
  split
  · exact ⟨hs.congr rfl rfl rfl rfl, hf.congr rfl rfl rfl rfl⟩
  · rename_i hrun
    have hsteps : Steps s := ⟨hs, hf, eq_false_of_ne_true hrun⟩
    have hd :=
      hsteps.fence_executed.dispatchStage hsteps.sound_executed s.memoryDone.branchRecovered
    exact ⟨(hs.dispatched hsteps.commitHalted).fetch, hd.congr rfl rfl rfl rfl⟩

theorem Steps.sound_next (h : Steps s) : Sound s.next :=
  h.sound.next (h.commitHalted.trans h.running.symm)

/-- Induction over a run. -/
theorem run_induction {P : SuperScalarCPU cfg → Prop} (h : P s)
    (hstep : ∀ t, P t → P t.next) (n : Nat) : P (run s n) := by
  induction n with
  | zero => exact h
  | succ n ih => exact hstep _ ih

theorem run_sound_fence (cfg : Config) (words : List Word) (data : List (Nat × Word)) (n : Nat) :
    Sound (run (boot cfg words data) n) ∧ Fence (run (boot cfg words data) n) :=
  run_induction (P := fun t => Sound t ∧ Fence t)
    ⟨Sound.boot cfg words data, Fence.boot cfg words data⟩
    (fun _ ht => next_sound_fence ht.1 ht.2) n

/-- The states of a run that have not halted. -/
theorem run_steps {words : List Word} {data : List (Nat × Word)} {n : Nat}
    (h : (run (boot cfg words data) n).halted = false) : Steps (run (boot cfg words data) n) :=
  ⟨(run_sound_fence cfg words data n).1, (run_sound_fence cfg words data n).2, h⟩

/-! ## What the backend does to the front end and the fence -/

/-- A machine that is still running was running in every earlier state. -/
theorem running_of_le {s0 : SuperScalarCPU cfg} {k n : Nat} (hk : k ≤ n)
    (h : (run s0 n).halted = false) : (run s0 k).halted = false := by
  induction n with
  | zero => rwa [Nat.le_zero.mp hk]
  | succ n ih =>
      rcases Nat.le_succ_iff.mp hk with hk | rfl
      · apply ih hk
        by_contra hne
        rw [run, step, next, if_pos (eq_true_of_ne_false hne)] at h
        exact hne h
      · exact h

/-- Induction along a machine that is still running. -/
theorem running_induction {s0 : SuperScalarCPU cfg} {P : Nat → Prop} {n : Nat}
    (hrun : (run s0 n).halted = false) (h0 : P 0)
    (hstep : ∀ k < n, (run s0 k).halted = false → P k → P (k + 1)) : P n := by
  induction n with
  | zero => exact h0
  | succ n ih =>
      have hprev := running_of_le (Nat.le_succ n) hrun
      exact hstep n (Nat.lt_succ_self n) hprev
        (ih hprev fun k hk => hstep k (Nat.lt_succ_of_lt hk))

theorem branchRecovered_none (hi : s.selectBranch = none) : s.branchRecovered = false := by
  simp [branchRecovered, resolvedBranch, hi]

theorem branchRecovered_some {i : Nat} (hi : s.selectBranch = some i) :
    s.branchRecovered = (s.branchResult i).mispredicted := by
  simp [branchRecovered, resolvedBranch, hi]

/-- A recovery is that of a mispredicted branch. -/
theorem exists_of_branchRecovered (h : s.branchRecovered = true) :
    ∃ i, s.selectBranch = some i ∧ (s.branchResult i).mispredicted = true := by
  cases hi : s.selectBranch with
  | none =>
      rw [branchRecovered_none hi] at h
      cases h
  | some i => exact ⟨i, rfl, (branchRecovered_some hi).symm.trans h⟩

theorem branchCase_haltDispatched (hc : BranchCase s t) :
    t.haltDispatched = (s.haltDispatched && !s.branchRecovered) := by
  cases hc with
  | none hi ht => rw [ht, branchRecovered_none hi, Bool.not_false, Bool.and_true]
  | correct i hi hm ht =>
      rw [ht, branchRecovered_some hi, hm, Bool.not_false, Bool.and_true]
      rfl
  | mispredicted i hi hm pre b post _ _ hr =>
      rw [hr.frame, branchRecovered_some hi, hm, Bool.not_true, Bool.and_false]

theorem Steps.executed_haltDispatched (h : Steps s) :
    s.executed.haltDispatched = (s.haltDispatched && !s.memoryDone.branchRecovered) := by
  obtain ⟨es, hes⟩ := h.commits
  rw [executed, aluStage_frame]
  dsimp only
  rw [branchCase_haltDispatched h.branchCase, (memoryCase_frame h.memoryCase).2.1,
    hes.haltDispatched]

/-- Rename is open exactly when no `HALT` was in flight and no branch recovered. -/
theorem Steps.renameActive_eq (h : Steps s) :
    renameActive s.memoryDone.branchRecovered s.executed =
      (!s.memoryDone.branchRecovered && !s.haltDispatched) := by
  rw [renameActive, h.executed_haltDispatched]
  cases s.memoryDone.branchRecovered <;> simp

theorem dispatched_of_inactive {recovered : Bool} (h : renameActive recovered s = false) :
    s.dispatchStage recovered = s := by
  rw [SuperScalarCPU.dispatchStage, if_neg (by simp [h])]

theorem Steps.next_eq (h : Steps s) :
    s.next = (s.executed.dispatchStage s.memoryDone.branchRecovered).fetchStage := by
  rw [SuperScalarCPU.next, h.running]
  rfl

/-- Only commit halts the machine. -/
theorem Steps.next_halted (h : Steps s) : s.next.halted = s.committed.halted := by
  rw [h.next_eq, fetchStage, dispatchStage_frame]
  dsimp only
  rw [executed, aluStage_frame]
  dsimp only
  rw [branchCase_frame h.branchCase]
  exact (memoryCase_frame h.memoryCase).2.2.2.2.2.2.2.1

/-! ## The fence -/

/-- The valid slots of the array hold the window. -/
theorem exists_slot_iff {m : Nat} {rob : ReOrderBuffer m} (h : rob.WF) (p : ROBEntry → Prop) :
    (∃ i < m, (rob.entries i).valid = true ∧ p (rob.entries i)) ↔
      ∃ e ∈ rob.window, p e := by
  constructor
  · rintro ⟨i, hi, hv, hp⟩
    exact ⟨_, (h.mem_of_valid hi hv).1, hp⟩
  · rintro ⟨e, he, hp⟩
    refine ⟨e.robIndex, h.robIndex_lt he, ?_⟩
    rw [h.entries_robIndex he]
    exact ⟨h.valid_of_mem he, hp⟩

theorem empty_of_window {m : Nat} {rob : ReOrderBuffer m} (h : rob.window = []) :
    rob.empty = true := by
  rw [ReOrderBuffer.empty, ← ReOrderBuffer.length_window, h]
  rfl

/-- The position of the youngest entry, in the terms of the ring. -/
theorem nextIndex_of_last {n : Nat} {rob : ReOrderBuffer n} (h : rob.WF) {pre : List ROBEntry}
    {e : ROBEntry} (hw : rob.window = pre ++ [e]) :
    ReOrderBuffer.nextIndex n e.robIndex = rob.tail := by
  obtain ⟨-, hslot⟩ := h.split_position hw
  have hcount : rob.count = pre.length + 1 := by
    rw [← ReOrderBuffer.length_window, hw, List.length_append, List.length_singleton]
  rw [h.tail_eq, hcount, ← hslot, ReOrderBuffer.nextIndex, Lib.Ring.slot_succ]

/-- A `HALT` in flight is alone, last and out of the issue queue. -/
theorem Steps.halt_entry (h : Steps s) {i : Nat} (hi : i < cfg.robCapacity)
    (hv : (s.rob.entries i).valid = true) (hh : (s.rob.entries i).halt = true) :
    (∀ j < cfg.robCapacity, (s.rob.entries j).valid = true →
      (s.rob.entries j).halt = true → j = i) ∧
    ReOrderBuffer.nextIndex cfg.robCapacity i = s.rob.tail ∧
    ∀ k < cfg.iqCapacity, (s.iq.entries k).valid = true → (s.iq.entries k).robIndex ≠ i := by
  have hwf := h.sound.inFlight.rob_wf
  obtain ⟨hmem, hidx⟩ := hwf.mem_of_valid hi hv
  obtain ⟨pre, post, hsplit⟩ := List.append_of_mem hmem
  -- nothing is behind it in the window
  have hpost := h.fence.last pre _ post hsplit hh
  subst hpost
  refine ⟨fun j hj hvj hhj => ?_, ?_, fun k hk hvk => ?_⟩
  · obtain ⟨hmemj, hidxj⟩ := hwf.mem_of_valid hj hvj
    rw [hsplit] at hmemj
    rcases List.mem_append.mp hmemj with hpre | hlast
    · obtain ⟨pre1, post1, hsplit1⟩ := List.append_of_mem hpre
      have := h.fence.last pre1 _ (post1 ++ [s.rob.entries i])
        (by rw [hsplit, hsplit1, List.append_assoc, List.cons_append]) hhj
      simp at this
    · rw [← hidxj, List.mem_singleton.mp hlast, hidx]
  · -- the last entry stands right before the tail
    have := nextIndex_of_last hwf hsplit
    rwa [hidx] at this
  · -- it is complete, and the queue holds nothing for a complete entry
    have := h.sound.inFlight.not_queued (IssueQueue.entries_mem_live hk hvk) hmem
      (h.fence.completed _ hmem hh)
    rwa [hidx] at this

/-- With the flag set at its start a step dispatches nothing. -/
theorem Steps.stats_dispatched (h : Steps s) (hd : s.haltDispatched = true) :
    s.stats.dispatched = 0 := by
  have hinactive : renameActive s.memoryDone.branchRecovered s.executed = false := by
    rw [h.renameActive_eq, hd]
    simp
  simp only [stats, h.running, hinactive, Bool.false_and, Bool.false_eq_true, if_false]

/-- After a recovery the fence is down and rename is open again. -/
theorem Steps.reopens (h : Steps s) (hr : s.memoryDone.branchRecovered = true) :
    s.next.halted = false ∧ s.next.haltDispatched = false ∧
      (∀ e ∈ s.next.rob.window, e.halt = false) ∧
      renameActive s.next.memoryDone.branchRecovered s.next.executed =
        !s.next.memoryDone.branchRecovered := by
  obtain ⟨hs, hf⟩ := next_sound_fence h.sound h.fence
  have hinactive : renameActive s.memoryDone.branchRecovered s.executed = false := by
    rw [h.renameActive_eq, hr]
    rfl
  have hdown : s.next.haltDispatched = false := by
    rw [h.next_eq, dispatched_of_inactive hinactive]
    show s.executed.haltDispatched = false
    rw [h.executed_haltDispatched, hr, Bool.not_true, Bool.and_false]
  have hsteps : Steps s.next := ⟨hs, hf, hf.running hdown⟩
  refine ⟨hf.running hdown, hdown, fun e he => hf.no_halt hdown he, ?_⟩
  rw [hsteps.renameActive_eq, hdown, Bool.not_false, Bool.and_true]

/-- A retired `HALT` leaves the reorder buffer empty. -/
theorem Steps.halt_retired (h : Steps s) {ev : CommitEvent} (hev : ev ∈ (runCommitUnit s).2)
    (hh : ev.halt = true) :
    s.committed.rob.empty = true ∧ s.next.rob.empty = true ∧ s.next.halted = true := by
  obtain ⟨es, hes⟩ := h.commits
  rw [hes.events] at hev
  obtain ⟨e, he, rfl⟩ := List.mem_map.mp hev
  have hhalted : s.next.halted = true := by
    rw [h.next_halted, hes.halted, h.running, Bool.false_or, List.any_eq_true]
    exact ⟨e, he, hh⟩
  exact ⟨empty_of_window (h.fence.window_of_retired_halt hes he hh),
    empty_of_window ((next_sound_fence h.sound h.fence).2.drained hhalted), hhalted⟩

/-- `HALT` fencing.  In every state of a run that has not halted, `halt_dispatched_`
    is set exactly when a valid ROB entry is a `HALT`; that entry is unique, the
    youngest, and not in the issue queue; a step that starts with the flag set
    dispatches nothing; a step that recovers from a misprediction clears it, leaves
    no `HALT` in the buffer, and rename is open again from the next step on; and the
    buffer is empty once a `HALT` has retired. -/
theorem halt_fencing (cfg : Config) (words : List Word) (data : List (Nat × Word)) (n : Nat)
    (hrun : (run (boot cfg words data) n).halted = false) :
    let s := run (boot cfg words data) n
    (s.haltDispatched = true ↔
      ∃ i < cfg.robCapacity, (s.rob.entries i).valid = true ∧ (s.rob.entries i).halt = true) ∧
    (∀ i < cfg.robCapacity, (s.rob.entries i).valid = true → (s.rob.entries i).halt = true →
      (∀ j < cfg.robCapacity, (s.rob.entries j).valid = true →
        (s.rob.entries j).halt = true → j = i) ∧
      ReOrderBuffer.nextIndex cfg.robCapacity i = s.rob.tail ∧
      ∀ k < cfg.iqCapacity, (s.iq.entries k).valid = true → (s.iq.entries k).robIndex ≠ i) ∧
    (s.haltDispatched = true → s.stats.dispatched = 0) ∧
    (s.memoryDone.branchRecovered = true →
      s.next.halted = false ∧ s.next.haltDispatched = false ∧
      (∀ i < cfg.robCapacity, (s.next.rob.entries i).valid = true →
        (s.next.rob.entries i).halt = false) ∧
      renameActive s.next.memoryDone.branchRecovered s.next.executed =
        !s.next.memoryDone.branchRecovered) ∧
    (∀ ev ∈ (runCommitUnit s).2, ev.halt = true → s.committed.rob.empty = true ∧
      s.next.rob.empty = true ∧ s.next.halted = true) := by
  have h := run_steps hrun
  have hwf := h.sound.inFlight.rob_wf
  refine ⟨?_, fun i hi hv hh => h.halt_entry hi hv hh, h.stats_dispatched, fun hr => ?_,
    fun ev hev hh => h.halt_retired hev hh⟩
  · rw [exists_slot_iff hwf (fun e => e.halt = true), h.fence.flag, h.running]
    simp
  · obtain ⟨h1, h2, h3, h4⟩ := h.reopens hr
    refine ⟨h1, h2, fun i hi hv => h3 _ ?_, h4⟩
    exact ((next_sound_fence h.sound h.fence).1.inFlight.rob_wf.mem_of_valid hi hv).1

/-- The one-instruction program `HALT`, two steps in: the flag is up. -/
theorem halt_fencing_single_halt :
    ∃ i < Config.default.robCapacity,
      ((run (boot .default [0x38000000] []) 2).rob.entries i).valid = true ∧
        ((run (boot .default [0x38000000] []) 2).rob.entries i).halt = true :=
  (halt_fencing .default [0x38000000] [] 2 (by decide +kernel)).1.mp (by decide +kernel)

end SuperScalarCPU

end CpuSim.SuperScalar
