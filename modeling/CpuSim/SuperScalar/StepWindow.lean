/-
  CpuSim.SuperScalar.StepWindow

  The window across one whole step: what retires leaves it at the front, what is
  dispatched joins it at the back, a recovery cuts it behind the branch, and an
  entry that is still to execute is exactly as it was.
-/

import CpuSim.Lib.Chain
import CpuSim.SuperScalar.BackPressure

namespace CpuSim.SuperScalar

namespace SuperScalarCPU

variable {cfg : Config} {s t : SuperScalarCPU cfg} {ren : RenameBundle}

/-! ## Dispatch -/

theorem dispatchLane_window (h : Sound s) (hb : Sound.Renamed ren) :
    (s.dispatchLane ren).rob.window =
      s.rob.window ++ (if s.laneDispatched ren then [s.laneEntry ren] else []) := by
  have hiff : s.laneDispatched ren = true ↔ _ := laneDispatched_iff h.inFlight
  have hcase := dispatchLane_cases h.inFlight fun hv => (hb hv).1
  generalize s.dispatchLane ren = t at hcase
  cases hcase with
  | bubble hv ht =>
      rw [hv] at hiff
      rw [ht, if_neg fun hd => by simpa using (hiff.mp hd).1, List.append_nil]
  | refused _ hfull ht =>
      rw [ht, if_neg, List.append_nil]
      intro hd
      obtain ⟨-, hrob, hiq⟩ := hiff.mp hd
      rw [(robFull_eq h.inFlight).mpr hrob, (iqFull_eq h.inFlight).mpr hiq] at hfull
      rcases hfull with hfull | hfull <;> cases hfull
  | entered idx rob1 iq1 hrob hiq he =>
      obtain ⟨-, -, hwin, -⟩ := he.spec h.inFlight (hb he.valid).1
      rw [hwin, if_pos (hiff.mpr ⟨he.valid, (robFull_eq h.inFlight).mp hrob,
        (iqFull_eq h.inFlight).mp hiq⟩)]

/-- The entry lane 0 leaves in the window. -/
def entry0 (s : SuperScalarCPU cfg) : ROBEntry :=
  s.executed.afterRename.laneEntry s.executed.renameOutputs.1

/-- The entry lane 1 leaves in the window. -/
def entry1 (s : SuperScalarCPU cfg) : ROBEntry :=
  s.betweenLanes.laneEntry s.executed.renameOutputs.2.1

/-- What a step dispatches, in program order. -/
def entered (s : SuperScalarCPU cfg) : List ROBEntry :=
  (if s.dispatched0 then [s.entry0] else []) ++ (if s.dispatched1 then [s.entry1] else [])

/-- The backend of the next state. -/
theorem Steps.next_backend (h : Steps s) :
    ∃ f, s.next = (if s.renames then s.executed.dispatchLanes else s.executed).withFrontend f := by
  refine ⟨s.next.frontend, ?_⟩
  conv_lhs => rw [h.next_eq, dispatchStage_eq]
  rw [h.next_eq, dispatchStage_eq]
  rfl

theorem dispatchLanes_cases (s : SuperScalarCPU cfg) :
    s.dispatchLanes = s.afterRename.dispatchLane s.renameOutputs.1 ∨
      s.dispatchLanes =
        (s.afterRename.dispatchLane s.renameOutputs.1).dispatchLane s.renameOutputs.2.1 := by
  rw [dispatchLanes]
  split
  · exact Or.inr rfl
  · exact Or.inl rfl

/-- The rename structures after a step are those rename left. -/
theorem Steps.next_renamed (h : Steps s) (hr : s.renames = true) :
    s.next.rat.table = s.executed.renameOutputs.2.2.rat.table ∧
      s.next.rat.physicalRegCount = s.executed.renameOutputs.2.2.rat.physicalRegCount ∧
      s.next.freeList = s.executed.renameOutputs.2.2.freeList ∧
      s.next.prf = s.executed.renameOutputs.2.2.prf := by
  obtain ⟨f, hf⟩ := h.next_backend
  rw [hf, hr, if_pos rfl]
  have h0 := dispatchLane_table s.executed.afterRename s.executed.renameOutputs.1
  have h1 := dispatchLane_table
    (s.executed.afterRename.dispatchLane s.executed.renameOutputs.1) s.executed.renameOutputs.2.1
  -- dispatch leaves what rename produced, whether one lane went or both
  rcases dispatchLanes_cases s.executed with hd | hd
  · refine ⟨?_, ?_, ?_, ?_⟩ <;> rw [hd]
    · exact h0.1
    · exact h0.2
    · rw [dispatchLane_frame]
      rfl
    · rw [dispatchLane_frame]
      rfl
  · refine ⟨?_, ?_, ?_, ?_⟩ <;> rw [hd]
    · exact h1.1.trans h0.1
    · exact h1.2.trans h0.2
    · rw [dispatchLane_frame, dispatchLane_frame s.executed.afterRename]
      rfl
    · rw [dispatchLane_frame, dispatchLane_frame s.executed.afterRename]
      rfl

/-- Without renaming the backend does not change. -/
theorem Steps.next_idle (h : Steps s) (hr : s.renames = false) :
    s.next = s.executed.withFrontend s.next.frontend := by
  obtain ⟨f, hf⟩ := h.next_backend
  rw [hr] at hf
  rw [hf]
  rfl

theorem canRename_of_renames (hr : s.renames = true) :
    RenameUnit.canRename s.executed.freeList s.executed.renInput0 s.executed.renInput1 = true := by
  rw [renames, Bool.and_eq_true] at hr
  exact hr.2

theorem Steps.window_next (h : Steps s) :
    s.next.rob.window = s.executed.rob.window ++ s.entered := by
  have hnext : s.next.rob = (if s.renames then s.executed.dispatchLanes else s.executed).rob := by
    rw [h.next_eq, fetchStage, dispatchStage_eq]
    rfl
  rw [hnext, entered, dispatched0, dispatched1]
  cases hr : s.renames with
  | false => simp
  | true =>
      obtain ⟨hs0, hr0, hr1⟩ := h.sound_executed.rename (canRename_of_renames hr)
      have hw0 := dispatchLane_window hs0 hr0
      have hw1 := dispatchLane_window (hs0.dispatchLane hr0) hr1
      simp only [if_true, Bool.true_and, dispatchLanes, betweenLanes, entry0, entry1]
      cases hflag : (s.executed.afterRename.dispatchLane
          s.executed.renameOutputs.1).haltDispatched with
      | true =>
          simp only [Bool.not_true, Bool.false_eq_true, if_false, Bool.false_and, List.append_nil]
          exact hw0
      | false =>
          simp only [Bool.not_false, if_true, Bool.true_and]
          rw [hw1, hw0, List.append_assoc]
          rfl

/-- A position in the next window is an old one, the lane-0 entry or the lane-1 entry. -/
theorem Steps.split_next (h : Steps s) {pre post : List ROBEntry} {e : ROBEntry}
    (hw : s.next.rob.window = pre ++ e :: post) :
    (∃ mid, s.executed.rob.window = pre ++ e :: mid ∧ post = mid ++ s.entered) ∨
      (s.dispatched0 = true ∧ e = s.entry0 ∧ pre = s.executed.rob.window ∧
        post = if s.dispatched1 then [s.entry1] else []) ∨
      (s.dispatched1 = true ∧ e = s.entry1 ∧ post = [] ∧
        pre = s.executed.rob.window ++ if s.dispatched0 then [s.entry0] else []) := by
  rw [h.window_next] at hw
  rcases Lib.split_append hw with hold | ⟨mid, hnew, hpre⟩
  · exact Or.inl hold
  · rw [entered] at hnew
    rcases Lib.split_append hnew with ⟨tail, h0, hpost⟩ | ⟨head, h1, hmid⟩
    · -- lane 0: the list is a singleton, so nothing is in front of the entry
      cases hd : s.dispatched0 with
      | false => rw [hd] at h0; simp at h0
      | true =>
          rw [hd, if_pos rfl] at h0
          obtain ⟨rfl, he, rfl⟩ := Lib.split_singleton h0
          exact Or.inr (Or.inl ⟨rfl, he.symm, by rw [hpre, List.append_nil], hpost⟩)
    · cases hd : s.dispatched1 with
      | false => rw [hd] at h1; simp at h1
      | true =>
          rw [hd, if_pos rfl] at h1
          obtain ⟨rfl, he, rfl⟩ := Lib.split_singleton h1
          refine Or.inr (Or.inr ⟨rfl, he.symm, rfl, ?_⟩)
          rw [hpre, hmid, List.append_nil]

/-- The two renamed lanes of a step that renames. -/
theorem Steps.lanes (h : Steps s) (hr : s.renames = true) :
    ∃ u0,
      RenameUnit.Renames
        { rat := s.executed.rat, freeList := s.executed.freeList, prf := s.executed.prf }
        s.executed.renInput0 s.executed.renameOutputs.1 u0 ∧
      RenameUnit.Renames u0 s.executed.renInput1 s.executed.renameOutputs.2.1
        s.executed.renameOutputs.2.2 := by
  rw [renames, Bool.and_eq_true] at hr
  exact RenameUnit.rename_renames
    (u := { rat := s.executed.rat, freeList := s.executed.freeList, prf := s.executed.prf })
    hr.2 h.sound_executed.numbered.invalid_not_free

theorem Steps.of_renames (h : Steps s) (hr : s.renames = true) :
    s.memoryDone.branchRecovered = false ∧ s.haltDispatched = false := by
  rw [renames, h.renameActive_eq, Bool.and_eq_true, Bool.and_eq_true, Bool.not_eq_true',
    Bool.not_eq_true'] at hr
  exact hr.1

/-- Lane 0 dispatched: it was renamed from a valid input, at a free slot. -/
theorem Steps.of_dispatched0 (h : Steps s) (hd : s.dispatched0 = true) :
    s.renames = true ∧ s.executed.renInput0.valid = true ∧
      s.executed.rob.count < cfg.robCapacity := by
  rw [dispatched0, Bool.and_eq_true] at hd
  obtain ⟨u0, h0, -⟩ := h.lanes hd.1
  have hsound := (h.sound_executed.rename (canRename_of_renames hd.1)).1
  obtain ⟨hv, hroom, -⟩ := (laneDispatched_iff hsound.inFlight).mp hd.2
  exact ⟨hd.1, h0.valid.symm.trans hv, hroom⟩

/-- Lane 1 dispatched: the same, behind lane 0. -/
theorem Steps.of_dispatched1 (h : Steps s) (hd : s.dispatched1 = true) :
    s.renames = true ∧ s.executed.renInput1.valid = true ∧
      s.betweenLanes.rob.count < cfg.robCapacity ∧ Sound s.betweenLanes := by
  rw [dispatched1, Bool.and_eq_true, Bool.and_eq_true] at hd
  obtain ⟨u0, -, h1⟩ := h.lanes hd.1
  obtain ⟨hs0, hr0, -⟩ := h.sound_executed.rename (canRename_of_renames hd.1)
  have hsound := hs0.dispatchLane hr0
  obtain ⟨hv, hroom, -⟩ := (laneDispatched_iff hsound.inFlight).mp hd.2.2
  exact ⟨hd.1, h1.valid.symm.trans hv, hroom, hsound⟩

/-- The window lane 1 is dispatched behind. -/
theorem Steps.betweenLanes_window (h : Steps s) (hr : s.renames = true) :
    s.betweenLanes.rob.window =
      s.executed.rob.window ++ (if s.dispatched0 then [s.entry0] else []) := by
  obtain ⟨hs0, hr0, -⟩ := h.sound_executed.rename (canRename_of_renames hr)
  rw [betweenLanes, dispatchLane_window hs0 hr0, dispatched0, hr, Bool.true_and]
  rfl

/-- The fields an entry takes over from the input of its lane. -/
theorem laneEntry_input {n : Nat} {u u' : RenameUnit n} {input : DecodeBundle}
    {out : RenameBundle} (h : RenameUnit.Renames u input out u') (hv : input.valid = true)
    (s : SuperScalarCPU cfg) :
    (s.laneEntry out).pc = input.pc ∧ (s.laneEntry out).instruction = input.instruction ∧
      (s.laneEntry out).branch = (input.controlFlow == .BRANCH) ∧
      (s.laneEntry out).predictedTaken = input.prediction.predictedTaken ∧
      (s.laneEntry out).predictedTarget = input.prediction.predictedTarget := by
  obtain ⟨old, p, rfl⟩ := h.out_eq hv
  rw [laneEntry_eq]
  exact ⟨rfl, rfl, rfl, rfl, rfl⟩

/-- What dispatch queues. -/
theorem dispatchLane_live (h : Sound s) (hb : Sound.Renamed ren) {q : IssueQueueEntry}
    (hq : q ∈ (s.dispatchLane ren).iq.live) :
    q ∈ s.iq.live ∨ (s.laneDispatched ren = true ∧ ren.completesAtOnce = false ∧
      q = DispatchUnit.makeIssueEntry s.prf ren s.rob.tail) := by
  have hiff : s.laneDispatched ren = true ↔ _ := laneDispatched_iff h.inFlight
  have hcase := dispatchLane_cases h.inFlight fun hv => (hb hv).1
  generalize s.dispatchLane ren = t at hcase hq
  cases hcase with
  | bubble _ ht => rw [ht] at hq; exact Or.inl hq
  | refused _ _ ht => rw [ht] at hq; exact Or.inl hq
  | entered idx rob1 iq1 hrob hiq he =>
      obtain ⟨-, -, -, hperm⟩ := he.spec h.inFlight (hb he.valid).1
      rw [hperm.mem_iff] at hq
      split at hq
      · exact Or.inl hq
      · rename_i hc
        rcases List.mem_cons.mp hq with hq | hq
        · exact Or.inr ⟨hiff.mpr ⟨he.valid, (robFull_eq h.inFlight).mp hrob,
            (iqFull_eq h.inFlight).mp hiq⟩, eq_false_of_ne_true hc, hq⟩
        · exact Or.inl hq

/-- Every queue entry of the next state is an old one or belongs to a lane that was
    dispatched. -/
theorem Steps.live_next (h : Steps s) {q : IssueQueueEntry} (hq : q ∈ s.next.iq.live) :
    q ∈ s.executed.iq.live ∨
      (s.dispatched0 = true ∧ q = DispatchUnit.makeIssueEntry s.executed.afterRename.prf
        s.executed.renameOutputs.1 s.executed.rob.tail) ∨
      (s.dispatched1 = true ∧ q = DispatchUnit.makeIssueEntry s.executed.afterRename.prf
        s.executed.renameOutputs.2.1 s.betweenLanes.rob.tail) := by
  obtain ⟨f, hf⟩ := h.next_backend
  rw [hf] at hq
  cases hr : s.renames with
  | false =>
      rw [hr] at hq
      exact Or.inl hq
  | true =>
      rw [hr, if_pos rfl] at hq
      change q ∈ s.executed.dispatchLanes.iq.live at hq
      obtain ⟨hs0, hr0, hr1⟩ := h.sound_executed.rename (canRename_of_renames hr)
      have hfirst : ∀ q ∈ s.betweenLanes.iq.live, q ∈ s.executed.iq.live ∨
          (s.dispatched0 = true ∧ q = DispatchUnit.makeIssueEntry s.executed.afterRename.prf
            s.executed.renameOutputs.1 s.executed.rob.tail) := fun q hq => by
        rcases dispatchLane_live hs0 hr0 hq with hq | ⟨hd, -, hq⟩
        · exact Or.inl hq
        · exact Or.inr ⟨by rw [dispatched0, hr, hd]; rfl, hq⟩
      rw [dispatchLanes] at hq
      split at hq
      · rename_i hopen
        rcases dispatchLane_live (hs0.dispatchLane hr0) hr1 hq with hq | ⟨hd, -, hq⟩
        · rcases hfirst q hq with hq | hq
          · exact Or.inl hq
          · exact Or.inr (Or.inl hq)
        · refine Or.inr (Or.inr ⟨?_, ?_⟩)
          · rw [dispatched1, hr, betweenLanes, hopen, hd]
            rfl
          · rw [hq, dispatchLane_frame]
            rfl
      · rcases hfirst q hq with hq | hq
        · exact Or.inl hq
        · exact Or.inr (Or.inl hq)

/-- Rename and dispatch as a rule: what holds after the backend has run, survives rename
    and survives each lane, holds of the next state. -/
theorem Steps.next_lanes {P : SuperScalarCPU cfg → Prop} (h : Steps s)
    (hfront : ∀ t f, P t → P (t.withFrontend f)) (hexec : P s.executed)
    (hrename : s.renames = true → P s.executed.afterRename)
    (hlane0 : s.renames = true → P s.executed.afterRename → P s.betweenLanes)
    (hlane1 : s.renames = true → s.betweenLanes.haltDispatched = false → P s.betweenLanes →
      P (s.betweenLanes.dispatchLane s.executed.renameOutputs.2.1)) : P s.next := by
  obtain ⟨f, hf⟩ := h.next_backend
  rw [hf]
  apply hfront
  cases hr : s.renames with
  | false => exact hexec
  | true =>
      rw [if_pos rfl]
      have hbetween := hlane0 hr (hrename hr)
      cases hflag : s.betweenLanes.haltDispatched with
      | true =>
          -- lane 0 raised the fence, so lane 1 is not dispatched
          have hlanes : s.executed.dispatchLanes = s.betweenLanes := by
            rw [betweenLanes] at hflag
            simp only [dispatchLanes, hflag, Bool.not_true, Bool.false_eq_true, if_false]
            rfl
          rw [hlanes]
          exact hbetween
      | false =>
          have hlanes : s.executed.dispatchLanes =
              s.betweenLanes.dispatchLane s.executed.renameOutputs.2.1 := by
            rw [betweenLanes] at hflag
            simp only [dispatchLanes, hflag, Bool.not_false, if_true]
            rfl
          rw [hlanes]
          exact hlane1 hr hflag hbetween

/-- The states and outputs of a step that renames are sound. -/
theorem Steps.sound_lanes (h : Steps s) (hr : s.renames = true) :
    Sound s.executed.afterRename ∧ Sound s.betweenLanes ∧
      Sound.Renamed s.executed.renameOutputs.1 ∧ Sound.Renamed s.executed.renameOutputs.2.1 := by
  obtain ⟨hs0, hr0, hr1⟩ := h.sound_executed.rename (canRename_of_renames hr)
  exact ⟨hs0, hs0.dispatchLane hr0, hr0, hr1⟩

/-! ## Entries still to execute -/

/-- Every entry of the later window that is not completed was in the earlier one. -/
def Keeps (s t : SuperScalarCPU cfg) : Prop :=
  ∀ e ∈ t.rob.window, e.completed = false → e ∈ s.rob.window

theorem Keeps.trans {u : SuperScalarCPU cfg} (h : Keeps s t) (h' : Keeps t u) : Keeps s u :=
  fun e he hc => h e (h' e he hc) hc

theorem Commits.keeps {es : List ROBEntry} (h : Commits s t es) : Keeps s t := fun e he _ => by
  rw [h.window]
  exact List.mem_append_right _ he

/-- What is still to execute behind a finished slot was there before. -/
theorem finishAt_keeps {idx : Nat} {r : Word} {es : List ROBEntry} {e : ROBEntry}
    (he : e ∈ es.map (ReOrderBuffer.finishAt idx r)) (hc : e.completed = false) : e ∈ es := by
  obtain ⟨e0, he0, rfl⟩ := List.mem_map.mp he
  rw [ReOrderBuffer.finishAt] at hc ⊢
  split at hc
  · cases hc
  · rename_i hne
    rwa [if_neg hne]

theorem Sound.finish_keeps (h : Sound s) (i : Nat) (r : Word) : Keeps s (s.finish i r) := by
  intro e he hc
  rw [h.window_finish] at he
  exact finishAt_keeps he hc

/-- Memory execution changes the window at most by finishing one entry. -/
theorem memoryCase_window {rs : List MemoryResult} (h : Sound s) (hc : MemoryCase s t rs) :
    t.rob.window = s.rob.window ∨
      ∃ idx r, t.rob.window = s.rob.window.map (ReOrderBuffer.finishAt idx r) :=
  hc.preserves (P := fun t => t.rob.window = s.rob.window ∨
      ∃ idx r, t.rob.window = s.rob.window.map (ReOrderBuffer.finishAt idx r))
    (Or.inl rfl) (fun i r _ _ => Or.inr ⟨_, r, h.window_finish i r⟩) fun _ _ _ hu => hu

theorem memoryCase_keeps {rs : List MemoryResult} (h : Sound s) (hc : MemoryCase s t rs) :
    Keeps s t :=
  hc.preserves (P := Keeps s) (fun _ he _ => he) (fun i r _ _ => h.finish_keeps i r)
    fun _ _ _ hu => hu

theorem branchCase_keeps (h : Sound s) (hc : BranchCase s t) : Keeps s t := by
  cases hc with
  | none _ ht => rw [ht]; exact fun e he _ => he
  | correct i hi _ ht =>
      rw [ht, h.resolveBranch_eq hi]
      exact h.finish_keeps i _
  | mispredicted i _ _ pre b post _ _ hr =>
      intro e he hcomp
      rw [hr.window] at he
      rw [hr.split]
      rcases List.mem_append.mp he with he | he
      · exact List.mem_append_left _ he
      · rw [List.mem_singleton.mp he] at hcomp
        cases hcomp

theorem Steps.executed_keeps (h : Steps s) : Keeps s s.executed := by
  obtain ⟨es, hes⟩ := h.commits
  have hbranch : Keeps s s.memoryDone.branchStage :=
    (hes.keeps.trans (memoryCase_keeps h.sound_committed h.memoryCase)).trans
      (branchCase_keeps h.sound_memoryDone h.branchCase)
  have hboth : Sound s.executed ∧ Keeps s s.executed :=
    aluStage_induction (P := fun t => Sound t ∧ Keeps s t) ⟨h.sound_branchDone, hbranch⟩
      fun t i ht hi => ⟨ht.1.executeAlu hi, by
        rw [executeAlu_eq]
        exact ht.2.trans (ht.1.finish_keeps i _)⟩
  exact hboth.2

/-- The slots of the window before branch resolution are a suffix of those at the
    start of the step. -/
theorem Steps.memoryDone_slots (h : Steps s) :
    ∃ front, s.rob.window.map ROBEntry.robIndex =
      front ++ s.memoryDone.rob.window.map ROBEntry.robIndex := by
  obtain ⟨es, hes⟩ := h.commits
  refine ⟨es.map ROBEntry.robIndex, ?_⟩
  have hmap : ∀ idx r (w : List ROBEntry),
      (w.map (ReOrderBuffer.finishAt idx r)).map ROBEntry.robIndex = w.map ROBEntry.robIndex := by
    intro idx r w
    rw [List.map_map]
    refine List.map_congr_left fun e _ => ?_
    rw [Function.comp, ReOrderBuffer.finishAt]
    split <;> rfl
  rw [hes.window, List.map_append]
  rcases memoryCase_window h.sound_committed h.memoryCase with hw | ⟨idx, r, hw⟩
  · rw [hw]
  · rw [hw, hmap]

/-- When a branch recovers, what is left to execute was not the youngest entry. -/
theorem Steps.recovered_not_last (h : Steps s) (hr : s.memoryDone.branchRecovered = true)
    {e : ROBEntry} (he : e ∈ s.executed.rob.window) (hc : e.completed = false) :
    s.rob.window.getLast? ≠ some e := by
  intro hlast
  have hkeep : ∀ x ∈ s.executed.rob.window, x.completed = false →
      x ∈ s.memoryDone.branchStage.rob.window := by
    have hboth : Sound s.executed ∧ Keeps s.memoryDone.branchStage s.executed :=
      aluStage_induction (P := fun t => Sound t ∧ Keeps s.memoryDone.branchStage t)
        ⟨h.sound_branchDone, fun x hx _ => hx⟩ fun t i ht hi => ⟨ht.1.executeAlu hi, by
          rw [executeAlu_eq]
          exact ht.2.trans (ht.1.finish_keeps i _)⟩
    exact hboth.2
  have hmem := hkeep e he hc
  have hcase := h.branchCase
  cases hcase with
  | none hi _ => rw [branchRecovered_none hi] at hr; cases hr
  | correct i hi hm _ => rw [branchRecovered_some hi, hm] at hr; cases hr
  | mispredicted i _ _ pre b post _ _ hrec =>
      -- `e` sits in front of the branch, the youngest slot at or behind it
      rw [hrec.window] at hmem
      have hpre : e ∈ pre := by
        rcases List.mem_append.mp hmem with hpre | hb
        · exact hpre
        · rw [List.mem_singleton.mp hb] at hc
          cases hc
      obtain ⟨front, hslots⟩ := h.memoryDone_slots
      have hidx : (s.rob.window.map ROBEntry.robIndex).getLast? = some e.robIndex := by
        rw [List.getLast?_map, hlast]
        rfl
      have hnodup := h.sound_memoryDone.inFlight.rob_wf.nodup_robIndex
      rw [hslots, hrec.split, List.map_append, ← List.append_assoc,
        List.getLast?_append_of_ne_nil _ (by simp)] at hidx
      rw [hrec.split, List.map_append, List.nodup_append] at hnodup
      exact hnodup.2.2 e.robIndex (List.mem_map_of_mem hpre) e.robIndex
        (List.mem_of_getLast? hidx) rfl

/-! ## Retirement -/

/-- The commit events of one step; a halted machine retires nothing. -/
def stepEvents (s : SuperScalarCPU cfg) : List CommitEvent :=
  if s.halted then [] else (runCommitUnit s).2

/-- The commit events of the first `n` steps. -/
def retired (s0 : SuperScalarCPU cfg) : Nat → List CommitEvent
  | 0 => []
  | n + 1 => retired s0 n ++ (run s0 n).stepEvents

theorem Steps.stepEvents_eq (h : Steps s) {es : List ROBEntry} (hc : Commits s s.committed es) :
    s.stepEvents = es.map (CommitUnit.makeEvent s.prf) := by
  rw [stepEvents, h.running]
  exact hc.events

/-- A halted machine stands still. -/
theorem next_of_halted (h : s.halted = true) : s.next = { s with cycles := s.cycles + 1 } := by
  rw [next, if_pos h]

end SuperScalarCPU

end CpuSim.SuperScalar
