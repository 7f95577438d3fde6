/-
  CpuSim.SuperScalar.RenameStep

  Renaming across a whole step, and the map a recovery restores.  Rename takes
  registers before dispatch knows whether there is a slot, so the step lemma asks
  for a slot for every instruction that was given a register.
-/

import CpuSim.SuperScalar.RenameMap

namespace CpuSim.SuperScalar

open CpuSim.Lib.Renaming

namespace SuperScalarCPU

variable {cfg : Config} {s t s0 : SuperScalarCPU cfg} {m : Register → PhysicalRegister} {n : Nat}

/-! ## Conditions on a step -/

/-- The registers the rename unit is about to hand out. -/
def handedOut (s : SuperScalarCPU cfg) : List PhysicalRegister :=
  s.executed.freeList.freeRegisters.take
    (RenameUnit.needed s.executed.renInput0 s.executed.renInput1)

/-- The alias table knows every register that is handed out. -/
def RegistersInRange (s : SuperScalarCPU cfg) : Prop :=
  s.renames = true → ∀ p ∈ s.handedOut, p < cfg.prfCount

/-- There is a slot in both queues for lane 0. -/
def RoomForOne (s : SuperScalarCPU cfg) : Prop :=
  s.executed.rob.count < cfg.robCapacity ∧ s.executed.iq.count < cfg.iqCapacity

/-- There is a slot in both queues for lane 1 behind lane 0. -/
def RoomForTwo (s : SuperScalarCPU cfg) : Prop :=
  s.executed.rob.count + 1 < cfg.robCapacity ∧
    s.executed.iq.count + (if s.executed.decodeLane0.opcode = .NOP then 0 else 1) < cfg.iqCapacity

/-- An instruction that takes a register finds a slot; lane 1 is dropped on purpose
    behind a `HALT` in lane 0. -/
def NoOrphan (s : SuperScalarCPU cfg) : Prop :=
  s.renames = true →
    (s.executed.renInput0.valid = true → s.executed.renInput0.registerWrite = true →
      s.RoomForOne) ∧
    (s.executed.renInput1.valid = true → s.executed.renInput1.registerWrite = true →
      s.RoomForOne ∧ (s.executed.decodeLane0.halt = false → s.RoomForTwo))

/-- A branch that recovers was not followed, in its own bundle, by an instruction that
    takes a register: its snapshot names no destination of a squashed entry. -/
def RecoveryClean (s : SuperScalarCPU cfg) : Prop :=
  ∀ i, s.memoryDone.selectBranch = some i →
    (s.memoryDone.branchResult i).mispredicted = true →
      Renaming.SnapshotClean s.memoryDone.rob (s.memoryDone.branchResult i).robIndex

/-- The three conditions under which renaming survives a step. -/
structure OrderlyRename (s : SuperScalarCPU cfg) : Prop where
  inRange : RegistersInRange s
  noOrphan : NoOrphan s
  clean : RecoveryClean s

instance (s : SuperScalarCPU cfg) : Decidable s.RegistersInRange := by
  unfold RegistersInRange
  infer_instance

instance (s : SuperScalarCPU cfg) : Decidable s.RoomForOne := by
  unfold RoomForOne
  infer_instance

instance (s : SuperScalarCPU cfg) : Decidable s.RoomForTwo := by
  unfold RoomForTwo
  infer_instance

instance (s : SuperScalarCPU cfg) : Decidable s.NoOrphan := by
  unfold NoOrphan
  infer_instance

instance {k : Nat} (rob : ReOrderBuffer k) (idx : Nat) :
    Decidable (Renaming.SnapshotClean rob idx) := by
  unfold Renaming.SnapshotClean
  infer_instance

instance (s : SuperScalarCPU cfg) : Decidable s.RecoveryClean :=
  inferInstanceAs (Decidable (∀ i ∈ s.memoryDone.selectBranch,
    (s.memoryDone.branchResult i).mispredicted = true →
      Renaming.SnapshotClean s.memoryDone.rob (s.memoryDone.branchResult i).robIndex))

instance (s : SuperScalarCPU cfg) : Decidable s.OrderlyRename :=
  decidable_of_iff (s.RegistersInRange ∧ s.NoOrphan ∧ s.RecoveryClean)
    ⟨fun h => ⟨h.1, h.2.1, h.2.2⟩, fun h => ⟨h.inRange, h.noOrphan, h.clean⟩⟩

/-! ## The two lanes -/

theorem length_names_singleton {n : Nat} {u u' : RenameUnit n} {input : DecodeBundle}
    {out : RenameBundle} (h : RenameUnit.Renames u input out u') :
    (names RenameBundle.dst [out]).length =
      if input.valid && input.registerWrite then 1 else 0 := by
  rw [← h.dst_isSome]
  cases hd : out.dst with
  | none => rw [names_cons_none hd]; rfl
  | some d => rw [names_cons_some (r := d.1) (p := d.2) hd]; rfl

/-- What rename hands out are the names of the two outputs. -/
theorem handedOut_eq {u0 : RenameUnit cfg.prfCount}
    (h0 : RenameUnit.Renames
      { rat := s.executed.rat, freeList := s.executed.freeList, prf := s.executed.prf }
      s.executed.renInput0 s.executed.renameOutputs.1 u0)
    (h1 : RenameUnit.Renames u0 s.executed.renInput1 s.executed.renameOutputs.2.1
      s.executed.renameOutputs.2.2) :
    s.executed.freeList.freeRegisters =
        s.handedOut ++ s.executed.renameOutputs.2.2.freeList.freeRegisters ∧
      s.handedOut =
        names RenameBundle.dst [s.executed.renameOutputs.1] ++
          names RenameBundle.dst [s.executed.renameOutputs.2.1] := by
  have hf0 : s.executed.freeList.freeRegisters = _ := h0.freeList_eq
  have hf1 := h1.freeList_eq
  rw [hf1, ← List.append_assoc] at hf0
  -- the lanes take from the front of the list, one register for each writer
  have hlen : (names RenameBundle.dst [s.executed.renameOutputs.1] ++
      names RenameBundle.dst [s.executed.renameOutputs.2.1]).length =
      RenameUnit.needed s.executed.renInput0 s.executed.renInput1 := by
    rw [List.length_append, length_names_singleton h0, length_names_singleton h1,
      RenameUnit.needed]
  have htake : s.handedOut = names RenameBundle.dst [s.executed.renameOutputs.1] ++
      names RenameBundle.dst [s.executed.renameOutputs.2.1] := by
    rw [handedOut, hf0, ← hlen, List.take_left]
  exact ⟨by rw [htake]; exact hf0, htake⟩

/-- Both words of a bundle that renames anything are valid. -/
theorem Steps.bundle_valid (h : Steps s) (hs : Streaming s) (hr : s.renames = true)
    (hv : s.executed.renInput0.valid = true ∨ s.executed.renInput1.valid = true) :
    s.executed.decodeLane0.valid = true ∧ s.executed.decodeLane1.valid = true := by
  have hfront := h.executed_frontend (h.of_renames hr).1
  have hdec : ∃ p, s.frontend.decodeBundle = s.imem.bundleAt p := by
    rcases hv with hv | hv
    · obtain ⟨p, hp, -⟩ := h.input0 hs hr hv
      exact ⟨p, hp⟩
    · obtain ⟨p, hp, -⟩ := h.input1 hs hr hv
      exact ⟨p, hp⟩
  obtain ⟨p, hp⟩ := hdec
  rw [decodeLane0, decodeLane1, hfront, hp]
  exact ⟨decode_valid _ _ _, decode_valid _ _ _⟩

/-- A step that renames starts dispatch with the fence down. -/
theorem Steps.executed_open (h : Steps s) (hr : s.renames = true) :
    s.executed.haltDispatched = false := by
  rw [h.executed_haltDispatched, (h.of_renames hr).2, Bool.false_and]

/-- Lane 0 is dispatched exactly when there is room for it. -/
theorem Steps.dispatched0_iff (h : Steps s) (hs : Streaming s) (hr : s.renames = true)
    (hv : s.executed.renInput0.valid = true) : s.dispatched0 = true ↔ s.RoomForOne := by
  obtain ⟨hv0, hv1⟩ := h.bundle_valid hs hr (Or.inl hv)
  rw [dispatched0, hr, Bool.true_and]
  exact (dispatched_iff h.sound_executed (canRename_of_renames hr) (h.executed_open hr) hv0 hv1).1

/-- Behind a dispatched lane 0 that is no `HALT`, lane 1 is handed to dispatch and enters
    exactly when there is room for both. -/
theorem Steps.dispatched1_iff (h : Steps s) (hs : Streaming s) (hr : s.renames = true)
    (hv : s.executed.renInput1.valid = true) (hone : s.RoomForOne)
    (hhalt : s.executed.decodeLane0.halt = false) :
    s.betweenLanes.haltDispatched = false ∧ (s.dispatched1 = true ↔ s.RoomForTwo) := by
  obtain ⟨hv0, hv1⟩ := h.bundle_valid hs hr (Or.inr hv)
  obtain ⟨hopen, hiff⟩ := (dispatched_iff h.sound_executed (canRename_of_renames hr)
    (h.executed_open hr) hv0 hv1).2 hone.1 hone.2 (s.executed.renInput1_open hv) hhalt
  refine ⟨hopen, ?_⟩
  rw [dispatched1, hr, betweenLanes, hopen, Bool.true_and, Bool.not_false, Bool.true_and]
  exact hiff

/-- A `HALT` that finds room in lane 0 closes dispatch. -/
theorem Steps.next_haltDispatched_of_halt (h : Steps s) (hr : s.renames = true)
    (hv0 : s.executed.decodeLane0.valid = true) (hone : s.RoomForOne)
    (hhalt : s.executed.decodeLane0.halt = true) :
    s.next.haltDispatched = true ∧ s.dispatched1 = false := by
  have hcan := canRename_of_renames hr
  obtain ⟨hs0, hr0, -⟩ := h.sound_executed.rename hcan
  obtain ⟨hren, hh, -⟩ := renamed0_fields h.sound_executed hcan hv0
  have hbetween : s.betweenLanes.haltDispatched = true := by
    rw [betweenLanes, (entered_counts hs0 hr0 hren hone.1 hone.2).2.2, hh, hhalt, Bool.or_true]
  refine ⟨?_, by rw [dispatched1, hbetween, hr]; rfl⟩
  obtain ⟨f, hf⟩ := h.next_backend
  rw [hf, hr, if_pos rfl, dispatchLanes]
  rw [betweenLanes] at hbetween
  simp only [hbetween, Bool.not_true, Bool.false_eq_true, if_false]
  exact hbetween

/-- Under `NoOrphan` a lane that is not dispatched took no register, up to the drop
    behind a `HALT`. -/
theorem Steps.orphans (h : Steps s) (hs : Streaming s) (hr : s.renames = true)
    (hn : NoOrphan s) :
    (s.dispatched0 = false → s.executed.renameOutputs.1.dst = none) ∧
      (s.dispatched1 = false → s.executed.renameOutputs.2.1.dst = none ∨
        (s.next.haltDispatched = true ∧ s.executed.decodeLane0.halt = true)) := by
  obtain ⟨u0, h0, h1⟩ := h.lanes hr
  obtain ⟨hn0, hn1⟩ := hn hr
  have hw0 := h0.dst_isSome
  have hw1 := h1.dst_isSome
  constructor
  · intro hd
    -- a writer that was refused would have kept its register
    by_contra hne
    rw [Option.isSome_iff_ne_none.mpr hne] at hw0
    obtain ⟨hv, hw⟩ := Bool.and_eq_true_iff.mp hw0.symm
    rw [(h.dispatched0_iff hs hr hv).mpr (hn0 hv hw)] at hd
    cases hd
  · intro hd
    by_contra hne
    obtain ⟨hne, hnh⟩ := not_or.mp hne
    rw [Option.isSome_iff_ne_none.mpr hne] at hw1
    obtain ⟨hv, hw⟩ := Bool.and_eq_true_iff.mp hw1.symm
    have hv0 := (h.bundle_valid hs hr (Or.inr hv)).1
    obtain ⟨hone, htwo⟩ := hn1 hv hw
    cases hh : s.executed.decodeLane0.halt with
    -- the fence went up in lane 0, so the map that lane 1 changed is dropped
    | true => exact hnh ⟨(h.next_haltDispatched_of_halt hr hv0 hone hh).1, hh⟩
    | false =>
        rw [(h.dispatched1_iff hs hr hv hone hh).2.mpr (htwo hh)] at hd
        cases hd

/-! ## The step -/

/-- The map after what a step dispatches, one lane at a time. -/
theorem Steps.mapAfter_entered (h : Steps s) (hr : s.renames = true)
    (ho0 : s.dispatched0 = false → s.executed.renameOutputs.1.dst = none)
    (m : Register → PhysicalRegister) :
    mapAfter m (if s.dispatched0 then [s.entry0] else []) =
        advance RenameBundle.dst m s.executed.renameOutputs.1 ∧
      names ROBEntry.dst (if s.dispatched0 then [s.entry0] else []) =
        names RenameBundle.dst [s.executed.renameOutputs.1] := by
  cases hd : s.dispatched0 with
  | false =>
      have hnone := ho0 hd
      exact ⟨(advance_none hnone).symm, by rw [names_cons_none hnone]; rfl⟩
  | true =>
      obtain ⟨u0, h0, -⟩ := h.lanes hr
      have hv := h0.valid.trans (h.of_dispatched0 hd).2.1
      have hdst : s.entry0.dst = s.executed.renameOutputs.1.dst := ROBEntry.dst_laneEntry _ hv
      refine ⟨?_, ?_⟩
      · show advance ROBEntry.dst m s.entry0 = _
        rw [advance, advance, hdst]
      · exact names_singleton hdst

/-- The destination of the entry lane 1 leaves. -/
theorem Steps.dst_entry1 (h : Steps s) (hd : s.dispatched1 = true) :
    s.entry1.dst = s.executed.renameOutputs.2.1.dst := by
  obtain ⟨hr, hv, -⟩ := h.of_dispatched1 hd
  obtain ⟨u0, -, h1⟩ := h.lanes hr
  exact ROBEntry.dst_laneEntry _ (h1.valid.trans hv)

/-- The tables the two lanes are renamed with. -/
structure Tables (s : SuperScalarCPU cfg) (m : Register → PhysicalRegister)
    (u0 : RenameUnit cfg.prfCount) : Prop where
  lane0 : RenameUnit.Renames
    { rat := s.executed.rat, freeList := s.executed.freeList, prf := s.executed.prf }
    s.executed.renInput0 s.executed.renameOutputs.1 u0
  lane1 : RenameUnit.Renames u0 s.executed.renInput1 s.executed.renameOutputs.2.1
    s.executed.renameOutputs.2.2
  before : s.executed.rat.table = mapAfter m s.executed.rob.window
  between : u0.rat.table =
    mapAfter m (s.executed.rob.window ++ if s.dispatched0 then [s.entry0] else [])
  after : s.executed.renameOutputs.2.2.rat.table =
    advance RenameBundle.dst u0.rat.table s.executed.renameOutputs.2.1
  count : s.executed.renameOutputs.2.2.rat.physicalRegCount = cfg.prfCount

theorem Steps.tables (h : Steps s) (hs : Streaming s) (hr : s.renames = true)
    (hR : Renaming m s.executed) (hrange : RegistersInRange s) (hn : NoOrphan s) :
    ∃ u0, Tables s m u0 := by
  obtain ⟨u0, h0, h1⟩ := h.lanes hr
  obtain ⟨-, hnames⟩ := handedOut_eq h0 h1
  have hlt := hrange hr
  rw [hnames] at hlt
  have htable := hR.table (h.executed_open hr)
  obtain ⟨ht0, hc0⟩ := h0.table_eq fun p hp => by
    show p < s.executed.rat.physicalRegCount
    rw [hR.count]
    exact hlt p (List.mem_append_left _ hp)
  have hc0 : u0.rat.physicalRegCount = cfg.prfCount := hc0.trans hR.count
  obtain ⟨ht1, hc1⟩ := h1.table_eq fun p hp => by
    rw [hc0]
    exact hlt p (List.mem_append_right _ hp)
  refine ⟨u0, h0, h1, htable, ?_, ht1, hc1.trans hc0⟩
  rw [mapAfter_append, ← htable]
  exact ht0.trans (h.mapAfter_entered hr (h.orphans hs hr hn).1 _).1.symm

/-- Nothing but the register of an instruction dropped behind a `HALT` gets lost. -/
theorem Steps.pool_next (h : Steps s) (hs : Streaming s) (hr : s.renames = true)
    (hn : NoOrphan s) {u0 : RenameUnit cfg.prfCount} (ht : Tables s m u0) :
    pool m s.next +
        ((if s.dispatched1 then [] else names RenameBundle.dst [s.executed.renameOutputs.2.1] :
          List PhysicalRegister) : Multiset PhysicalRegister) =
      pool m s.executed := by
  obtain ⟨hfree, hhanded⟩ := handedOut_eq ht.lane0 ht.lane1
  -- the register of lane 1 is in the window, or missing from the pool
  have hlane1 : (names ROBEntry.dst (if s.dispatched1 then [s.entry1] else []) :
        Multiset PhysicalRegister) +
      ((if s.dispatched1 then [] else names RenameBundle.dst [s.executed.renameOutputs.2.1] :
        List PhysicalRegister) : Multiset PhysicalRegister) =
      (names RenameBundle.dst [s.executed.renameOutputs.2.1] : Multiset PhysicalRegister) := by
    cases hd : s.dispatched1 with
    | false => simp
    | true =>
        simp only [if_true, names_singleton (h.dst_entry1 hd)]
        exact add_zero _
  rw [pool, pool, h.window_next, (h.next_renamed hr).2.2.1, entered, names_append, names_append,
    (h.mapAfter_entered hr (h.orphans hs hr hn).1 m).2, hfree, hhanded]
  simp only [← Multiset.coe_add]
  rw [← hlane1]
  abel

namespace Renaming

theorem records_next (h : Steps s) {u0 : RenameUnit cfg.prfCount} (ht : Tables s m u0)
    (hR : Renaming m s.executed) :
    Records ROBEntry.dst ROBEntry.oldPhysicalRd m s.next.rob.window := by
  rw [h.window_next, entered, ← List.append_assoc]
  have hfirst : Records ROBEntry.dst ROBEntry.oldPhysicalRd m
      (s.executed.rob.window ++ if s.dispatched0 then [s.entry0] else []) := by
    cases hd : s.dispatched0 with
    | false =>
        show Records _ _ _ (s.executed.rob.window ++ [])
        rw [List.append_nil]
        exact hR.records
    | true =>
        have hv := ht.lane0.valid.trans (h.of_dispatched0 hd).2.1
        refine Records.concat_iff.mpr ⟨hR.records, fun r p hdst => ?_⟩
        have hdst' : s.executed.renameOutputs.1.dst = some (r, p) :=
          (ROBEntry.dst_laneEntry _ hv).symm.trans hdst
        -- the old register was looked up in the map of everything in front
        have hold := ht.lane0.lookups.1 r p hdst'
        rw [entry0, laneEntry_eq]
        exact hold.trans (congrFun ht.before r)
  cases hd : s.dispatched1 with
  | false =>
      show Records _ _ _ (_ ++ [])
      rw [List.append_nil]
      exact hfirst
  | true =>
      refine Records.concat_iff.mpr ⟨hfirst, fun r p hdst => ?_⟩
      have hold := ht.lane1.lookups.1 r p ((h.dst_entry1 hd).symm.trans hdst)
      rw [entry1, laneEntry_eq]
      exact hold.trans (congrFun ht.between r)

/-- Both lanes take their snapshot when both are renamed: for a branch in lane 1 that is
    the map behind it, for a branch in lane 0 the map behind its mate. -/
theorem snapshot_next (h : Steps s) (hs : Streaming s) (hr : s.renames = true)
    (hn : NoOrphan s) {u0 : RenameUnit cfg.prfCount} (ht : Tables s m u0)
    (hR : Renaming m s.executed) (pre : List ROBEntry) (b : ROBEntry) (post : List ROBEntry)
    (hw : s.next.rob.window = pre ++ b :: post) (hb : b.branch = true)
    (hc : b.completed = false) : SnapshotOf m pre b post := by
  have hafter : s.executed.afterRename.rat.table = s.executed.renameOutputs.2.2.rat.table := rfl
  rcases h.split_next hw with ⟨mid, hold, hpost⟩ | ⟨hd0, rfl, rfl, hpost⟩ | ⟨hd1, rfl, -, hpre⟩
  · rcases hR.snapshot pre b mid hold hb hc with hcp | ⟨mate, rest, rfl, hmw, hcp⟩
    · exact Or.inl hcp
    · exact Or.inr ⟨mate, rest ++ s.entered, hpost, hmw, hcp⟩
  · -- a branch in lane 0 takes no register itself
    have hv0 := ht.lane0.valid.trans (h.of_dispatched0 hd0).2.1
    have hcp : s.entry0.checkpoint.mappings = s.executed.renameOutputs.2.2.rat.table := by
      rw [entry0, laneEntry_eq] at hb ⊢
      rw [← hafter]
      simp only at hb ⊢
      rw [hb]
      rfl
    have hbetween := ht.between
    rw [hd0, if_pos rfl] at hbetween
    rw [ht.after, hbetween] at hcp
    cases hdst : s.executed.renameOutputs.2.1.dst with
    | none =>
        rw [advance_none hdst] at hcp
        exact Or.inl hcp
    | some d =>
        right
        have hd1 : s.dispatched1 = true := by
          by_contra hne
          rcases (h.orphans hs hr hn).2 (eq_false_of_ne_true hne) with hnone | ⟨-, hhalt⟩
          · rw [hnone] at hdst
            cases hdst
          · -- a branch is not a `HALT`
            have hin := (h.of_dispatched0 hd0).2.1
            obtain ⟨hl0, -⟩ := h.bundle_valid hs hr (Or.inl hin)
            have hmem : s.entry0 ∈ s.next.rob.window := by
              rw [hw]
              exact List.mem_append_right _ List.mem_cons_self
            have hno := ((h.sound_next.inFlight.entryDecoded _ hmem).of_branch hb).2.2.2
            rw [entry0, laneEntry_eq] at hno
            rw [← (renamed0_fields h.sound_executed (canRename_of_renames hr) hl0).2.1] at hhalt
            rw [hhalt] at hno
            cases hno
        refine ⟨s.entry1, [], by rw [hpost, hd1, if_pos rfl], ?_, ?_⟩
        · have hw1 : s.entry1.dst = some d := (h.dst_entry1 hd1).trans hdst
          rw [ROBEntry.dst] at hw1
          split at hw1
          · assumption
          · cases hw1
        · rw [mapAfter_pair, hcp]
          exact advance_congr (h.dst_entry1 hd1).symm
  · left
    have hcp : s.entry1.checkpoint.mappings = s.betweenLanes.rat.table := by
      rw [entry1, laneEntry_eq] at hb ⊢
      simp only at hb ⊢
      rw [hb]
      rfl
    have htable := (dispatchLane_table s.executed.afterRename s.executed.renameOutputs.1).1
    rw [hcp, betweenLanes, htable, hafter, ht.after, ht.between, ← hpre, mapAfter_append]
    exact advance_congr (h.dst_entry1 hd1).symm

/-- The queue entry of a renamed lane carries the names its sources have. -/
theorem sourcesOf_lane {k : Nat} {u u' : RenameUnit k} {input : DecodeBundle}
    {out : RenameBundle} (h : RenameUnit.Renames u input out u') (hv : input.valid = true)
    (hin : input.Decoded) {pre : List ROBEntry} (ht : u.rat.table = mapAfter m pre)
    (prf : PhysicalRegisterFile k) (idx : Nat) :
    SourcesOf m pre (DispatchUnit.makeIssueEntry prf out idx) := by
  obtain ⟨h1, h2⟩ := h.lookups.2 hv
  obtain ⟨old, p, hout⟩ := h.out_eq hv
  obtain ⟨pc, w, pr, hdec⟩ := hin
  have hpc : out.pc = pc := by rw [hout, hdec]; exact decodeWord_pc pc w
  have hw : out.instruction = w := by rw [hout, hdec]; exact decodeWord_instruction pc w
  rw [SourcesOf]
  show out.physicalRs1 = mapAfter m pre (decodeWord out.pc out.instruction).rs1 ∧
    out.physicalRs2 = mapAfter m pre (decodeWord out.pc out.instruction).rs2
  rw [hpc, hw, h1, h2, ht, hdec]
  exact ⟨rfl, rfl⟩

theorem laneEntry_matches (s : SuperScalarCPU cfg) (ren : RenameBundle)
    (prf : PhysicalRegisterFile cfg.prfCount) :
    (DispatchUnit.makeIssueEntry prf ren s.rob.tail).Matches (s.laneEntry ren) := by
  rw [laneEntry_eq]
  exact ⟨rfl, rfl, rfl, rfl, rfl, rfl⟩

theorem sources_next (h : Steps s) {u0 : RenameUnit cfg.prfCount} (ht : Tables s m u0)
    (hR : Renaming m s.executed) :
    ∀ q ∈ s.next.iq.live, ∃ pre e post, s.next.rob.window = pre ++ e :: post ∧ q.Matches e ∧
      SourcesOf m pre q := by
  intro q hq
  have hwin := h.window_next
  -- an old entry keeps its split, a new one has the window of its lane in front
  rcases h.live_next hq with hold | ⟨hd0, rfl⟩ | ⟨hd1, rfl⟩
  · obtain ⟨pre, e, post, hw, hm, hsrc⟩ := hR.sources q hold
    refine ⟨pre, e, post ++ s.entered, ?_, hm, hsrc⟩
    rw [hwin, hw, List.append_assoc]
    rfl
  · have hv := (h.of_dispatched0 hd0).2.1
    refine ⟨s.executed.rob.window, s.entry0, if s.dispatched1 then [s.entry1] else [], ?_,
      laneEntry_matches s.executed.afterRename _ _,
      sourcesOf_lane ht.lane0 hv (s.executed.renInput0_isDecoded hv) ht.before _ _⟩
    rw [hwin, entered, hd0]
    rfl
  · have hv := (h.of_dispatched1 hd1).2.1
    refine ⟨s.executed.rob.window ++ (if s.dispatched0 then [s.entry0] else []), s.entry1, [], ?_,
      laneEntry_matches s.betweenLanes _ _,
      sourcesOf_lane ht.lane1 hv (s.executed.renInput1_isDecoded hv) ht.between _ _⟩
    rw [hwin, entered, hd1, List.append_assoc]
    rfl

/-- One step of the front half: rename and dispatch keep the window a renaming. -/
theorem next (h : Steps s) (hs : Streaming s) (hrange : RegistersInRange s) (hn : NoOrphan s)
    (hR : Renaming m s.executed) : Renaming m s.next := by
  cases hr : s.renames with
  | false =>
      rw [h.next_idle hr]
      exact hR.congr rfl rfl rfl rfl rfl
  | true =>
      obtain ⟨u0, ht⟩ := h.tables hs hr hR hrange hn
      obtain ⟨htable, hcount, -, -⟩ := h.next_renamed hr
      refine ⟨hcount.trans ht.count, fun hd => ?_, records_next h ht hR, ?_,
        snapshot_next h hs hr hn ht hR, sources_next h ht hR⟩
      · rw [htable, ht.after, ht.between, h.window_next, entered, ← List.append_assoc,
          mapAfter_append m (_ ++ _)]
        cases hd1 : s.dispatched1 with
        | true => exact advance_congr (h.dst_entry1 hd1).symm
        | false =>
            rcases (h.orphans hs hr hn).2 hd1 with hnone | ⟨hhalt, -⟩
            · exact advance_none hnone
            · rw [hhalt] at hd
              cases hd
      · -- the pool loses at most the register of a lane 1 that was not dispatched
        exact Multiset.nodup_of_le (Multiset.le_iff_exists_add.mpr
          ⟨_, (h.pool_next hs hr hn ht).symm⟩) hR.distinct

/-- The back half: commit, execution and recovery. -/
theorem executed (h : Steps s) (hR : Renaming m s) (hclean : RecoveryClean s) :
    ∃ es, Commits s s.committed es ∧
      Renaming (mapAfter m es) s.memoryDone.branchStage ∧ Renaming (mapAfter m es) s.executed := by
  obtain ⟨es, hes⟩ := h.commits
  have hbranch : Renaming (mapAfter m es) s.memoryDone.branchStage :=
    ((hR.commit h.sound hes).memory h.sound_committed h.memoryCase).branch h.sound_memoryDone
      h.branchCase hclean
  have hboth : Sound s.executed ∧ Renaming (mapAfter m es) s.executed :=
    aluStage_induction (P := fun t => Sound t ∧ Renaming (mapAfter m es) t)
      ⟨h.sound_branchDone, hbranch⟩ fun t i ht hi => ⟨ht.1.executeAlu hi, ht.2.executeAlu ht.1 hi⟩
  exact ⟨es, hes, hbranch, hboth.2⟩

end Renaming

end SuperScalarCPU

end CpuSim.SuperScalar
