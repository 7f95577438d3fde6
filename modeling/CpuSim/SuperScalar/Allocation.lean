/-
  CpuSim.SuperScalar.Allocation

  The results of `lsq_.allocate` and `store_buffer_.allocate` that `step()` ignores.
  While no recovery leaves entries behind, the load/store queue has an entry for every
  instruction of the reorder buffer and the store buffer is the only one that can overflow.
-/

import CpuSim.SuperScalar.MemoryConsistency

namespace CpuSim.SuperScalar

namespace SuperScalarCPU

variable {cfg : Config} {s : SuperScalarCPU cfg} {ren : RenameBundle} {n : Nat}

/-! ## The ignored results -/

/-- If the lane is dispatched, the allocations made for it return `true`. -/
def LaneAllocates (s : SuperScalarCPU cfg) (ren : RenameBundle) : Prop :=
  ren.valid = true → ∀ d ∈ s.tryDispatch ren,
    if ren.memoryRead then (s.lsq.allocate .LOAD d.1 ren.pc ren.physicalRd).isSome = true
    else
      ren.memoryWrite = true →
        (s.lsq.allocate .STORE d.1 ren.pc 0).isSome = true ∧
          (s.storeBuffer.allocate d.1 ren.pc).isSome = true

instance (s : SuperScalarCPU cfg) (ren : RenameBundle) : Decidable (s.LaneAllocates ren) :=
  inferInstanceAs (Decidable (ren.valid = true → ∀ d ∈ s.tryDispatch ren, _))

/-- Every allocation of the step returns `true`. -/
def AllocationsSucceed (s : SuperScalarCPU cfg) : Prop :=
  s.renames = true →
    s.executed.afterRename.LaneAllocates s.executed.renameOutputs.1 ∧
      (s.betweenLanes.haltDispatched = false →
        s.betweenLanes.LaneAllocates s.executed.renameOutputs.2.1)

instance (s : SuperScalarCPU cfg) : Decidable s.AllocationsSucceed :=
  inferInstanceAs (Decidable (_ → _ ∧ (_ → _)))

theorem lsq_allocate_isSome {m : Nat} (q : LoadStoreQueue m) (type : OpType) (r : Nat) (pc : Word)
    (p : PhysicalRegister) : (q.allocate type r pc p).isSome = !q.full := by
  rw [LoadStoreQueue.allocate]
  cases q.full <;> rfl

theorem storeBuffer_allocate_isSome {m : Nat} (sb : StoreBuffer m) (r : Nat) (pc : Word) :
    (sb.allocate r pc).isSome = !sb.full := by
  rw [StoreBuffer.allocate]
  cases sb.full <;> rfl

/-- The allocations succeed where the queues are not full. -/
theorem laneAllocates_iff :
    s.LaneAllocates ren ↔
      (s.laneDispatched ren = true →
        (ren.memoryRead = true ∨ ren.memoryWrite = true → s.lsq.full = false) ∧
          (ren.memoryRead = false → ren.memoryWrite = true → s.storeBuffer.full = false)) := by
  rw [LaneAllocates, laneDispatched]
  cases hv : ren.valid with
  | false => simp
  | true =>
      cases htry : s.tryDispatch ren with
      | none => simp
      | some d =>
          cases hr : ren.memoryRead <;> cases hw : ren.memoryWrite <;>
            simp [lsq_allocate_isSome, storeBuffer_allocate_isSome]

/-! ## Room and occupancy -/

section Lane

variable {own : Nat → Word × Word}

/-- How many slots of memory operations and of stores a lane leaves in the window. -/
theorem QueuesTrack.lane_lengths (h : QueuesTrack own s) (hs : Sound s)
    (hb : Sound.Renamed ren) :
    (memSlots (s.dispatchLane ren).rob.window).length =
        s.lsq.entries.length +
          (if s.laneDispatched ren && (ren.memoryRead || ren.memoryWrite) then 1 else 0) ∧
      (storeSlots (s.dispatchLane ren).rob.window).length =
        s.storeBuffer.entries.length +
          (if s.laneDispatched ren && ren.memoryWrite then 1 else 0) := by
  obtain ⟨hmem, hstore⟩ := laneEntry_slots s ren
  have hlsq := congrArg List.length h.lsq.slots
  have hsb := congrArg List.length h.stores.slots
  rw [LoadStoreQueue.slots, List.length_map] at hlsq
  rw [StoreBuffer.slots, List.length_map] at hsb
  rw [dispatchLane_window hs hb, memSlots_append, storeSlots_append, List.length_append,
    List.length_append, hlsq, hsb]
  cases s.laneDispatched ren with
  | false => exact ⟨rfl, rfl⟩
  | true =>
      rw [if_pos rfl, hmem, hstore, Bool.true_and, Bool.true_and]
      constructor
      · split <;> rfl
      · split <;> rfl

/-- Allocation succeeds exactly when the queues still fit the window afterwards. -/
theorem QueuesTrack.laneAllocates_iff_fit (h : QueuesTrack own s) (hbound : QueuesBounded s)
    (hs : Sound s) (hb : Sound.Renamed ren) :
    s.LaneAllocates ren ↔ QueuesFit (s.dispatchLane ren) := by
  obtain ⟨hmem, hstore⟩ := h.lane_lengths hs hb
  have hlsq := hbound.lsq
  have hsb := hbound.storeBuffer
  rw [laneAllocates_iff, QueuesFit, hmem, hstore]
  simp only [LoadStoreQueue.full, StoreBuffer.full, decide_eq_false_iff_not, Nat.not_le]
  cases hd : s.laneDispatched ren with
  | false =>
      simp only [Bool.false_and, Bool.false_eq_true, if_false, false_imp_iff, true_iff]
      exact ⟨hlsq, hsb⟩
  | true =>
      -- a load is no store, so the store buffer is asked for stores only
      have hclass : ren.memoryRead = true → ren.memoryWrite = false := fun hr =>
        ((hb ((laneDispatched_iff hs.inFlight).mp hd).1).1.classes.1 hr).1
      cases hr : ren.memoryRead <;> cases hw : ren.memoryWrite
      · simp only [Bool.false_eq_true, or_self, IsEmpty.forall_iff, imp_self, and_self,
          Bool.or_self, Bool.and_false, ↓reduceIte, add_zero, true_iff]
        omega
      · simp only [Bool.false_eq_true, or_true, forall_const, Bool.or_true, Bool.and_self,
          ↓reduceIte]
        omega
      · simp only [Bool.false_eq_true, or_false, forall_const, Bool.true_eq_false,
          IsEmpty.forall_iff, and_true, Bool.or_false, Bool.and_self, ↓reduceIte, Bool.and_false,
          add_zero]
        omega
      · rw [hclass hr] at hw
        cases hw

end Lane

/-! ## Steps and runs -/

/-- In a step from exact queues every allocation succeeds if and only if the queues fit
    what is in flight afterwards. -/
theorem QueuesTrack.allocations_iff {own : Nat → Word × Word} (h : QueuesTrack own s)
    (hbound : QueuesBounded s) (hs : Steps s) (hno : NoMemorySquash s) :
    AllocationsSucceed s ↔ QueuesFit s.next := by
  have hexec := h.executed hs hno
  have hbexec := hbound.executed hs
  have hrenamed : QueuesTrack (storesAfter s.committed.memUnit.execute.1 own)
      s.executed.afterRename :=
    ⟨⟨hexec.lsq.valid, hexec.lsq.slots⟩, hexec.stores.of_stores rfl rfl fun e he _ => he⟩
  have hbrenamed : QueuesBounded s.executed.afterRename := ⟨hbexec.lsq, hbexec.storeBuffer⟩
  constructor
  · intro hall
    -- each lane that allocates leaves exact queues for the next one
    have hnext := hs.next_lanes
      (P := fun t => QueuesTrack (storesAfter s.committed.memUnit.execute.1 own) t ∧
        QueuesBounded t)
      (fun t f ht => ⟨⟨⟨ht.1.lsq.valid, ht.1.lsq.slots⟩, ht.1.stores.of_stores rfl rfl
        fun e he _ => he⟩, ht.2.lsq, ht.2.storeBuffer⟩)
      ⟨hexec, hbexec⟩ (fun _ => ⟨hrenamed, hbrenamed⟩)
      (fun hr ht => by
        obtain ⟨hs0, -, hr0, -⟩ := hs.sound_lanes hr
        have hfit := (ht.1.laneAllocates_iff_fit ht.2 hs0 hr0).mp (hall hr).1
        exact ⟨ht.1.dispatchLane hs0 hr0 hfit, ht.2.dispatchLane hs0 hr0⟩)
      fun hr hflag ht => by
        obtain ⟨-, hs1, -, hr1⟩ := hs.sound_lanes hr
        have hfit := (ht.1.laneAllocates_iff_fit ht.2 hs1 hr1).mp ((hall hr).2 hflag)
        exact ⟨ht.1.dispatchLane hs1 hr1 hfit, ht.2.dispatchLane hs1 hr1⟩
    exact hnext.1.queuesMatch.fit hnext.2
  · intro hfit hr
    obtain ⟨hs0, hs1, hr0, hr1⟩ := hs.sound_lanes hr
    obtain ⟨⟨post, hpost⟩, hlane⟩ := hs.lane_windows hr
    have hfit0 := hfit.of_window hpost
    have hbetween : QueuesTrack _ s.betweenLanes := hrenamed.dispatchLane hs0 hr0 hfit0
    have hbbetween : QueuesBounded s.betweenLanes := hbrenamed.dispatchLane hs0 hr0
    refine ⟨(hrenamed.laneAllocates_iff_fit hbrenamed hs0 hr0).mpr hfit0, fun hflag => ?_⟩
    apply (hbetween.laneAllocates_iff_fit hbbetween hs1 hr1).mpr
    exact hfit.of_window ((hlane hflag).symm.trans (List.append_nil _).symm)

/-- The reorder buffer is no larger than the load/store queue, so only stores count. -/
theorem queuesFit_iff (hs : Sound s) (hcap : cfg.robCapacity ≤ cfg.lsqCapacity) :
    QueuesFit s ↔ (storeSlots s.rob.window).length ≤ cfg.storeBufferCapacity := by
  refine and_iff_right ?_
  have hwindow : s.rob.window.length ≤ cfg.robCapacity := by
    rw [ReOrderBuffer.length_window]
    exact hs.inFlight.rob_wf.count_le
  have hslots : (memSlots s.rob.window).length ≤ _ := memSlots_sublist.length_le
  rw [List.length_map] at hslots
  exact hslots.trans (hwindow.trans hcap)

/-- Along a run whose recoveries squash no load or store, on either of the two
    instantiations: no ignored allocation fails if and only if the reorder buffer never
    held more stores than the store buffer has entries. -/
theorem allocations_succeed_iff (cfg : Config)
    (hcfg : cfg = .default ∨ cfg = .superScalarCPU32) (words : List Word)
    (data : List (Nat × Word)) (n : Nat)
    (hkept : ∀ k < n, (run (boot cfg words data) k).halted = false →
      NoMemorySquash (run (boot cfg words data) k)) :
    (∀ k < n, (run (boot cfg words data) k).halted = false →
        AllocationsSucceed (run (boot cfg words data) k)) ↔
      ∀ k ≤ n, (storeSlots (run (boot cfg words data) k).rob.window).length ≤
        cfg.storeBufferCapacity := by
  have hcap : cfg.robCapacity ≤ cfg.lsqCapacity := by
    rcases hcfg with rfl | rfl <;> decide
  have hsound := fun k => (run_sound_fence cfg words data k).1
  have hbound := run_queuesBounded cfg words data
  have hfits : (∀ k ≤ n, (storeSlots (run (boot cfg words data) k).rob.window).length ≤
      cfg.storeBufferCapacity) ↔ ∀ k ≤ n, QueuesFit (run (boot cfg words data) k) :=
    forall₂_congr fun k _ => (queuesFit_iff (hsound k) hcap).symm
  rw [hfits]
  constructor
  · intro hall
    -- the queues are exact up to the state reached, so they fit in the next one as well
    have hupto : ∀ k, k ≤ n → ∀ j ≤ k, QueuesFit (run (boot cfg words data) j) := by
      intro k
      induction k with
      | zero =>
          intro _ j hj
          rw [Nat.le_zero.mp hj]
          exact (QueuesTrack.boot cfg words data).queuesMatch.fit (hbound 0)
      | succ k ih =>
          intro hk j hj
          have hfit := ih (Nat.le_of_succ_le hk)
          rcases Nat.le_succ_iff.mp hj with hj | rfl
          · exact hfit j hj
          · rw [run, step]
            cases hgo : (run (boot cfg words data) k).halted with
            | true =>
                rw [next_of_halted hgo]
                exact hfit k (Nat.le_refl k)
            | false =>
                have htrack := (run_queuesTrack ⟨fun i hi => hkept i (hi.trans hk), hfit⟩).1
                exact (htrack.allocations_iff (hbound k) (run_steps hgo)
                  (hkept k hk hgo)).mp (hall k hk hgo)
    intro k hk
    exact hupto k hk k (Nat.le_refl k)
  · intro hfit k hk hgo
    have htrack := (run_queuesTrack (n := k)
      ⟨fun j hj => hkept j (hj.trans hk), fun j hj => hfit j (hj.trans (Nat.le_of_lt hk))⟩).1
    exact (htrack.allocations_iff (hbound k) (run_steps hgo) (hkept k hk hgo)).mpr
      (hfit (k + 1) hk)

/-- Three stores in a row, with nothing to squash. -/
theorem allocations_succeed_three_stores :
    (∀ k < 4, (run (boot .default [0x28000000, 0x28000000, 0x28000000] []) k).halted = false →
        AllocationsSucceed (run (boot .default [0x28000000, 0x28000000, 0x28000000] []) k)) ↔
      ∀ k ≤ 4, (storeSlots
        (run (boot .default [0x28000000, 0x28000000, 0x28000000] []) k).rob.window).length ≤ 16 :=
  allocations_succeed_iff .default (Or.inl rfl) [0x28000000, 0x28000000, 0x28000000] [] 4
    (by decide +kernel)

/-- A burst of stores overflows the store buffer of `SuperScalarCPU32`; behind a squashed
    store (`BEQ r0, r0, 8` and its lane mate) it overflows the default one as well. -/
theorem store_burst_allocation_fails :
    ¬ AllocationsSucceed (run (boot .superScalarCPU32 (List.replicate 24 0x28000000) []) 9) ∧
      ¬ AllocationsSucceed
        (run (boot .default (0x2C000008 :: List.replicate 24 0x28000000) []) 12) := by
  decide +kernel

end SuperScalarCPU

end CpuSim.SuperScalar
