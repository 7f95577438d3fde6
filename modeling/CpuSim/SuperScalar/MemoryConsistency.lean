/-
  CpuSim.SuperScalar.MemoryConsistency

  The load/store queue and the store buffer against the reorder buffer, over runs.
  They name exactly the memory operations in flight in every state of a run if and only
  if no recovery squashed a memory operation and the window never held more of them than
  the queues; commit then writes to memory what the retired stores computed.
-/

import CpuSim.SuperScalar.StoreFlow

namespace CpuSim.SuperScalar

open CpuSim.Lib

variable {cfg : Config}

namespace SuperScalarCPU

variable {s t : SuperScalarCPU cfg} {n : Nat}

/-! ## Capacity -/

/-- Neither queue holds more entries than its capacity. -/
structure QueuesBounded (s : SuperScalarCPU cfg) : Prop where
  lsq : s.lsq.entries.length ≤ cfg.lsqCapacity
  storeBuffer : s.storeBuffer.entries.length ≤ cfg.storeBufferCapacity

theorem length_removeAll {m : Nat} (q : LoadStoreQueue m) (es : List ROBEntry) :
    (es.foldl (fun q e => q.remove e.robIndex) q).entries.length ≤ q.entries.length := by
  induction es generalizing q with
  | nil => exact Nat.le_refl _
  | cons e es ih =>
      rw [List.foldl_cons]
      exact (ih _).trans (List.eraseP_sublist.length_le)

theorem length_markAll {m : Nat} (sb : StoreBuffer m) (es : List ROBEntry) :
    (CommitUnit.markAll sb es).entries.length = sb.entries.length := by
  induction es generalizing sb with
  | nil => rfl
  | cons e es ih =>
      rw [CommitUnit.markAll, List.foldl_cons]
      refine (ih _).trans ?_
      split
      · have hslots : (sb.markCommitted e.robIndex).slots = sb.slots :=
          map_updateFirst fun _ => rfl
        have hlen := congrArg List.length hslots
        rwa [StoreBuffer.slots, StoreBuffer.slots, List.length_map, List.length_map] at hlen
      · rfl

theorem length_drain {m k : Nat} (es : List ROBEntry) (x : StoreBuffer m × DataMemory k) :
    (es.foldl drainStep x).1.entries.length ≤ x.1.entries.length := by
  induction es generalizing x with
  | nil => exact Nat.le_refl _
  | cons e es ih =>
      rw [List.foldl_cons]
      refine (ih _).trans ?_
      rw [drainStep]
      split
      · cases hx : x.1.entries with
        | nil => simp [StoreBuffer.popCommitted, hx]
        | cons b rest =>
            simp only [StoreBuffer.popCommitted, hx]
            split <;> rename_i hpop
            · split at hpop
              · cases hpop
                exact Nat.le_succ _
              · cases hpop
            · rw [hx]
      · exact Nat.le_refl _

namespace QueuesBounded

theorem commit (h : QueuesBounded s) {es : List ROBEntry} (hc : Commits s t es) :
    QueuesBounded t := by
  constructor
  · rw [hc.lsq]
    exact (length_removeAll s.lsq es).trans h.lsq
  · have hdrain := length_drain es (CommitUnit.markAll s.storeBuffer es, s.dataMemory)
    rw [← hc.stores, length_markAll] at hdrain
    exact hdrain.trans h.storeBuffer

theorem memory (h : QueuesBounded s) {rs : List MemoryResult} (hc : MemoryCase s t rs) :
    QueuesBounded t := by
  have htags := congrArg List.length (memoryCase_tags hc)
  rw [LoadStoreQueue.tags, LoadStoreQueue.tags, List.length_map, List.length_map] at htags
  refine ⟨htags ▸ h.lsq, ?_⟩
  cases hc with
  | idle q _ ht => rw [ht]; exact h.storeBuffer
  | load q i _ _ _ _ ht => rw [ht]; exact h.storeBuffer
  | store q i _ _ _ _ ht =>
      have hslots : t.storeBuffer.slots = s.storeBuffer.slots := by
        rw [ht]
        exact map_updateFirst fun _ => rfl
      have hlen := congrArg List.length hslots
      rw [StoreBuffer.slots, StoreBuffer.slots, List.length_map, List.length_map] at hlen
      exact hlen ▸ h.storeBuffer

theorem executed (h : QueuesBounded s) (hs : Steps s) : QueuesBounded s.executed := by
  obtain ⟨es, hes⟩ := hs.commits
  have hm := (h.commit hes).memory hs.memoryCase
  obtain ⟨hlsq, hsb⟩ := hs.executed_queues
  exact ⟨hlsq ▸ hm.lsq, hsb ▸ hm.storeBuffer⟩

/-- A lane allocates only where there is room. -/
theorem dispatchLane (h : QueuesBounded s) (hs : Sound s) {ren : RenameBundle}
    (hb : Sound.Renamed ren) : QueuesBounded (s.dispatchLane ren) := by
  obtain ⟨hlsq, hsb⟩ := dispatchLane_queues hs hb
  constructor
  · rw [hlsq, lsqEntered, List.length_append]
    split
    · rename_i hroom
      simp only [LoadStoreQueue.full, Bool.and_eq_true, Bool.not_eq_true',
        decide_eq_false_iff_not] at hroom
      exact Nat.not_le.mp hroom.2
    · exact h.lsq
  · rw [hsb, storeEntered, List.length_append]
    split
    · rename_i hroom
      simp only [StoreBuffer.full, Bool.and_eq_true, Bool.not_eq_true',
        decide_eq_false_iff_not] at hroom
      exact Nat.not_le.mp hroom.2
    · exact h.storeBuffer

theorem next (h : QueuesBounded s) (hs : Steps s) : QueuesBounded s.next := by
  have hexec := h.executed hs
  refine hs.next_lanes (fun t f ht => ⟨ht.lsq, ht.storeBuffer⟩) hexec
    (fun _ => ⟨hexec.lsq, hexec.storeBuffer⟩) (fun hr ht => ?_) fun hr _ ht => ?_
  · obtain ⟨hs0, -, hr0, -⟩ := hs.sound_lanes hr
    exact ht.dispatchLane hs0 hr0
  · obtain ⟨-, hs1, -, hr1⟩ := hs.sound_lanes hr
    exact ht.dispatchLane hs1 hr1

theorem boot (cfg : Config) (words : List Word) (data : List (Nat × Word)) :
    QueuesBounded (boot cfg words data) := by
  rw [boot_frame]
  exact ⟨Nat.zero_le _, Nat.zero_le _⟩

end QueuesBounded

/-! ## One step -/

/-- The queues have room for the memory operations of the window. -/
def QueuesFit (s : SuperScalarCPU cfg) : Prop :=
  (memSlots s.rob.window).length ≤ cfg.lsqCapacity ∧
    (storeSlots s.rob.window).length ≤ cfg.storeBufferCapacity

instance (s : SuperScalarCPU cfg) : Decidable s.QueuesFit :=
  inferInstanceAs (Decidable (_ ∧ _))

theorem QueuesFit.of_window (h : QueuesFit s) {post : List ROBEntry}
    (hw : s.rob.window = t.rob.window ++ post) : QueuesFit t := by
  have hfit := h
  rw [QueuesFit, hw, memSlots_append, storeSlots_append, List.length_append,
    List.length_append] at hfit
  exact ⟨(Nat.le_add_right _ _).trans hfit.1, (Nat.le_add_right _ _).trans hfit.2⟩

/-- The windows the two lanes leave behind are what the next state is made of. -/
theorem Steps.lane_windows (h : Steps s) (hr : s.renames = true) :
    (∃ post, s.next.rob.window = s.betweenLanes.rob.window ++ post) ∧
      (s.betweenLanes.haltDispatched = false →
        (s.betweenLanes.dispatchLane s.executed.renameOutputs.2.1).rob.window =
          s.next.rob.window) := by
  obtain ⟨-, hs1, -, hr1⟩ := h.sound_lanes hr
  rw [h.window_next, entered, h.betweenLanes_window hr]
  refine ⟨⟨_, (List.append_assoc _ _ _).symm⟩, fun hflag => ?_⟩
  rw [dispatchLane_window hs1 hr1, h.betweenLanes_window hr, List.append_assoc]
  congr 2
  rw [dispatched1, hr, hflag]
  rfl

/-- Both queues name exactly the memory operations of the window, in order, and executed
    stores are buffered with their own address and data. -/
structure QueuesTrack (own : Nat → Word × Word) (s : SuperScalarCPU cfg) : Prop where
  lsq : LsqTracks (· = ·) s
  stores : StoresTrack own s

namespace QueuesTrack

variable {own : Nat → Word × Word}

theorem executed (h : QueuesTrack own s) (hs : Steps s) (hno : NoMemorySquash s) :
    QueuesTrack (storesAfter s.committed.memUnit.execute.1 own) s.executed := by
  refine ⟨h.lsq.executed slotOrder_eq hs hno, ?_⟩
  obtain ⟨es, hes⟩ := hs.commits
  have hbranch := ((h.stores.commit hs.sound hes).1.memory hs.sound_committed hs.memoryCase).branch
    hs.sound_memoryDone hs.branchCase hno
  have hboth : Sound s.executed ∧
      StoresTrack (storesAfter s.committed.memUnit.execute.1 own) s.executed :=
    aluStage_induction (P := fun t => Sound t ∧
      StoresTrack (storesAfter s.committed.memUnit.execute.1 own) t)
      ⟨hs.sound_branchDone, hbranch⟩ fun t i ht hi => ⟨ht.1.executeAlu hi, ht.2.executeAlu ht.1 hi⟩
  exact hboth.2

theorem dispatchLane (h : QueuesTrack own s) (hs : Sound s) {ren : RenameBundle}
    (hb : Sound.Renamed ren) (hfit : QueuesFit (s.dispatchLane ren)) :
    QueuesTrack own (s.dispatchLane ren) := by
  refine ⟨h.lsq.dispatchLane slotOrder_eq hs hb fun hd hm hfull => ?_,
    h.stores.dispatchLane hs hb hfit.2⟩
  -- a full queue would have left no room for the slot that entered
  have hlen := hfit.1
  rw [dispatchLane_window hs hb, hd, if_pos rfl, memSlots_append, (laneEntry_slots s ren).1,
    if_pos (Bool.or_eq_true_iff.mpr hm), List.length_append, ← h.lsq.slots, LoadStoreQueue.slots,
    List.length_map] at hlen
  rw [LoadStoreQueue.full, decide_eq_true_iff] at hfull
  exact absurd hfull (Nat.not_le.mpr hlen)

theorem next (h : QueuesTrack own s) (hs : Steps s) (hno : NoMemorySquash s)
    (hfit : QueuesFit s.next) :
    QueuesTrack (storesAfter s.committed.memUnit.execute.1 own) s.next := by
  have hexec := h.executed hs hno
  refine hs.next_lanes (fun t f ht => ⟨⟨ht.lsq.valid, ht.lsq.slots⟩, ht.stores.of_stores rfl rfl
      fun e he _ => he⟩) hexec (fun _ => ⟨⟨hexec.lsq.valid, hexec.lsq.slots⟩,
      hexec.stores.of_stores rfl rfl fun e he _ => he⟩) (fun hr ht => ?_) fun hr hflag ht => ?_
  · obtain ⟨hs0, -, hr0, -⟩ := hs.sound_lanes hr
    obtain ⟨⟨post, hpost⟩, -⟩ := hs.lane_windows hr
    exact ht.dispatchLane hs0 hr0 (hfit.of_window hpost)
  · obtain ⟨-, hs1, -, hr1⟩ := hs.sound_lanes hr
    obtain ⟨-, hlane⟩ := hs.lane_windows hr
    exact ht.dispatchLane hs1 hr1
      (hfit.of_window ((hlane hflag).symm.trans (List.append_nil _).symm))

end QueuesTrack

/-- A step whose queues are exact before and after squashed no memory operation. -/
theorem LsqTracks.noMemorySquash (h : LsqTracks (· = ·) s) (hs : Steps s)
    (hnext : LsqTracks (· = ·) s.next) : NoMemorySquash s := by
  intro i hi hm e he
  obtain ⟨es, hes⟩ := hs.commits
  have hdone : LsqTracks (· = ·) s.memoryDone :=
    (h.commit slotOrder_eq hs.sound hes).of_tags (memoryCase_tags hs.memoryCase)
      (memoryCase_slots hs.sound_committed hs.memoryCase).1
  have hcase := hs.branchCase
  cases hcase with
  | none hi' _ => rw [hi] at hi'; cases hi'
  | correct j hj hm' _ =>
      rw [hi] at hj
      cases hj
      rw [hm] at hm'
      cases hm'
  | mispredicted j hj _ pre b post hb _ hr =>
      rw [hi] at hj
      cases hj
      rw [hr.squashed hs.sound_memoryDone hb] at he
      -- nothing is renamed in the step of a recovery, so the next queue is the old one
      have hidle : s.renames = false := eq_false_of_ne_true fun hgo => by
        have hrec := (hs.of_renames hgo).1
        rw [branchRecovered_some hi, hm] at hrec
        cases hrec
      have hslots := hnext.slots
      rw [hs.next_idle hidle] at hslots
      change s.executed.lsq.slots = memSlots s.executed.rob.window at hslots
      rw [hs.executed_queues.1, hs.alu_slots.1, hdone.slots, hr.slots.1] at hslots
      have hnil : memSlots post = [] := List.append_right_eq_self.mp hslots
      refine eq_false_of_ne_true fun hmem => ?_
      have hslot : e.robIndex ∈ memSlots post := mem_memSlots.mpr ⟨e, he, hmem, rfl⟩
      rw [hnil] at hslot
      cases hslot

/-! ## Writes to memory -/

theorem handleCommitEvents_dataMemory (s : SuperScalarCPU cfg) (evs : List CommitEvent) :
    (evs.foldl handleCommitEvent s).dataMemory =
      s.dataMemory.writeAll (drainWrites s.storeBuffer evs) := by
  induction evs generalizing s with
  | nil => rfl
  | cons ev evs ih =>
      have hbuffer : (handleCommitEvent s ev).storeBuffer =
          if ev.store then s.writeCommittedStore.storeBuffer else s.storeBuffer := by
        rw [handleCommitEvent]
        cases ev.halt <;> cases ev.store <;> rfl
      have hmemory : (handleCommitEvent s ev).dataMemory =
          if ev.store then s.writeCommittedStore.dataMemory else s.dataMemory := by
        rw [handleCommitEvent]
        cases ev.halt <;> cases ev.store <;> rfl
      rw [List.foldl_cons, ih, hbuffer, hmemory, drainWrites]
      cases ev.store with
      | false => rfl
      | true =>
          simp only [if_true, writeCommittedStore]
          cases s.storeBuffer.popCommitted with
          | none => rfl
          | some x => rfl

/-- A step changes data memory by the writes of its commit stage only. -/
theorem Steps.next_dataMemory (h : Steps s) :
    s.next.dataMemory = s.dataMemory.writeAll s.stepWrites := by
  have hcommitted : s.committed.dataMemory = s.dataMemory.writeAll s.stepWrites := by
    rw [stepWrites, h.running]
    exact handleCommitEvents_dataMemory _ _
  have hexec : s.executed.dataMemory = s.committed.dataMemory := by
    rw [executed, aluStage_frame]
    have hb := branchCase_frame h.branchCase
    have hm := (memoryCase_frame h.memoryCase).2.2.2.2.2.2.2.2.2
    rw [hb]
    exact hm
  have hlane : ∀ (t : SuperScalarCPU cfg) ren, (t.dispatchLane ren).dataMemory = t.dataMemory := by
    intro t ren
    rw [dispatchLane_frame]
  rw [← hcommitted, ← hexec]
  exact h.next_lanes (P := fun t => t.dataMemory = s.executed.dataMemory) (fun t f ht => ht) rfl
    (fun _ => rfl) (fun _ ht => (hlane _ _).trans ht) fun _ _ ht => (hlane _ _).trans ht

theorem Steps.stepWrites_eq (h : Steps s) {es : List ROBEntry} (hc : Commits s s.committed es) :
    s.stepWrites =
      drainWrites (CommitUnit.markAll s.storeBuffer es) (es.map (CommitUnit.makeEvent s.prf)) := by
  rw [stepWrites, h.running, hc.marked, hc.events]
  rfl

/-! ## Runs -/

/-- The load/store queue holds an entry for each load and store in the reorder buffer, in
    program order, and the store buffer one for each store. -/
def QueuesMatch (s : SuperScalarCPU cfg) : Prop :=
  ((∀ l ∈ s.lsq.entries, l.valid = true) ∧ s.lsq.slots = memSlots s.rob.window) ∧
    (∀ b ∈ s.storeBuffer.entries, b.valid = true) ∧
      s.storeBuffer.slots = storeSlots s.rob.window

instance (s : SuperScalarCPU cfg) : Decidable s.QueuesMatch :=
  inferInstanceAs (Decidable ((_ ∧ _) ∧ _ ∧ _))

/-- The results of memory execution in one step. -/
def memoryResults (s : SuperScalarCPU cfg) : List MemoryResult :=
  if s.halted then [] else s.committed.memUnit.execute.1

/-- The address and data of the latest store executed in each slot in the first `n`
    steps; for a store still in its slot these are its own. -/
def lastStore (s0 : SuperScalarCPU cfg) : Nat → Nat → Word × Word
  | 0 => fun _ => (0, 0)
  | n + 1 => storesAfter (run s0 n).memoryResults (lastStore s0 n)

/-- The retired stores of the first `n` steps, in order, with address and data. -/
def retiredStores (s0 : SuperScalarCPU cfg) : Nat → List (Word × Word)
  | 0 => []
  | n + 1 =>
    retiredStores s0 n ++
      ((run s0 n).stepEvents.filter CommitEvent.store).map fun ev => lastStore s0 n ev.robIndex

/-- The writes to data memory of the first `n` steps, in order. -/
def memoryWrites (s0 : SuperScalarCPU cfg) : Nat → List (Word × Word)
  | 0 => []
  | n + 1 => memoryWrites s0 n ++ (run s0 n).stepWrites

variable {s0 : SuperScalarCPU cfg}

theorem stepEvents_stores {es : List ROBEntry} (prf : PhysicalRegisterFile cfg.prfCount)
    (own : Nat → Word × Word) :
    (((es.map (CommitUnit.makeEvent prf)).filter CommitEvent.store).map
      fun ev => own ev.robIndex) = (storeSlots es).map own := by
  rw [List.filter_map, List.map_map, storeSlots, List.map_map]
  rfl

/-- A halted machine executes, retires and writes nothing. -/
theorem memory_of_halted (h : s.halted = true) :
    s.memoryResults = [] ∧ s.stepEvents = [] ∧ s.stepWrites = [] := by
  rw [memoryResults, stepEvents, stepWrites, h]
  exact ⟨rfl, rfl, rfl⟩

theorem QueuesTrack.boot (cfg : Config) (words : List Word) (data : List (Nat × Word)) :
    QueuesTrack (fun _ => (0, 0)) (boot cfg words data) := by
  refine ⟨LsqTracks.boot rfl cfg words data, ?_⟩
  rw [boot_frame]
  have hslots : storeSlots ((construct cfg).loadProgram words).rob.window = [] := by
    rw [show ((construct cfg).loadProgram words).rob.window = [] from ReOrderBuffer.window_reset]
    rfl
  refine ⟨?_, hslots.symm, ?_⟩
  · intro b hb
    cases hb
  · intro b hb
    cases hb

/-- The conditions on a run: no recovery squashes a load or a store, and no state has more
    of them in the reorder buffer than the queues hold. -/
structure QueuesOrderly (s0 : SuperScalarCPU cfg) (n : Nat) : Prop where
  kept : ∀ k < n, (run s0 k).halted = false → NoMemorySquash (run s0 k)
  fit : ∀ k ≤ n, QueuesFit (run s0 k)

theorem run_queuesTrack {words : List Word} {data : List (Nat × Word)}
    (h : QueuesOrderly (boot cfg words data) n) :
    QueuesTrack (lastStore (boot cfg words data) n) (run (boot cfg words data) n) ∧
      memoryWrites (boot cfg words data) n = retiredStores (boot cfg words data) n := by
  induction n with
  | zero => exact ⟨QueuesTrack.boot cfg words data, rfl⟩
  | succ n ih =>
      obtain ⟨htrack, hwrites⟩ := ih
        ⟨fun k hk => h.kept k (Nat.lt_succ_of_lt hk), fun k hk => h.fit k (Nat.le_succ_of_le hk)⟩
      rw [memoryWrites, retiredStores, lastStore, hwrites]
      cases hgo : (run (boot cfg words data) n).halted with
      | true =>
          obtain ⟨hres, hev, hw⟩ := memory_of_halted hgo
          rw [hres, hev, hw, run, step, next_of_halted hgo]
          exact ⟨⟨⟨htrack.lsq.valid, htrack.lsq.slots⟩,
            htrack.stores.of_stores rfl rfl fun e he _ => he⟩, rfl⟩
      | false =>
          have hs := run_steps hgo
          obtain ⟨es, hes⟩ := hs.commits
          have hnext := htrack.next hs (h.kept n (Nat.lt_succ_self n) hgo)
            (h.fit (n + 1) (Nat.le_refl _))
          rw [memoryResults, hgo]
          refine ⟨hnext, ?_⟩
          rw [hs.stepWrites_eq hes, hs.stepEvents_eq hes, stepEvents_stores,
            (htrack.stores.commit hs.sound hes).2.2]

theorem QueuesTrack.queuesMatch {own : Nat → Word × Word} (h : QueuesTrack own s) :
    QueuesMatch s :=
  ⟨⟨h.lsq.valid, h.lsq.slots⟩, fun b hb => (h.stores.fresh b hb).1, h.stores.slots⟩

theorem run_queuesBounded (cfg : Config) (words : List Word) (data : List (Nat × Word)) (n : Nat) :
    QueuesBounded (run (boot cfg words data) n) := by
  induction n with
  | zero => exact QueuesBounded.boot cfg words data
  | succ n ih =>
      rw [run, step]
      cases hgo : (run (boot cfg words data) n).halted with
      | true =>
          rw [next_of_halted hgo]
          exact ⟨ih.lsq, ih.storeBuffer⟩
      | false => exact ih.next (run_steps hgo)

/-- Queues within their capacity that hold the window fit it. -/
theorem QueuesMatch.fit (h : QueuesMatch s) (hb : QueuesBounded s) : QueuesFit s := by
  obtain ⟨⟨-, hlsq⟩, -, hsb⟩ := h
  refine ⟨?_, ?_⟩
  · rw [← hlsq, LoadStoreQueue.slots, List.length_map]
    exact hb.lsq
  · rw [← hsb, StoreBuffer.slots, List.length_map]
    exact hb.storeBuffer

/-- What commit writes is all that happens to data memory. -/
theorem run_dataMemory (cfg : Config) (words : List Word) (data : List (Nat × Word)) (n : Nat) :
    (run (boot cfg words data) n).dataMemory =
      (boot cfg words data).dataMemory.writeAll (memoryWrites (boot cfg words data) n) := by
  induction n with
  | zero => rfl
  | succ n ih =>
      rw [memoryWrites, DataMemory.writeAll, List.foldl_append, run, step]
      cases hgo : (run (boot cfg words data) n).halted with
      | true =>
          rw [next_of_halted hgo, (memory_of_halted hgo).2.2]
          exact ih
      | false => rw [(run_steps hgo).next_dataMemory, ih]; rfl

/-- The memory queues agree with the reorder buffer in every state of a run, and the writes
    to data memory are the retired stores, if and only if no recovery of the run squashed a
    load or a store and the queues always had room for the memory operations in flight. -/
theorem memory_queues_consistent_iff (cfg : Config) (words : List Word)
    (data : List (Nat × Word)) (n : Nat) :
    let s0 := boot cfg words data
    (∀ k ≤ n, QueuesMatch (run s0 k) ∧ memoryWrites s0 k = retiredStores s0 k ∧
        (run s0 k).dataMemory = s0.dataMemory.writeAll (memoryWrites s0 k)) ↔
      QueuesOrderly s0 n := by
  intro s0
  constructor
  · intro hall
    have htracks : ∀ k ≤ n, LsqTracks (· = ·) (run s0 k) := fun k hk =>
      ⟨(hall k hk).1.1.1, (hall k hk).1.1.2⟩
    refine ⟨fun k hk hgo => ?_, fun k hk => ?_⟩
    · have hs := run_steps hgo
      have hnext := htracks (k + 1) hk
      exact (htracks k (Nat.le_of_lt hk)).noMemorySquash hs hnext
    · exact (hall k hk).1.fit (run_queuesBounded cfg words data k)
  · intro h k hk
    obtain ⟨htrack, hwrites⟩ := run_queuesTrack (n := k)
      ⟨fun j hj => h.kept j (Nat.lt_of_lt_of_le hj hk), fun j hj => h.fit j (hj.trans hk)⟩
    exact ⟨htrack.queuesMatch, hwrites, run_dataMemory cfg words data k⟩

/-- `BEQ r0, r0, 8; SW r0, 0(r0); LI r1, 7; SW r1, 4(r0); HALT`: the taken branch squashes
    the first store, whose entry stays at the front of the buffer, so the second one
    retires without being written. -/
theorem squashed_store_blocks_buffer :
    let s0 := boot .default [0x2C000008, 0x28000000, 0x1C400007, 0x28400004, 0x38000000] []
    ¬ QueuesMatch (run s0 3) ∧ memoryWrites s0 8 = [] ∧ retiredStores s0 8 = [(4, 7)] := by
  decide +kernel

end SuperScalarCPU

end CpuSim.SuperScalar
