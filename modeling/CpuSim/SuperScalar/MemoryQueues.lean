/-
  CpuSim.SuperScalar.MemoryQueues

  The load/store queue and the store buffer against the window.  Both hold their
  entries in allocation order, so all there is to say is which slots they name:
  those of the memory operations, or of the stores, of the window.  Recovery does
  not touch either queue, so the correspondence asks that no memory operation is
  squashed.
-/

import CpuSim.SuperScalar.Fetched

namespace CpuSim.SuperScalar

open CpuSim.Lib

variable {cfg : Config}

/-! ## Slots of memory operations -/

/-- Loads and stores. -/
def ROBEntry.memory (e : ROBEntry) : Bool := e.memoryRead || e.memoryWrite

/-- The slots of the loads and stores among `es`, in order. -/
def memSlots (es : List ROBEntry) : List Nat := (es.filter ROBEntry.memory).map ROBEntry.robIndex

/-- The slots of the stores among `es`, in order. -/
def storeSlots (es : List ROBEntry) : List Nat :=
  (es.filter ROBEntry.memoryWrite).map ROBEntry.robIndex

section Slots

variable {es es' : List ROBEntry} {e : ROBEntry} {i : Nat}

theorem memSlots_append : memSlots (es ++ es') = memSlots es ++ memSlots es' := by
  rw [memSlots, List.filter_append, List.map_append]
  rfl

theorem storeSlots_append : storeSlots (es ++ es') = storeSlots es ++ storeSlots es' := by
  rw [storeSlots, List.filter_append, List.map_append]
  rfl

theorem storeSlots_cons_of (es : List ROBEntry) (hw : e.memoryWrite = true) :
    storeSlots (e :: es) = e.robIndex :: storeSlots es := by
  rw [storeSlots, List.filter_cons_of_pos hw]
  rfl

theorem storeSlots_cons_of_not (es : List ROBEntry) (hw : e.memoryWrite = false) :
    storeSlots (e :: es) = storeSlots es := by
  rw [storeSlots, List.filter_cons_of_neg (ne_true_of_eq_false hw)]
  rfl

theorem memSlots_sublist : (memSlots es).Sublist (es.map ROBEntry.robIndex) :=
  List.filter_sublist.map _

theorem storeSlots_sublist : (storeSlots es).Sublist (es.map ROBEntry.robIndex) :=
  List.filter_sublist.map _

theorem mem_memSlots : i ∈ memSlots es ↔ ∃ e ∈ es, e.memory = true ∧ e.robIndex = i := by
  simp only [memSlots, List.mem_map, List.mem_filter, and_assoc]

theorem mem_storeSlots :
    i ∈ storeSlots es ↔ ∃ e ∈ es, e.memoryWrite = true ∧ e.robIndex = i := by
  simp only [storeSlots, List.mem_map, List.mem_filter, and_assoc]

theorem memSlots_eq_nil (h : ∀ e ∈ es, e.memory = false) : memSlots es = [] := by
  rw [memSlots, List.filter_eq_nil_iff.mpr fun e he => by rw [h e he]; decide]
  rfl

theorem storeSlots_eq_nil (h : ∀ e ∈ es, e.memory = false) : storeSlots es = [] := by
  rw [storeSlots, List.filter_eq_nil_iff.mpr fun e he => ?_]
  · rfl
  · rw [(Bool.or_eq_false_iff.mp (h e he)).2]
    decide

/-- Entries changed without touching slot and class keep their slots. -/
theorem slots_map {f : ROBEntry → ROBEntry}
    (h : ∀ e, (f e).robIndex = e.robIndex ∧ (f e).memoryRead = e.memoryRead ∧
      (f e).memoryWrite = e.memoryWrite) :
    memSlots (es.map f) = memSlots es ∧ storeSlots (es.map f) = storeSlots es := by
  have hmem : ROBEntry.memory ∘ f = ROBEntry.memory := by
    funext e
    rw [Function.comp, ROBEntry.memory, (h e).2.1, (h e).2.2]
    rfl
  have hstore : ROBEntry.memoryWrite ∘ f = ROBEntry.memoryWrite := funext fun e => (h e).2.2
  have hslot : ROBEntry.robIndex ∘ f = ROBEntry.robIndex := funext fun e => (h e).1
  constructor
  · rw [memSlots, List.filter_map, hmem, List.map_map, hslot]
    rfl
  · rw [storeSlots, List.filter_map, hstore, List.map_map, hslot]
    rfl

theorem slots_finishAt (j : Nat) (r : Word) (es : List ROBEntry) :
    memSlots (es.map (ReOrderBuffer.finishAt j r)) = memSlots es ∧
      storeSlots (es.map (ReOrderBuffer.finishAt j r)) = storeSlots es := by
  refine slots_map fun e => ?_
  rw [ReOrderBuffer.finishAt]
  split <;> exact ⟨rfl, rfl, rfl⟩

/-- Dropping the slots of `es` from those of `es ++ es'` leaves those of `es'`. -/
theorem filter_slots {f : List ROBEntry → List Nat}
    (happ : f (es ++ es') = f es ++ f es')
    (hsub : ∀ es, (f es).Sublist (es.map ROBEntry.robIndex))
    (hn : ((es ++ es').map ROBEntry.robIndex).Nodup) :
    (f (es ++ es')).filter (fun i => decide (i ∉ es.map ROBEntry.robIndex)) = f es' := by
  rw [happ, List.filter_append]
  rw [List.map_append, List.nodup_append] at hn
  have hfirst : (f es).filter (fun i => decide (i ∉ es.map ROBEntry.robIndex)) = [] := by
    refine List.filter_eq_nil_iff.mpr fun i hi => ?_
    rw [decide_eq_true_iff, not_not]
    exact (hsub es).subset hi
  have hsecond : (f es').filter (fun i => decide (i ∉ es.map ROBEntry.robIndex)) = f es' := by
    refine List.filter_eq_self.mpr fun i hi => decide_eq_true fun hmem => ?_
    exact hn.2.2 i hmem i ((hsub es').subset hi) rfl
  rw [hfirst, hsecond, List.nil_append]

end Slots

/-- How the slots a queue names may relate to the slots of the window: both equality and
    `Sublist` will do. -/
structure SlotOrder (R : List Nat → List Nat → Prop) : Prop where
  sublist : ∀ {a b}, R a b → a.Sublist b
  filter : ∀ {a b} (p : Nat → Bool), R a b → R (a.filter p) (b.filter p)
  concat : ∀ {a b} (i : Nat), R a b → R (a ++ [i]) (b ++ [i])

theorem slotOrder_eq : SlotOrder (· = ·) where
  sublist h := h ▸ List.Sublist.refl _
  filter _ h := h ▸ rfl
  concat _ h := h ▸ rfl

theorem slotOrder_sublist : SlotOrder List.Sublist where
  sublist h := h
  filter _ h := h.filter _
  concat i h := h.append (List.Sublist.refl [i])

/-! ## Entries and their tags -/

/-- The fields of a load/store queue entry nothing changes. -/
def LSQEntry.tag (l : LSQEntry) : Bool × Nat × OpType := (l.valid, l.robIndex, l.type)

/-- The fields of a store buffer entry that execution does not change. -/
def StoreBufferEntry.tag (b : StoreBufferEntry) : Bool × Nat × Bool :=
  (b.valid, b.robIndex, b.committed)

namespace LoadStoreQueue

variable {n : Nat} (q : LoadStoreQueue n) (r : Nat)

def tags (q : LoadStoreQueue n) : List (Bool × Nat × OpType) := q.entries.map LSQEntry.tag

@[simp] theorem tags_setAddress (a : Word) : (q.setAddress r a).tags = q.tags :=
  map_updateFirst fun _ => rfl

@[simp] theorem tags_setStoreData (d : Word) : (q.setStoreData r d).tags = q.tags :=
  map_updateFirst fun l => by split <;> rfl

@[simp] theorem tags_completeLoad (d : Word) : (q.completeLoad r d).tags = q.tags :=
  map_updateFirst fun l => by split <;> rfl

@[simp] theorem tags_markExecuted : (q.markExecuted r).tags = q.tags :=
  map_updateFirst fun _ => rfl

/-- The slots the queue names. -/
def slots (q : LoadStoreQueue n) : List Nat := q.entries.map LSQEntry.robIndex

theorem slots_eq_tags : q.slots = q.tags.map fun t => t.2.1 := by
  rw [slots, tags, List.map_map]
  rfl

/-- Every entry is valid. -/
def AllValid (q : LoadStoreQueue n) : Prop := ∀ l ∈ q.entries, l.valid = true

variable {q}

theorem AllValid.of_tags {q' : LoadStoreQueue n} (h : q.AllValid) (ht : q'.tags = q.tags) :
    q'.AllValid := by
  intro l hl
  have hmem : l.tag ∈ q.tags := by
    rw [← ht]
    exact List.mem_map_of_mem hl
  obtain ⟨l0, hl0, htag⟩ := List.mem_map.mp hmem
  rw [← h l0 hl0]
  exact (congrArg Prod.fst htag).symm

theorem AllValid.matches_eq (h : q.AllValid) {r : Nat} {l : LSQEntry} (hl : l ∈ q.entries) :
    matchesRob r l = decide (l.robIndex = r) := by
  rw [matchesRob, h l hl, Bool.true_and]
  exact beq_eq_decide _ _

/-- The entry of a slot is found in its place. -/
theorem AllValid.findIdx?_split (h : q.AllValid) (hn : q.slots.Nodup)
    {older younger : List LSQEntry} {l : LSQEntry} (hq : q.entries = older ++ l :: younger) :
    (∀ x ∈ older, x.robIndex ≠ l.robIndex) ∧
      q.entries.findIdx? (matchesRob l.robIndex) = some older.length := by
  have hne : ∀ x ∈ older, x.robIndex ≠ l.robIndex := by
    intro x hx heq
    rw [slots, hq, List.map_append, List.nodup_append] at hn
    exact hn.2.2 _ (List.mem_map_of_mem hx) l.robIndex (by simp) heq
  have hself : matchesRob l.robIndex l = true := by
    rw [h.matches_eq (by rw [hq]; simp), decide_eq_true_iff]
  have hnone : older.findIdx? (matchesRob l.robIndex) = none := by
    rw [List.findIdx?_eq_none_iff]
    intro x hx
    rw [h.matches_eq (by rw [hq]; exact List.mem_append_left _ hx), decide_eq_false_iff_not]
    exact hne x hx
  refine ⟨hne, ?_⟩
  rw [hq, List.findIdx?_append, hnone, List.findIdx?_cons, hself]
  simp

/-- Entries that change slot by slot without touching their tags keep them. -/
theorem tags_of_forall₂ {R : LSQEntry → LSQEntry → Prop} {q' : LoadStoreQueue n}
    (h : List.Forall₂ R q.entries q'.entries)
    (hR : ∀ {l l' : LSQEntry}, R l l' →
      l'.valid = l.valid ∧ l'.type = l.type ∧ l'.robIndex = l.robIndex) : q'.tags = q.tags := by
  rw [tags, tags]
  generalize q.entries = xs at h
  generalize q'.entries = ys at h
  induction h with
  | nil => rfl
  | cons hxy _ ih =>
      obtain ⟨hvalid, htype, hindex⟩ := hR hxy
      rw [List.map_cons, List.map_cons, ih, LSQEntry.tag, LSQEntry.tag, hvalid, htype, hindex]

/-- Removing by slot, one retired entry after the other. -/
theorem removeAll_entries (h : q.AllValid) (hn : q.slots.Nodup) (es : List ROBEntry) :
    (es.foldl (fun q e => q.remove e.robIndex) q).entries =
      q.entries.filter fun l => decide (l.robIndex ∉ es.map ROBEntry.robIndex) := by
  induction es generalizing q with
  | nil => simp
  | cons e es ih =>
      have hremove : (q.remove e.robIndex).entries =
          q.entries.filter fun l => decide (l.robIndex ≠ e.robIndex) :=
        eraseP_eq_filter hn fun l hl => h.matches_eq hl
      have hsub : (q.remove e.robIndex).entries.Sublist q.entries := by
        rw [hremove]
        exact List.filter_sublist
      rw [List.foldl_cons, ih (fun l hl => h l (hsub.subset hl)) (hn.sublist (hsub.map _)), hremove,
        List.filter_filter]
      refine List.filter_congr fun l _ => ?_
      rw [← Bool.decide_and]
      refine decide_eq_decide.mpr ?_
      rw [List.map_cons, List.mem_cons, not_or, and_comm]

end LoadStoreQueue

/-- An allocation that succeeds appends an entry for the slot. -/
theorem LoadStoreQueue.allocate_getD {n : Nat} (q : LoadStoreQueue n) (type : OpType) (r : Nat)
    (pc : Word) (p : PhysicalRegister) :
    ((q.allocate type r pc p).getD q).entries =
      q.entries ++ if q.full then []
        else [{ valid := true, type := type, robIndex := r, pc := pc, physicalRd := p }] := by
  rw [LoadStoreQueue.allocate]
  cases q.full <;> simp

theorem StoreBuffer.allocate_getD {n : Nat} (sb : StoreBuffer n) (r : Nat) (pc : Word) :
    ((sb.allocate r pc).getD sb).entries =
      sb.entries ++ if sb.full then [] else [{ valid := true, robIndex := r, pc := pc }] := by
  rw [StoreBuffer.allocate]
  cases sb.full <;> simp

namespace SuperScalarCPU

variable {s t : SuperScalarCPU cfg} {R : List Nat → List Nat → Prop}

/-! ## The load/store queue -/

/-- The queue names slots of memory operations of the window, in the order `R` allows. -/
structure LsqTracks (R : List Nat → List Nat → Prop) (s : SuperScalarCPU cfg) : Prop where
  valid : s.lsq.AllValid
  slots : R s.lsq.slots (memSlots s.rob.window)

theorem LsqTracks.of_tags (h : LsqTracks R s) (ht : t.lsq.tags = s.lsq.tags)
    (hw : memSlots t.rob.window = memSlots s.rob.window) : LsqTracks R t := by
  refine ⟨h.valid.of_tags ht, ?_⟩
  rw [LoadStoreQueue.slots_eq_tags, ht, ← LoadStoreQueue.slots_eq_tags, hw]
  exact h.slots

theorem LsqTracks.nodup (h : LsqTracks R s) (hR : SlotOrder R) (hs : Sound s) :
    s.lsq.slots.Nodup :=
  (hs.inFlight.rob_wf.nodup_robIndex.sublist memSlots_sublist).sublist (hR.sublist h.slots)

theorem LsqTracks.commit (h : LsqTracks R s) (hR : SlotOrder R) (hs : Sound s)
    {es : List ROBEntry} (hc : Commits s t es) : LsqTracks R t := by
  have hentries := LoadStoreQueue.removeAll_entries h.valid (h.nodup hR hs) es
  rw [← hc.lsq] at hentries
  have hnodup := hs.inFlight.rob_wf.nodup_robIndex
  refine ⟨fun l hl => h.valid l ?_, ?_⟩
  · rw [hentries] at hl
    exact List.mem_of_mem_filter hl
  · rw [hc.window] at hnodup
    have hslots := hR.filter (fun i => decide (i ∉ es.map ROBEntry.robIndex)) h.slots
    rw [hc.window, filter_slots memSlots_append (fun _ => memSlots_sublist) hnodup] at hslots
    have hmap : t.lsq.slots =
        s.lsq.slots.filter fun i => decide (i ∉ es.map ROBEntry.robIndex) := by
      rw [LoadStoreQueue.slots, hentries, LoadStoreQueue.slots, List.filter_map]
      rfl
    rwa [hmap]

theorem Waits.tags {q : LoadStoreQueue cfg.lsqCapacity} (h : Waits s q) :
    q.tags = s.lsq.tags := by
  induction h with
  | start => rfl
  | wait _ _ _ _ ih => rw [addressed, LoadStoreQueue.tags_setAddress, ih]

/-- Memory execution changes no tag of the load/store queue. -/
theorem memoryCase_tags {rs : List MemoryResult} (hc : MemoryCase s t rs) :
    t.lsq.tags = s.lsq.tags := by
  cases hc with
  | idle q hq ht => rw [ht]; exact hq.tags
  | load q i hq _ _ _ ht => rw [ht]; simp [loaded, addressed, hq.tags]
  | store q i hq _ _ _ ht => rw [ht]; simp [stored, addressed, hq.tags]

theorem memoryCase_slots {rs : List MemoryResult} (hs : Sound s) (hc : MemoryCase s t rs) :
    memSlots t.rob.window = memSlots s.rob.window ∧
      storeSlots t.rob.window = storeSlots s.rob.window := by
  rcases memoryCase_window hs hc with hw | ⟨idx, r, hw⟩
  · rw [hw]
    exact ⟨rfl, rfl⟩
  · rw [hw]
    exact slots_finishAt idx r _

/-! ## Recovery -/

/-- No recovery of this step squashes a load or a store. -/
def NoMemorySquash (s : SuperScalarCPU cfg) : Prop :=
  ∀ i, s.memoryDone.selectBranch = some i → (s.memoryDone.branchResult i).mispredicted = true →
    ∀ e ∈ (s.memoryDone.rob.squashYoungerThan (s.memoryDone.branchResult i).robIndex).2.1,
      e.memory = false

instance (s : SuperScalarCPU cfg) : Decidable s.NoMemorySquash :=
  inferInstanceAs (Decidable (∀ i ∈ s.memoryDone.selectBranch,
    (s.memoryDone.branchResult i).mispredicted = true →
      ∀ e ∈ (s.memoryDone.rob.squashYoungerThan (s.memoryDone.branchResult i).robIndex).2.1,
        e.memory = false))

/-- A recovery takes the slots of the squashed operations out of the window. -/
theorem Recovers.slots {i : Nat} {pre post : List ROBEntry} {b : ROBEntry}
    (hr : Recovers s t i pre b post) :
    memSlots s.rob.window = memSlots t.rob.window ++ memSlots post ∧
      storeSlots s.rob.window = storeSlots t.rob.window ++ storeSlots post := by
  have hfinish : memSlots [b.finish (s.branchResult i).targetPc] = memSlots [b] ∧
      storeSlots [b.finish (s.branchResult i).targetPc] = storeSlots [b] := by
    have hkeep := @slots_map [b] (fun e => e.finish (s.branchResult i).targetPc)
      fun _ => ⟨rfl, rfl, rfl⟩
    exact hkeep
  have hsplit : s.rob.window = pre ++ [b] ++ post := by rw [hr.split]; simp
  constructor
  · rw [hr.window, hsplit, memSlots_append, memSlots_append, memSlots_append, hfinish.1]
  · rw [hr.window, hsplit, storeSlots_append, storeSlots_append, storeSlots_append, hfinish.2]

/-- What the squash of branch resolution returns is what leaves the window. -/
theorem Recovers.squashed {i : Nat} {pre post : List ROBEntry} {b : ROBEntry} (hs : Sound s)
    (hb : (s.iq.entries i).Matches b) (hr : Recovers s t i pre b post) :
    (s.rob.squashYoungerThan (s.branchResult i).robIndex).2.1 = post := by
  obtain ⟨rob', hsq, -, -⟩ := hs.inFlight.rob_wf.squashYoungerThan hr.split
  rw [show (s.branchResult i).robIndex = b.robIndex from hb.robIndex, hsq]

/-- Branch resolution leaves the memory queues alone. -/
theorem branchCase_queues (hs : Sound s) (hc : BranchCase s t) :
    t.lsq = s.lsq ∧ t.storeBuffer = s.storeBuffer := by
  cases hc with
  | none _ ht => rw [ht]; exact ⟨rfl, rfl⟩
  | correct i hi _ ht =>
      rw [ht, hs.resolveBranch_eq hi]
      exact ⟨rfl, rfl⟩
  | mispredicted i _ _ pre b post _ _ hr =>
      rw [hr.frame]
      exact ⟨rfl, rfl⟩

/-- It keeps the slots of the memory operations if it squashes none. -/
theorem branchCase_slots (hs : Sound s) (hc : BranchCase s t)
    (hno : ∀ i, s.selectBranch = some i → (s.branchResult i).mispredicted = true →
      ∀ e ∈ (s.rob.squashYoungerThan (s.branchResult i).robIndex).2.1, e.memory = false) :
    memSlots t.rob.window = memSlots s.rob.window ∧
      storeSlots t.rob.window = storeSlots s.rob.window := by
  cases hc with
  | none _ ht => rw [ht]; exact ⟨rfl, rfl⟩
  | correct i hi _ ht =>
      have hwin := hs.window_finish i (s.branchResult i).targetPc
      rw [ht, hs.resolveBranch_eq hi]
      constructor
      · show memSlots (s.finish i _).rob.window = _
        rw [hwin]
        exact (slots_finishAt _ _ _).1
      · show storeSlots (s.finish i _).rob.window = _
        rw [hwin]
        exact (slots_finishAt _ _ _).2
  | mispredicted i hi hm pre b post hb _ hr =>
      -- what leaves the window are no memory operations
      have hpost := hno i hi hm
      rw [hr.squashed hs hb] at hpost
      rw [hr.slots.1, hr.slots.2, memSlots_eq_nil hpost, storeSlots_eq_nil hpost, List.append_nil,
        List.append_nil]
      exact ⟨rfl, rfl⟩

/-- Integer operations keep the slots. -/
theorem Steps.alu_slots (h : Steps s) :
    memSlots s.executed.rob.window = memSlots s.memoryDone.branchStage.rob.window ∧
      storeSlots s.executed.rob.window = storeSlots s.memoryDone.branchStage.rob.window := by
  have halu : Sound s.executed ∧
      memSlots s.executed.rob.window = memSlots s.memoryDone.branchStage.rob.window ∧
      storeSlots s.executed.rob.window = storeSlots s.memoryDone.branchStage.rob.window :=
    aluStage_induction (P := fun t => Sound t ∧
      memSlots t.rob.window = memSlots s.memoryDone.branchStage.rob.window ∧
      storeSlots t.rob.window = storeSlots s.memoryDone.branchStage.rob.window)
      ⟨h.sound_branchDone, rfl, rfl⟩ fun t i ht hi => by
        refine ⟨ht.1.executeAlu hi, ?_, ?_⟩ <;> rw [executeAlu_eq, ht.1.window_finish]
        · rw [(slots_finishAt _ _ _).1, ht.2.1]
        · rw [(slots_finishAt _ _ _).2, ht.2.2]
  exact halu.2

theorem Steps.executed_slots (h : Steps s) (hno : NoMemorySquash s) :
    memSlots s.executed.rob.window = memSlots s.committed.rob.window ∧
      storeSlots s.executed.rob.window = storeSlots s.committed.rob.window := by
  obtain ⟨hm1, hs1⟩ := memoryCase_slots h.sound_committed h.memoryCase
  obtain ⟨hm2, hs2⟩ := branchCase_slots h.sound_memoryDone h.branchCase hno
  exact ⟨by rw [h.alu_slots.1, hm2, hm1], by rw [h.alu_slots.2, hs2, hs1]⟩

/-- Branches and integer operations leave the memory queues alone. -/
theorem Steps.executed_queues (h : Steps s) :
    s.executed.lsq = s.memoryDone.lsq ∧ s.executed.storeBuffer = s.memoryDone.storeBuffer := by
  have hqueues := branchCase_queues h.sound_memoryDone h.branchCase
  rw [executed, aluStage_frame]
  exact hqueues

/-! ## Dispatch -/

section Lane

variable {ren : RenameBundle}

theorem laneEntry_slots (s : SuperScalarCPU cfg) (ren : RenameBundle) :
    memSlots [s.laneEntry ren] = (if ren.memoryRead || ren.memoryWrite then [s.rob.tail] else []) ∧
      storeSlots [s.laneEntry ren] = if ren.memoryWrite then [s.rob.tail] else [] := by
  rw [laneEntry_eq]
  cases hr : ren.memoryRead <;> cases hw : ren.memoryWrite <;>
    simp [memSlots, storeSlots, ROBEntry.memory]

/-- The entries dispatch of a lane appends to the load/store queue. -/
def lsqEntered (s : SuperScalarCPU cfg) (ren : RenameBundle) : List LSQEntry :=
  if s.laneDispatched ren && (ren.memoryRead || ren.memoryWrite) && !s.lsq.full then
    [{ valid := true, type := if ren.memoryRead then .LOAD else .STORE, robIndex := s.rob.tail,
       pc := ren.pc, physicalRd := if ren.memoryRead then ren.physicalRd else 0 }]
  else []

/-- The entries it appends to the store buffer. -/
def storeEntered (s : SuperScalarCPU cfg) (ren : RenameBundle) : List StoreBufferEntry :=
  if s.laneDispatched ren && ren.memoryWrite && !s.storeBuffer.full then
    [{ valid := true, robIndex := s.rob.tail, pc := ren.pc }]
  else []

theorem dispatchLane_queues (h : Sound s) (hb : Sound.Renamed ren) :
    (s.dispatchLane ren).lsq.entries = s.lsq.entries ++ s.lsqEntered ren ∧
      (s.dispatchLane ren).storeBuffer.entries =
        s.storeBuffer.entries ++ s.storeEntered ren := by
  have hiff : s.laneDispatched ren = true ↔ _ := laneDispatched_iff h.inFlight
  have hcase := dispatchLane_cases h.inFlight fun hv => (hb hv).1
  rw [lsqEntered, storeEntered]
  generalize s.dispatchLane ren = t at hcase
  cases hcase with
  | bubble hv ht =>
      have hd : s.laneDispatched ren = false := eq_false_of_ne_true fun hd => by
        rw [hv] at hiff
        exact absurd (hiff.mp hd).1 (by decide)
      rw [ht, hd]
      simp
  | refused _ hfull ht =>
      have hd : s.laneDispatched ren = false := eq_false_of_ne_true fun hd => by
        obtain ⟨-, hrob, hiq⟩ := hiff.mp hd
        rw [(robFull_eq h.inFlight).mpr hrob, (iqFull_eq h.inFlight).mpr hiq] at hfull
        rcases hfull with hfull | hfull <;> cases hfull
      rw [ht, hd]
      simp
  | entered idx rob1 iq1 hrob hiq he =>
      have hd : s.laneDispatched ren = true :=
        hiff.mpr ⟨he.valid, (robFull_eq h.inFlight).mp hrob, (iqFull_eq h.inFlight).mp hiq⟩
      obtain ⟨hidx, -⟩ := he.spec h.inFlight (hb he.valid).1
      -- a load goes into one queue, a store into both, and a full queue takes nothing
      have hclass := (hb he.valid).1.classes
      rw [he.frame, hd, ← hidx]
      dsimp only
      cases hr : ren.memoryRead with
      | true =>
          have hw : ren.memoryWrite = false := (hclass.1 hr).1
          simp only [hw, if_true, if_false, Bool.false_eq_true, LoadStoreQueue.allocate_getD]
          cases s.lsq.full <;> simp
      | false =>
          cases hw : ren.memoryWrite with
          | false => simp
          | true =>
              simp only [if_true, if_false, Bool.false_eq_true, LoadStoreQueue.allocate_getD,
                StoreBuffer.allocate_getD]
              cases s.lsq.full <;> cases s.storeBuffer.full <;> simp

/-- A lane keeps the order of the load/store queue; where the queue is full, `R` must bear
    with a missing slot. -/
theorem LsqTracks.dispatchLane (h : LsqTracks R s) (hR : SlotOrder R) (hs : Sound s)
    (hb : Sound.Renamed ren)
    (hroom : s.laneDispatched ren = true → ren.memoryRead = true ∨ ren.memoryWrite = true →
      s.lsq.full = true → ∀ a b i, R a b → R a (b ++ [i])) :
    LsqTracks R (s.dispatchLane ren) := by
  have hentries := (dispatchLane_queues hs hb).1
  have hslots : (s.dispatchLane ren).lsq.slots =
      s.lsq.slots ++ (s.lsqEntered ren).map LSQEntry.robIndex := by
    rw [LoadStoreQueue.slots, hentries, List.map_append]
    rfl
  refine ⟨fun l hl => ?_, ?_⟩
  · rw [hentries] at hl
    rcases List.mem_append.mp hl with hl | hl
    · exact h.valid l hl
    · rw [lsqEntered] at hl
      split at hl
      · rw [List.mem_singleton.mp hl]
      · cases hl
  · rw [hslots, dispatchLane_window hs hb, memSlots_append]
    cases hd : s.laneDispatched ren with
    | false =>
        simp only [lsqEntered, hd, Bool.false_and, Bool.false_eq_true, if_false, List.map_nil,
          List.append_nil]
        exact (List.append_nil _).symm ▸ h.slots
    | true =>
        rw [if_pos rfl, (laneEntry_slots s ren).1]
        by_cases hm : (ren.memoryRead || ren.memoryWrite) = true
        · rw [if_pos hm]
          cases hf : s.lsq.full with
          | false =>
              simp only [lsqEntered, hd, hm, hf, Bool.not_false, Bool.and_self, if_true]
              exact hR.concat _ h.slots
          | true =>
              simp only [lsqEntered, hd, hm, hf, Bool.not_true, Bool.and_false,
                Bool.false_eq_true, if_false, List.map_nil, List.append_nil]
              -- the window grows and the queue does not: what `hroom` allows for
              exact hroom hd (Bool.or_eq_true_iff.mp hm) hf _ _ _ h.slots
        · rw [if_neg hm, List.append_nil]
          simp only [lsqEntered, eq_false_of_ne_true hm, Bool.and_false, Bool.false_and,
            Bool.false_eq_true, if_false, List.map_nil, List.append_nil]
          exact h.slots

end Lane

/-! ## Whole steps -/

theorem LsqTracks.executed (h : LsqTracks R s) (hR : SlotOrder R) (hs : Steps s)
    (hno : NoMemorySquash s) : LsqTracks R s.executed := by
  obtain ⟨es, hes⟩ := hs.commits
  have hcommit := h.commit hR hs.sound hes
  refine hcommit.of_tags ?_ (hs.executed_slots hno).1
  rw [hs.executed_queues.1]
  exact memoryCase_tags hs.memoryCase

/-- Without a squash of memory operations the queue keeps naming, in order, slots of
    memory operations of the window: entries may be missing, but none is stale. -/
theorem LsqTracks.next_sublist (h : LsqTracks List.Sublist s) (hs : Steps s)
    (hno : NoMemorySquash s) : LsqTracks List.Sublist s.next := by
  have hR := slotOrder_sublist
  have hmissing : ∀ (a b : List Nat) i, a.Sublist b → a.Sublist (b ++ [i]) := fun a b i hab =>
    hab.trans (List.sublist_append_left b [i])
  have hexec := h.executed hR hs hno
  refine hs.next_lanes (fun t f ht => ⟨ht.valid, ht.slots⟩) hexec
    (fun _ => ⟨hexec.valid, hexec.slots⟩) (fun hr ht => ?_) fun hr _ ht => ?_
  · obtain ⟨hs0, -, hr0, -⟩ := hs.sound_lanes hr
    exact ht.dispatchLane hR hs0 hr0 fun _ _ _ => hmissing
  · obtain ⟨-, hs1, -, hr1⟩ := hs.sound_lanes hr
    exact ht.dispatchLane hR hs1 hr1 fun _ _ _ => hmissing

theorem LsqTracks.boot (hR : R [] []) (cfg : Config) (words : List Word)
    (data : List (Nat × Word)) : LsqTracks R (boot cfg words data) := by
  rw [boot_frame]
  have hwin : ((construct cfg).loadProgram words).rob.window = [] := ReOrderBuffer.window_reset
  have hslots : (memSlots ((construct cfg).loadProgram words).rob.window) = [] := by
    rw [hwin]; rfl
  refine ⟨?_, ?_⟩
  · intro l hl
    cases hl
  · rw [hslots]
    exact hR

end SuperScalarCPU

end CpuSim.SuperScalar
