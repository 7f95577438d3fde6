/-
  CpuSim.SuperScalar.StoreFlow

  Stores from execution to memory.  While no memory operation is squashed and both
  queues have room, the store buffer holds the stores of the window in order, each
  executed one with its own address and data, and commit drains exactly the front.
-/

import CpuSim.SuperScalar.MemoryQueues

namespace CpuSim.SuperScalar

open CpuSim.Lib

variable {cfg : Config}

/-! ## Commit on the store buffer -/

namespace StoreBuffer

variable {n : Nat} {sb : StoreBuffer n}

/-- The slots the buffer names. -/
def slots (sb : StoreBuffer n) : List Nat := sb.entries.map StoreBufferEntry.robIndex

/-- Every entry is valid and none is committed. -/
def Fresh (sb : StoreBuffer n) : Prop := ∀ b ∈ sb.entries, b.valid = true ∧ b.committed = false

/-- The effect of `mark_committed` on one entry. -/
def mark (b : StoreBufferEntry) : StoreBufferEntry := { b with committed := true }

theorem markAll_entries (h : ∀ b ∈ sb.entries, b.valid = true) (hn : sb.slots.Nodup)
    (es : List ROBEntry) :
    (CommitUnit.markAll sb es).entries =
      sb.entries.map fun b => if b.robIndex ∈ storeSlots es then mark b else b := by
  induction es generalizing sb with
  | nil =>
      rw [CommitUnit.markAll, List.foldl_nil]
      exact (List.map_id' sb.entries).symm.trans (List.map_congr_left fun b _ => by
        rw [storeSlots, List.filter_nil, List.map_nil, if_neg List.not_mem_nil])
  | cons e es ih =>
      rw [CommitUnit.markAll, List.foldl_cons]
      cases hw : e.memoryWrite with
      | false =>
          have hslots := storeSlots_cons_of_not es hw
          rw [if_neg Bool.false_ne_true, hslots]
          exact ih h hn
      | true =>
          have hslots := storeSlots_cons_of es hw
          have hone : (sb.markCommitted e.robIndex).entries =
              sb.entries.map fun b => if b.robIndex = e.robIndex then mark b else b :=
            updateFirst_eq_map hn fun b hb => matchesRob_of_valid (h b hb) _
          have hkeep : ∀ b : StoreBufferEntry,
              (if b.robIndex = e.robIndex then mark b else b).robIndex = b.robIndex ∧
                ((if b.robIndex = e.robIndex then mark b else b).valid = b.valid) := fun b => by
            split <;> exact ⟨rfl, rfl⟩
          have hvalid : ∀ b ∈ (sb.markCommitted e.robIndex).entries, b.valid = true := by
            intro b hb
            rw [hone] at hb
            obtain ⟨b0, hb0, rfl⟩ := List.mem_map.mp hb
            rw [(hkeep b0).2]
            exact h b0 hb0
          have hkeys : (sb.markCommitted e.robIndex).slots = sb.slots := by
            rw [slots, hone, List.map_map]
            exact List.map_congr_left fun b _ => (hkeep b).1
          rw [if_pos rfl]
          refine (ih hvalid (hkeys ▸ hn)).trans ?_
          rw [hone, List.map_map, hslots]
          refine List.map_congr_left fun b _ => ?_
          rw [Function.comp, (hkeep b).1]
          by_cases hb : b.robIndex = e.robIndex
          · have hmem : b.robIndex ∈ e.robIndex :: storeSlots es := by
              rw [hb]
              exact List.mem_cons_self
            rw [if_pos hb, if_pos hmem]
            split <;> rfl
          · rw [if_neg hb]
            exact if_congr (by rw [List.mem_cons, or_iff_right hb]) rfl rfl

end StoreBuffer

/-- The writes the event loop makes: for a store, the front of the buffer if it is
    committed. -/
def drainWrites {n : Nat} : StoreBuffer n → List CommitEvent → List (Word × Word)
  | _, [] => []
  | sb, ev :: evs =>
    if ev.store then
      match sb.popCommitted with
      | some (committedStore, sb') =>
        (committedStore.address, committedStore.data) :: drainWrites sb' evs
      | none => drainWrites sb evs
    else drainWrites sb evs

/-- Memory after a list of writes. -/
def DataMemory.writeAll {n : Nat} (m : DataMemory n) (ws : List (Word × Word)) : DataMemory n :=
  ws.foldl (fun m w => m.write w.1 w.2) m

/-- When the front of the buffer is made of committed entries, one for each store that
    retires, the loop drains exactly those. -/
theorem drain_front {n k : Nat} (prf : PhysicalRegisterFile cfg.prfCount) (es : List ROBEntry)
    (front rest : List StoreBufferEntry) (m : DataMemory k)
    (hlen : front.length = (storeSlots es).length)
    (hfront : ∀ b ∈ front, b.valid = true ∧ b.committed = true) :
    es.foldl SuperScalarCPU.drainStep ((⟨front ++ rest⟩ : StoreBuffer n), m) =
        (⟨rest⟩, m.writeAll (front.map fun b => (b.address, b.data))) ∧
      drainWrites (⟨front ++ rest⟩ : StoreBuffer n) (es.map (CommitUnit.makeEvent prf)) =
        front.map fun b => (b.address, b.data) := by
  induction es generalizing front m with
  | nil =>
      have hnil : front = [] := List.length_eq_zero_iff.mp hlen
      rw [hnil]
      exact ⟨rfl, rfl⟩
  | cons e es ih =>
      have hev : (CommitUnit.makeEvent prf e).store = e.memoryWrite := rfl
      rw [List.foldl_cons, List.map_cons, drainWrites, hev, SuperScalarCPU.drainStep]
      cases hw : e.memoryWrite with
      | false =>
          have hslots := storeSlots_cons_of_not es hw
          rw [hslots] at hlen
          exact ih front m hlen hfront
      | true =>
          have hslots := storeSlots_cons_of es hw
          rw [hslots] at hlen
          cases front with
          | nil => cases hlen
          | cons b front =>
              obtain ⟨hv, hc⟩ := hfront b List.mem_cons_self
              have hpop : (⟨b :: front ++ rest⟩ : StoreBuffer n).popCommitted =
                  some (b, ⟨front ++ rest⟩) := by
                simp [StoreBuffer.popCommitted, hv, hc]
              rw [if_pos rfl, if_pos rfl, hpop]
              obtain ⟨h1, h2⟩ := ih front (m.write b.address b.data) (Nat.succ.inj hlen)
                fun x hx => hfront x (List.mem_cons_of_mem _ hx)
              exact ⟨h1, congrArg ((b.address, b.data) :: ·) h2⟩

namespace SuperScalarCPU

variable {s t : SuperScalarCPU cfg} {own own' : Nat → Word × Word}

/-! ## The store buffer against the window -/

/-- A queued branch is not a store. -/
theorem InFlight.branch_not_store (h : InFlight s.rob s.iq) {q : IssueQueueEntry}
    (hq : q ∈ s.iq.live) (hb : q.controlFlow = .BRANCH) : q.memoryWrite = false := by
  have hdec := h.queueDecoded q hq
  rw [hdec.controlFlow, decodeWord_controlFlow] at hb
  rw [hdec.memoryWrite, decodeWord_memoryWrite]
  revert hb
  cases (decodeWord q.pc q.instruction).opcode <;> simp [controlFlowOf]

/-- The writes commit applies to data memory in one step. -/
def stepWrites (s : SuperScalarCPU cfg) : List (Word × Word) :=
  if s.halted then [] else drainWrites (runCommitUnit s).1.storeBuffer (runCommitUnit s).2

/-- The address and data each slot's latest store has once the results `rs` are in. -/
def storesAfter (rs : List MemoryResult) (own : Nat → Word × Word) : Nat → Word × Word :=
  rs.foldl (fun own r slot =>
    if r.isStore = true ∧ r.robIndex = slot then (r.address, r.data) else own slot) own

/-- The buffer holds the stores of the window, in order; an executed one holds the address
    and data `own` gives its slot. -/
structure StoresTrack (own : Nat → Word × Word) (s : SuperScalarCPU cfg) : Prop where
  fresh : s.storeBuffer.Fresh
  slots : s.storeBuffer.slots = storeSlots s.rob.window
  value : ∀ b ∈ s.storeBuffer.entries, ∃ e ∈ s.rob.window, e.memoryWrite = true ∧
    e.robIndex = b.robIndex ∧ (e.completed = true → (b.address, b.data) = own e.robIndex)

namespace StoresTrack

/-- Only the slots of executed stores matter. -/
theorem congr_own (h : StoresTrack own s)
    (heq : ∀ e ∈ s.rob.window, e.memoryWrite = true → e.completed = true →
      own' e.robIndex = own e.robIndex) : StoresTrack own' s := by
  refine ⟨h.fresh, h.slots, fun b hb => ?_⟩
  obtain ⟨e, he, hw, hr, hval⟩ := h.value b hb
  exact ⟨e, he, hw, hr, fun hc => (hval hc).trans (heq e he hw hc).symm⟩

theorem nodup (h : StoresTrack own s) (hs : Sound s) : s.storeBuffer.slots.Nodup := by
  rw [h.slots]
  exact hs.inFlight.rob_wf.nodup_robIndex.sublist storeSlots_sublist

/-- Commit drains the retired stores, in order, with their own address and data. -/
theorem commit (h : StoresTrack own s) (hs : Sound s) {es : List ROBEntry}
    (hc : Commits s t es) :
    StoresTrack own t ∧
      t.dataMemory = s.dataMemory.writeAll ((storeSlots es).map own) ∧
      drainWrites (CommitUnit.markAll s.storeBuffer es) (es.map (CommitUnit.makeEvent s.prf)) =
        (storeSlots es).map own := by
  have hnodup := h.nodup hs
  have hslots := h.slots
  rw [hc.window, storeSlots_append] at hslots
  obtain ⟨front, rest, hsplit, hfront, hrest⟩ := List.map_eq_append_iff.mp hslots
  -- marking reaches the front and nothing else
  have hmarked : (CommitUnit.markAll s.storeBuffer es).entries =
      front.map StoreBuffer.mark ++ rest := by
    rw [StoreBuffer.markAll_entries (fun b hb => (h.fresh b hb).1) hnodup, hsplit, List.map_append]
    congr 1
    · refine List.map_congr_left fun b hb => if_pos ?_
      rw [← hfront]
      exact List.mem_map_of_mem hb
    · refine (List.map_congr_left fun b hb => if_neg fun hmem => ?_).trans (List.map_id' rest)
      rw [StoreBuffer.slots, hsplit, List.map_append, List.nodup_append] at hnodup
      rw [← hfront] at hmem
      exact hnodup.2.2 b.robIndex hmem b.robIndex (List.mem_map_of_mem hb) rfl
  have hlen : (front.map StoreBuffer.mark).length = (storeSlots es).length := by
    rw [List.length_map, ← hfront, List.length_map]
  have hcommitted : ∀ b ∈ front.map StoreBuffer.mark, b.valid = true ∧ b.committed = true := by
    intro b hb
    obtain ⟨b0, hb0, rfl⟩ := List.mem_map.mp hb
    exact ⟨(h.fresh b0 (by rw [hsplit]; exact List.mem_append_left _ hb0)).1, rfl⟩
  obtain ⟨hdrain, hwrites⟩ := drain_front s.prf es (front.map StoreBuffer.mark) rest s.dataMemory
    hlen hcommitted
  have hbuffer : CommitUnit.markAll s.storeBuffer es =
      ⟨front.map StoreBuffer.mark ++ rest⟩ := by
    rw [← hmarked]
  -- the front entries are executed stores, so they hold what is their own
  have hown : (front.map StoreBuffer.mark).map (fun b => (b.address, b.data)) =
      (storeSlots es).map own := by
    rw [← hfront, List.map_map, List.map_map]
    refine List.map_congr_left fun b hb => ?_
    obtain ⟨e, he, hw, hr, hval⟩ := h.value b (by rw [hsplit]; exact List.mem_append_left _ hb)
    have hmem : b.robIndex ∈ storeSlots es := by
      rw [← hfront]
      exact List.mem_map_of_mem hb
    obtain ⟨e', he', -, hr'⟩ := mem_storeSlots.mp hmem
    have hee : e = e' := hs.inFlight.rob_wf.eq_of_robIndex he
      (by rw [hc.window]; exact List.mem_append_left _ he') (hr.trans hr'.symm)
    rw [Function.comp, Function.comp, ← hr]
    exact hval (hee ▸ hc.completed e' he')
  have hstores := hc.stores
  rw [hbuffer, hdrain, hown] at hstores
  have hsb : t.storeBuffer = ⟨rest⟩ := congrArg Prod.fst hstores
  refine ⟨⟨?_, ?_, ?_⟩, congrArg Prod.snd hstores, by rw [hbuffer, hwrites, hown]⟩
  · intro b hb
    rw [hsb] at hb
    exact h.fresh b (by rw [hsplit]; exact List.mem_append_right _ hb)
  · rw [hsb]
    exact hrest
  · intro b hb
    rw [hsb] at hb
    obtain ⟨e, he, hw, hr, hval⟩ := h.value b (by rw [hsplit]; exact List.mem_append_right _ hb)
    have hmem : b.robIndex ∈ storeSlots t.rob.window := by
      rw [← hrest]
      exact List.mem_map_of_mem hb
    obtain ⟨e', he', -, hr'⟩ := mem_storeSlots.mp hmem
    have hee : e = e' := hs.inFlight.rob_wf.eq_of_robIndex he
      (by rw [hc.window]; exact List.mem_append_right _ he') (hr.trans hr'.symm)
    exact ⟨e, hee ▸ he', hw, hr, hval⟩

/-- A stage that keeps the stores where they are. -/
theorem of_stores (h : StoresTrack own s) (hsb : t.storeBuffer = s.storeBuffer)
    (hslots : storeSlots t.rob.window = storeSlots s.rob.window)
    (hkeep : ∀ e ∈ s.rob.window, e.memoryWrite = true → e ∈ t.rob.window) : StoresTrack own t := by
  refine ⟨?_, ?_, fun b hb => ?_⟩
  · rw [hsb]
    exact h.fresh
  · rw [hsb, hslots]
    exact h.slots
  · rw [hsb] at hb
    obtain ⟨e, he, hw, hrest⟩ := h.value b hb
    exact ⟨e, hkeep e he hw, hw, hrest⟩

/-- Finishing an entry that is not a store. -/
theorem finish_other (h : StoresTrack own s) (hs : Sound s) {i : Nat}
    (hi : s.iq.entries i ∈ s.iq.live) (hno : (s.iq.entries i).memoryWrite = false) (r : Word) :
    StoresTrack own (s.finish i r) := by
  have hwin := hs.window_finish i r
  refine h.of_stores rfl ?_ fun e he hw => ?_
  · rw [hwin, (slots_finishAt _ _ _).2]
  · rw [hwin]
    refine List.mem_map.mpr ⟨e, he, ?_⟩
    rw [ReOrderBuffer.finishAt, if_neg]
    intro hslot
    -- the slot of a store is not the slot of the entry that finishes
    have hm := (hs.inFlight.backed_by hi he hslot.symm).2
    rw [(hs.inFlight.entryDecoded e he).memoryWrite, ← hm.pc, ← hm.instruction,
      ← (hs.inFlight.queueDecoded _ hi).memoryWrite, hno] at hw
    cases hw

/-- Executing a store whose address and data are its own. -/
theorem finish_store (h : StoresTrack own s) (hs : Sound s) {i : Nat} {address data r : Word}
    (hown : own (s.iq.entries i).robIndex = (address, data))
    (ht : t.rob = (s.finish i r).rob)
    (hsb : t.storeBuffer = s.storeBuffer.update (s.iq.entries i).robIndex address data) :
    StoresTrack own t := by
  have hwin := hs.window_finish i r
  -- the slots of the buffer are distinct, so one entry at most is updated
  have hupdate : t.storeBuffer.entries = s.storeBuffer.entries.map fun b =>
      if b.robIndex = (s.iq.entries i).robIndex then
        { b with address := address, data := data, addressReady := true, dataReady := true }
      else b := by
    rw [hsb]
    exact updateFirst_eq_map (h.nodup hs) fun b hb =>
      StoreBuffer.matchesRob_of_valid (h.fresh b hb).1 _
  refine ⟨fun b hb => ?_, ?_, fun b hb => ?_⟩
  · rw [hupdate] at hb
    obtain ⟨b0, hb0, rfl⟩ := List.mem_map.mp hb
    split <;> exact h.fresh b0 hb0
  · rw [ht, hwin, (slots_finishAt _ _ _).2, ← h.slots, StoreBuffer.slots, hupdate, List.map_map]
    refine List.map_congr_left fun b _ => ?_
    rw [Function.comp]
    split <;> rfl
  · rw [hupdate] at hb
    obtain ⟨b0, hb0, rfl⟩ := List.mem_map.mp hb
    obtain ⟨e, he, hw, hr, hval⟩ := h.value b0 hb0
    refine ⟨ReOrderBuffer.finishAt (s.iq.entries i).robIndex r e, ?_, ?_, ?_, ?_⟩
    · rw [ht, hwin]
      exact List.mem_map_of_mem he
    · rw [ReOrderBuffer.finishAt]
      split <;> exact hw
    · rw [ReOrderBuffer.finishAt]
      split <;> split <;> exact hr
    · rw [ReOrderBuffer.finishAt]
      -- the store itself now has `own`; the others keep what they had
      by_cases hslot : e.robIndex = (s.iq.entries i).robIndex
      · rw [if_pos hslot, if_pos (hr ▸ hslot)]
        intro _
        show (address, data) = own e.robIndex
        rw [hslot, hown]
      · rw [if_neg hslot, if_neg (hr ▸ hslot)]
        exact hval

/-- Memory execution gives the slot of the store it executes its address and data. -/
theorem memory (h : StoresTrack own s) (hs : Sound s) {rs : List MemoryResult}
    (hc : MemoryCase s t rs) : StoresTrack (storesAfter rs own) t := by
  cases hc with
  | idle q _ ht =>
      rw [ht]
      exact h.of_stores rfl rfl fun e he _ => he
  | load q i _ hi hr _ ht =>
      have hdec := hs.inFlight.queueDecoded _ hi.live
      have hno : (s.iq.entries i).memoryWrite = false := by
        rw [hdec.memoryRead, decodeWord_memoryRead, beq_iff_eq] at hr
        rw [hdec.memoryWrite, decodeWord_memoryWrite, hr]
        rfl
      rw [ht]
      exact (h.finish_other hs hi.live hno (s.loadData q i)).of_stores rfl rfl fun e he _ => he
  | store q i _ hi _ _ ht =>
      have hself : storesAfter [s.storeResult q i] own (s.iq.entries i).robIndex =
          (MemoryExecutionUnit.calculateAddress (s.iq.entries i), (s.iq.entries i).rs2Value) :=
        if_pos ⟨rfl, rfl⟩
      have hown : StoresTrack (storesAfter [s.storeResult q i] own) s := by
        refine h.congr_own fun e he _ hdone => if_neg ?_
        rintro ⟨-, hslot⟩
        -- the entry about to execute is not completed yet
        have hopen := (hs.inFlight.backed_by hi.live he hslot).1
        rw [hdone] at hopen
        cases hopen
      rw [ht]
      exact hown.finish_store hs hself rfl rfl

theorem branch (h : StoresTrack own s) (hs : Sound s) (hc : BranchCase s t)
    (hno : ∀ i, s.selectBranch = some i → (s.branchResult i).mispredicted = true →
      ∀ e ∈ (s.rob.squashYoungerThan (s.branchResult i).robIndex).2.1, e.memory = false) :
    StoresTrack own t := by
  have hslots := branchCase_slots hs hc hno
  have hqueues := branchCase_queues hs hc
  cases hc with
  | none _ ht => rw [ht]; exact h
  | correct i hi _ ht =>
      obtain ⟨-, hlive, hflow, -, -⟩ := selectBranch_some hi
      have hnot := InFlight.branch_not_store hs.inFlight hlive hflow
      rw [ht, hs.resolveBranch_eq hi]
      exact (h.finish_other hs hlive hnot _).of_stores rfl rfl fun e he _ => he
  | mispredicted i hi hm pre b post hb _ hr =>
      refine h.of_stores hqueues.2 hslots.2 fun e he hw => ?_
      have hpost := hno i hi hm
      rw [hr.squashed hs hb] at hpost
      have hmem : e.memory = true := by rw [ROBEntry.memory, hw, Bool.or_true]
      obtain ⟨-, hlive, hflow, -, -⟩ := selectBranch_some hi
      rw [hr.split] at he
      rw [hr.window]
      rcases List.mem_append.mp he with he | he
      · exact List.mem_append_left _ he
      · rcases List.mem_cons.mp he with rfl | he
        · -- the entry is the branch itself
          have hbmem : e ∈ s.rob.window := by rw [hr.split]; simp
          have hnot := InFlight.branch_not_store hs.inFlight hlive hflow
          rw [(hs.inFlight.queueDecoded _ hlive).memoryWrite, hb.pc, hb.instruction,
            ← (hs.inFlight.entryDecoded e hbmem).memoryWrite, hw] at hnot
          cases hnot
        · rw [hpost e he] at hmem
          cases hmem

theorem executeAlu (h : StoresTrack own s) (hs : Sound s) {i : Nat}
    (hi : s.selectReadyAluEntry = some i) : StoresTrack own (s.executeAlu i) := by
  obtain ⟨-, hlive, hready⟩ := selectReadyAluEntry_some hi
  have hno : (s.iq.entries i).memoryWrite = false := by
    simp only [readyAlu, Bool.and_eq_true, Bool.not_eq_true'] at hready
    exact hready.1.1.1.2
  rw [executeAlu_eq]
  exact h.finish_other hs hlive hno _

/-- A lane puts the store it dispatches at the end of the buffer when there is room. -/
theorem dispatchLane (h : StoresTrack own s) (hs : Sound s) {ren : RenameBundle}
    (hb : Sound.Renamed ren)
    (hfit : (storeSlots (s.dispatchLane ren).rob.window).length ≤ cfg.storeBufferCapacity) :
    StoresTrack own (s.dispatchLane ren) := by
  have hentries := (dispatchLane_queues hs hb).2
  have hwin := dispatchLane_window hs hb
  by_cases hd : s.laneDispatched ren = true ∧ ren.memoryWrite = true
  · obtain ⟨hd, hw⟩ := hd
    obtain ⟨hv, -, -⟩ := (laneDispatched_iff hs.inFlight).mp hd
    have hlane : storeSlots [s.laneEntry ren] = [s.rob.tail] := by
      rw [(laneEntry_slots s ren).2, if_pos hw]
    rw [hd, if_pos rfl] at hwin
    rw [hwin, storeSlots_append, hlane, List.length_append, ← h.slots, StoreBuffer.slots,
      List.length_map] at hfit
    have hroom : s.storeBuffer.full = false := by
      rw [StoreBuffer.full, decide_eq_false_iff_not]
      exact Nat.not_le.mpr hfit
    rw [storeEntered, hd, hw, hroom] at hentries
    change _ = s.storeBuffer.entries ++ [_] at hentries
    refine ⟨?_, ?_, ?_⟩
    · intro b hmem
      rw [hentries] at hmem
      rcases List.mem_append.mp hmem with hmem | hmem
      · exact h.fresh b hmem
      · rw [List.mem_singleton.mp hmem]
        exact ⟨rfl, rfl⟩
    · rw [StoreBuffer.slots, hentries, List.map_append, hwin, storeSlots_append, hlane, ← h.slots]
      rfl
    · intro b hmem
      rw [hentries] at hmem
      rw [hwin]
      rcases List.mem_append.mp hmem with hmem | hmem
      · obtain ⟨e, he, hrest⟩ := h.value b hmem
        exact ⟨e, List.mem_append_left _ he, hrest⟩
      · -- the new entry has not executed
        rw [List.mem_singleton.mp hmem]
        refine ⟨s.laneEntry ren, List.mem_append_right _ List.mem_cons_self, ?_, ?_, ?_⟩
        · rw [laneEntry_eq]
          exact hw
        · rw [laneEntry_eq]
        · intro hdone
          rw [laneEntry_eq] at hdone
          have hlate : ren.completesAtOnce = false := (hb hv).1.classes.2.1 hw
          exact absurd (hlate.symm.trans hdone) Bool.false_ne_true
  · -- no store is dispatched
    have hnone : s.storeEntered ren = [] := by
      rw [storeEntered, if_neg]
      intro hall
      simp only [Bool.and_eq_true] at hall
      exact hd hall.1
    rw [hnone, List.append_nil] at hentries
    have hslots : storeSlots (s.dispatchLane ren).rob.window = storeSlots s.rob.window := by
      rw [hwin, storeSlots_append]
      cases hlane : s.laneDispatched ren with
      | false => exact List.append_nil _
      | true =>
          have hw : ren.memoryWrite = false := eq_false_of_ne_true fun hw => hd ⟨hlane, hw⟩
          rw [if_pos rfl, (laneEntry_slots s ren).2, hw]
          exact List.append_nil _
    refine h.of_stores ?_ hslots fun e he _ => ?_
    · exact congrArg StoreBuffer.mk hentries
    · rw [hwin]
      exact List.mem_append_left _ he

end StoresTrack

end SuperScalarCPU

end CpuSim.SuperScalar
