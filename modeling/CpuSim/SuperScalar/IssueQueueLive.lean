/-
  CpuSim.SuperScalar.IssueQueueLive

  The issue queue as a bag of entries.  `live` lists the valid slots, `WF` says
  that `count` is their number; the operations are specified up to permutation,
  because a freed slot is reused in index order.
-/

import Mathlib.Data.List.Perm.Basic
import CpuSim.SuperScalar.IssueQueue

namespace CpuSim.SuperScalar

namespace IssueQueueEntry

@[simp] theorem wakeup_valid (e : IssueQueueEntry) (p : PhysicalRegister) (v : Word) :
    (e.wakeup p v).valid = e.valid := by
  simp only [wakeup]
  split
  · rfl
  · split <;> split <;> rfl

/-- A broadcast touches readiness and values only. -/
theorem wakeup_eq (e : IssueQueueEntry) (p : PhysicalRegister) (v : Word) (hv : e.valid = true) :
    e.wakeup p v =
      { e with
        rs1Ready := e.rs1Ready || e.physicalRs1 == p,
        rs1Value := if !e.rs1Ready && e.physicalRs1 == p then v else e.rs1Value,
        rs2Ready := e.rs2Ready || e.physicalRs2 == p,
        rs2Value := if !e.rs2Ready && e.physicalRs2 == p then v else e.rs2Value } := by
  cases h1 : e.rs1Ready <;> cases h2 : e.rs2Ready <;> cases h3 : e.physicalRs1 == p <;>
    cases h4 : e.physicalRs2 == p <;> simp [wakeup, hv, h1, h2, h3, h4] <;>
    cases e <;> simp_all

end IssueQueueEntry

namespace IssueQueue

variable {Capacity : Nat}

/-- All slots, in index order. -/
def slotList (iq : IssueQueue Capacity) : List IssueQueueEntry :=
  (List.range Capacity).map iq.entries

/-- The valid entries. -/
def live (iq : IssueQueue Capacity) : List IssueQueueEntry :=
  iq.slotList.filter (·.valid)

/-- `count` is the number of valid slots. -/
def WF (iq : IssueQueue Capacity) : Prop := iq.count = iq.live.length

variable {iq : IssueQueue Capacity}

@[simp] theorem length_slotList : iq.slotList.length = Capacity := by simp [slotList]

theorem mem_live {e : IssueQueueEntry} :
    e ∈ iq.live ↔ (∃ i < Capacity, iq.entries i = e) ∧ e.valid = true := by
  simp [live, slotList]

theorem entries_mem_live {i : Nat} (hi : i < Capacity) (hv : (iq.entries i).valid = true) :
    iq.entries i ∈ iq.live := mem_live.mpr ⟨⟨i, hi, rfl⟩, hv⟩

/-- When the valid slots name different reorder buffer slots, the name finds the slot. -/
theorem eq_of_robIndex_eq (hn : (iq.live.map IssueQueueEntry.robIndex).Nodup) {i j : Nat}
    (hi : i < Capacity) (hj : j < Capacity) (hvi : (iq.entries i).valid = true)
    (hvj : (iq.entries j).valid = true)
    (hr : (iq.entries i).robIndex = (iq.entries j).robIndex) : i = j := by
  rw [live, slotList, List.filter_map, List.map_map] at hn
  refine List.inj_on_of_nodup_map hn ?_ ?_ hr
  · exact List.mem_filter.mpr ⟨List.mem_range.mpr hi, hvi⟩
  · exact List.mem_filter.mpr ⟨List.mem_range.mpr hj, hvj⟩

/-- What `findSlot` returns is in range and satisfies the test. -/
theorem findSlot_some {p : IssueQueueEntry → Bool} {i : Nat} (h : iq.findSlot p = some i) :
    i < Capacity ∧ p (iq.entries i) = true := by
  simp only [findSlot, List.find?_eq_some_iff_append, List.range_eq_range'] at h
  obtain ⟨hp, as, bs, heq, _⟩ := h
  have hm : i ∈ List.range' 0 Capacity := by
    rw [heq]
    simp
  rw [← List.range_eq_range', List.mem_range] at hm
  exact ⟨hm, hp⟩

/-- `findSlot` misses only when no slot satisfies the test. -/
theorem findSlot_none {p : IssueQueueEntry → Bool} (h : iq.findSlot p = none) {i : Nat}
    (hi : i < Capacity) : p (iq.entries i) = false := by
  simp only [findSlot, List.find?_eq_none, List.mem_range] at h
  simpa using h i hi

/-- Overwriting one slot of the array. -/
theorem slotList_update (iq : IssueQueue Capacity) (i : Nat) (e : IssueQueueEntry) (n : Nat) :
    (@IssueQueue.mk Capacity (Function.update iq.entries i e) n).slotList =
      iq.slotList.set i e := by
  refine List.ext_getElem (by simp) fun j hj hj' => ?_
  simp only [slotList, List.getElem_map, List.getElem_range, List.getElem_set,
    Function.update_apply]
  by_cases hij : i = j
  · simp [hij]
  · simp [hij, Ne.symm hij]

theorem slotList_perm (iq : IssueQueue Capacity) {i : Nat} (hi : i < Capacity) :
    (iq.entries i :: iq.slotList.eraseIdx i).Perm iq.slotList := by
  have := List.getElem_cons_eraseIdx_perm (l := iq.slotList) (n := i) (by simpa using hi)
  simpa [slotList] using this

/-! ## Operations -/

theorem wf_reset : (reset : IssueQueue Capacity).WF := by
  simp [WF, live, slotList, reset]

@[simp] theorem live_reset : (reset : IssueQueue Capacity).live = [] := by
  simp [live, slotList, reset]

/-- Filling slot `i`: the slot's old content leaves the bag, the new one enters. -/
theorem live_update_perm (iq : IssueQueue Capacity) {i : Nat} (hi : i < Capacity)
    (e : IssueQueueEntry) (n : Nat) :
    ∃ rest : List IssueQueueEntry,
      iq.live.Perm ((if (iq.entries i).valid then [iq.entries i] else []) ++ rest) ∧
        (@IssueQueue.mk Capacity (Function.update iq.entries i e) n).live.Perm
          ((if e.valid then [e] else []) ++ rest) := by
  refine ⟨(iq.slotList.eraseIdx i).filter (·.valid), ?_, ?_⟩
  · have := ((iq.slotList_perm hi).filter (·.valid)).symm
    rw [List.filter_cons] at this
    split at this <;> simp [live, *]
  · have hlen : i < iq.slotList.length := by simpa using hi
    have := (List.set_perm_cons_eraseIdx hlen e).filter (·.valid)
    rw [List.filter_cons] at this
    rw [live, slotList_update]
    split at this <;> simp [*]

/-- `insert` adds exactly the given entry. -/
theorem WF.insert (h : iq.WF) {e : IssueQueueEntry} {iq' : IssueQueue Capacity}
    (hi : iq.insert e = some iq') :
    iq'.WF ∧ iq'.live.Perm ({ e with valid := true } :: iq.live) := by
  simp only [IssueQueue.insert] at hi
  split at hi
  · cases hi
  split at hi
  · rename_i i hfind
    obtain ⟨hlt, hinv⟩ := findSlot_some hfind
    obtain ⟨rest, hold, hnew⟩ :=
      iq.live_update_perm hlt { e with valid := true } (iq.count + 1)
    obtain rfl := Option.some.inj hi
    have hv : (iq.entries i).valid = false := by simpa using hinv
    simp only [hv, if_true, List.singleton_append, Bool.false_eq_true, if_false,
      List.nil_append] at hold hnew
    have hperm := hnew.trans (hold.symm.cons _)
    refine ⟨?_, hperm⟩
    rw [WF, hperm.length_eq, List.length_cons, ← h]
  · cases hi

/-- A queue that is not full takes the entry. -/
theorem WF.insert_isSome (h : iq.WF) (e : IssueQueueEntry) :
    (iq.insert e).isSome = !iq.full := by
  cases hf : iq.full with
  | true => simp [IssueQueue.insert, hf]
  | false =>
      simp only [IssueQueue.insert, hf, Bool.false_eq_true, if_false]
      cases hfind : iq.findSlot (fun e => !e.valid) with
      | some i => rfl
      | none =>
          have hall : ∀ e ∈ iq.slotList, e.valid = true := by
            intro e he
            simp only [slotList, List.mem_map, List.mem_range] at he
            obtain ⟨i, hi, rfl⟩ := he
            simpa using findSlot_none hfind hi
          have hlive : iq.live = iq.slotList := List.filter_eq_self.mpr hall
          rw [WF, hlive, length_slotList] at h
          simp [full, h] at hf

/-- `remove` takes the addressed entry out of the bag. -/
theorem WF.remove (h : iq.WF) {i : Nat} (hi : i < Capacity)
    (hv : (iq.entries i).valid = true) :
    (iq.remove i).WF ∧ iq.live.Perm (iq.entries i :: (iq.remove i).live) := by
  obtain ⟨rest, hold, hnew⟩ := iq.live_update_perm hi {} (iq.count - 1)
  have hrem : iq.remove i = ⟨Function.update iq.entries i {}, iq.count - 1⟩ := by
    simp [IssueQueue.remove, hv, Nat.not_le.mpr hi]
  rw [← hrem] at hnew
  simp only [hv, if_true, List.singleton_append, Bool.false_eq_true, if_false,
    List.nil_append] at hold hnew
  refine ⟨?_, hold.trans (hnew.symm.cons _)⟩
  rw [WF, hnew.length_eq, hrem]
  have hlen := hold.length_eq
  rw [← h, List.length_cons] at hlen
  simp only [hlen, Nat.add_sub_cancel]

/-- `wakeup` rewrites the bag entry by entry. -/
theorem live_wakeup (iq : IssueQueue Capacity) (p : PhysicalRegister) (v : Word) :
    (iq.wakeup p v).live = iq.live.map (·.wakeup p v) := by
  simp only [live, slotList, wakeup, List.filter_map, List.map_map]
  congr 1
  refine List.filter_congr fun i _ => ?_
  simp

theorem WF.wakeup (h : iq.WF) (p : PhysicalRegister) (v : Word) : (iq.wakeup p v).WF := by
  rw [WF, live_wakeup, List.length_map, ← h]
  rfl

/-- `squash` keeps the entries whose index is not named. -/
theorem live_squash (iq : IssueQueue Capacity) (rs : List Nat) :
    (iq.squash rs).live = iq.live.filter fun e => !rs.contains e.robIndex := by
  simp only [live, slotList, squash]
  generalize List.range Capacity = slots
  induction slots with
  | nil => rfl
  | cons i is ih =>
      rw [List.map_cons, List.map_cons, List.filter_cons, List.filter_cons, ih]
      by_cases hv : (iq.entries i).valid = true
      · by_cases hr : rs.contains (iq.entries i).robIndex = true
        · simp only [hv, hr, Bool.and_self, if_true, Bool.false_eq_true, if_false]
          rw [List.filter_cons, hr]
          simp
        · rw [Bool.not_eq_true] at hr
          simp only [hv, hr, Bool.and_false, Bool.false_eq_true, if_false, if_true]
          rw [List.filter_cons, hr]
          simp
      · rw [Bool.not_eq_true] at hv
        simp [hv]

theorem WF.squash (h : iq.WF) (rs : List Nat) : (iq.squash rs).WF := by
  have hcount : ((List.range Capacity).filter
      fun i => (iq.entries i).valid && rs.contains (iq.entries i).robIndex).length =
        (iq.live.filter fun e => rs.contains e.robIndex).length := by
    rw [live, List.filter_filter, slotList, List.filter_map, List.length_map]
    congr 1
    refine List.filter_congr fun i _ => ?_
    simp [Bool.and_comm]
  have hsplit : iq.live.length =
      (iq.live.filter fun e => rs.contains e.robIndex).length +
        (iq.live.filter fun e => !rs.contains e.robIndex).length := by
    simpa using List.length_eq_length_filter_add (l := iq.live) fun e => rs.contains e.robIndex
  rw [WF, live_squash]
  rw [WF] at h
  simp only [IssueQueue.squash, hcount]
  omega

end IssueQueue

end CpuSim.SuperScalar
