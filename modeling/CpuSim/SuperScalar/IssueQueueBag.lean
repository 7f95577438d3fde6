/-
  CpuSim.SuperScalar.IssueQueueBag

  The calls of the issue queue against a bag of entries.  Callers address a slot by
  index, by pointer or by the reorder buffer index its entry carries; whatever the
  mix of calls, `count` stays the number of valid slots and the valid slots hold the
  bag the same operations make.
-/

import Mathlib.Data.Multiset.Filter
import Mathlib.Data.Nat.SuccPred
import CpuSim.Lib.Refinement
import CpuSim.Lib.Sweep
import CpuSim.SuperScalar.IssueQueueLive
import CpuSim.SuperScalar.ReOrderBuffer

namespace CpuSim.SuperScalar

open CpuSim.Lib

/-- An `Entry*`.  `slot i` is the address of element `i` counted from the start of the
    array, so an index from `Capacity` on is the address of another object. -/
inductive EntryPointer where
  | null
  | slot (i : Nat)
  deriving DecidableEq

/-- The entry with its `issued` flag set. -/
def IssueQueueEntry.markIssued (e : IssueQueueEntry) : IssueQueueEntry := { e with issued := true }

namespace IssueQueue

variable {Capacity : Nat}

/-! ## The remaining operations -/

/-- `size()`. -/
def size (iq : IssueQueue Capacity) : Nat := iq.count

/-- `mark_issued(index)`. -/
def markIssued (iq : IssueQueue Capacity) (index : Nat) : IssueQueue Capacity :=
  if index ≥ Capacity then iq
  else if !(iq.entries index).valid then iq
  else
    { iq with entries := Function.update iq.entries index (iq.entries index).markIssued }

/-- The loop of both pointer overloads: the first slot whose address is the pointer. -/
def slotOf (Capacity : Nat) (entryPtr : EntryPointer) : Option Nat :=
  (List.range Capacity).find? fun i => EntryPointer.slot i == entryPtr

/-- `mark_issued(entry_ptr)`. -/
def markIssuedPtr (iq : IssueQueue Capacity) (entryPtr : EntryPointer) : IssueQueue Capacity :=
  if entryPtr = .null then iq
  else
    match slotOf Capacity entryPtr with
    | some i => iq.markIssued i
    | none => iq

/-- `remove(entry_ptr)`: true when the pointer is into the array, whether or not the
    slot was valid. -/
def removePtr (iq : IssueQueue Capacity) (entryPtr : EntryPointer) : Bool × IssueQueue Capacity :=
  if entryPtr = .null then (false, iq)
  else
    match slotOf Capacity entryPtr with
    | some i => (true, iq.remove i)
    | none => (false, iq)

/-- One iteration of the outer loop of `squash`; `named` is the inner loop, which stops
    at the first index that matches. -/
def squashSlot (named : Nat → Bool) (s : Nat × IssueQueue Capacity) (i : Nat) :
    Nat × IssueQueue Capacity :=
  if !(s.2.entries i).valid then s
  else if named (s.2.entries i).robIndex then
    (s.1 + 1, { entries := Function.update s.2.entries i {}, count := s.2.count - 1 })
  else s

/-- `squash(rob_indices)`: the number of removed entries and the new queue. -/
def squashIndices (iq : IssueQueue Capacity) (robIndices : List Nat) :
    Nat × IssueQueue Capacity :=
  (List.range Capacity).foldl (squashSlot fun r => robIndices.any (r == ·)) (0, iq)

/-- `squash(squashed_entries)`. -/
def squashEntries (iq : IssueQueue Capacity) (squashedEntries : List ROBEntry) :
    Nat × IssueQueue Capacity :=
  (List.range Capacity).foldl
    (squashSlot fun r => squashedEntries.any fun robE => r == robE.robIndex) (0, iq)

end IssueQueue

/-! ## The calls -/

/-- A call of the queue. -/
inductive QueueCall where
  | insert (entry : IssueQueueEntry)
  | remove (index : Nat)
  | removePtr (entryPtr : EntryPointer)
  | wakeup (p : PhysicalRegister) (value : Word)
  | markIssued (index : Nat)
  | markIssuedPtr (entryPtr : EntryPointer)
  | squash (robIndices : List Nat)
  | squashEntries (squashedEntries : List ROBEntry)
  | reset

/-- What a call returns. -/
inductive QueueAnswer where
  | done
  | flag (b : Bool)
  | number (n : Nat)
  deriving DecidableEq

/-- Run one call. -/
def IssueQueue.call {Capacity : Nat} (iq : IssueQueue Capacity) :
    QueueCall → QueueAnswer × IssueQueue Capacity
  | .insert entry =>
    match iq.insert entry with
    | some iq' => (.flag true, iq')
    | none => (.flag false, iq)
  | .remove index => (.done, iq.remove index)
  | .removePtr entryPtr =>
    let (found, iq') := iq.removePtr entryPtr
    (.flag found, iq')
  | .wakeup p value => (.done, iq.wakeup p value)
  | .markIssued index => (.done, iq.markIssued index)
  | .markIssuedPtr entryPtr => (.done, iq.markIssuedPtr entryPtr)
  | .squash robIndices =>
    let (removed, iq') := iq.squashIndices robIndices
    (.number removed, iq')
  | .squashEntries squashedEntries =>
    let (removed, iq') := iq.squashEntries squashedEntries
    (.number removed, iq')
  | .reset => (.done, .reset)

/-! ## The bag -/

/-- What the calls mean for a bag of at most `Capacity` entries.  A caller that addresses
    a slot means the entry in it, if there is one. -/
inductive BagCall where
  | insert (entry : IssueQueueEntry)
  | remove (addressed : Option IssueQueueEntry)
  | wakeup (p : PhysicalRegister) (value : Word)
  | markIssued (addressed : Option IssueQueueEntry)
  | squash (robIndices : List Nat)
  | reset

/-- An entry after a broadcast: each operand that was not ready and reads `p` becomes
    ready with the value, and nothing else is different. -/
def IssueQueue.heard (e : IssueQueueEntry) (p : PhysicalRegister) (value : Word) :
    IssueQueueEntry :=
  { e with
    rs1Ready := e.rs1Ready || e.physicalRs1 == p,
    rs1Value := if e.rs1Ready = false ∧ e.physicalRs1 = p then value else e.rs1Value,
    rs2Ready := e.rs2Ready || e.physicalRs2 == p,
    rs2Value := if e.rs2Ready = false ∧ e.physicalRs2 = p then value else e.rs2Value }

/-- Run one call on the bag. -/
def bagStep (Capacity : Nat) (bag : Multiset IssueQueueEntry) :
    BagCall → Multiset IssueQueueEntry
  | .insert entry =>
    if bag.card < Capacity then { entry with valid := true } ::ₘ bag else bag
  | .remove none => bag
  | .remove (some e) => bag.erase e
  | .wakeup p value => bag.map (IssueQueue.heard · p value)
  | .markIssued none => bag
  | .markIssued (some e) => { e with issued := true } ::ₘ bag.erase e
  | .squash robIndices => bag.filter fun e => e.robIndex ∉ robIndices
  | .reset => 0

namespace IssueQueue

variable {Capacity : Nat}

/-- The valid entries as a bag. -/
def bag (iq : IssueQueue Capacity) : Multiset IssueQueueEntry := iq.live

/-- The entry in a slot, when the slot is in the array and valid. -/
def addressed (iq : IssueQueue Capacity) (index : Nat) : Option IssueQueueEntry :=
  if index < Capacity ∧ (iq.entries index).valid then some (iq.entries index) else none

/-- The entry behind a pointer. -/
def pointed (iq : IssueQueue Capacity) : EntryPointer → Option IssueQueueEntry
  | .null => none
  | .slot i => iq.addressed i

/-- What a call means for the bag. -/
def resolve (iq : IssueQueue Capacity) : QueueCall → BagCall
  | .insert entry => .insert entry
  | .remove index => .remove (iq.addressed index)
  | .removePtr entryPtr => .remove (iq.pointed entryPtr)
  | .wakeup p value => .wakeup p value
  | .markIssued index => .markIssued (iq.addressed index)
  | .markIssuedPtr entryPtr => .markIssued (iq.pointed entryPtr)
  | .squash robIndices => .squash robIndices
  | .squashEntries squashedEntries => .squash (squashedEntries.map ROBEntry.robIndex)
  | .reset => .reset

/-- The bag calls behind a sequence of calls. -/
def resolved : IssueQueue Capacity → List QueueCall → List BagCall
  | _, [] => []
  | iq, c :: cs => iq.resolve c :: resolved (iq.call c).2 cs

/-! ## What a call may change -/

/-- The indices of the valid slots. -/
def occupied (iq : IssueQueue Capacity) : List Nat :=
  (List.range Capacity).filter fun i => (iq.entries i).valid

/-- The valid slots among `named` are emptied, every other slot is as before. -/
def Deletes (iq iq' : IssueQueue Capacity) (named : Nat → Prop) : Prop :=
  ∀ i < Capacity,
    ((iq.entries i).valid = true ∧ named i → iq'.entries i = {}) ∧
      (¬((iq.entries i).valid = true ∧ named i) → iq'.entries i = iq.entries i)

/-- The valid slots among `named` have `issued` set and nothing else changed, every other
    slot is as before. -/
def Marks (iq iq' : IssueQueue Capacity) (named : Nat → Prop) : Prop :=
  ∀ i < Capacity,
    ((iq.entries i).valid = true ∧ named i →
      iq'.entries i = { iq.entries i with issued := true }) ∧
      (¬((iq.entries i).valid = true ∧ named i) → iq'.entries i = iq.entries i)

/-- What each call answers and does to the slots. -/
def Meets (iq : IssueQueue Capacity) (answer : QueueAnswer) (iq' : IssueQueue Capacity) :
    QueueCall → Prop
  | .insert entry =>
    (answer = .flag true ∧
      ∃ i < Capacity, (iq.entries i).valid = false ∧
        iq'.entries i = { entry with valid := true } ∧
          ∀ j, j ≠ i → iq'.entries j = iq.entries j) ∨
    (answer = .flag false ∧ (∀ i < Capacity, (iq.entries i).valid = true) ∧ iq' = iq)
  | .remove index => answer = .done ∧ iq.Deletes iq' (· = index)
  | .removePtr entryPtr =>
    answer = .flag (∃ i < Capacity, entryPtr = .slot i) ∧ iq.Deletes iq' (.slot · = entryPtr)
  | .wakeup p value =>
    answer = .done ∧ ∀ i < Capacity,
      iq'.entries i =
        if (iq.entries i).valid then heard (iq.entries i) p value else iq.entries i
  | .markIssued index => answer = .done ∧ iq.Marks iq' (· = index)
  | .markIssuedPtr entryPtr => answer = .done ∧ iq.Marks iq' (.slot · = entryPtr)
  | .squash robIndices =>
    answer = .number
        (iq.occupied.filter fun i => (iq.entries i).robIndex ∈ robIndices).length ∧
      iq.Deletes iq' fun i => (iq.entries i).robIndex ∈ robIndices
  | .squashEntries squashedEntries =>
    answer = .number
        (iq.occupied.filter fun i =>
          (iq.entries i).robIndex ∈ squashedEntries.map ROBEntry.robIndex).length ∧
      iq.Deletes iq' fun i => (iq.entries i).robIndex ∈ squashedEntries.map ROBEntry.robIndex
  | .reset => answer = .done ∧ ∀ i < Capacity, iq'.entries i = {}

variable {iq iq' : IssueQueue Capacity}

/-! ## Pointers -/

/-- A pointer into the array finds the element it points to. -/
theorem slotOf_slot (Capacity i : Nat) :
    slotOf Capacity (.slot i) = if i < Capacity then some i else none := by
  split
  · next hi =>
      apply List.find?_range_eq_some.mpr
      refine ⟨beq_self_eq_true _, List.mem_range.mpr hi, ?_⟩
      intro j hj
      simp only [Bool.not_eq_true', beq_eq_false_iff_ne, ne_eq, EntryPointer.slot.injEq]
      omega
  · next hi =>
      apply List.find?_eq_none.mpr
      intro j hj
      have hlt := List.mem_range.mp hj
      simp only [beq_iff_eq, EntryPointer.slot.injEq]
      omega

/-- Removing through a pointer removes the slot it points to. -/
theorem removePtr_slot (iq : IssueQueue Capacity) (i : Nat) :
    iq.removePtr (.slot i) = (decide (i < Capacity), iq.remove i) := by
  have hne : EntryPointer.slot i ≠ .null := by simp
  rw [removePtr, if_neg hne, slotOf_slot]
  by_cases hi : i < Capacity
  · rw [if_pos hi, decide_eq_true hi]
  · have hout : i ≥ Capacity := by omega
    rw [if_neg hi, decide_eq_false hi, remove, if_pos hout]

/-- Marking through a pointer marks the slot it points to. -/
theorem markIssuedPtr_slot (iq : IssueQueue Capacity) (i : Nat) :
    iq.markIssuedPtr (.slot i) = iq.markIssued i := by
  have hne : EntryPointer.slot i ≠ .null := by simp
  rw [markIssuedPtr, if_neg hne, slotOf_slot]
  by_cases hi : i < Capacity
  · rw [if_pos hi]
  · have hout : i ≥ Capacity := by omega
    rw [if_neg hi, markIssued, if_pos hout]

/-! ## Squashing -/

/-- The test the two nested loops make of an entry. -/
def named (rs : List Nat) (e : IssueQueueEntry) : Bool := e.valid && rs.contains e.robIndex

theorem named_iff {rs : List Nat} {e : IssueQueueEntry} :
    named rs e = true ↔ e.valid = true ∧ e.robIndex ∈ rs := by
  rw [named, Bool.and_eq_true, List.contains_iff_mem]

/-- The loop sweeps the slots, and steps `removed` and `count` for each entry it empties. -/
theorem squashIndices_eq (iq : IssueQueue Capacity) (rs : List Nat) :
    iq.squashIndices rs =
      ((hits (named rs) iq.entries Capacity).length,
        { entries := fun i =>
            if i < Capacity ∧ named rs (iq.entries i) = true then {} else iq.entries i,
          count := iq.count - (hits (named rs) iq.entries Capacity).length }) := by
  let next : Nat × Nat → Nat × Nat := fun c => (c.1 + 1, c.2 - 1)
  let queue : (Nat × Nat) × (Nat → IssueQueueEntry) → Nat × IssueQueue Capacity :=
    fun s => (s.1.1, { entries := s.2, count := s.1.2 })
  -- the body of the loop is one step of the sweep
  have hslot : ∀ s i,
      squashSlot (fun r => rs.any (r == ·)) (queue s) i =
        queue (sweep (named rs) {} next s i) := by
    intro s i
    have htest : (rs.any ((s.2 i).robIndex == ·)) = rs.contains (s.2 i).robIndex := List.any_beq
    by_cases hv : (s.2 i).valid = true
    · by_cases hr : rs.contains (s.2 i).robIndex = true
      · simp only [squashSlot, sweep, queue, named, hv, htest, hr, Bool.not_true,
          Bool.false_eq_true, if_false, if_true, Bool.and_self]
        rfl
      · simp only [squashSlot, sweep, queue, named, hv, htest, hr, Bool.not_true,
          Bool.false_eq_true, if_false, Bool.and_false]
    · simp only [squashSlot, sweep, queue, named, hv, Bool.not_false, if_true, Bool.false_and,
        Bool.false_eq_true, if_false]
  have hnext : ∀ k c, next^[k] c = (c.1 + k, c.2 - k) := by
    intro k c
    rw [← Nat.pred_iterate]
    exact Lib.iterate_counters Nat.pred k c
  have hstart : (0, iq) = queue ((0, iq.count), iq.entries) := rfl
  rw [squashIndices, hstart, List.foldl_hom queue hslot, foldl_sweep, hnext, Nat.zero_add]

/-- Two queues with the same slots hold the same entries. -/
theorem live_congr (h : ∀ i < Capacity, iq'.entries i = iq.entries i) : iq'.live = iq.live := by
  have hslots : iq'.slotList = iq.slotList := by
    apply List.map_congr_left
    intro i hi
    exact h i (List.mem_range.mp hi)
  rw [live, live, hslots]

/-- `squash` removes the valid slots it names, and leaves the queue the closed form of the
    loop leaves. -/
theorem squashIndices_spec (iq : IssueQueue Capacity) (rs : List Nat) :
    (iq.squashIndices rs).1 =
        (iq.occupied.filter fun i => (iq.entries i).robIndex ∈ rs).length ∧
      iq.Deletes (iq.squashIndices rs).2 (fun i => (iq.entries i).robIndex ∈ rs) ∧
        (iq.squashIndices rs).2.live = (iq.squash rs).live ∧
          (iq.squashIndices rs).2.count = (iq.squash rs).count := by
  rw [squashIndices_eq]
  refine ⟨?_, ?_, ?_, rfl⟩
  · show (hits _ _ _).length = _
    rw [occupied, List.filter_filter, hits]
    congr 1
    apply List.filter_congr
    intro i _
    rw [Bool.and_comm, named, ← List.contains_eq_mem]
  · intro i hi
    constructor
    · intro hdel
      exact if_pos ⟨hi, named_iff.mpr hdel⟩
    · intro hkeep
      exact if_neg fun hdel => hkeep (named_iff.mp hdel.2)
  · apply live_congr
    intro i hi
    show ite _ _ _ = ite _ _ _
    simp only [hi, true_and, named]

/-- The overload for entries is the other one on their indices. -/
theorem squashEntries_eq (iq : IssueQueue Capacity) (es : List ROBEntry) :
    iq.squashEntries es = iq.squashIndices (es.map ROBEntry.robIndex) := by
  have hnamed : (fun r => es.any fun e => r == e.robIndex) =
      fun r => (es.map ROBEntry.robIndex).any (r == ·) := by
    funext r
    rw [List.any_map]
    rfl
  rw [squashEntries, squashIndices, hnamed]

/-! ## One call -/

theorem WF.card_bag (h : iq.WF) : iq.bag.card = iq.count := by
  rw [bag, Multiset.coe_card, h]

theorem WF.count_le (h : iq.WF) : iq.count ≤ Capacity := by
  have hle := List.length_filter_le IssueQueueEntry.valid iq.slotList
  rw [length_slotList] at hle
  rw [h]
  exact hle

theorem bag_of_perm {es : List IssueQueueEntry} (h : iq.live.Perm es) : iq.bag = es :=
  Multiset.coe_eq_coe.mpr h

/-- Whether a slot is addressed decides both operations that take an index. -/
theorem remove_eq (iq : IssueQueue Capacity) (index : Nat) :
    iq.remove index =
      if index < Capacity ∧ (iq.entries index).valid = true then
        { entries := Function.update iq.entries index {}, count := iq.count - 1 }
      else iq := by
  rw [remove]
  by_cases hi : index < Capacity
  · have hin : ¬index ≥ Capacity := by omega
    cases hv : (iq.entries index).valid <;> simp [hi, hin]
  · have hout : index ≥ Capacity := by omega
    simp [hi, hout]

theorem markIssued_eq (iq : IssueQueue Capacity) (index : Nat) :
    iq.markIssued index =
      if index < Capacity ∧ (iq.entries index).valid = true then
        { entries := Function.update iq.entries index (iq.entries index).markIssued,
          count := iq.count }
      else iq := by
  rw [markIssued]
  by_cases hi : index < Capacity
  · have hin : ¬index ≥ Capacity := by omega
    cases hv : (iq.entries index).valid <;> simp [hi, hin]
  · have hout : index ≥ Capacity := by omega
    simp [hi, hout]

/-- The bag forgets the addressed entry when `remove` empties its slot. -/
theorem WF.bag_remove (h : iq.WF) (index : Nat) :
    (iq.remove index).WF ∧
      (iq.remove index).bag = bagStep Capacity iq.bag (.remove (iq.addressed index)) := by
  by_cases ha : index < Capacity ∧ (iq.entries index).valid = true
  · obtain ⟨hwf, hperm⟩ := WF.remove h ha.1 ha.2
    refine ⟨hwf, ?_⟩
    rw [addressed, if_pos ha, bagStep, bag_of_perm hperm, ← Multiset.cons_coe,
      Multiset.erase_cons_head]
    rfl
  · rw [remove_eq, addressed, if_neg ha, if_neg ha]
    exact ⟨h, rfl⟩

theorem deletes_remove (iq : IssueQueue Capacity) (index : Nat) :
    iq.Deletes (iq.remove index) (· = index) := by
  intro i hi
  rw [remove_eq]
  constructor
  · rintro ⟨hv, rfl⟩
    rw [if_pos ⟨hi, hv⟩]
    exact Function.update_self ..
  · intro hkeep
    split
    · next ha =>
        apply Function.update_of_ne
        rintro rfl
        exact hkeep ⟨ha.2, rfl⟩
    · rfl

/-- Marking an entry replaces it in the bag. -/
theorem WF.bag_markIssued (h : iq.WF) (index : Nat) :
    (iq.markIssued index).WF ∧
      (iq.markIssued index).bag = bagStep Capacity iq.bag (.markIssued (iq.addressed index)) := by
  rw [markIssued_eq]
  by_cases ha : index < Capacity ∧ (iq.entries index).valid = true
  · obtain ⟨rest, hold, hnew⟩ :=
      iq.live_update_perm ha.1 (iq.entries index).markIssued iq.count
    have hmarked : (iq.entries index).markIssued.valid = true := ha.2
    simp only [ha.2, hmarked, if_true, List.singleton_append] at hold hnew
    rw [if_pos ha]
    constructor
    · rw [WF, hnew.length_eq, h, hold.length_eq]
      rfl
    · rw [addressed, if_pos ha, bagStep, bag_of_perm hnew, bag_of_perm hold,
        ← Multiset.cons_coe, ← Multiset.cons_coe, Multiset.erase_cons_head]
      rfl
  · rw [addressed, if_neg ha, if_neg ha]
    exact ⟨h, rfl⟩

theorem marks_markIssued (iq : IssueQueue Capacity) (index : Nat) :
    iq.Marks (iq.markIssued index) (· = index) := by
  intro i hi
  rw [markIssued_eq]
  constructor
  · rintro ⟨hv, rfl⟩
    rw [if_pos ⟨hi, hv⟩]
    exact Function.update_self ..
  · intro hkeep
    split
    · next ha =>
        apply Function.update_of_ne
        rintro rfl
        exact hkeep ⟨ha.2, rfl⟩
    · rfl

theorem WF.bag_insert (h : iq.WF) (e : IssueQueueEntry) :
    (iq.call (.insert e)).2.WF ∧
      (iq.call (.insert e)).2.bag = bagStep Capacity iq.bag (.insert e) := by
  rw [bagStep, h.card_bag]
  cases hi : iq.insert e with
  | some iq' =>
      obtain ⟨hwf, hperm⟩ := h.insert hi
      have hroom : iq.count < Capacity := by
        have hfree := h.insert_isSome e
        rw [hi, Option.isSome_some, full, eq_comm, Bool.not_eq_true', beq_eq_false_iff_ne] at hfree
        have hle := h.count_le
        omega
      simp only [call, hi]
      refine ⟨hwf, ?_⟩
      rw [if_pos hroom, bag, bag, Multiset.coe_eq_coe.mpr hperm, Multiset.cons_coe]
  | none =>
      have hfull : iq.full = true := by
        have := h.insert_isSome e
        rw [hi] at this
        simpa using this
      have hno : ¬iq.count < Capacity := by
        have := beq_iff_eq.mp hfull
        omega
      simp only [call, hi]
      exact ⟨h, (if_neg hno).symm⟩

/-- A full queue has no invalid slot. -/
theorem WF.all_valid (h : iq.WF) (hf : iq.full = true) :
    ∀ i < Capacity, (iq.entries i).valid = true := by
  have hlen : iq.live.length = iq.slotList.length := by
    rw [length_slotList, ← h]
    exact beq_iff_eq.mp hf
  have hall := List.length_filter_eq_length_iff.mp hlen
  intro i hi
  apply hall
  exact List.mem_map.mpr ⟨i, List.mem_range.mpr hi, rfl⟩

/-- `insert` fills one free slot, and fails only when there is none. -/
theorem WF.meets_insert (h : iq.WF) (e : IssueQueueEntry) :
    iq.Meets (iq.call (.insert e)).1 (iq.call (.insert e)).2 (.insert e) := by
  cases hi : iq.insert e with
  | none =>
      have hsome := h.insert_isSome e
      rw [hi, Option.isSome_none, eq_comm, Bool.not_eq_false'] at hsome
      simp only [call, hi]
      -- refused: the queue is full of valid entries
      exact Or.inr ⟨rfl, h.all_valid hsome, rfl⟩
  | some iq' =>
      simp only [call, hi]
      refine Or.inl ⟨rfl, ?_⟩
      rw [IssueQueue.insert] at hi
      split at hi
      · cases hi
      · split at hi
        · next i hfind =>
            obtain ⟨hlt, hfree⟩ := findSlot_some hfind
            obtain rfl := Option.some.inj hi
            refine ⟨i, hlt, (Bool.not_eq_true' _).mp hfree, Function.update_self .., ?_⟩
            intro j hj
            exact Function.update_of_ne hj ..
        · cases hi

theorem heard_of_valid {e : IssueQueueEntry} (hv : e.valid = true) (p : PhysicalRegister)
    (v : Word) : e.wakeup p v = heard e p v := by
  rw [IssueQueueEntry.wakeup_eq _ p v hv]
  simp only [heard, Bool.and_eq_true, Bool.not_eq_true', beq_iff_eq]

/-- A broadcast is heard by the valid entries. -/
theorem wakeup_eq_heard (iq : IssueQueue Capacity) (p : PhysicalRegister) (v : Word) (i : Nat) :
    (iq.wakeup p v).entries i =
      if (iq.entries i).valid then heard (iq.entries i) p v else iq.entries i := by
  show (iq.entries i).wakeup p v = _
  split
  · next hv => exact heard_of_valid hv p v
  · next hv =>
      rw [IssueQueueEntry.wakeup, eq_false_of_ne_true hv]
      rfl

theorem WF.bag_squash (h : iq.WF) (rs : List Nat) :
    (iq.squashIndices rs).2.WF ∧
      (iq.squashIndices rs).2.bag = bagStep Capacity iq.bag (.squash rs) := by
  obtain ⟨-, -, hlive, hcount⟩ := iq.squashIndices_spec rs
  constructor
  · have hwf := WF.squash h rs
    rw [WF, hcount, hlive]
    exact hwf
  · rw [bag, hlive, live_squash, bagStep, bag, Multiset.filter_coe]
    congr 2
    funext e
    simp

/-- Every call keeps `count`, and does to the bag what its meaning does. -/
theorem WF.call (h : iq.WF) (c : QueueCall) :
    (iq.call c).2.WF ∧ (iq.call c).2.bag = bagStep Capacity iq.bag (iq.resolve c) := by
  cases c with
  | insert e => exact h.bag_insert e
  | remove index => exact h.bag_remove index
  | removePtr entryPtr =>
      cases entryPtr with
      | null => exact ⟨h, rfl⟩
      | slot i =>
          rw [IssueQueue.call, removePtr_slot]
          exact h.bag_remove i
  | wakeup p v =>
      refine ⟨WF.wakeup h p v, ?_⟩
      show bag (iq.wakeup p v) = _
      have hall : iq.live.map (·.wakeup p v) = iq.live.map (heard · p v) := by
        apply List.map_congr_left
        intro e he
        exact heard_of_valid (List.mem_filter.mp he).2 p v
      rw [bag, live_wakeup, hall, resolve, bagStep, bag, Multiset.map_coe]
  | markIssued index => exact h.bag_markIssued index
  | markIssuedPtr entryPtr =>
      cases entryPtr with
      | null => exact ⟨h, rfl⟩
      | slot i =>
          rw [IssueQueue.call, markIssuedPtr_slot]
          exact h.bag_markIssued i
  | squash rs => exact h.bag_squash rs
  | squashEntries es =>
      rw [IssueQueue.call, squashEntries_eq]
      exact h.bag_squash _
  | reset =>
      refine ⟨wf_reset, ?_⟩
      show bag (reset : IssueQueue Capacity) = _
      rw [bag, live_reset]
      rfl

/-- Every call answers and changes the slots as it says. -/
theorem WF.meets (h : iq.WF) (c : QueueCall) : iq.Meets (iq.call c).1 (iq.call c).2 c := by
  cases c with
  | insert e => exact h.meets_insert e
  | remove index => exact ⟨rfl, iq.deletes_remove index⟩
  | removePtr entryPtr =>
      cases entryPtr with
      | null =>
          refine ⟨congrArg QueueAnswer.flag (decide_eq_false ?_).symm, ?_⟩
          · rintro ⟨i, -, hi⟩
            cases hi
          · intro i _
            exact ⟨fun hdel => absurd hdel.2 (by simp), fun _ => rfl⟩
      | slot i =>
          rw [IssueQueue.call, removePtr_slot]
          refine ⟨congrArg QueueAnswer.flag (decide_eq_decide.mpr ?_), ?_⟩
          · simp
          · simpa only [EntryPointer.slot.injEq] using iq.deletes_remove i
  | wakeup p v => exact ⟨rfl, fun i _ => iq.wakeup_eq_heard p v i⟩
  | markIssued index => exact ⟨rfl, iq.marks_markIssued index⟩
  | markIssuedPtr entryPtr =>
      cases entryPtr with
      | null =>
          refine ⟨rfl, ?_⟩
          intro i _
          exact ⟨fun hmark => absurd hmark.2 (by simp), fun _ => rfl⟩
      | slot i =>
          rw [IssueQueue.call, markIssuedPtr_slot]
          refine ⟨rfl, ?_⟩
          simpa only [EntryPointer.slot.injEq] using iq.marks_markIssued i
  | squash rs =>
      obtain ⟨hnumber, hdel, -, -⟩ := iq.squashIndices_spec rs
      exact ⟨congrArg QueueAnswer.number hnumber, hdel⟩
  | squashEntries es =>
      obtain ⟨hnumber, hdel, -, -⟩ := iq.squashIndices_spec (es.map ROBEntry.robIndex)
      rw [IssueQueue.call, squashEntries_eq]
      exact ⟨congrArg QueueAnswer.number hnumber, hdel⟩
  | reset => exact ⟨rfl, fun _ _ => rfl⟩

/-- The queue behind a sequence of calls holds the bag the calls make. -/
theorem WF.trace_bag (h : iq.WF) (calls : List QueueCall) :
    (trace IssueQueue.call iq calls).2.WF ∧
      (trace IssueQueue.call iq calls).2.bag =
        (iq.resolved calls).foldl (bagStep Capacity) iq.bag := by
  induction calls generalizing iq with
  | nil => exact ⟨h, rfl⟩
  | cons c cs ih =>
      obtain ⟨hwf, hbag⟩ := WF.call h c
      rw [trace_cons, resolved, List.foldl_cons, ← hbag]
      exact ih hwf

theorem length_occupied (iq : IssueQueue Capacity) : iq.occupied.length = iq.live.length := by
  rw [occupied, live, slotList, List.filter_map, List.length_map]
  rfl

/-- For every sequence of calls from `reset`: `size()` is the number of valid slots, the
    next call, whatever it is, answers and changes the slots as `Meets` says, and the
    valid entries are the bag that the calls make when each addressed entry is looked up
    in its slot. -/
theorem calls_hold_bag (calls : List QueueCall) :
    let iq := (trace IssueQueue.call (.reset : IssueQueue Capacity) calls).2
    iq.size = iq.occupied.length ∧
      (∀ c, iq.Meets (iq.call c).1 (iq.call c).2 c) ∧
        iq.bag =
          ((.reset : IssueQueue Capacity).resolved calls).foldl (bagStep Capacity) 0 := by
  intro iq
  obtain ⟨hwf, hbag⟩ := WF.trace_bag (wf_reset : (reset : IssueQueue Capacity).WF) calls
  refine ⟨?_, WF.meets hwf, ?_⟩
  · rw [length_occupied]
    exact hwf
  · rw [hbag, bag, live_reset]
    rfl

end IssueQueue

end CpuSim.SuperScalar
