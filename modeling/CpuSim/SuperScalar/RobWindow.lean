/-
  CpuSim.SuperScalar.RobWindow

  The reorder buffer as a list.  `WF` is the representation invariant of the
  ring, `window` its contents in program order; each operation of
  `ReOrderBuffer` gets one specification lemma in these terms, and nothing later
  looks at `head`, `tail` or the array again.
-/

import CpuSim.Lib.Ring
import CpuSim.SuperScalar.ReOrderBuffer

namespace CpuSim.SuperScalar

open CpuSim.Lib

/-- The entry a slot holds after `complete(index, result)`. -/
def ROBEntry.finish (e : ROBEntry) (result : Word) : ROBEntry :=
  { e with result := result, completed := true }

namespace ReOrderBuffer

variable {Capacity : Nat}

/-- The slots in use, oldest first. -/
def liveSlots (rob : ReOrderBuffer Capacity) : List Nat :=
  Ring.slots Capacity rob.head rob.count

/-- The entries in use, oldest first. -/
def window (rob : ReOrderBuffer Capacity) : List ROBEntry := rob.liveSlots.map rob.entries

/-- Representation invariant of the ring. -/
structure WF (rob : ReOrderBuffer Capacity) : Prop where
  head_lt : rob.head < Capacity
  count_le : rob.count ≤ Capacity
  tail_eq : rob.tail = Ring.slot Capacity rob.head rob.count
  live : ∀ i ∈ rob.liveSlots, (rob.entries i).valid = true ∧ (rob.entries i).robIndex = i
  dead : ∀ i < Capacity, i ∉ rob.liveSlots → (rob.entries i).valid = false

/-- The window with the entry of slot `index` finished. -/
def finishAt (index : Nat) (result : Word) (e : ROBEntry) : ROBEntry :=
  if e.robIndex = index then e.finish result else e

variable {rob : ReOrderBuffer Capacity}

@[simp] theorem length_window : rob.window.length = rob.count := by
  simp [window, liveSlots]

namespace WF

theorem capacity_pos (h : rob.WF) : 0 < Capacity := Nat.zero_lt_of_lt h.head_lt

theorem nodup_liveSlots (h : rob.WF) : rob.liveSlots.Nodup := Ring.nodup_slots h.count_le

theorem lt_of_mem (h : rob.WF) {i : Nat} (hi : i ∈ rob.liveSlots) : i < Capacity := by
  obtain ⟨j, _, rfl⟩ := Ring.mem_slots.mp hi
  exact Ring.slot_lt h.capacity_pos

/-- Each window entry records its own slot. -/
theorem map_robIndex (h : rob.WF) : rob.window.map ROBEntry.robIndex = rob.liveSlots := by
  rw [window, List.map_map]
  conv_rhs => rw [← List.map_id rob.liveSlots]
  exact List.map_congr_left fun i hi => (h.live i hi).2

theorem nodup_robIndex (h : rob.WF) : (rob.window.map ROBEntry.robIndex).Nodup := by
  rw [h.map_robIndex]
  exact h.nodup_liveSlots

theorem mem_liveSlots (h : rob.WF) {e : ROBEntry} (he : e ∈ rob.window) :
    e.robIndex ∈ rob.liveSlots := by
  rw [← h.map_robIndex]
  exact List.mem_map_of_mem he

/-- The array holds the window entry at its slot. -/
theorem entries_robIndex (h : rob.WF) {e : ROBEntry} (he : e ∈ rob.window) :
    rob.entries e.robIndex = e := by
  obtain ⟨i, hi, rfl⟩ := List.mem_map.mp he
  rw [(h.live i hi).2]

theorem robIndex_lt (h : rob.WF) {e : ROBEntry} (he : e ∈ rob.window) :
    e.robIndex < Capacity := h.lt_of_mem (h.mem_liveSlots he)

theorem valid_of_mem (h : rob.WF) {e : ROBEntry} (he : e ∈ rob.window) : e.valid = true := by
  obtain ⟨i, hi, rfl⟩ := List.mem_map.mp he
  exact (h.live i hi).1

/-- A valid slot is in the window. -/
theorem mem_of_valid (h : rob.WF) {i : Nat} (hi : i < Capacity)
    (hv : (rob.entries i).valid = true) :
    rob.entries i ∈ rob.window ∧ (rob.entries i).robIndex = i := by
  by_cases hm : i ∈ rob.liveSlots
  · exact ⟨List.mem_map_of_mem hm, (h.live i hm).2⟩
  · rw [h.dead i hi hm] at hv
    exact absurd hv (by simp)

/-- Window entries with the same slot are the same entry. -/
theorem eq_of_robIndex (h : rob.WF) {e e' : ROBEntry} (he : e ∈ rob.window)
    (he' : e' ∈ rob.window) (hi : e.robIndex = e'.robIndex) : e = e' := by
  rw [← h.entries_robIndex he, hi, h.entries_robIndex he']

end WF

/-! ## Reset -/

theorem wf_reset (hcap : 0 < Capacity) : (reset : ReOrderBuffer Capacity).WF where
  head_lt := hcap
  count_le := Nat.zero_le _
  tail_eq := by simp [reset, Ring.slot]
  live := by simp [reset, liveSlots, Ring.slots]
  dead := by simp [reset]

@[simp] theorem window_reset : (reset : ReOrderBuffer Capacity).window = [] := by
  simp [window, liveSlots, reset, Ring.slots]

/-! ## Allocation -/

@[simp] theorem makeEntry_valid (b : RenameBundle) (i : Nat) (cp : Option Checkpoint) :
    (makeEntry b i cp).valid = true := by
  cases cp <;> simp only [makeEntry]
  split <;> rfl

@[simp] theorem makeEntry_robIndex (b : RenameBundle) (i : Nat) (cp : Option Checkpoint) :
    (makeEntry b i cp).robIndex = i := by
  cases cp <;> simp only [makeEntry]
  split <;> rfl

/-- The slot at the tail is free while the ring is not full. -/
theorem WF.tail_not_live (h : rob.WF) (hc : rob.count < Capacity) :
    rob.tail ∉ rob.liveSlots := by
  intro hm
  obtain ⟨j, hj, hjs⟩ := Ring.mem_slots.mp hm
  rw [h.tail_eq] at hjs
  have := Ring.slot_inj (by omega) hc hjs
  omega

/-- `allocate` succeeds exactly on a valid bundle and a ring that is not full. -/
theorem allocate_isSome (rob : ReOrderBuffer Capacity) (b : RenameBundle)
    (cp : Option Checkpoint) :
    (rob.allocate b cp).isSome = (b.valid && !rob.full) := by
  cases hb : b.valid <;> cases hf : rob.full <;> simp [allocate, hb, hf]

/-- `allocate` appends the new entry at the tail slot. -/
theorem WF.allocate (h : rob.WF) {b : RenameBundle} {cp : Option Checkpoint} {i : Nat}
    {rob' : ReOrderBuffer Capacity} (ha : rob.allocate b cp = some (i, rob')) :
    rob'.WF ∧ rob'.window = rob.window ++ [makeEntry b i cp] ∧ rob.count < Capacity ∧
      i = rob.tail ∧ i ∉ rob.liveSlots := by
  simp only [ReOrderBuffer.allocate] at ha
  split at ha
  · cases ha
  rename_i hfull
  obtain ⟨rfl, rfl⟩ := Prod.mk.inj (Option.some.inj ha)
  have hne : rob.count ≠ Capacity := by
    simp only [Bool.or_eq_true, full, beq_iff_eq, not_or] at hfull
    exact hfull.2
  have hc : rob.count < Capacity := Nat.lt_of_le_of_ne h.count_le hne
  -- the ring is not full, so the slot at the tail is free
  have hnot := h.tail_not_live hc
  have hslots : Ring.slots Capacity rob.head (rob.count + 1) = rob.liveSlots ++ [rob.tail] := by
    rw [Ring.slots_succ, ← h.tail_eq]
    rfl
  refine ⟨⟨h.head_lt, hc, ?_, ?_, ?_⟩, ?_, hc, rfl, hnot⟩
  · rw [h.tail_eq]
    exact Ring.slot_succ
  · -- the live slots are the old ones and the tail, which holds the new entry
    intro i hi
    rw [liveSlots, hslots, List.mem_append, List.mem_singleton] at hi
    by_cases hit : i = rob.tail
    · subst hit
      simp
    · have hi' : i ∈ rob.liveSlots := hi.resolve_right hit
      simpa [Function.update_of_ne hit] using h.live i hi'
  · intro i hi hm
    rw [liveSlots, hslots, List.mem_append, List.mem_singleton, not_or] at hm
    simpa [Function.update_of_ne hm.2] using h.dead i hi hm.1
  · -- in the window the tail comes last, and writing it changes no other slot
    simp only [window, liveSlots, hslots, List.map_append, List.map_singleton,
      Function.update_self]
    congr 1
    refine List.map_congr_left fun i hi => Function.update_of_ne ?_ _ _
    rintro rfl
    exact hnot hi

/-! ## Completion -/

/-- `complete` finishes the entry of its slot, if there is one. -/
theorem WF.complete (h : rob.WF) (index : Nat) (result : Word) :
    (rob.complete index result).WF ∧
      (rob.complete index result).window = rob.window.map (finishAt index result) := by
  have hsame (hno : index ∉ rob.liveSlots) :
      rob.window.map (finishAt index result) = rob.window := by
    conv_rhs => rw [← List.map_id rob.window]
    refine List.map_congr_left fun e he => ?_
    have : e.robIndex ≠ index := fun heq => hno (heq ▸ h.mem_liveSlots he)
    simp [finishAt, this]
  -- the two early returns: an index outside the ring, and a slot that holds nothing
  simp only [ReOrderBuffer.complete]
  split
  · rename_i hge
    exact ⟨h, (hsame fun hm => absurd (h.lt_of_mem hm) (by omega)).symm⟩
  split
  · rename_i hv
    refine ⟨h, (hsame fun hm => ?_).symm⟩
    rw [(h.live index hm).1] at hv
    exact absurd hv (by simp)
  rename_i hlt hv
  have hidx : (rob.entries index).robIndex = index :=
    (h.mem_of_valid (by omega) (by simpa using hv)).2
  -- only the entry at `index` changes, and its slot and valid bit do not
  refine ⟨⟨h.head_lt, h.count_le, h.tail_eq, ?_, ?_⟩, ?_⟩
  · intro i hi
    by_cases hii : i = index
    · subst hii
      simp only [Function.update_self]
      exact h.live i hi
    · simp only [Function.update_of_ne hii]
      exact h.live i hi
  · intro i hi hm
    by_cases hii : i = index
    · subst hii
      simpa using h.dead i hi hm
    · simp only [Function.update_of_ne hii]
      exact h.dead i hi hm
  · simp only [window, liveSlots, List.map_map]
    refine List.map_congr_left fun i hi => ?_
    have hri : (rob.entries i).robIndex = i := (h.live i hi).2
    by_cases hii : i = index
    · subst hii
      simp [finishAt, hri, ROBEntry.finish]
    · simp [finishAt, hri, hii]

/-! ## Commit -/

/-- `head()` is the first window entry. -/
theorem WF.headEntry (h : rob.WF) : rob.headEntry = rob.window.head? := by
  rcases Nat.eq_zero_or_pos rob.count with hc | hc
  · simp [ReOrderBuffer.headEntry, empty, window, liveSlots, hc, Ring.slots]
  · obtain ⟨n, hn⟩ : ∃ n, rob.count = n + 1 := ⟨rob.count - 1, by omega⟩
    simp [ReOrderBuffer.headEntry, empty, window, liveSlots, hn, Ring.slots_succ_head h.head_lt]

/-- `commit` removes a completed head. -/
theorem WF.commit (h : rob.WF) {e : ROBEntry} {rob' : ReOrderBuffer Capacity}
    (hc : rob.commit = some (e, rob')) :
    rob'.WF ∧ rob.window = e :: rob'.window ∧ e.completed = true := by
  -- an empty ring, an invalid head and an unfinished head do not commit
  simp only [ReOrderBuffer.commit] at hc
  split at hc
  · cases hc
  split at hc
  · cases hc
  split at hc
  · cases hc
  rename_i hempty _ hcompleted
  obtain ⟨rfl, rfl⟩ := Prod.mk.inj (Option.some.inj hc)
  obtain ⟨n, hn⟩ : ∃ n, rob.count = n + 1 := by
    simp only [empty, beq_iff_eq] at hempty
    exact ⟨rob.count - 1, by omega⟩
  have hslots :
      rob.liveSlots = rob.head :: Ring.slots Capacity (nextIndex Capacity rob.head) n := by
    rw [liveSlots, hn, Ring.slots_succ_head h.head_lt]
    rfl
  -- the slots are distinct, so clearing the head leaves the others as they are
  have hnodup := h.nodup_liveSlots
  rw [hslots, List.nodup_cons] at hnodup
  have hcount : rob.count - 1 = n := by omega
  refine ⟨⟨Nat.mod_lt _ h.capacity_pos, ?_, ?_, ?_, ?_⟩, ?_, by simpa using hcompleted⟩
  · have := h.count_le
    simp only
    omega
  · simp only [h.tail_eq, hn, nextIndex, Ring.slot_next_head, Nat.add_sub_cancel]
  · intro i hi
    simp only [liveSlots, hcount] at hi
    have hne : i ≠ rob.head := fun heq => hnodup.1 (heq ▸ hi)
    simp only [Function.update_of_ne hne]
    exact h.live i (by rw [hslots]; exact List.mem_cons_of_mem _ hi)
  · intro i hi hm
    simp only [liveSlots, hcount] at hm
    by_cases hih : i = rob.head
    · subst hih
      simp
    · simp only [Function.update_of_ne hih]
      refine h.dead i hi ?_
      rw [hslots, List.mem_cons, not_or]
      exact ⟨hih, hm⟩
  · simp only [window, hslots, List.map_cons]
    simp only [liveSlots, hcount]
    congr 1
    refine List.map_congr_left fun i hi => (Function.update_of_ne ?_ _ _).symm
    exact fun heq => hnodup.1 (heq ▸ hi)

/-- `commit` succeeds on a completed head. -/
theorem WF.commit_isSome (h : rob.WF) {e : ROBEntry} {rest : List ROBEntry}
    (hw : rob.window = e :: rest) (hcomp : e.completed = true) :
    ∃ rob', rob.commit = some (e, rob') := by
  have hne : rob.count ≠ 0 := by
    rw [← length_window, hw]
    simp
  have hhead : rob.entries rob.head = e := by
    have := h.headEntry
    rw [hw, ReOrderBuffer.headEntry] at this
    simpa [empty, hne] using this
  have hv : e.valid = true := h.valid_of_mem (by simp [hw])
  simp [ReOrderBuffer.commit, empty, hne, hhead, hv, hcomp]

/-! ## Squash -/

/-- The first loop finds the position of a slot of the ring. -/
theorem locate_slot (cap head : Nat) {n j k : Nat} (hjk : j + n ≤ cap) (hj : j ≤ k)
    (hk : k < j + n) :
    locate cap (Ring.slot cap head k) n (Ring.slot cap head j) j = some k := by
  induction n generalizing j with
  | zero => omega
  | succ n ih =>
      rw [locate]
      by_cases hjk' : j = k
      · subst hjk'
        rw [if_pos rfl]
      · rw [if_neg fun h => hjk' (Ring.slot_inj (by omega) (by omega) h), nextIndex,
          Ring.slot_succ]
        exact ih (by omega) (by omega) (by omega)

/-- A slot outside the walked part is not found. -/
theorem locate_none {cap head b : Nat} {n j : Nat}
    (h : ∀ k, j ≤ k → k < j + n → Ring.slot cap head k ≠ b) :
    locate cap b n (Ring.slot cap head j) j = none := by
  induction n generalizing j with
  | zero => rfl
  | succ n ih =>
      rw [locate, if_neg (h j le_rfl (by omega)), nextIndex, Ring.slot_succ]
      exact ih fun k hk hk' => h k (by omega) (by omega)

/-- The second loop clears the walked slots and returns their entries in order. -/
theorem squashLoop_eq {cap : Nat} (head : Nat) {n j : Nat} (entries : Nat → ROBEntry)
    (hcap : j + n ≤ cap)
    (hv : ∀ k, j ≤ k → k < j + n → (entries (Ring.slot cap head k)).valid = true) :
    squashLoop cap n (Ring.slot cap head j) entries =
      (fun i => if i ∈ (List.range' j n).map (Ring.slot cap head) then {} else entries i,
        (List.range' j n).map (fun k => entries (Ring.slot cap head k)),
        (List.range' j n).map (Ring.slot cap head)) := by
  induction n generalizing j entries with
  | zero => simp [squashLoop]
  | succ n ih =>
      -- the slots still to squash are not the one cleared now
      have hne : ∀ k, j + 1 ≤ k → k < j + 1 + n →
          Ring.slot cap head k ≠ Ring.slot cap head j := fun k hk hk' heq => by
        have := Ring.slot_inj (by omega) (by omega) heq
        omega
      rw [squashLoop, nextIndex, Ring.slot_succ, ih _ (by omega) fun k hk hk' => by
        rw [Function.update_of_ne (hne k hk hk')]
        exact hv k (by omega) (by omega)]
      rw [List.range'_succ]
      simp only [hv j le_rfl (by omega), if_true, List.map_cons, Prod.mk.injEq,
        List.cons.injEq, true_and, and_true]
      refine ⟨?_, List.map_congr_left fun k hk => ?_⟩
      · funext i
        by_cases hi : i = Ring.slot cap head j
        · subst hi
          simp
        · simp only [List.mem_cons, hi, false_or, Function.update_of_ne hi]
      · rw [List.mem_range'_1] at hk
        exact Function.update_of_ne (hne k hk.1 hk.2) _ _

/-- The window split at a logical position. -/
theorem window_split (rob : ReOrderBuffer Capacity) {k : Nat} (hk : k < rob.count) :
    rob.window =
      (Ring.slots Capacity rob.head k).map rob.entries ++
        rob.entries (Ring.slot Capacity rob.head k) ::
          (List.range' (k + 1) (rob.count - k - 1)).map
            fun j => rob.entries (Ring.slot Capacity rob.head j) := by
  have hr : List.range rob.count =
      List.range k ++ k :: List.range' (k + 1) (rob.count - k - 1) := by
    rw [← List.range'_succ, show rob.count - k - 1 + 1 = rob.count - k by omega,
      List.range_eq_range', List.range_eq_range']
    conv_lhs => rw [show rob.count = k + (rob.count - k) by omega]
    simpa using (List.range'_append_1 (s := 0) (m := k) (n := rob.count - k)).symm
  simp [window, liveSlots, Ring.slots, hr, Function.comp_def]

/-- The position of a window entry. -/
theorem WF.split_position (h : rob.WF) {pre post : List ROBEntry} {b : ROBEntry}
    (hw : rob.window = pre ++ b :: post) :
    pre.length < rob.count ∧ Ring.slot Capacity rob.head pre.length = b.robIndex := by
  have hlen : pre.length < rob.count := by
    rw [← length_window, hw]
    simp
  refine ⟨hlen, ?_⟩
  have hget : (rob.window.map ROBEntry.robIndex)[pre.length]? = some b.robIndex := by
    simp [hw]
  rw [h.map_robIndex, liveSlots, Ring.slots, List.getElem?_map, List.getElem?_range hlen] at hget
  simpa using hget

/-- `squash_younger_than` truncates the window right after the branch and hands
    the removed entries and their slots back in program order. -/
theorem WF.squashYoungerThan (h : rob.WF) {pre post : List ROBEntry} {b : ROBEntry}
    (hw : rob.window = pre ++ b :: post) :
    ∃ rob' : ReOrderBuffer Capacity,
      rob.squashYoungerThan b.robIndex = (rob', post, post.map ROBEntry.robIndex) ∧
        rob'.WF ∧ rob'.window = pre ++ [b] := by
  -- `b` is `k` entries behind the head, and the loop runs over the rest
  obtain ⟨hk, hslot⟩ := h.split_position hw
  generalize hkdef : pre.length = k at hk hslot
  have hcap : k + 1 + (rob.count - k - 1) ≤ Capacity := by
    have := h.count_le
    omega
  have hlive : ∀ j, k + 1 ≤ j → j < k + 1 + (rob.count - k - 1) →
      Ring.slot Capacity rob.head j ∈ rob.liveSlots := fun j hj hj' =>
    Ring.mem_slots.mpr ⟨j, by omega, rfl⟩
  have hloop := squashLoop_eq rob.head rob.entries hcap
    fun j hj hj' => (h.live _ (hlive j hj hj')).1
  -- the search for the tag finds that position
  have hloc : locate Capacity b.robIndex rob.count rob.head 0 = some k := by
    have hc := h.count_le
    have := locate_slot Capacity rob.head (show 0 + rob.count ≤ Capacity by omega)
      (Nat.zero_le k) (by omega)
    rwa [hslot, Ring.slot_zero h.head_lt] at this
  have hnext : nextIndex Capacity b.robIndex = Ring.slot Capacity rob.head (k + 1) := by
    rw [← hslot, nextIndex, Ring.slot_succ]
  -- the window split at `k` is the split around `b`
  have hsplit := hw.symm.trans (rob.window_split hk)
  have hpl : pre.length = ((Ring.slots Capacity rob.head k).map rob.entries).length := by
    simp [hkdef]
  obtain ⟨hpre, hrest⟩ := List.append_inj hsplit hpl
  obtain ⟨hb, hpost⟩ := List.cons.inj hrest
  have hpostIdx : post.map ROBEntry.robIndex =
      (List.range' (k + 1) (rob.count - k - 1)).map (Ring.slot Capacity rob.head) := by
    rw [hpost, List.map_map]
    refine List.map_congr_left fun j hj => ?_
    rw [List.mem_range'_1] at hj
    exact (h.live _ (hlive j hj.1 hj.2)).2
  -- what is kept is none of the cleared slots
  have hnotin : ∀ j ≤ k, Ring.slot Capacity rob.head j ∉
      (List.range' (k + 1) (rob.count - k - 1)).map (Ring.slot Capacity rob.head) := by
    intro j hj hm
    obtain ⟨j', hj', heq⟩ := List.mem_map.mp hm
    rw [List.mem_range'_1] at hj'
    have := Ring.slot_inj (by omega) (by omega) heq
    omega
  have hc0 : rob.count ≠ 0 := by omega
  have hcount : rob.count - (rob.count - k - 1) = k + 1 := by omega
  have hlive' : ∀ j ≤ k, Ring.slot Capacity rob.head j ∈ rob.liveSlots := fun j hj =>
    Ring.mem_slots.mpr ⟨j, by omega, rfl⟩
  refine ⟨{ rob with
      entries := fun i =>
        if i ∈ (List.range' (k + 1) (rob.count - k - 1)).map (Ring.slot Capacity rob.head)
        then {} else rob.entries i
      tail := nextIndex Capacity b.robIndex
      count := rob.count - (rob.count - k - 1) }, ?_, ⟨h.head_lt, ?_, ?_, ?_, ?_⟩, ?_⟩
  · simp only [ReOrderBuffer.squashYoungerThan, hc0, if_false, hloc, hnext, hloop, hpostIdx]
    rw [hpost]
  · have := h.count_le
    simp only
    omega
  · simp only [hnext, hcount]
  · intro i hi
    simp only [liveSlots, hcount] at hi
    obtain ⟨j, hj, rfl⟩ := Ring.mem_slots.mp hi
    simp only [if_neg (hnotin j (by omega))]
    exact h.live _ (hlive' j (by omega))
  · -- a slot that is not live any more was cleared now, or was dead before
    intro i hi hm
    simp only [liveSlots, hcount] at hm
    by_cases hsq : i ∈
        (List.range' (k + 1) (rob.count - k - 1)).map (Ring.slot Capacity rob.head)
    · simp only [if_pos hsq]
    · simp only [if_neg hsq]
      refine h.dead i hi fun hmem => ?_
      obtain ⟨j, hj, rfl⟩ := Ring.mem_slots.mp hmem
      by_cases hjk : j < k + 1
      · exact hm (Ring.mem_slots.mpr ⟨j, hjk, rfl⟩)
      · exact hsq (List.mem_map_of_mem (List.mem_range'_1.mpr ⟨by omega, by omega⟩))
  · simp only [window, liveSlots, hcount, Ring.slots_succ, List.map_append, List.map_singleton,
      if_neg (hnotin k le_rfl), ← hb]
    rw [hpre]
    congr 1
    refine List.map_congr_left fun i hi => ?_
    obtain ⟨j, hj, rfl⟩ := Ring.mem_slots.mp hi
    rw [if_neg (hnotin j (by omega))]

/-- A slot that is not in the ring squashes nothing. -/
theorem squashYoungerThan_of_not_live {b : Nat} (hb : b ∉ rob.liveSlots) (h : rob.WF) :
    rob.squashYoungerThan b = (rob, [], []) := by
  have hloc : locate Capacity b rob.count rob.head 0 = none := by
    have := @locate_none Capacity rob.head b rob.count 0 fun k _ hk heq =>
      hb (Ring.mem_slots.mpr ⟨k, by omega, heq⟩)
    rwa [Ring.slot_zero h.head_lt] at this
  simp only [ReOrderBuffer.squashYoungerThan, hloc]
  split <;> rfl

end ReOrderBuffer

end CpuSim.SuperScalar
