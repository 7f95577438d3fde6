/-
  CpuSim.SuperScalar.RobSquash

  The second squash interface of the reorder buffer, `squash(squashed_rob_indices)`,
  against `squash_younger_than`.  The second moves the tail behind the branch; the first
  clears the named entries and lowers the count, and leaves the tail where it was.
-/

import CpuSim.Lib.Sweep
import CpuSim.SuperScalar.RobRefinement

namespace CpuSim.SuperScalar

open CpuSim.Lib

namespace ReOrderBuffer

variable {Capacity : Nat}

/-- `--count_` of a `std::size_t`. -/
def decrement (count : Nat) : Nat := if count = 0 then 2 ^ 64 - 1 else count - 1

/-- One iteration of the outer loop of `squash`; the inner loop stops at the first index
    that matches. -/
def squashSlot (squashedRobIndices : List Nat) (s : Nat × ReOrderBuffer Capacity) (i : Nat) :
    Nat × ReOrderBuffer Capacity :=
  if !(s.2.entries i).valid then s
  else if squashedRobIndices.any ((s.2.entries i).robIndex == ·) then
    (s.1 + 1,
      { s.2 with entries := Function.update s.2.entries i {}, count := decrement s.2.count })
  else s

/-- `squash(squashed_rob_indices)`: the number of removed entries and the new buffer. -/
def squash (rob : ReOrderBuffer Capacity) (squashedRobIndices : List Nat) :
    Nat × ReOrderBuffer Capacity :=
  (List.range Capacity).foldl (squashSlot squashedRobIndices) (0, rob)

end ReOrderBuffer

/-! ## Requests -/

/-- What a client of the buffer asks: a call, the other squash, or one of the two state
    queries. -/
inductive RobRequest where
  | call (c : RobCall)
  | squash (squashedRobIndices : List Nat)
  | empty
  | full

/-- What the buffer returns. -/
inductive RobResponse where
  | answer (a : RobAnswer)
  | removed (n : Nat)
  | flag (b : Bool)

namespace ReOrderBuffer

variable {Capacity : Nat}

/-- Run one request. -/
def request (rob : ReOrderBuffer Capacity) : RobRequest → RobResponse × ReOrderBuffer Capacity
  | .call c =>
    let (a, rob') := rob.call c
    (.answer a, rob')
  | .squash squashedRobIndices =>
    let (n, rob') := rob.squash squashedRobIndices
    (.removed n, rob')
  | .empty => (.flag rob.empty, rob)
  | .full => (.flag rob.full, rob)

/-- No sequence of requests tells two buffers apart. -/
def Agree (rob rob' : ReOrderBuffer Capacity) : Prop :=
  ∀ requests : List RobRequest, (trace request rob requests).1 = (trace request rob' requests).1

/-- The slots of the entries between logical position `k` and the tail. -/
def youngerSlots (rob : ReOrderBuffer Capacity) (k : Nat) : List Nat :=
  (List.range' (k + 1) (rob.count - k - 1)).map fun j => (rob.head + j) % Capacity

/-- A squash that leaves no gap in the ring: it names no entry, or the buffer is full and
    it names them all. -/
def Gapless (rob : ReOrderBuffer Capacity) (squashedRobIndices : List Nat) : Prop :=
  (∀ i ∈ rob.liveSlots, i ∉ squashedRobIndices) ∨
    (rob.full = true ∧ ∀ i ∈ rob.liveSlots, i ∈ squashedRobIndices)

/-- Every `squash` among the requests leaves no gap. -/
def GaplessRun (rob : ReOrderBuffer Capacity) (requests : List RobRequest) : Prop :=
  ∀ k S, requests[k]? = some (.squash S) →
    Gapless (trace request rob (requests.take k)).2 S

variable {rob : ReOrderBuffer Capacity}

/-! ## What `squash` does -/

/-- The test the two nested loops make of an entry. -/
def named (rs : List Nat) (e : ROBEntry) : Bool := e.valid && rs.contains e.robIndex

theorem named_iff {rs : List Nat} {e : ROBEntry} :
    named rs e = true ↔ e.valid = true ∧ e.robIndex ∈ rs := by
  rw [named, Bool.and_eq_true, List.contains_iff_mem]

theorem decrement_of_pos {count : Nat} (h : 0 < count) : decrement count = count - 1 := by
  have hne : count ≠ 0 := by omega
  rw [decrement, if_neg hne]

theorem iterate_decrement {k count : Nat} (h : k ≤ count) : decrement^[k] count = count - k := by
  induction k with
  | zero => rfl
  | succ k ih =>
      rw [Function.iterate_succ_apply', ih (by omega), decrement_of_pos (by omega)]
      omega

/-- The loop sweeps the slots, and steps `removed` and `count` for each entry it empties;
    `head` and `tail` stay. -/
theorem squash_eq (rob : ReOrderBuffer Capacity) (rs : List Nat) :
    rob.squash rs =
      ((hits (named rs) rob.entries Capacity).length,
        { rob with
          entries := fun i =>
            if i < Capacity ∧ named rs (rob.entries i) = true then {} else rob.entries i,
          count := decrement^[(hits (named rs) rob.entries Capacity).length] rob.count }) := by
  let next : Nat × Nat → Nat × Nat := fun c => (c.1 + 1, decrement c.2)
  let buffer : (Nat × Nat) × (Nat → ROBEntry) → Nat × ReOrderBuffer Capacity :=
    fun s => (s.1.1, { rob with entries := s.2, count := s.1.2 })
  -- the body of the loop is one step of the sweep
  have hslot : ∀ s i,
      squashSlot rs (buffer s) i = buffer (sweep (named rs) {} next s i) := by
    intro s i
    have htest : (rs.any ((s.2 i).robIndex == ·)) = rs.contains (s.2 i).robIndex := List.any_beq
    by_cases hv : (s.2 i).valid = true
    · by_cases hr : rs.contains (s.2 i).robIndex = true
      · simp only [squashSlot, sweep, buffer, named, hv, htest, hr, Bool.not_true,
          Bool.false_eq_true, if_false, if_true, Bool.and_self]
        rfl
      · simp only [squashSlot, sweep, buffer, named, hv, htest, hr, Bool.not_true,
          Bool.false_eq_true, if_false, Bool.and_false]
    · simp only [squashSlot, sweep, buffer, named, hv, Bool.not_false, if_true, Bool.false_and,
        Bool.false_eq_true, if_false]
  have hstart : (0, rob) = buffer ((0, rob.count), rob.entries) := rfl
  rw [squash, hstart, List.foldl_hom buffer hslot, foldl_sweep, Lib.iterate_counters decrement,
    Nat.zero_add]

/-- The slots `squash` empties are live. -/
theorem WF.mem_hits (h : rob.WF) {rs : List Nat} {i : Nat} :
    i ∈ hits (named rs) rob.entries Capacity ↔ i ∈ rob.liveSlots ∧ i ∈ rs := by
  rw [Lib.mem_hits, named_iff]
  constructor
  · rintro ⟨hi, hv, hr⟩
    have hlive : i ∈ rob.liveSlots := by
      by_contra hdead
      rw [h.dead i hi hdead] at hv
      cases hv
    rw [(h.live i hlive).2] at hr
    exact ⟨hlive, hr⟩
  · rintro ⟨hlive, hr⟩
    refine ⟨h.lt_of_mem hlive, (h.live i hlive).1, ?_⟩
    rw [(h.live i hlive).2]
    exact hr

theorem nodup_hits (rob : ReOrderBuffer Capacity) (rs : List Nat) :
    (hits (named rs) rob.entries Capacity).Nodup := List.nodup_range.filter _

/-- `squash` removes at most what is there. -/
theorem WF.length_hits_le (h : rob.WF) (rs : List Nat) :
    (hits (named rs) rob.entries Capacity).length ≤ rob.count := by
  have hsub : hits (named rs) rob.entries Capacity ⊆ rob.liveSlots := by
    intro i hi
    exact (h.mem_hits.mp hi).1
  have hle := (List.subperm_of_subset (rob.nodup_hits rs) hsub).length_le
  rw [liveSlots, Ring.length_slots] at hle
  exact hle

/-- A squash that names no entry changes nothing. -/
theorem WF.squash_of_none (h : rob.WF) {rs : List Nat} (hno : ∀ i ∈ rob.liveSlots, i ∉ rs) :
    rob.squash rs = (0, rob) := by
  have hnil : hits (named rs) rob.entries Capacity = [] := by
    apply List.eq_nil_iff_forall_not_mem.mpr
    intro i hi
    obtain ⟨hlive, hr⟩ := h.mem_hits.mp hi
    exact hno i hlive hr
  have hentries : (fun i => if i < Capacity ∧ named rs (rob.entries i) = true then
      ({} : ROBEntry) else rob.entries i) = rob.entries := by
    funext i
    apply if_neg
    intro hi
    have hmem := Lib.mem_hits.mpr hi
    rw [hnil] at hmem
    cases hmem
  rw [squash_eq, hentries, hnil]
  rfl

/-- A squash of everything in a full buffer leaves an empty ring at the same head. -/
theorem WF.squash_of_all (h : rob.WF) {rs : List Nat} (hfull : rob.full = true)
    (hall : ∀ i ∈ rob.liveSlots, i ∈ rs) : (rob.squash rs).2.WF := by
  have hcount : rob.count = Capacity := beq_iff_eq.mp hfull
  have hlive : ∀ i < Capacity, i ∈ rob.liveSlots := by
    intro i hi
    obtain ⟨j, hj, rfl⟩ := Ring.exists_slot h.head_lt hi
    exact Ring.mem_slots.mpr ⟨j, by omega, rfl⟩
  have hhit : ∀ i < Capacity, named rs (rob.entries i) = true := by
    intro i hi
    exact (Lib.mem_hits.mp (h.mem_hits.mpr ⟨hlive i hi, hall i (hlive i hi)⟩)).2
  have hlen : (hits (named rs) rob.entries Capacity).length = Capacity := by
    rw [hits, List.filter_eq_self.mpr fun i hi => hhit i (List.mem_range.mp hi),
      List.length_range]
  have hempty : decrement^[(hits (named rs) rob.entries Capacity).length] rob.count = 0 := by
    rw [hlen, iterate_decrement (by omega)]
    omega
  rw [squash_eq, hempty]
  refine ⟨h.head_lt, Nat.zero_le _, ?_, ?_, ?_⟩
  · -- the tail of a full ring is its head
    show rob.tail = Ring.slot Capacity rob.head 0
    rw [h.tail_eq, hcount, Ring.slot, Ring.slot, Nat.add_mod_right, Nat.add_zero]
  · intro i hi
    cases hi
  · intro i hi _
    have hcleared : i < Capacity ∧ named rs (rob.entries i) = true := ⟨hi, hhit i hi⟩
    simp only [if_pos hcleared]

/-! ## Runs -/

theorem WF.call (h : rob.WF) (c : RobCall) : (rob.call c).2.WF := by
  obtain ⟨-, -, hwf, -⟩ := refines_boundedFifo h.capacity_pos rob rob.window c ⟨h, rfl⟩
  exact hwf

/-- A request that leaves no gap keeps the ring. -/
theorem WF.request (h : rob.WF) {q : RobRequest} (hq : ∀ S, q = .squash S → rob.Gapless S) :
    (rob.request q).2.WF := by
  cases q with
  | call c => exact h.call c
  | squash S =>
      obtain hno | ⟨hfull, hall⟩ := hq S rfl
      · show (rob.squash S).2.WF
        rw [h.squash_of_none hno]
        exact h
      · exact h.squash_of_all hfull hall
  | empty => exact h
  | full => exact h

theorem WF.run (h : rob.WF) {requests : List RobRequest} (hrun : rob.GaplessRun requests) :
    (trace ReOrderBuffer.request rob requests).2.WF := by
  induction requests generalizing rob with
  | nil => exact h
  | cons q qs ih =>
      rw [trace_cons]
      apply ih
      · apply h.request
        rintro S rfl
        exact hrun 0 S rfl
      · intro k S hk
        have hgap := hrun (k + 1) S hk
        rw [List.take_succ_cons, trace_cons] at hgap
        exact hgap

/-! ## The two interfaces -/

/-- The search finds the entry at logical position `k`. -/
theorem WF.locate (h : rob.WF) {k : Nat} (hk : k < rob.count) :
    locate Capacity (Ring.slot Capacity rob.head k) rob.count rob.head 0 = some k := by
  have hle := h.count_le
  have hloc := locate_slot Capacity rob.head (show 0 + rob.count ≤ Capacity by omega)
    (Nat.zero_le k) (by omega)
  rw [Ring.slot_zero h.head_lt] at hloc
  exact hloc

/-- Where `squash_younger_than` leaves the tail and the count. -/
theorem WF.squashYoungerThan_ends (h : rob.WF) {k : Nat} (hk : k < rob.count) :
    (rob.squashYoungerThan (Ring.slot Capacity rob.head k)).1.tail =
        Ring.slot Capacity rob.head (k + 1) ∧
      (rob.squashYoungerThan (Ring.slot Capacity rob.head k)).1.count = k + 1 := by
  have hne : rob.count ≠ 0 := by omega
  simp only [ReOrderBuffer.squashYoungerThan, if_neg hne, h.locate hk]
  constructor
  · rw [nextIndex, Ring.slot_succ]
  · omega

/-- Nothing is younger than the youngest entry. -/
theorem WF.squashYoungerThan_youngest (h : rob.WF) {k : Nat} (hk : k + 1 = rob.count) :
    (rob.squashYoungerThan (Ring.slot Capacity rob.head k)).1 = rob := by
  have hne : rob.count ≠ 0 := by omega
  have hnone : rob.count - k - 1 = 0 := by omega
  have htail : nextIndex Capacity (Ring.slot Capacity rob.head k) = rob.tail := by
    rw [nextIndex, Ring.slot_succ, hk, h.tail_eq]
  simp only [ReOrderBuffer.squashYoungerThan, if_neg hne, h.locate (show k < rob.count by omega),
    hnone, squashLoop, htail, Nat.sub_zero]

theorem squash_tail (rob : ReOrderBuffer Capacity) (rs : List Nat) :
    (rob.squash rs).2.tail = rob.tail := by
  rw [squash_eq]

/-- The next allocation of a buffer that is not full. -/
theorem request_allocate (hroom : rob.count ≠ Capacity) :
    (rob.request (.call (.allocate { valid := true } none))).1 =
      .answer (.slot (some rob.tail)) := by
  have hfull : rob.full = false := beq_eq_false_iff_ne.mpr hroom
  simp [request, ReOrderBuffer.call, allocate, hfull]

/-- A younger entry: the next allocation goes behind the branch on one side and to the
    old tail on the other. -/
theorem WF.not_agree (h : rob.WF) {k : Nat} (hk : k + 1 < rob.count) {S : List Nat}
    (hS : ∀ i, i ∈ S ↔ i ∈ rob.youngerSlots k) :
    ¬Agree (rob.squash S).2
      (rob.squashYoungerThan (Ring.slot Capacity rob.head k)).1 := by
  intro hagree
  have hle := h.count_le
  obtain ⟨htail, hcount⟩ := h.squashYoungerThan_ends (show k < rob.count by omega)
  -- the first younger entry is removed, so the squashed buffer has room
  have hroom : (rob.squash S).2.count ≠ Capacity := by
    have hmem : Ring.slot Capacity rob.head (k + 1) ∈
        hits (named S) rob.entries Capacity := by
      refine h.mem_hits.mpr ⟨Ring.mem_slots.mpr ⟨k + 1, hk, rfl⟩, (hS _).mpr ?_⟩
      exact List.mem_map.mpr ⟨k + 1, List.mem_range'_1.mpr (by omega), rfl⟩
    have hpos := List.length_pos_of_mem hmem
    have hremoved := h.length_hits_le S
    rw [squash_eq]
    show decrement^[_] _ ≠ _
    rw [iterate_decrement hremoved]
    omega
  have hroom' : (rob.squashYoungerThan (Ring.slot Capacity rob.head k)).1.count ≠ Capacity := by
    rw [hcount]
    omega
  have hnext := hagree [.call (.allocate { valid := true } none)]
  rw [trace_cons, trace_cons, request_allocate hroom, request_allocate hroom'] at hnext
  have hslots : rob.tail = Ring.slot Capacity rob.head (k + 1) := by
    rw [← htail, ← rob.squash_tail S]
    injection (List.cons.inj hnext).1 with hanswer
    injection hanswer with hslot
    exact Option.some.inj hslot
  rw [h.tail_eq] at hslots
  -- the two tails are the same slot only after a whole turn
  obtain hlt | hturn := Nat.lt_or_eq_of_le hle
  · have heq := Ring.slot_inj hlt (by omega) hslots
    omega
  · have hhead : Ring.slot Capacity rob.head Capacity = Ring.slot Capacity rob.head 0 := by
      rw [Ring.slot, Ring.slot, Nat.add_mod_right, Nat.add_zero]
    rw [hturn, hhead] at hslots
    have heq := Ring.slot_inj h.capacity_pos (by omega) hslots
    omega

/-- In every run whose `squash` calls leave no gap in the ring, and for every live slot:
    the two interfaces leave buffers that no requests tell apart exactly when nothing is
    younger than the slot. -/
theorem squash_agrees_iff_youngest (hcap : 0 < Capacity) {requests : List RobRequest}
    (hrun : GaplessRun (.reset : ReOrderBuffer Capacity) requests) :
    let rob := (trace request (.reset : ReOrderBuffer Capacity) requests).2
    ∀ k < rob.count, ∀ S : List Nat, (∀ i, i ∈ S ↔ i ∈ rob.youngerSlots k) →
      (Agree (rob.squash S).2 (rob.squashYoungerThan ((rob.head + k) % Capacity)).1 ↔
        rob.youngerSlots k = []) := by
  intro rob k hk S hS
  have hwf : rob.WF := (wf_reset hcap).run hrun
  have hyounger : rob.youngerSlots k = [] ↔ k + 1 = rob.count := by
    rw [youngerSlots, List.map_eq_nil_iff, List.range'_eq_nil_iff]
    omega
  constructor
  · -- a younger entry is emptied by one interface in the middle of the ring
    intro hagree
    by_contra hne
    rw [hyounger] at hne
    exact hwf.not_agree (by omega) hS hagree
  · -- nothing is younger: neither does anything
    intro hnone requests'
    have hnames : ∀ i ∈ rob.liveSlots, i ∉ S := by
      intro i _ hi
      rw [hS, hnone] at hi
      cases hi
    rw [hwf.squash_of_none hnames]
    show _ = (trace request (rob.squashYoungerThan (Ring.slot Capacity rob.head k)).1 _).1
    rw [hwf.squashYoungerThan_youngest (hyounger.mp hnone)]

/-- A branch in slot 1 and a younger entry in slot 2, after a commit and a squash that named
    no entry: the interfaces agree behind the younger entry and not behind the branch. -/
theorem squash_agrees_iff_youngest_pair :
    let requests : List RobRequest :=
      [.call (.allocate { valid := true } none),
        .call (.allocate { valid := true, controlFlow := .BRANCH } none),
        .call (.allocate { valid := true } none), .call (.complete 0 0), .call .commit,
        .squash [5]]
    let rob := (trace request (.reset : ReOrderBuffer 16) requests).2
    rob.count = 2 ∧ (rob.entries 1).branch = true ∧
      Agree (rob.squash []).2 (rob.squashYoungerThan 2).1 ∧
      ¬Agree (rob.squash [2]).2 (rob.squashYoungerThan 1).1 := by
  intro requests rob
  have hgapless : GaplessRun (.reset : ReOrderBuffer 16) requests := fun k S hk => by
    match k, hk with
    | 5, hk =>
        obtain rfl : [5] = S := by simpa [requests] using hk
        left
        decide
  have hiff := squash_agrees_iff_youngest (by decide) hgapless
  have hlast : rob.youngerSlots 1 = [] := by decide
  have hbranch : rob.youngerSlots 0 = [2] := by decide
  refine ⟨by decide, by decide, ?_, ?_⟩
  · exact (hiff 1 (by decide) [] (by intro i; rw [hlast])).mpr hlast
  · intro hagree
    have hnone := (hiff 0 (by decide) [2] (by intro i; rw [hbranch])).mp hagree
    rw [hbranch] at hnone
    cases hnone

/-- A branch in slot 0 and one younger entry in slot 1: after `squash([1])` the next
    instruction is put in slot 2, behind an empty slot, and after `squash_younger_than(0)`
    it is put in slot 1. -/
theorem squash_leaves_tail_behind :
    let before : List RobRequest :=
      [.call (.allocate { valid := true, controlFlow := .BRANCH } none),
        .call (.allocate { valid := true } none)]
    let rob := (trace request (.reset : ReOrderBuffer 16) before).2
    rob.count = 2 ∧ (rob.entries 0).branch = true ∧ rob.youngerSlots 0 = [1] ∧
      (request (rob.squash [1]).2 (.call (.allocate { valid := true } none))).1 =
        .answer (.slot (some 2)) ∧
      (request (rob.squashYoungerThan 0).1 (.call (.allocate { valid := true } none))).1 =
        .answer (.slot (some 1)) ∧
      ¬Agree (rob.squash [1]).2 (rob.squashYoungerThan 0).1 := by
  intro before rob
  have hsquash : (request (rob.squash [1]).2 (.call (.allocate { valid := true } none))).1 =
      .answer (.slot (some 2)) := by
    rw [request_allocate (by decide), show (rob.squash [1]).2.tail = 2 by decide]
  have hyounger :
      (request (rob.squashYoungerThan 0).1 (.call (.allocate { valid := true } none))).1 =
        .answer (.slot (some 1)) := by
    rw [request_allocate (by decide), show (rob.squashYoungerThan 0).1.tail = 1 by decide]
  refine ⟨by decide, by decide, by decide, hsquash, hyounger, ?_⟩
  intro hagree
  have hnext := hagree [.call (.allocate { valid := true } none)]
  rw [trace_cons, trace_cons, hsquash, hyounger] at hnext
  injection (List.cons.inj hnext).1 with hanswer
  injection hanswer with hslot
  cases hslot

end ReOrderBuffer

end CpuSim.SuperScalar
