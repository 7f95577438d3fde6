/-
  CpuSim.SuperScalar.Retirement

  One call of `CommitUnit::step`.  `retired` says which entries leave the ROB, as a
  function of the entries read from the head; `stepLoop_eq` says that the loop retires
  these and no others, whatever the ROB array holds.
-/

import CpuSim.SuperScalar.RobRefinement
import CpuSim.SuperScalar.Stages

namespace CpuSim.SuperScalar

open CpuSim.Lib

/-! ## Taking entries off the head of the ring -/

namespace ReOrderBuffer

variable {Capacity : Nat} {rob : ReOrderBuffer Capacity}

/-- `head_` addresses a slot of `entries_`, and there are no more entries than slots. -/
structure InRing (rob : ReOrderBuffer Capacity) : Prop where
  head_lt : rob.head < Capacity
  count_le : rob.count ≤ Capacity

/-- The buffer without its `k` oldest entries: their slots are cleared, every other slot
    and `tail_` stay. -/
def removeFront (rob : ReOrderBuffer Capacity) (k : Nat) : ReOrderBuffer Capacity :=
  { rob with
    entries := fun i => if i ∈ Ring.slots Capacity rob.head k then {} else rob.entries i,
    head := Ring.slot Capacity rob.head k,
    count := rob.count - k }

theorem WF.inRing (h : rob.WF) : rob.InRing := ⟨h.head_lt, h.count_le⟩

/-- Every sequence of calls leaves the buffer in its ring. -/
theorem inRing_of_calls (hcap : 0 < Capacity) (calls : List RobCall) :
    (trace ReOrderBuffer.call (.reset : ReOrderBuffer Capacity) calls).2.InRing := by
  obtain ⟨_, _, hwf, _⟩ := (refines_boundedFifo hcap).trace
    (s := (.reset : ReOrderBuffer Capacity)) ⟨wf_reset hcap, window_reset⟩ calls
  exact hwf.inRing

theorem removeFront_zero (h : rob.InRing) : rob.removeFront 0 = rob := by
  have hslot : Ring.slot Capacity rob.head 0 = rob.head := Ring.slot_zero h.head_lt
  simp [removeFront, hslot, Ring.slots]

theorem InRing.removeFront (h : rob.InRing) (k : Nat) : (rob.removeFront k).InRing where
  head_lt := Ring.slot_lt (Nat.zero_lt_of_lt h.head_lt)
  count_le := by
    have := h.count_le
    simp only [ReOrderBuffer.removeFront]
    omega

theorem slots_removeFront_one (h : rob.InRing) (k : Nat) :
    Ring.slots Capacity rob.head (k + 1) =
      rob.head :: Ring.slots Capacity (rob.removeFront 1).head k := by
  rw [Ring.slots_succ_head h.head_lt]
  rfl

theorem mem_slots_one (h : rob.InRing) {i : Nat} :
    i ∈ Ring.slots Capacity rob.head 1 ↔ i = rob.head := by
  rw [slots_removeFront_one h 0]
  simp [Ring.slots]

theorem removeFront_succ (h : rob.InRing) (k : Nat) :
    (rob.removeFront 1).removeFront k = rob.removeFront (k + 1) := by
  have hentries : ((rob.removeFront 1).removeFront k).entries =
      (rob.removeFront (k + 1)).entries := by
    funext i
    show (if i ∈ Ring.slots Capacity (rob.removeFront 1).head k then {}
        else if i ∈ Ring.slots Capacity rob.head 1 then {} else rob.entries i) =
      if i ∈ Ring.slots Capacity rob.head (k + 1) then {} else rob.entries i
    simp only [slots_removeFront_one h k, mem_slots_one h, List.mem_cons]
    by_cases hi : i = rob.head <;>
      by_cases hk : i ∈ Ring.slots Capacity (rob.removeFront 1).head k <;>
      simp [hi, hk]
  have hhead : ((rob.removeFront 1).removeFront k).head = (rob.removeFront (k + 1)).head := by
    show Ring.slot Capacity (Ring.slot Capacity rob.head 1) k = Ring.slot Capacity rob.head (k + 1)
    exact Ring.slot_next_head
  have hcount : ((rob.removeFront 1).removeFront k).count = (rob.removeFront (k + 1)).count := by
    show rob.count - 1 - k = rob.count - (k + 1)
    omega
  simp only [ReOrderBuffer.removeFront] at hentries hhead hcount ⊢
  rw [hhead, hcount, hentries]

/-- What is read from a buffer that is not empty. -/
theorem window_cons (h : rob.InRing) (hc : 0 < rob.count) :
    rob.window = rob.entries rob.head :: (rob.removeFront 1).window := by
  obtain ⟨n, hn⟩ : ∃ n, rob.count = n + 1 := ⟨rob.count - 1, by omega⟩
  have hnodup : (Ring.slots Capacity rob.head (n + 1)).Nodup :=
    Ring.nodup_slots (hn ▸ h.count_le)
  rw [slots_removeFront_one h, List.nodup_cons] at hnodup
  have hcount : (rob.removeFront 1).count = n := by
    show rob.count - 1 = n
    omega
  have hrest : (rob.removeFront 1).window =
      (Ring.slots Capacity (rob.removeFront 1).head n).map rob.entries := by
    rw [window, liveSlots, hcount]
    apply List.map_congr_left
    intro i hi
    apply if_neg
    rw [mem_slots_one h]
    intro heq
    exact hnodup.1 (heq ▸ hi)
  rw [hrest, window, liveSlots, hn, slots_removeFront_one h, List.map_cons]

theorem window_nil (hc : rob.count = 0) : rob.window = [] := by
  simp [window, liveSlots, hc, Ring.slots]

/-- The entries that stay are those behind the `k` oldest. -/
theorem window_removeFront (h : rob.InRing) (k : Nat) :
    (rob.removeFront k).window = rob.window.drop k := by
  induction k generalizing rob with
  | zero => rw [removeFront_zero h, List.drop_zero]
  | succ k ih =>
      rw [← removeFront_succ h, ih (h.removeFront 1)]
      rcases Nat.eq_zero_or_pos rob.count with hc | hc
      · have hc' : (rob.removeFront 1).count = 0 := by
          show rob.count - 1 = 0
          omega
        rw [window_nil hc, window_nil hc', List.drop_nil, List.drop_nil]
      · rw [window_cons h hc, List.drop_succ_cons]

/-- `commit` on a completed head. -/
theorem commit_completed (h : rob.InRing) (hc : 0 < rob.count)
    (hv : (rob.entries rob.head).valid = true) (hd : (rob.entries rob.head).completed = true) :
    rob.commit = some (rob.entries rob.head, rob.removeFront 1) := by
  have hclear : Function.update rob.entries rob.head {} = (rob.removeFront 1).entries := by
    funext i
    show _ = if i ∈ Ring.slots Capacity rob.head 1 then {} else rob.entries i
    simp only [mem_slots_one h, Function.update_apply]
  have hempty : rob.empty = false := by
    simp only [empty, beq_eq_false_iff_ne]
    omega
  rw [commit, hempty, hv, hd, hclear]
  rfl

end ReOrderBuffer

namespace CommitUnit

variable {cfg : Config} {u : CommitUnit cfg}

/-! ## Which entries retire -/

/-- The entries that one call retires, out of those read from the head. -/
def retired : Nat → List ROBEntry → List ROBEntry
  | 0, _ => []
  | _ + 1, [] => []
  | n + 1, e :: es =>
    if e.valid && e.completed then e :: (if e.halt then [] else retired n es) else []

/-- At most `w` completed entries, none of them after a `HALT`. -/
structure Retirable (w : Nat) (es : List ROBEntry) : Prop where
  width : es.length ≤ w
  completed : ∀ e ∈ es, e.valid = true ∧ e.completed = true
  halt_last : ∀ pre e post, es = pre ++ e :: post → e.halt = true → post = []

theorem retirable_nil (w : Nat) : Retirable w [] where
  width := Nat.zero_le w
  completed := by simp
  halt_last := by simp

theorem Retirable.cons {w : Nat} {e : ROBEntry} {es : List ROBEntry} (h : Retirable w es)
    (hv : e.valid = true) (hd : e.completed = true) (hh : e.halt = true → es = []) :
    Retirable (w + 1) (e :: es) where
  width := by
    have := h.width
    simp only [List.length_cons]
    omega
  completed := by
    intro x hx
    rcases List.mem_cons.mp hx with rfl | hx
    · exact ⟨hv, hd⟩
    · exact h.completed x hx
  halt_last := by
    intro pre x post hsplit hx
    rcases pre with _ | ⟨y, pre⟩
    · obtain ⟨rfl, rfl⟩ := List.cons.inj hsplit
      exact hh hx
    · exact h.halt_last pre x post (List.cons.inj hsplit).2 hx

theorem Retirable.tail {w : Nat} {e : ROBEntry} {es : List ROBEntry}
    (h : Retirable (w + 1) (e :: es)) : Retirable w es where
  width := Nat.le_of_succ_le_succ h.width
  completed := fun x hx => h.completed x (List.mem_cons_of_mem e hx)
  halt_last := by
    intro pre x post hsplit hx
    apply h.halt_last (e :: pre) x post _ hx
    rw [hsplit, List.cons_append]

theorem retired_prefix_window (n : Nat) (es : List ROBEntry) : retired n es <+: es := by
  induction n generalizing es with
  | zero => exact List.nil_prefix
  | succ n ih =>
      rcases es with _ | ⟨e, es⟩
      · exact List.nil_prefix
      rw [retired]
      split
      · rw [List.prefix_cons_inj]
        split
        · exact List.nil_prefix
        · exact ih es
      · exact List.nil_prefix

theorem retirable_retired (n : Nat) (es : List ROBEntry) : Retirable n (retired n es) := by
  induction n generalizing es with
  | zero => exact retirable_nil 0
  | succ n ih =>
      rcases es with _ | ⟨e, es⟩
      · exact retirable_nil _
      rw [retired]
      split
      · rename_i hdone
        rw [Bool.and_eq_true] at hdone
        split
        · exact (retirable_nil n).cons hdone.1 hdone.2 fun _ => rfl
        · rename_i hh
          exact (ih es).cons hdone.1 hdone.2 fun ht => absurd ht hh
      · exact retirable_nil _

/-- No other retirable prefix is longer. -/
theorem retired_longest {n : Nat} {es p : List ROBEntry} (hp : p <+: es) (h : Retirable n p) :
    p.length ≤ (retired n es).length := by
  induction n generalizing es p with
  | zero => exact h.width.trans (Nat.zero_le _)
  | succ n ih =>
      rcases p with _ | ⟨x, p⟩
      · exact Nat.zero_le _
      rcases es with _ | ⟨e, es⟩
      · exact absurd hp (by simp)
      obtain ⟨rfl, hrest⟩ := List.cons_prefix_cons.mp hp
      have hx := h.completed x List.mem_cons_self
      rw [retired, hx.1, hx.2, Bool.and_true, if_pos rfl]
      by_cases hh : x.halt = true
      · rw [if_pos hh, h.halt_last [] x p rfl hh]
      · rw [if_neg hh, List.length_cons, List.length_cons]
        exact Nat.succ_le_succ (ih hrest h.tail)

/-! ## What their retirement does -/

/-- The write of one retired entry to the architectural registers. -/
def writeArf (prf : PhysicalRegisterFile cfg.prfCount)
    (arf : ArchitecturalRegisterFile cfg.arfCount) (e : ROBEntry) :
    ArchitecturalRegisterFile cfg.arfCount :=
  if e.registerWrite then arf.write e.architecturalRd (prf.read e.physicalRd) else arf

/-- The youngest of `es` that writes `r`. -/
def lastWriter (es : List ROBEntry) (r : Register) : Option ROBEntry :=
  (es.filter fun e => e.registerWrite && e.architecturalRd == r).getLast?

/-- The registers that the entries replaced in the map. -/
def released (es : List ROBEntry) : List PhysicalRegister :=
  (es.filter fun e => e.registerWrite && e.oldPhysicalRd != INVALID_REGISTER).map
    ROBEntry.oldPhysicalRd

theorem released_append (xs ys : List ROBEntry) :
    released (xs ++ ys) = released xs ++ released ys := by
  rw [released, List.filter_append, List.map_append]
  rfl

/-- The sentinel is never released. -/
theorem invalid_not_released (es : List ROBEntry) : INVALID_REGISTER ∉ released es := by
  intro hin
  obtain ⟨e, he, hold⟩ := List.mem_map.mp hin
  have hne := (List.mem_filter.mp he).2
  rw [hold] at hne
  simp at hne

theorem retireAll_arf (u : CommitUnit cfg) (es : List ROBEntry) :
    (retireAll u es).arf = es.foldl (writeArf u.prf) u.arf := by
  induction es generalizing u with
  | nil => rfl
  | cons e es ih =>
      rw [retireAll_cons, ih, retire_prf, retire_arf, List.foldl_cons]
      rfl

theorem retireAll_freeRegisters (u : CommitUnit cfg) (es : List ROBEntry) :
    (retireAll u es).freeList.freeRegisters = u.freeList.freeRegisters ++ released es := by
  induction es generalizing u with
  | nil => simp [released]
  | cons e es ih =>
      rw [retireAll_cons, ih, retire_freeList]
      by_cases hw : e.registerWrite = true <;>
        by_cases ho : e.oldPhysicalRd = INVALID_REGISTER <;>
        simp [released, PhysicalRegisterFreeList.releaseBack, hw, ho]

@[simp] theorem retire_committed (u : CommitUnit cfg) (e : ROBEntry) :
    (retire u e).committedInstructionCount = u.committedInstructionCount + 1 := by
  simp only [retire]
  split <;> split <;> split <;> split <;> rfl

theorem retireAll_committed (u : CommitUnit cfg) (es : List ROBEntry) :
    (retireAll u es).committedInstructionCount = u.committedInstructionCount + es.length := by
  induction es generalizing u with
  | nil => rfl
  | cons e es ih =>
      rw [retireAll_cons, ih, retire_committed, List.length_cons]
      omega

/-- Of two entries that write one register, the younger one decides. -/
theorem foldl_writeArf (prf : PhysicalRegisterFile cfg.prfCount) {r : Register}
    (hr : r.val < cfg.arfCount) (arf : ArchitecturalRegisterFile cfg.arfCount)
    (es : List ROBEntry) :
    (es.foldl (writeArf prf) arf).registers r =
      match lastWriter es r with
      | some e => prf.read e.physicalRd
      | none => arf.registers r := by
  induction es using List.reverseRecOn with
  | nil => rfl
  | append_singleton es e ih =>
      rw [List.foldl_append, List.foldl_cons, List.foldl_nil, lastWriter, List.filter_append]
      by_cases hw : e.registerWrite = true ∧ e.architecturalRd = r
      · obtain ⟨hw, rfl⟩ := hw
        simp [writeArf, hw, ArchitecturalRegisterFile.write, Nat.not_le.mpr hr]
      · -- `e` writes another register, or none
        have hfilter : (e.registerWrite && e.architecturalRd == r) = false := by
          rw [Bool.and_eq_false_iff, beq_eq_false_iff_ne]
          by_cases hwr : e.registerWrite = true
          · exact Or.inr fun heq => hw ⟨hwr, heq⟩
          · exact Or.inl (eq_false_of_ne_true hwr)
        have hsame : (writeArf prf (es.foldl (writeArf prf) arf) e).registers r =
            (es.foldl (writeArf prf) arf).registers r := by
          simp only [writeArf]
          split
          · rename_i hwr
            have hne : r ≠ e.architecturalRd := fun heq => hw ⟨hwr, heq.symm⟩
            simp only [ArchitecturalRegisterFile.write]
            split
            · rfl
            · exact Function.update_of_ne hne _ _
          · rfl
        rw [hsame, ih, List.filter_singleton, hfilter, cond_false, List.append_nil]
        rfl

/-! ## One call -/

/-- The loop retires `retired` and nothing else. -/
theorem stepLoop_eq (n : Nat) (hrob : u.rob.InRing) (hh : u.halted = false) :
    stepLoop n u =
      ({ retireAll u (retired n u.rob.window) with
          rob := u.rob.removeFront (retired n u.rob.window).length },
        (retired n u.rob.window).map (makeEvent u.prf)) := by
  induction n generalizing u with
  | zero =>
      show (u, []) = ({ u with rob := u.rob.removeFront 0 }, [])
      rw [ReOrderBuffer.removeFront_zero hrob]
  | succ n ih =>
      have hstop : (u, ([] : List CommitEvent)) =
          ({ retireAll u [] with rob := u.rob.removeFront ([] : List ROBEntry).length },
            ([] : List ROBEntry).map (makeEvent u.prf)) := by
        show _ = ({ u with rob := u.rob.removeFront 0 }, [])
        rw [ReOrderBuffer.removeFront_zero hrob]
      rcases Nat.eq_zero_or_pos u.rob.count with hc | hc
      · have hempty : u.rob.headEntry = none := by
          simp [ReOrderBuffer.headEntry, ReOrderBuffer.empty, hc]
        rw [stepLoop, hempty, ReOrderBuffer.window_nil hc]
        exact hstop
      have hhead : u.rob.headEntry = some (u.rob.entries u.rob.head) := by
        have hne : u.rob.count ≠ 0 := by omega
        simp [ReOrderBuffer.headEntry, ReOrderBuffer.empty, hne]
      rw [stepLoop, hhead, ReOrderBuffer.window_cons hrob hc, retired]
      generalize he : u.rob.entries u.rob.head = e
      by_cases hdone : (e.valid && e.completed) = true
      · have hcommit : u.rob.commit = some (e, u.rob.removeFront 1) := by
          have hboth := hdone
          rw [← he, Bool.and_eq_true] at hboth
          rw [ReOrderBuffer.commit_completed hrob hc hboth.1 hboth.2, he]
        have hgo : (!e.valid || !e.completed) = false := by
          rw [← Bool.not_and, hdone, Bool.not_true]
        have hretire : (retire u e).halted = e.halt := by rw [retire_halted, hh, Bool.false_or]
        simp only [hgo, hdone, hcommit, if_true, Bool.false_eq_true, if_false]
        rw [retire_withRob]
        by_cases hhalt : e.halt = true
        · rw [if_pos (hretire.trans hhalt), if_pos hhalt]
          rfl
        · -- the loop goes on from the buffer without its head
          have hrest := ih (u := { retire u e with rob := u.rob.removeFront 1 })
            (hrob.removeFront 1) (hretire.trans (eq_false_of_ne_true hhalt))
          rw [retireAll_withRob] at hrest
          simp only [ReOrderBuffer.removeFront_succ hrob] at hrest
          rw [if_neg (fun h => hhalt (hretire.symm.trans h)), if_neg hhalt, hrest]
          simp only [retire_prf, retireAll_cons, List.map_cons, List.length_cons]
      · have hwait : (!e.valid || !e.completed) = true := by
          rw [← Bool.not_and]
          simp only [hdone, Bool.not_false]
        rw [if_neg hdone]
        simp only [hwait, if_true]
        exact hstop

/-- The event reports the entry, with the value its destination has in the register file. -/
structure Reports (prf : PhysicalRegisterFile cfg.prfCount) (e : ROBEntry) (ev : CommitEvent) :
    Prop where
  valid : ev.valid = true
  robIndex : ev.robIndex = e.robIndex
  pc : ev.pc = e.pc
  opcode : ev.opcode = e.opcode
  registerWrite : ev.registerWrite = e.registerWrite
  architecturalRd : ev.architecturalRd = e.architecturalRd
  physicalRd : ev.physicalRd = e.physicalRd
  freedPhysicalReg : ev.freedPhysicalReg = e.oldPhysicalRd
  branch : ev.branch = e.branch
  store : ev.store = e.memoryWrite
  halt : ev.halt = e.halt
  value : ev.value = if e.registerWrite then prf.read e.physicalRd else 0

/-- What a call that removes `es` has done. -/
structure RetiresExactly (u u' : CommitUnit cfg) (events : List CommitEvent)
    (es : List ROBEntry) : Prop where
  front : u.rob.window = es ++ u'.rob.window
  retirable : Retirable u.commitWidth es
  longest : ∀ p, p <+: u.rob.window → Retirable u.commitWidth p → p.length ≤ es.length
  rob : u'.rob = u.rob.removeFront es.length
  reports : List.Forall₂ (Reports u.prf) es events
  events : events = es.map (makeEvent u.prf)
  arf : u'.arf = es.foldl (writeArf u.prf) u.arf
  last_wins : ∀ r : Register, r.val < cfg.arfCount →
    u'.arf.registers r =
      match lastWriter es r with
      | some e => u.prf.read e.physicalRd
      | none => u.arf.registers r
  freeList : u'.freeList.freeRegisters = u.freeList.freeRegisters ++ released es
  committed : u'.committedInstructionCount = u.committedInstructionCount + es.length
  prf : u'.prf = u.prf

theorem reports_makeEvent (prf : PhysicalRegisterFile cfg.prfCount) (es : List ROBEntry) :
    List.Forall₂ (Reports prf) es (es.map (makeEvent prf)) := by
  rw [List.forall₂_map_right_iff, List.forall₂_same]
  intro e _
  exact ⟨rfl, rfl, rfl, rfl, rfl, rfl, rfl, rfl, rfl, rfl, rfl, rfl⟩

/-- `step` retires the longest prefix it may, and touches nothing else of ROB, PRF and
    free list. -/
theorem step_retires_longest (u : CommitUnit cfg) (hrob : u.rob.InRing)
    (hh : u.halted = false) : ∃ es, RetiresExactly u u.step.1 u.step.2 es := by
  have hstep : u.step = _ := stepLoop_eq u.commitWidth hrob hh
  refine ⟨retired u.commitWidth u.rob.window, ?_⟩
  constructor
  · rw [hstep]
    dsimp only
    rw [ReOrderBuffer.window_removeFront hrob]
    exact (List.prefix_iff_eq_append.mp (retired_prefix_window _ _)).symm
  · exact retirable_retired _ _
  · intro p hp h
    exact retired_longest hp h
  · rw [hstep]
  · rw [hstep]
    exact reports_makeEvent _ _
  · rw [hstep]
  · rw [hstep]
    exact retireAll_arf _ _
  · intro r hr
    rw [hstep]
    dsimp only
    rw [retireAll_arf, foldl_writeArf u.prf hr]
  · rw [hstep]
    exact retireAll_freeRegisters _ _
  · rw [hstep]
    exact retireAll_committed _ _
  · rw [hstep]
    exact retireAll_prf _ _

/-- Two completed writers of `R1` in front of an entry that is not completed: both retire,
    and the younger one decides. -/
theorem step_retires_two_writers :
    let u : CommitUnit .default :=
      { rob :=
          { entries := fun i =>
              if i = 0 then
                { valid := true, completed := true, registerWrite := true, architecturalRd := 1,
                  physicalRd := 16, oldPhysicalRd := 1 }
              else if i = 1 then
                { valid := true, completed := true, robIndex := 1, registerWrite := true,
                  architecturalRd := 1, physicalRd := 17, oldPhysicalRd := 16 }
              else { valid := true, robIndex := 2 },
            tail := 3, count := 3 },
        prf := ⟨fun p => { value := if p = 16 then 5 else 7, ready := true }⟩,
        arf := .reset, freeList := ⟨[18, 19]⟩, rat := .init 64, storeBuffer := none }
    (∃ es, RetiresExactly u u.step.1 u.step.2 es) ∧ u.step.1.arf.read 1 = 7 ∧
      u.step.1.freeList = ⟨[18, 19, 1, 16]⟩ := by
  intro u
  refine ⟨step_retires_longest u ⟨by decide, by decide⟩ rfl, by decide, by decide⟩

end CommitUnit

end CpuSim.SuperScalar
