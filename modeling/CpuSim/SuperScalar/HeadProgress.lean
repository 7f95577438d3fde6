/-
  CpuSim.SuperScalar.HeadProgress

  The oldest instruction in flight.  In an orderly run whose recoveries squash no memory
  operation its queue entry has its operands and waits for no other instruction, so it
  can be selected as soon as some selector knows its opcode.
-/

import CpuSim.SuperScalar.Operands
import CpuSim.SuperScalar.MemoryQueues

namespace CpuSim.SuperScalar

variable {cfg : Config}

/-! ## Loads without older stores -/

/-- A load whose slot heads the order of the queue does not wait. -/
theorem LoadStoreQueue.head_not_waiting {n : Nat} {q : LoadStoreQueue n} {r : Nat}
    {rest : List Nat} (hv : q.AllValid) (hs : q.slots.Sublist (r :: rest))
    (hn : (r :: rest).Nodup) : (q.executeLoad r).mustWait = false := by
  have hmatch : ∀ l ∈ q.entries, matchesRob r l = decide (l.robIndex = r) := fun l hl =>
    hv.matches_eq hl
  rw [slots] at hs
  rw [executeLoad]
  cases hentries : q.entries with
  | nil => rfl
  | cons l ls =>
      rw [hentries] at hs hmatch
      have hfirst := hmatch l List.mem_cons_self
      by_cases hl : l.robIndex = r
      · -- its own entry is the first, nothing is older
        rw [List.findIdx?_cons, hfirst, decide_eq_true hl]
        simp only [if_true, List.getElem?_cons_zero, List.take_zero, List.reverse_nil, scanOlder]
        split <;> rfl
      · -- it has no entry
        have hrest : (List.map LSQEntry.robIndex (l :: ls)).Sublist rest :=
          List.Sublist.of_cons_of_ne hl hs
        have hnone : (l :: ls).findIdx? (matchesRob r) = none := by
          rw [List.findIdx?_eq_none_iff]
          intro x hx
          rw [hmatch x hx, decide_eq_false_iff_not]
          rintro rfl
          exact (List.nodup_cons.mp hn).1 (hrest.subset (List.mem_map_of_mem hx))
        rw [hnone]

namespace SuperScalarCPU

variable {s : SuperScalarCPU cfg}

/-! ## The selectors -/

/-- The memory unit takes the entry in slot `i`: it is ready and, as a load, need not
    wait. -/
def acceptedByMemory (s : SuperScalarCPU cfg) (i : Nat) : Bool :=
  MemoryExecutionUnit.readyForMemoryExecution (s.iq.entries i) &&
    !((s.iq.entries i).memoryRead &&
      ((s.addressed s.lsq i).executeLoad (s.iq.entries i).robIndex).mustWait)

/-- The answers of the three selectors to the entry in slot `i`. -/
def selectors (s : SuperScalarCPU cfg) (i : Nat) : List Bool :=
  [s.acceptedByMemory i, readyBranch (s.iq.entries i), readyAlu (s.iq.entries i)]

/-- The queue slot `i` is the only one that names the reorder buffer slot `r`. -/
def OnlyEntry (s : SuperScalarCPU cfg) (r i : Nat) : Prop :=
  ∀ j < cfg.iqCapacity, ((s.iq.entries j).valid = true ∧ (s.iq.entries j).robIndex = r) ↔ j = i

/-- The instruction in reorder buffer slot `r` has one queue entry, with both operands, and
    exactly one selector accepts it. -/
def Executable (s : SuperScalarCPU cfg) (r : Nat) : Prop :=
  ∃ i < cfg.iqCapacity, s.OnlyEntry r i ∧ (s.iq.entries i).rs1Ready = true ∧
    (s.iq.entries i).rs2Ready = true ∧ (s.selectors i).count true = 1

instance (s : SuperScalarCPU cfg) (r : Nat) : Decidable (s.Executable r) :=
  inferInstanceAs (Decidable (∃ i < cfg.iqCapacity,
    (∀ j < cfg.iqCapacity, (_ ∧ _) ↔ j = i) ∧ _ = _ ∧ _ = _ ∧ _ = _))

/-- The opcodes some selector accepts. -/
def selectable (op : Opcode) : Bool :=
  aluOperationOf op != .NONE

/-- A ready entry that need not wait is accepted by one selector, or by none if its opcode
    has no operation. -/
theorem selectors_count {i : Nat} {q : IssueQueueEntry} (hq : s.iq.entries i = q)
    (hv : q.valid = true) (hissued : q.issued = false) (hdec : q.FromDecode)
    (hqueued : q.opcode ≠ .NOP ∧ q.opcode ≠ .HALT) (h1 : q.rs1Ready = true)
    (h2 : q.rs2Ready = true)
    (hwait : q.memoryRead = true →
      ((s.addressed s.lsq i).executeLoad q.robIndex).mustWait = false) :
    (s.selectors i).count true = if selectable q.opcode then 1 else 0 := by
  have hread := hdec.memoryRead.trans (decodeWord_memoryRead q.pc q.instruction)
  have hwrite := hdec.memoryWrite.trans (decodeWord_memoryWrite q.pc q.instruction)
  have hflow := hdec.controlFlow.trans (decodeWord_controlFlow q.pc q.instruction)
  have hhalt := hdec.halt.trans (decodeWord_halt q.pc q.instruction)
  have hop := hdec.aluOperation.trans (decodeWord_aluOperation q.pc q.instruction)
  -- every selector reads a field the opcode determines
  rw [← hdec.opcode] at hread hwrite hflow hhalt hop
  rw [selectors, acceptedByMemory, hq, readyBranch, readyAlu,
    MemoryExecutionUnit.readyForMemoryExecution, hv, hissued, h1, h2, selectable]
  have hload : (q.memoryRead && ((s.addressed s.lsq i).executeLoad q.robIndex).mustWait) =
      false := by
    cases hr : q.memoryRead with
    | false => rfl
    | true => exact hwait hr
  rw [hload, hread, hwrite, hflow, hhalt, hop]
  obtain ⟨hnop, hnohalt⟩ := hqueued
  revert hnop hnohalt
  cases q.opcode <;> simp [controlFlowOf, aluOperationOf]

/-! ## The head of the reorder buffer -/

section Head

variable {m : Register → PhysicalRegister} {e : ROBEntry} {rest : List ROBEntry}
  {q : IssueQueueEntry}

/-- The sources of the oldest instruction are committed names. -/
theorem Renaming.head_sources (h : Renaming m s) (hs : Sound s) (hw : s.rob.window = e :: rest)
    (hq : q ∈ s.iq.live) (hm : q.Matches e) : SourcesOf m [] q := by
  obtain ⟨pre, e', post, hsplit, hm', hsrc⟩ := h.sources q hq
  have hnodup := hs.inFlight.rob_wf.nodup_robIndex
  rw [hw] at hsplit
  cases pre with
  | nil => exact hsrc
  | cons x pre =>
      -- otherwise the slot of `e` would be in the window twice
      rw [List.cons_append, List.cons.injEq] at hsplit
      rw [hw, hsplit.2, List.map_cons, List.nodup_cons] at hnodup
      refine absurd ?_ hnodup.1
      rw [← hm.robIndex, hm'.robIndex]
      exact List.mem_map_of_mem (List.mem_append_right _ List.mem_cons_self)

/-- Committed names are ready, so the oldest instruction has its operands. -/
theorem Delivery.head_ready (h : Delivery m s) (hq : q ∈ s.iq.live) (hsrc : SourcesOf m [] q) :
    q.rs1Ready = true ∧ q.rs2Ready = true := by
  have hready : ∀ {reads ready : Bool} {p : PhysicalRegister} {v : Word},
      OperandHolds s.prf reads p ready v → (∃ r, p = mapAfter m [] r) → ready = true := by
    rintro reads ready p v hop ⟨r, rfl⟩
    rw [OperandHolds] at hop
    split at hop
    · exact hop.1.trans (h.committed r).1
    · exact hop
  obtain ⟨h1, h2⟩ := h.operands q hq
  exact ⟨hready h1 ⟨_, hsrc.1⟩, hready h2 ⟨_, hsrc.2⟩⟩

/-- The oldest instruction, if it is a load, does not wait for a store. -/
theorem LsqTracks.head_not_waiting (h : LsqTracks List.Sublist s) (hs : Sound s)
    (hw : s.rob.window = e :: rest) {i : Nat} (hm : (s.iq.entries i).Matches e)
    (hread : e.memoryRead = true) :
    ((s.addressed s.lsq i).executeLoad (s.iq.entries i).robIndex).mustWait = false := by
  have htags : (s.addressed s.lsq i).tags = s.lsq.tags := LoadStoreQueue.tags_setAddress _ _ _
  have hslots : memSlots s.rob.window = e.robIndex :: memSlots rest := by
    rw [hw, memSlots, List.filter_cons, ROBEntry.memory, hread, Bool.true_or, if_pos rfl]
    rfl
  have hnodup := hs.inFlight.rob_wf.nodup_robIndex.sublist memSlots_sublist
  have hsub := h.slots
  rw [hslots] at hsub hnodup
  rw [hm.robIndex]
  refine LoadStoreQueue.head_not_waiting (h.valid.of_tags htags) ?_ hnodup
  rwa [LoadStoreQueue.slots_eq_tags, htags, ← LoadStoreQueue.slots_eq_tags]

theorem selectable_iff (op : Opcode) (hnop : op ≠ .NOP) (hhalt : op ≠ .HALT) :
    selectable op = true ↔ op ≠ .J ∧ ∀ code, op ≠ .undefined code := by
  revert hnop hhalt
  cases op <;> simp [selectable, aluOperationOf]

/-- In one state: the uncompleted head is executable if and only if its opcode is. -/
theorem Delivery.head_executable (h : Delivery m s) (hR : Renaming m s)
    (hL : LsqTracks List.Sublist s) (hs : Sound s) (hw : s.rob.window = e :: rest)
    (hopen : e.completed = false) :
    s.Executable e.robIndex ↔ e.opcode ≠ .J ∧ ∀ code, e.opcode ≠ .undefined code := by
  have he : e ∈ s.rob.window := by
    rw [hw]
    exact List.mem_cons_self
  obtain ⟨q, hq, hm⟩ := hs.inFlight.queued e he hopen
  obtain ⟨⟨i, hi, hqi⟩, hv⟩ := IssueQueue.mem_live.mp hq
  -- nothing is in front of the head, so its operands have been delivered
  obtain ⟨h1, h2⟩ := h.head_ready hq (hR.head_sources hs hw hq hm)
  have honly : s.OnlyEntry e.robIndex i := by
    intro j hj
    constructor
    · rintro ⟨hvj, hrj⟩
      refine IssueQueue.eq_of_robIndex_eq hs.inFlight.unique hj hi hvj ?_ ?_
      · rw [hqi]
        exact hv
      · rw [hqi, hrj, hm.robIndex]
    · rintro rfl
      rw [hqi]
      exact ⟨hv, hm.robIndex⟩
  have hdec := hs.inFlight.queueDecoded q hq
  have hopq : q.opcode = e.opcode := by
    rw [hdec.opcode, hm.pc, hm.instruction, ← (hs.inFlight.entryDecoded e he).opcode]
  -- nor is there an older store its load could wait for
  have hwait : q.memoryRead = true →
      ((s.addressed s.lsq i).executeLoad q.robIndex).mustWait = false := by
    intro hread
    rw [← hqi]
    refine hL.head_not_waiting hs hw (by rw [hqi]; exact hm) ?_
    rw [(hs.inFlight.entryDecoded e he).memoryRead, ← hm.pc, ← hm.instruction, ← hdec.memoryRead,
      hread]
  have hqueued := hs.queued q hq
  have hcount := selectors_count hqi hv (hs.inFlight.unissued q hq) hdec hqueued h1 h2 hwait
  rw [hopq] at hcount hqueued
  rw [← selectable_iff e.opcode hqueued.1 hqueued.2]
  constructor
  · rintro ⟨j, hj, hjonly, -, -, hone⟩
    have hji : j = i := ((honly j hj).mp ((hjonly j hj).mpr rfl))
    rw [hji, hcount] at hone
    by_contra hsel
    rw [if_neg hsel] at hone
    cases hone
  · intro hsel
    rw [hsel, if_pos rfl] at hcount
    rw [← hqi] at h1 h2
    exact ⟨i, hi, honly, h1, h2, hcount⟩

end Head

/-! ## Runs -/

theorem run_lsqTracks {words : List Word} {data : List (Nat × Word)} {n : Nat}
    (hkept : ∀ k < n, (run (boot cfg words data) k).halted = false →
      NoMemorySquash (run (boot cfg words data) k)) :
    LsqTracks List.Sublist (run (boot cfg words data) n) := by
  induction n with
  | zero => exact LsqTracks.boot (List.Sublist.refl _) cfg words data
  | succ n ih =>
      have hprev := ih fun k hk => hkept k (Nat.lt_succ_of_lt hk)
      rw [run, step]
      cases hgo : (run (boot cfg words data) n).halted with
      | true =>
          rw [next_of_halted hgo]
          exact ⟨hprev.valid, hprev.slots⟩
      | false => exact hprev.next_sublist (run_steps hgo) (hkept n (Nat.lt_succ_self n) hgo)

/-- In an orderly run whose recoveries squash no load or store, an uncompleted head of the
    reorder buffer has one queue entry, with both operands, and one selector accepts it, if
    and only if its opcode is neither `J` nor undefined. -/
theorem head_executable_iff (cfg : Config) (harf : 16 ≤ cfg.arfCount) (hprf : 16 ≤ cfg.prfCount)
    (words : List Word) (data : List (Nat × Word)) (n : Nat)
    (hord : OrderlyRun (boot cfg words data) n)
    (hkept : ∀ k < n, (run (boot cfg words data) k).halted = false →
      NoMemorySquash (run (boot cfg words data) k))
    (hbusy : (run (boot cfg words data) n).rob.empty = false)
    (hopen : ((run (boot cfg words data) n).rob.entries
      (run (boot cfg words data) n).rob.head).completed = false) :
    let s := run (boot cfg words data) n
    let e := s.rob.entries s.rob.head
    s.Executable e.robIndex ↔ e.opcode ≠ .J ∧ ∀ code, e.opcode ≠ .undefined code := by
  intro s e
  obtain ⟨hs, hf⟩ := run_sound_fence cfg words data n
  have hhead : s.rob.window.head? = some e := by
    rw [← hs.inFlight.rob_wf.headEntry, ReOrderBuffer.headEntry, hbusy]
    rfl
  obtain ⟨rest, hw⟩ := List.head?_eq_some_iff.mp hhead
  have hgo : s.halted = false := eq_false_of_ne_true fun hhalt => by
    rw [hf.drained hhalt] at hw
    cases hw
  obtain ⟨hR, hD⟩ := run_delivery rfl harf hprf hord hgo
  exact hD.head_executable hR (run_lsqTracks hkept) hs hw hopen

/-- `LW r1, 0(r1)` at the head, about to execute. -/
theorem head_executable_load :
    let s := run (boot .default [0x24440000] []) 2
    let e := s.rob.entries s.rob.head
    s.Executable e.robIndex ↔ e.opcode ≠ .J ∧ ∀ code, e.opcode ≠ .undefined code :=
  head_executable_iff .default (by decide) (by decide) [0x24440000] [] 2 (by decide +kernel)
    (by decide +kernel) (by decide +kernel) (by decide +kernel)

/-- A `J`, or a word with an undefined opcode, at the head is accepted by no selector. -/
theorem unselected_opcode_not_executable :
    let s := run (boot .default [0x34000000] []) 2
    let t := run (boot .default [0xFC000000] []) 2
    (s.rob.empty = false ∧ (s.rob.entries s.rob.head).completed = false ∧
        ¬ s.Executable (s.rob.entries s.rob.head).robIndex) ∧
      t.rob.empty = false ∧ (t.rob.entries t.rob.head).completed = false ∧
        ¬ t.Executable (t.rob.entries t.rob.head).robIndex := by
  decide +kernel

end SuperScalarCPU

end CpuSim.SuperScalar
