/-
  CpuSim.SuperScalar.Speculation

  What happens between a branch's checkpoint and its recovery: younger
  instructions are renamed and dispatched while older ones issue, complete and
  commit, in any interleaving.  Recovery undoes all of it but the commits, and
  gives back every register that has reached the reorder buffer.
-/

import CpuSim.SuperScalar.RenameFlow
import CpuSim.SuperScalar.Retirement

namespace CpuSim.SuperScalar

open CpuSim.Lib.Renaming

variable {cfg : Config}

/-! ## Coherent structures -/

/-- The structures describe the same instructions: each queue entry waits for an uncompleted
    instruction of the window, no two for the same one, and the free list holds registers. -/
structure BranchRecoveryUnit.Coherent (u : BranchRecoveryUnit cfg) : Prop where
  rob_wf : u.rob.WF
  iq_wf : u.issueQueue.WF
  unique : (u.issueQueue.live.map IssueQueueEntry.robIndex).Nodup
  backed : ∀ q ∈ u.issueQueue.live, ∃ e ∈ u.rob.window, e.completed = false ∧ q.Matches e
  sentinel : INVALID_REGISTER ∉ u.freeList.freeRegisters

namespace BranchRecoveryUnit.Coherent

variable {u : BranchRecoveryUnit cfg}

theorem linked (h : u.Coherent) : Linked u.rob u.issueQueue :=
  ⟨h.rob_wf, h.iq_wf, h.unique, h.backed⟩

theorem of_linked (h : Linked u.rob u.issueQueue)
    (hfree : INVALID_REGISTER ∉ u.freeList.freeRegisters) : u.Coherent :=
  ⟨h.rob_wf, h.iq_wf, h.unique, h.backed, hfree⟩

/-- A new instruction enters both structures. -/
theorem dispatch (h : u.Coherent) {prf : PhysicalRegisterFile cfg.prfCount}
    {bundle : RenameBundle} {cp : Option Checkpoint} {i : Nat} {d : DispatchUnit cfg}
    (hv : bundle.valid = true)
    (hd : DispatchUnit.dispatch { rob := u.rob, issueQueue := u.issueQueue, prf := prf } bundle cp =
      some (i, d)) :
    ({ u with rob := d.rob, issueQueue := d.issueQueue } : BranchRecoveryUnit cfg).Coherent ∧
      d.rob.window = u.rob.window ++ [ReOrderBuffer.makeEntry bundle i cp] := by
  obtain ⟨rob, iq, hall, hins, rfl⟩ := DispatchUnit.dispatch_some hv hd
  exact ⟨of_linked (h.linked.dispatch hall hins hv).1 h.sentinel, (h.rob_wf.allocate hall).2.1⟩

/-- A result broadcast. -/
theorem wakeup (h : u.Coherent) (p : PhysicalRegister) (value : Word) :
    ({ u with issueQueue := u.issueQueue.wakeup p value } : BranchRecoveryUnit cfg).Coherent :=
  of_linked (h.linked.wakeup p value) h.sentinel

/-- An instruction leaves the queue. -/
theorem issue (h : u.Coherent) (index : Nat) :
    ({ u with issueQueue := u.issueQueue.remove index } : BranchRecoveryUnit cfg).Coherent := by
  by_cases hin : index < cfg.iqCapacity ∧ (u.issueQueue.entries index).valid = true
  · exact of_linked (h.linked.remove hin.1 hin.2).1 h.sentinel
  · -- nothing is in the slot
    have hsame : u.issueQueue.remove index = u.issueQueue := by
      rw [IssueQueue.remove]
      split
      · rfl
      · next hlt =>
          rw [if_pos]
          simpa using fun hv => hin ⟨Nat.lt_of_not_le hlt, hv⟩
    rw [hsame]
    exact h

/-- An issued instruction completes. -/
theorem complete (h : u.Coherent) {robIndex : Nat} (result : Word)
    (hissued : ∀ q ∈ u.issueQueue.live, q.robIndex ≠ robIndex) :
    ({ u with rob := u.rob.complete robIndex result } : BranchRecoveryUnit cfg).Coherent :=
  of_linked (h.linked.complete result hissued) h.sentinel

/-- The oldest instruction commits; nothing in the queue waits for it any more. -/
theorem commit (h : u.Coherent) {entry : ROBEntry} {rob : ReOrderBuffer cfg.robCapacity}
    (hcommit : u.rob.commit = some (entry, rob)) {freeList : PhysicalRegisterFreeList}
    {rat : RegisterAliasTable} (hfree : INVALID_REGISTER ∉ freeList.freeRegisters) :
    ({ u with rob := rob, freeList := freeList, rat := rat } :
      BranchRecoveryUnit cfg).Coherent :=
  of_linked (h.linked.commit hcommit) hfree

end BranchRecoveryUnit.Coherent

/-- The structures of the CPU are coherent in every reachable state. -/
theorem SuperScalarCPU.Sound.coherent {s : SuperScalarCPU cfg} (h : Sound s) :
    ({ rob := s.rob, rat := s.rat, freeList := s.freeList, issueQueue := s.iq } :
      BranchRecoveryUnit cfg).Coherent :=
  ⟨h.inFlight.rob_wf, h.inFlight.iq_wf, h.inFlight.unique, h.inFlight.backed,
    h.numbered.invalid_not_free⟩

/-- A ROB entry without what its completion sets. -/
def ROBEntry.uncompleted (e : ROBEntry) : ROBEntry := { e with result := 0, completed := false }

@[simp] theorem ROBEntry.uncompleted_finishAt (e : ROBEntry) (i : Nat) (r : Word) :
    (ReOrderBuffer.finishAt i r e).uncompleted = e.uncompleted := by
  rw [ReOrderBuffer.finishAt]
  split <;> rfl

/-! ## Steps -/

/-- The structures recovery works on, with the instructions renamed since the checkpoint that
    have not entered the reorder buffer, and those committed since, oldest first. -/
structure Speculation (cfg : Config) where
  unit : BranchRecoveryUnit cfg
  waiting : List RenameBundle := []
  committed : List ROBEntry := []

namespace Speculation

/-- The rename unit over the alias table and the free list. -/
def renameUnit (s : Speculation cfg) (prf : PhysicalRegisterFile cfg.prfCount) (stalled : Bool) :
    RenameUnit cfg.prfCount :=
  { rat := s.unit.rat, freeList := s.unit.freeList, prf := prf, stalled := stalled }

/-- `rename(input)`. -/
def rename (s : Speculation cfg) (prf : PhysicalRegisterFile cfg.prfCount) (stalled : Bool)
    (input : DecodeBundle) : Speculation cfg :=
  let (output, u) := (s.renameUnit prf stalled).renameOne input
  { s with
    unit := { s.unit with rat := u.rat, freeList := u.freeList }
    waiting := s.waiting ++ RenameBench.kept output }

/-- The commit unit over the reorder buffer, the alias table and the free list. -/
def commitUnit (s : Speculation cfg) (u : CommitUnit cfg) (rob : ReOrderBuffer cfg.robCapacity) :
    CommitUnit cfg :=
  { u with rob := rob, freeList := s.unit.freeList, rat := s.unit.rat }

/-- One event between the checkpoint of the branch in slot `branchIndex` and its recovery; the
    other structures the functions use are arbitrary.  A renamed instruction that dispatch
    refuses stays where it is. -/
inductive Step (branchIndex : Nat) (s : Speculation cfg) : Speculation cfg → Prop
  | rename (prf : PhysicalRegisterFile cfg.prfCount) (stalled : Bool) (input : DecodeBundle) :
      Step branchIndex s (s.rename prf stalled input)
  | checkpoint :
      Step branchIndex s { s with unit := { s.unit with rat := s.unit.rat.checkpoint.2 } }
  | dispatch (pre : List RenameBundle) (bundle : RenameBundle) (post : List RenameBundle)
      (prf : PhysicalRegisterFile cfg.prfCount) (checkpoint : Option Checkpoint) (robIndex : Nat)
      (u : DispatchUnit cfg) (hwaiting : s.waiting = pre ++ bundle :: post)
      (hdispatch : DispatchUnit.dispatch
        { rob := s.unit.rob, issueQueue := s.unit.issueQueue, prf := prf } bundle checkpoint =
          some (robIndex, u)) :
      Step branchIndex s
        { s with
          unit := { s.unit with rob := u.rob, issueQueue := u.issueQueue }
          waiting := pre ++ post }
  | wakeup (p : PhysicalRegister) (value : Word) :
      Step branchIndex s
        { s with unit := { s.unit with issueQueue := s.unit.issueQueue.wakeup p value } }
  | issue (index : Nat) :
      Step branchIndex s
        { s with unit := { s.unit with issueQueue := s.unit.issueQueue.remove index } }
  /-- An instruction completes once it has issued. -/
  | complete (robIndex : Nat) (result : Word)
      (hissued : ∀ q ∈ s.unit.issueQueue.live, q.robIndex ≠ robIndex) :
      Step branchIndex s
        { s with unit := { s.unit with rob := s.unit.rob.complete robIndex result } }
  /-- The oldest instruction commits, unless it is the branch. -/
  | commit (u : CommitUnit cfg) (entry : ROBEntry) (rob : ReOrderBuffer cfg.robCapacity)
      (hcommit : s.unit.rob.commit = some (entry, rob)) (holder : entry.robIndex ≠ branchIndex) :
      Step branchIndex s
        { s with
          unit :=
            { s.unit with
              rob := rob
              freeList := (CommitUnit.retire (s.commitUnit u rob) entry).freeList
              rat := (CommitUnit.retire (s.commitUnit u rob) entry).rat }
          committed := s.committed ++ [entry] }

/-! ## What a step keeps -/

/-- Renaming takes the destination of its output, if any, from the free list. -/
theorem renameOne_takes {n : Nat} (u : RenameUnit n) (input : DecodeBundle)
    (hfree : INVALID_REGISTER ∉ u.freeList.freeRegisters) :
    u.freeList.freeRegisters =
      names RenameBundle.dst (RenameBench.kept (u.renameOne input).1) ++
        (u.renameOne input).2.freeList.freeRegisters := by
  by_cases hroom : input.valid = true → input.registerWrite = true → 0 < u.freeList.size
  · have hren := RenameUnit.renameOne_renames hroom hfree
    rw [RenameBench.kept, hren.valid]
    cases hv : input.valid with
    | true => exact hren.freeList_eq
    | false =>
        rw [RenameUnit.renameOne, hv]
        rfl
  · -- a writer without a register is refused, and takes none
    push Not at hroom
    obtain ⟨hv, hw, hsize⟩ := hroom
    have hnil : u.freeList.freeRegisters = [] := List.eq_nil_of_length_eq_zero (by
      rw [PhysicalRegisterFreeList.size] at hsize
      omega)
    simp [RenameUnit.renameOne, hv, hw, PhysicalRegisterFreeList.allocate, hnil,
      RenameBench.kept]

theorem valid_of_kept {o out : RenameBundle} (ho : o ∈ RenameBench.kept out) : o.valid = true := by
  rw [RenameBench.kept] at ho
  split at ho
  · next hv =>
      rw [List.mem_singleton.mp ho]
      exact hv
  · cases ho

/-- The speculation since `s₀`, whose youngest instruction was the branch `b₀`: the window is
    what is left of the one then, up to the branch, and the younger instructions; their
    destinations and those of the waiting ones are missing from the free list, and the
    registers released by the commits have been added. -/
structure Since (s₀ : Speculation cfg) (b₀ : ROBEntry) (s : Speculation cfg)
    (older : List ROBEntry) (b : ROBEntry) (younger : List ROBEntry) : Prop where
  coherent : s.unit.Coherent
  window : s.unit.rob.window = older ++ b :: younger
  branch : b.uncompleted = b₀.uncompleted
  survivors : (s.committed ++ older ++ [b]).map ROBEntry.uncompleted =
    s₀.unit.rob.window.map ROBEntry.uncompleted
  valid : ∀ o ∈ s.waiting, o.valid = true
  registers :
    (s.unit.freeList.freeRegisters : Multiset PhysicalRegister) +
        names ROBEntry.dst younger + names RenameBundle.dst s.waiting =
      s₀.unit.freeList.freeRegisters + CommitUnit.released s.committed

namespace Since

variable {s₀ s : Speculation cfg} {b₀ b : ROBEntry} {older younger : List ROBEntry}

/-- The branch stays in its slot, with its checkpoint. -/
theorem robIndex_eq (h : Since s₀ b₀ s older b younger) : b.robIndex = b₀.robIndex := by
  have hindex : b.uncompleted.robIndex = b₀.uncompleted.robIndex := by rw [h.branch]
  exact hindex

theorem checkpoint_eq (h : Since s₀ b₀ s older b younger) :
    b.hasCheckpoint = b₀.hasCheckpoint ∧ b.checkpoint = b₀.checkpoint := by
  have hhas : b.uncompleted.hasCheckpoint = b₀.uncompleted.hasCheckpoint := by rw [h.branch]
  have hcp : b.uncompleted.checkpoint = b₀.uncompleted.checkpoint := by rw [h.branch]
  exact ⟨hhas, hcp⟩

theorem rename (h : Since s₀ b₀ s older b younger) (prf : PhysicalRegisterFile cfg.prfCount)
    (stalled : Bool) (input : DecodeBundle) :
    Since s₀ b₀ (s.rename prf stalled input) older b younger := by
  have htakes := renameOne_takes (s.renameUnit prf stalled) input h.coherent.sentinel
  have hsentinel : INVALID_REGISTER ∉
      ((s.renameUnit prf stalled).renameOne input).2.freeList.freeRegisters := by
    intro hin
    apply h.coherent.sentinel
    show INVALID_REGISTER ∈ (s.renameUnit prf stalled).freeList.freeRegisters
    rw [htakes]
    exact List.mem_append_right _ hin
  refine ⟨⟨h.coherent.rob_wf, h.coherent.iq_wf, h.coherent.unique, h.coherent.backed, hsentinel⟩,
    h.window, h.branch, h.survivors, ?_, ?_⟩
  · intro o ho
    rcases List.mem_append.mp ho with hold | hnew
    · exact h.valid o hold
    · exact valid_of_kept hnew
  · have hregs := h.registers
    change s.unit.freeList.freeRegisters = _ at htakes
    rw [htakes] at hregs
    refine Eq.trans ?_ hregs
    show (((s.renameUnit prf stalled).renameOne input).2.freeList.freeRegisters :
        Multiset PhysicalRegister) + _ + (names RenameBundle.dst
          (s.waiting ++ RenameBench.kept ((s.renameUnit prf stalled).renameOne input).1) :
            Multiset PhysicalRegister) = _
    rw [names_append, ← Multiset.coe_add, ← Multiset.coe_add]
    ac_rfl

theorem dispatch (h : Since s₀ b₀ s older b younger) {pre post : List RenameBundle}
    {bundle : RenameBundle} {prf : PhysicalRegisterFile cfg.prfCount} {cp : Option Checkpoint}
    {i : Nat} {d : DispatchUnit cfg} (hwaiting : s.waiting = pre ++ bundle :: post)
    (hdispatch : DispatchUnit.dispatch
      { rob := s.unit.rob, issueQueue := s.unit.issueQueue, prf := prf } bundle cp = some (i, d)) :
    Since s₀ b₀
      { s with
        unit := { s.unit with rob := d.rob, issueQueue := d.issueQueue }
        waiting := pre ++ post }
      older b (younger ++ [ReOrderBuffer.makeEntry bundle i cp]) := by
  have hv : bundle.valid = true := h.valid bundle (by rw [hwaiting]; simp)
  obtain ⟨hcoherent, hwin⟩ := h.coherent.dispatch hv hdispatch
  refine ⟨hcoherent, ?_, h.branch, h.survivors, ?_, ?_⟩
  · show d.rob.window = _
    rw [hwin, h.window]
    simp
  · intro o ho
    apply h.valid o
    rw [hwaiting]
    rcases List.mem_append.mp ho with hpre | hpost
    · exact List.mem_append_left _ hpre
    · exact List.mem_append_right _ (List.mem_cons_of_mem _ hpost)
  · -- the destination moves from the waiting instruction to its entry
    have hdst : names ROBEntry.dst [ReOrderBuffer.makeEntry bundle i cp] =
        names RenameBundle.dst [bundle] :=
      names_singleton (congrArg Prod.fst (ROBEntry.key_makeEntry hv i cp))
    have hregs := h.registers
    rw [hwaiting, show pre ++ bundle :: post = pre ++ ([bundle] ++ post) from rfl, names_append,
      names_append, ← Multiset.coe_add, ← Multiset.coe_add] at hregs
    rw [← hregs, names_append, hdst, names_append, ← Multiset.coe_add, ← Multiset.coe_add]
    ac_rfl

theorem complete (h : Since s₀ b₀ s older b younger) {i : Nat} (r : Word)
    (hissued : ∀ q ∈ s.unit.issueQueue.live, q.robIndex ≠ i) :
    Since s₀ b₀ { s with unit := { s.unit with rob := s.unit.rob.complete i r } }
      (older.map (ReOrderBuffer.finishAt i r)) (ReOrderBuffer.finishAt i r b)
      (younger.map (ReOrderBuffer.finishAt i r)) := by
  have hmap : ∀ es : List ROBEntry, (es.map (ReOrderBuffer.finishAt i r)).map
      ROBEntry.uncompleted = es.map ROBEntry.uncompleted := by
    intro es
    rw [List.map_map]
    exact List.map_congr_left fun e _ => e.uncompleted_finishAt i r
  refine ⟨h.coherent.complete r hissued, ?_, ?_, ?_, h.valid, ?_⟩
  · show (s.unit.rob.complete i r).window = _
    rw [(h.coherent.rob_wf.complete i r).2, h.window, List.map_append, List.map_cons]
  · rw [ROBEntry.uncompleted_finishAt, h.branch]
  · have hsurvivors := h.survivors
    rw [List.map_append, List.map_append, List.map_singleton] at hsurvivors
    rw [List.map_append, List.map_append, hmap, List.map_singleton, ROBEntry.uncompleted_finishAt]
    exact hsurvivors
  · rw [names_map fun e _ => e.dst_finishAt i r]
    exact h.registers

theorem commit (h : Since s₀ b₀ s older b younger) {entry : ROBEntry}
    {rob : ReOrderBuffer cfg.robCapacity} (u : CommitUnit cfg)
    (hcommit : s.unit.rob.commit = some (entry, rob)) (hother : entry.robIndex ≠ b.robIndex) :
    ∃ rest, older = entry :: rest ∧
      Since s₀ b₀
        { s with
          unit :=
            { s.unit with
              rob := rob
              freeList := (CommitUnit.retire (s.commitUnit u rob) entry).freeList
              rat := (CommitUnit.retire (s.commitUnit u rob) entry).rat }
          committed := s.committed ++ [entry] }
        rest b younger := by
  have hwin := (h.coherent.rob_wf.commit hcommit).2.1
  rw [h.window] at hwin
  cases older with
  | nil =>
      -- the branch itself does not commit
      rw [List.nil_append, List.cons.injEq] at hwin
      rw [hwin.1] at hother
      exact absurd rfl hother
  | cons e rest =>
      rw [List.cons_append, List.cons.injEq] at hwin
      obtain ⟨rfl, hrest⟩ := hwin
      have hfree : (CommitUnit.retire (s.commitUnit u rob) e).freeList.freeRegisters =
          s.unit.freeList.freeRegisters ++ CommitUnit.released [e] :=
        CommitUnit.retireAll_freeRegisters (s.commitUnit u rob) [e]
      refine ⟨rest, rfl, h.coherent.commit hcommit ?_, hrest.symm, h.branch, ?_, h.valid, ?_⟩
      · rw [hfree]
        intro hin
        rcases List.mem_append.mp hin with hold | hnew
        · exact h.coherent.sentinel hold
        · exact CommitUnit.invalid_not_released [e] hnew
      · have hsurvivors := h.survivors
        rw [List.append_assoc, List.cons_append] at hsurvivors
        rw [List.append_assoc, List.append_assoc]
        exact hsurvivors
      · have hregs := h.registers
        show ((CommitUnit.retire (s.commitUnit u rob) e).freeList.freeRegisters :
          Multiset PhysicalRegister) + _ + _ = _ + (CommitUnit.released (s.committed ++ [e]) :
            Multiset PhysicalRegister)
        rw [hfree, CommitUnit.released_append, ← Multiset.coe_add, ← Multiset.coe_add]
        rw [← add_assoc, ← hregs]
        ac_rfl

end Since

/-- One step, whatever it is. -/
theorem Step.since {s₀ s s' : Speculation cfg} {b₀ b : ROBEntry} {older younger : List ROBEntry}
    (h : Since s₀ b₀ s older b younger) (hs : Step b₀.robIndex s s') :
    ∃ older' b' younger', Since s₀ b₀ s' older' b' younger' := by
  -- one case per action; only rename, dispatch and commit change what is accounted for
  cases hs with
  | rename prf stalled input => exact ⟨_, _, _, h.rename prf stalled input⟩
  | checkpoint =>
      exact ⟨older, b, younger, ⟨h.coherent.rob_wf, h.coherent.iq_wf, h.coherent.unique,
        h.coherent.backed, h.coherent.sentinel⟩, h.window, h.branch, h.survivors, h.valid,
        h.registers⟩
  | dispatch pre bundle post prf cp i d hwaiting hdispatch =>
      exact ⟨_, _, _, h.dispatch hwaiting hdispatch⟩
  | wakeup p value =>
      exact ⟨older, b, younger, h.coherent.wakeup p value, h.window, h.branch, h.survivors,
        h.valid, h.registers⟩
  | issue i =>
      exact ⟨older, b, younger, h.coherent.issue i, h.window, h.branch, h.survivors, h.valid,
        h.registers⟩
  | complete i r hissued => exact ⟨_, _, _, h.complete r hissued⟩
  | commit u entry rob hcommit hother =>
      obtain ⟨rest, -, hsince⟩ := h.commit u hcommit (by rw [h.robIndex_eq]; exact hother)
      exact ⟨rest, b, younger, hsince⟩

/-! ## The checkpoint -/

/-- The branch `b₀` is the youngest instruction of the window, nothing behind it has been
    renamed, and its checkpoint is the present mapping. -/
structure Checkpointed (s₀ : Speculation cfg) (b₀ : ROBEntry) : Prop where
  coherent : s₀.unit.Coherent
  youngest : ∃ older, s₀.unit.rob.window = older ++ [b₀]
  hasCheckpoint : b₀.hasCheckpoint = true
  checkpoint : b₀.checkpoint = { mappings := s₀.unit.rat.table, valid := true }
  waiting : s₀.waiting = []
  committed : s₀.committed = []

/-- A branch dispatched with the checkpoint of the present mapping. -/
theorem Checkpointed.of_dispatch {u : BranchRecoveryUnit cfg} (h : u.Coherent)
    {prf : PhysicalRegisterFile cfg.prfCount} {bundle : RenameBundle} {i : Nat}
    {d : DispatchUnit cfg} (hv : bundle.valid = true) (hbranch : bundle.controlFlow = .BRANCH)
    (hdispatch : DispatchUnit.dispatch
      { rob := u.rob, issueQueue := u.issueQueue, prf := prf } bundle
        (some u.rat.checkpoint.1) = some (i, d)) :
    Checkpointed
      { unit := { u with rob := d.rob, issueQueue := d.issueQueue, rat := u.rat.checkpoint.2 } }
      (ReOrderBuffer.makeEntry bundle i (some u.rat.checkpoint.1)) := by
  obtain ⟨hcoherent, hwin⟩ := h.dispatch hv hdispatch
  refine ⟨⟨hcoherent.rob_wf, hcoherent.iq_wf, hcoherent.unique, hcoherent.backed,
    hcoherent.sentinel⟩, ⟨_, hwin⟩, ?_, ?_, rfl, rfl⟩
  · rw [ReOrderBuffer.makeEntry, hbranch]
    rfl
  · rw [ReOrderBuffer.makeEntry, hbranch]
    rfl

/-- Nothing has happened yet. -/
theorem Checkpointed.since {s₀ : Speculation cfg} {b₀ : ROBEntry} (h : Checkpointed s₀ b₀) :
    ∃ older, Since s₀ b₀ s₀ older b₀ [] := by
  obtain ⟨older, hwin⟩ := h.youngest
  refine ⟨older, h.coherent, hwin, rfl, ?_, ?_, ?_⟩
  · rw [h.committed, hwin]
    rfl
  · rw [h.waiting]
    simp
  · rw [h.waiting, h.committed]
    simp [CommitUnit.released]

/-- A run of steps. -/
theorem Checkpointed.run {s₀ s : Speculation cfg} {b₀ : ROBEntry} (h : Checkpointed s₀ b₀)
    (hrun : Relation.ReflTransGen (Step b₀.robIndex) s₀ s) :
    ∃ older b younger, Since s₀ b₀ s older b younger := by
  induction hrun with
  | refl =>
      obtain ⟨older, hsince⟩ := h.since
      exact ⟨older, b₀, [], hsince⟩
  | tail _ hstep ih =>
      obtain ⟨older, b, younger, hsince⟩ := ih
      exact hstep.since hsince

/-! ## Recovery -/

/-- Recovery has taken back everything since the checkpoint but the commits. -/
structure Undone (s₀ s : Speculation cfg) (result : BranchResult) : Prop where
  recovers : (s.unit.recover result).1 = true
  table : (s.unit.recover result).2.rat.table = s₀.unit.rat.table
  freeList :
    ((s.unit.recover result).2.freeList.freeRegisters : Multiset PhysicalRegister) =
      s₀.unit.freeList.freeRegisters + CommitUnit.released s.committed
  /-- The window is the part of the one before up to the branch, and this part what is left of
      the one at the checkpoint. -/
  rob : ∃ older b younger,
    s.unit.rob.window = older ++ b :: younger ∧
      (s.unit.recover result).2.rob.window = older ++ [b] ∧ b.robIndex = result.robIndex ∧
        (s.committed ++ older ++ [b]).map ROBEntry.uncompleted =
          s₀.unit.rob.window.map ROBEntry.uncompleted
  issueQueue :
    (s.unit.recover result).2.issueQueue.live =
      s.unit.issueQueue.live.filter fun q =>
        (s.unit.recover result).2.rob.window.any fun e => e.robIndex == q.robIndex
  coherent : (s.unit.recover result).2.Coherent
  control : s.unit.control result =
    { recover := true, fetchRedirect := true, redirectPc := result.redirectPc,
      fetchDecodeFlush := true }

/-- No younger instruction was given the sentinel. -/
theorem Since.physicalRd_ne {s₀ s : Speculation cfg} {b₀ b : ROBEntry}
    {older younger : List ROBEntry} (h : Since s₀ b₀ s older b younger)
    (hfree : INVALID_REGISTER ∉ s₀.unit.freeList.freeRegisters) {e : ROBEntry} (he : e ∈ younger)
    (hw : e.registerWrite = true) : e.physicalRd ≠ INVALID_REGISTER := by
  intro hinvalid
  have hname : INVALID_REGISTER ∈ names ROBEntry.dst younger := by
    rw [← hinvalid]
    refine mem_names.mpr ⟨e, he, e.architecturalRd, ?_⟩
    rw [ROBEntry.dst, if_pos hw]
  have hin : INVALID_REGISTER ∈ (s.unit.freeList.freeRegisters : Multiset PhysicalRegister) +
      names ROBEntry.dst younger + names RenameBundle.dst s.waiting := by
    rw [Multiset.mem_add, Multiset.mem_add]
    exact Or.inl (Or.inr hname)
  rw [h.registers, Multiset.mem_add] at hin
  rcases hin with hstart | hreleased
  · exact hfree hstart
  · exact CommitUnit.invalid_not_released s.committed hreleased

/-- What recovery does with the branch's misprediction. -/
theorem Since.recover {s₀ s : Speculation cfg} {b₀ b : ROBEntry} {older younger : List ROBEntry}
    (h : Since s₀ b₀ s older b younger) (h₀ : Checkpointed s₀ b₀) {result : BranchResult}
    (hv : result.valid = true) (hm : result.mispredicted = true)
    (hi : result.robIndex = b₀.robIndex) :
    ∃ rob : ReOrderBuffer cfg.robCapacity,
      s.unit.recover result =
        (true,
          { rob := rob
            rat := { s.unit.rat with table := s₀.unit.rat.table }
            freeList := SuperScalarCPU.releaseSquashed s.unit.freeList younger
            issueQueue := s.unit.issueQueue.squash (younger.map ROBEntry.robIndex) }) ∧
        rob.WF ∧ rob.window = older ++ [b] := by
  obtain ⟨rob, hsquash, hwf, hwin⟩ := h.coherent.rob_wf.squashYoungerThan h.window
  have hmem : b ∈ s.unit.rob.window := by
    rw [h.window]
    simp
  have hindex : result.robIndex = b.robIndex := hi.trans h.robIndex_eq.symm
  have hentry : s.unit.rob.entry result.robIndex = some b := by
    rw [ReOrderBuffer.entry, hindex,
      if_neg (Nat.not_le.mpr (h.coherent.rob_wf.robIndex_lt hmem)),
      h.coherent.rob_wf.entries_robIndex hmem]
  -- the branch still carries the map it was given
  obtain ⟨hhas, hcp⟩ := h.checkpoint_eq
  rw [h₀.hasCheckpoint] at hhas
  rw [h₀.checkpoint] at hcp
  rw [← hindex] at hsquash
  refine ⟨rob, ?_, hwf, hwin⟩
  rw [SuperScalarCPU.recover_eq hv hm hentry (h.coherent.rob_wf.valid_of_mem hmem) hhas
    (by rw [hcp]) hsquash, hcp]

/-- Recovery leaves the free list short of the registers of the waiting instructions. -/
theorem Since.recovered_registers {s₀ s : Speculation cfg} {b₀ b : ROBEntry}
    {older younger : List ROBEntry} (h : Since s₀ b₀ s older b younger)
    (hfree : INVALID_REGISTER ∉ s₀.unit.freeList.freeRegisters) :
    ((SuperScalarCPU.releaseSquashed s.unit.freeList younger).freeRegisters :
        Multiset PhysicalRegister) + names RenameBundle.dst s.waiting =
      s₀.unit.freeList.freeRegisters + CommitUnit.released s.committed := by
  rw [SuperScalarCPU.Renaming.releaseSquashed_freeList fun e he hw => h.physicalRd_ne hfree he hw,
    ← Multiset.coe_add, Multiset.coe_reverse, ← h.registers]
  ac_rfl

/-- The queue keeps the entries of what is left in the window. -/
theorem Since.queue_kept {s₀ s : Speculation cfg} {b₀ b : ROBEntry} {older younger : List ROBEntry}
    (h : Since s₀ b₀ s older b younger) :
    (s.unit.issueQueue.squash (younger.map ROBEntry.robIndex)).live =
      s.unit.issueQueue.live.filter fun q =>
        (older ++ [b]).any fun e => e.robIndex == q.robIndex := by
  rw [IssueQueue.live_squash]
  apply List.filter_congr
  intro q hq
  -- a queued instruction stands in the window, in front of the branch or behind it
  obtain ⟨e, he, -, hmatch⟩ := h.coherent.backed q hq
  have hnodup := h.coherent.rob_wf.nodup_robIndex
  have hwin : s.unit.rob.window = (older ++ [b]) ++ younger := by
    rw [h.window]
    simp
  rw [hwin, List.map_append, List.nodup_append] at hnodup
  rw [hwin] at he
  rcases List.mem_append.mp he with hkept | hgone
  · have hnot : q.robIndex ∉ younger.map ROBEntry.robIndex := by
      intro hin
      rw [hmatch.robIndex] at hin
      exact hnodup.2.2 _ (List.mem_map_of_mem hkept) _ hin rfl
    have hany : ((older ++ [b]).any fun e => e.robIndex == q.robIndex) = true :=
      List.any_eq_true.mpr ⟨e, hkept, beq_iff_eq.mpr hmatch.robIndex.symm⟩
    rw [hany, Bool.not_eq_true', List.contains_eq_mem, decide_eq_false_iff_not]
    exact hnot
  · have hin : q.robIndex ∈ younger.map ROBEntry.robIndex := by
      rw [hmatch.robIndex]
      exact List.mem_map_of_mem hgone
    have hany : ((older ++ [b]).any fun e => e.robIndex == q.robIndex) = false := by
      rw [List.any_eq_false]
      intro e' he' heq
      exact hnodup.2.2 _ (List.mem_map_of_mem he') _ hin (beq_iff_eq.mp heq)
    rw [hany, Bool.not_eq_false', List.contains_eq_mem, decide_eq_true_eq]
    exact hin

/-- What is left is coherent. -/
theorem Since.recovered_coherent {s₀ s : Speculation cfg} {b₀ b : ROBEntry}
    {older younger : List ROBEntry} (h : Since s₀ b₀ s older b younger)
    (hfree : INVALID_REGISTER ∉ s₀.unit.freeList.freeRegisters)
    {rob : ReOrderBuffer cfg.robCapacity} (hwf : rob.WF) (hwin : rob.window = older ++ [b])
    (rat : RegisterAliasTable) :
    ({ rob := rob
       rat := rat
       freeList := SuperScalarCPU.releaseSquashed s.unit.freeList younger
       issueQueue := s.unit.issueQueue.squash (younger.map ROBEntry.robIndex) } :
      BranchRecoveryUnit cfg).Coherent := by
  have hkept := h.queue_kept
  refine ⟨hwf, h.coherent.iq_wf.squash _, ?_, ?_, ?_⟩
  · show ((s.unit.issueQueue.squash _).live.map IssueQueueEntry.robIndex).Nodup
    rw [hkept]
    exact (List.filter_sublist.map _).nodup h.coherent.unique
  · intro q hq
    change q ∈ (s.unit.issueQueue.squash _).live at hq
    rw [hkept, List.mem_filter] at hq
    obtain ⟨hlive, hany⟩ := hq
    obtain ⟨e, he, hindex⟩ := List.any_eq_true.mp hany
    obtain ⟨e', he', hc, hmatch⟩ := h.coherent.backed q hlive
    -- the entry that backs it is the one in its slot
    have hin : e ∈ s.unit.rob.window := by
      rw [h.window, show older ++ b :: younger = (older ++ [b]) ++ younger by simp]
      exact List.mem_append_left _ he
    have hsame : e' = e := h.coherent.rob_wf.eq_of_robIndex he' hin
      (hmatch.robIndex.symm.trans (beq_iff_eq.mp hindex).symm)
    subst hsame
    exact ⟨e', by rw [hwin]; exact he, hc, hmatch⟩
  · intro hin
    have hregs := h.recovered_registers hfree
    have hmem : INVALID_REGISTER ∈
        ((SuperScalarCPU.releaseSquashed s.unit.freeList younger).freeRegisters :
          Multiset PhysicalRegister) + names RenameBundle.dst s.waiting :=
      Multiset.mem_add.mpr (Or.inl hin)
    rw [hregs, Multiset.mem_add] at hmem
    rcases hmem with hstart | hreleased
    · exact hfree hstart
    · exact CommitUnit.invalid_not_released s.committed hreleased

/-- Waiting instructions hold no register when none of them writes one. -/
theorem Since.waiting_names {s₀ s : Speculation cfg} {b₀ b : ROBEntry}
    {older younger : List ROBEntry} (h : Since s₀ b₀ s older b younger) :
    names RenameBundle.dst s.waiting = [] ↔ ∀ o ∈ s.waiting, o.registerWrite = false := by
  have hdst : ∀ o ∈ s.waiting, (o.dst = none ↔ o.registerWrite = false) := by
    intro o ho
    rw [RenameBundle.dst, h.valid o ho, Bool.true_and]
    cases o.registerWrite <;> simp
  rw [names, List.filterMap_eq_nil_iff]
  constructor
  · intro hnone o ho
    exact (hdst o ho).mp (Option.map_eq_none_iff.mp (hnone o ho))
  · intro hno o ho
    exact Option.map_eq_none_iff.mpr ((hdst o ho).mpr (hno o ho))

/-- Where recovery does not take place, nothing changes. -/
theorem recover_false {u : BranchRecoveryUnit cfg} {result : BranchResult}
    (h : (u.recover result).1 = false) : (u.recover result).2 = u := by
  revert h
  rw [BranchRecoveryUnit.recover]
  split
  · exact fun _ => rfl
  split
  · exact fun _ => rfl
  split
  · exact fun _ => rfl
  split
  · exact fun _ => rfl
  split
  · exact fun _ => rfl
  split
  · exact fun _ => rfl
  · intro h
    cases h

/-- Recovery undoes the speculation behind a checkpoint exactly when every instruction renamed
    since with a destination has reached the reorder buffer; and a recovery that does not take
    place leaves everything as it is. -/
theorem recover_undoes_iff {s₀ s : Speculation cfg} {b₀ : ROBEntry} (h₀ : Checkpointed s₀ b₀)
    (hrun : Relation.ReflTransGen (Step b₀.robIndex) s₀ s) :
    (∀ result : BranchResult, result.valid = true → result.mispredicted = true →
        result.robIndex = b₀.robIndex →
          (Undone s₀ s result ↔ ∀ o ∈ s.waiting, o.registerWrite = false)) ∧
      ∀ result : BranchResult, (s.unit.recover result).1 = false →
        (s.unit.recover result).2 = s.unit := by
  obtain ⟨older, b, younger, h⟩ := h₀.run hrun
  refine ⟨?_, fun result => recover_false⟩
  intro result hv hm hi
  obtain ⟨rob, hrecover, hwf, hwin⟩ := h.recover h₀ hv hm hi
  have hregs := h.recovered_registers h₀.coherent.sentinel
  rw [← h.waiting_names]
  constructor
  · intro hundone
    -- the registers of the waiting instructions are missing
    have hfree := hundone.freeList
    rw [hrecover, ← hregs] at hfree
    have hzero : (names RenameBundle.dst s.waiting : Multiset PhysicalRegister) = 0 :=
      left_eq_add.mp hfree
    exact (Multiset.coe_eq_zero _).mp hzero
  · intro hnone
    rw [hnone, Multiset.coe_nil, add_zero] at hregs
    constructor
    · rw [hrecover]
    · rw [hrecover]
    · rw [hrecover]
      exact hregs
    · refine ⟨older, b, younger, h.window, ?_, h.robIndex_eq.trans hi.symm, h.survivors⟩
      rw [hrecover]
      exact hwin
    · rw [hrecover]
      show (s.unit.issueQueue.squash _).live = s.unit.issueQueue.live.filter fun q =>
        rob.window.any _
      rw [hwin]
      exact h.queue_kept
    · rw [hrecover]
      exact h.recovered_coherent h₀.coherent.sentinel hwf hwin _
    · rw [BranchRecoveryUnit.control, hrecover]
      rfl

/-- A predicted branch in slot `n`, behind `n` instructions that have issued. -/
def branchBehind (n : Nat) : Speculation .default where
  unit :=
    { rob :=
        { entries := fun i =>
            if i < n then { valid := true, robIndex := i }
            else if i = n then
              { valid := true, robIndex := n, opcode := .BEQ, branch := true, hasCheckpoint := true
                checkpoint := { mappings := RegisterAliasTable.resetTable, valid := true } }
            else {}
          tail := (n + 1) % 16
          count := n + 1 }
      rat := .init 64
      freeList := .reset
      issueQueue := .reset }

theorem branchBehind_checkpointed {n : Nat} (hn : n < 16) :
    Checkpointed (branchBehind n) ((branchBehind n).unit.rob.entries n) := by
  -- the ring starts at 0, so a position is its slot
  have hslot : ∀ j < n + 1, Lib.Ring.slot 16 0 j = j := by
    intro j hj
    rw [Lib.Ring.slot]
    omega
  have hmem : ∀ i, i ∈ (branchBehind n).unit.rob.liveSlots ↔ i < n + 1 := by
    intro i
    refine Lib.Ring.mem_slots.trans ?_
    constructor
    · rintro ⟨j, hj, rfl⟩
      show Lib.Ring.slot 16 0 j < _
      rw [hslot j hj]
      exact hj
    · intro hi
      exact ⟨i, hi, hslot i hi⟩
  have hentry : (branchBehind n).unit.rob.entries n =
      { valid := true, robIndex := n, opcode := .BEQ, branch := true, hasCheckpoint := true
        checkpoint := { mappings := RegisterAliasTable.resetTable, valid := true } } := by
    simp [branchBehind]
  have hwf : (branchBehind n).unit.rob.WF := by
    refine ⟨Nat.zero_lt_succ 15, Nat.succ_le_of_lt hn, ?_, ?_, ?_⟩
    · show (n + 1) % 16 = Lib.Ring.slot 16 0 (n + 1)
      rw [Lib.Ring.slot, Nat.zero_add]
    · intro i hi
      rcases Nat.lt_or_eq_of_le (Nat.le_of_lt_succ ((hmem i).mp hi)) with hlt | rfl
      · simp [branchBehind, hlt]
      · rw [hentry]
        exact ⟨rfl, rfl⟩
    · intro i _ hno
      have hge : n < i := by
        rw [hmem] at hno
        omega
      simp [branchBehind, Nat.lt_asymm hge, Nat.ne_of_gt hge]
  have hsentinel : INVALID_REGISTER ∉ PhysicalRegisterFreeList.reset.freeRegisters := by decide
  -- the queue is empty, so only the window and the branch are left to check
  refine ⟨⟨hwf, IssueQueue.wf_reset, ?_, ?_, hsentinel⟩, ?_, ?_, ?_, rfl, rfl⟩
  · show ((IssueQueue.reset : IssueQueue Config.default.iqCapacity).live.map _).Nodup
    rw [IssueQueue.live_reset]
    exact List.nodup_nil
  · intro q hq
    change q ∈ (IssueQueue.reset : IssueQueue Config.default.iqCapacity).live at hq
    rw [IssueQueue.live_reset] at hq
    cases hq
  · refine ⟨(Lib.Ring.slots 16 0 n).map (branchBehind n).unit.rob.entries, ?_⟩
    show (Lib.Ring.slots 16 0 (n + 1)).map (branchBehind n).unit.rob.entries = _
    rw [Lib.Ring.slots_succ, List.map_append, hslot n (Nat.lt_succ_self n)]
    rfl
  · rw [hentry]
  · rw [hentry]
    rfl

/-- A misprediction of the branch in slot `n`. -/
def mispredictedAt (n : Nat) : BranchResult :=
  { valid := true, mispredicted := true, robIndex := n, redirectPc := 100 }

/-- `dispatch` of the oldest waiting instruction, which stays when it is refused. -/
def dispatchOldest (s : Speculation cfg) (prf : PhysicalRegisterFile cfg.prfCount)
    (checkpoint : Option Checkpoint) : Speculation cfg :=
  match s.waiting with
  | [] => s
  | bundle :: rest =>
    match DispatchUnit.dispatch
        { rob := s.unit.rob, issueQueue := s.unit.issueQueue, prf := prf } bundle checkpoint with
    | none => s
    | some (_, u) =>
      { s with
        unit := { s.unit with rob := u.rob, issueQueue := u.issueQueue }
        waiting := rest }

theorem run_dispatchOldest (i : Nat) (s : Speculation cfg) (prf : PhysicalRegisterFile cfg.prfCount)
    (cp : Option Checkpoint) : Relation.ReflTransGen (Step i) s (s.dispatchOldest prf cp) := by
  rw [dispatchOldest]
  split
  · exact Relation.ReflTransGen.refl
  · next bundle rest hwaiting =>
      split
      · exact Relation.ReflTransGen.refl
      · next d hdispatch =>
          exact Relation.ReflTransGen.single
            (Step.dispatch [] bundle rest prf cp _ d hwaiting hdispatch)

/-- `LI r1, 1` renamed behind the branch in slot `n`, and presented to dispatch. -/
def loadBehind (n : Nat) : Speculation .default :=
  ((branchBehind n).rename {} false (decodeWord 0 0x1C400001)).dispatchOldest {} none

theorem run_loadBehind (n i : Nat) :
    Relation.ReflTransGen (Step i) (branchBehind n) (loadBehind n) :=
  Relation.ReflTransGen.trans
    (Relation.ReflTransGen.single (Step.rename {} false (decodeWord 0 0x1C400001)))
    (run_dispatchOldest i _ {} none)

/-- With room in the window, recovery takes it back. -/
theorem recover_undoes_iff_room :
    (loadBehind 0).unit.rob.count = 2 ∧
      Undone (branchBehind 0) (loadBehind 0) (mispredictedAt 0) := by
  refine ⟨by decide +kernel, ?_⟩
  apply ((recover_undoes_iff (branchBehind_checkpointed (by decide)) (run_loadBehind 0 _)).1
    (mispredictedAt 0) rfl rfl rfl).mpr
  decide +kernel

/-- With a full window dispatch refuses it, and its register is lost. -/
theorem refused_load_not_undone :
    (loadBehind 15).unit.rob.full = true ∧
      ((loadBehind 15).unit.recover (mispredictedAt 15)).1 = true ∧
        16 ∈ (branchBehind 15).unit.freeList.freeRegisters ∧
          16 ∉ ((loadBehind 15).unit.recover (mispredictedAt 15)).2.freeList.freeRegisters ∧
            ¬ Undone (branchBehind 15) (loadBehind 15) (mispredictedAt 15) := by
  have hfree : 16 ∈ (branchBehind 15).unit.freeList.freeRegisters := by decide +kernel
  have hlost :
      16 ∉ ((loadBehind 15).unit.recover (mispredictedAt 15)).2.freeList.freeRegisters := by
    decide +kernel
  refine ⟨by decide +kernel, by decide +kernel, hfree, hlost, ?_⟩
  intro h
  apply hlost
  rw [← Multiset.mem_coe, h.freeList]
  exact Multiset.mem_add.mpr (Or.inl hfree)

end Speculation

end CpuSim.SuperScalar
