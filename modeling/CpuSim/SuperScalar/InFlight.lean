/-
  CpuSim.SuperScalar.InFlight

  The reorder buffer and the issue queue seen together.  `InFlight rob iq` says
  that the valid issue-queue entries are exactly the uncompleted window entries,
  one for one by ROB slot, and that every record in either structure still
  carries the control fields its instruction word decodes to.  It is kept by
  every operation of the backend, whatever else goes wrong around it.
-/

import CpuSim.SuperScalar.RobWindow
import CpuSim.SuperScalar.IssueQueueLive
import CpuSim.SuperScalar.Dispatch

namespace CpuSim.SuperScalar

/-! ## Records and the words they decode from -/

/-- The decoded part of a rename bundle. -/
def RenameBundle.control (b : RenameBundle) : DecodeBundle :=
  { valid := true, pc := b.pc, instruction := b.instruction, opcode := b.opcode,
    format := b.format, rd := b.rd, rs1 := b.rs1, rs2 := b.rs2, immediate := b.immediate,
    aluOperation := b.aluOperation, operandA := b.operandA, operandB := b.operandB,
    registerWrite := b.registerWrite, memoryRead := b.memoryRead, memoryWrite := b.memoryWrite,
    controlFlow := b.controlFlow, halt := b.halt }

/-- The bundle's control fields are those of its instruction word. -/
def RenameBundle.FromDecode (b : RenameBundle) : Prop :=
  b.control = decodeWord b.pc b.instruction

/-- The ROB entry's control fields are those of its instruction word. -/
structure ROBEntry.FromDecode (e : ROBEntry) : Prop where
  opcode : e.opcode = (decodeWord e.pc e.instruction).opcode
  registerWrite : e.registerWrite = (decodeWord e.pc e.instruction).registerWrite
  architecturalRd : e.architecturalRd = (decodeWord e.pc e.instruction).rd
  memoryRead : e.memoryRead = (decodeWord e.pc e.instruction).memoryRead
  memoryWrite : e.memoryWrite = (decodeWord e.pc e.instruction).memoryWrite
  branch : e.branch = ((decodeWord e.pc e.instruction).controlFlow == .BRANCH)
  halt : e.halt = (decodeWord e.pc e.instruction).halt

/-- The issue-queue entry's control fields are those of its instruction word. -/
structure IssueQueueEntry.FromDecode (q : IssueQueueEntry) : Prop where
  opcode : q.opcode = (decodeWord q.pc q.instruction).opcode
  immediate : q.immediate = (decodeWord q.pc q.instruction).immediate
  aluOperation : q.aluOperation = (decodeWord q.pc q.instruction).aluOperation
  operandA : q.operandA = (decodeWord q.pc q.instruction).operandA
  operandB : q.operandB = (decodeWord q.pc q.instruction).operandB
  registerWrite : q.registerWrite = (decodeWord q.pc q.instruction).registerWrite
  memoryRead : q.memoryRead = (decodeWord q.pc q.instruction).memoryRead
  memoryWrite : q.memoryWrite = (decodeWord q.pc q.instruction).memoryWrite
  controlFlow : q.controlFlow = (decodeWord q.pc q.instruction).controlFlow
  halt : q.halt = (decodeWord q.pc q.instruction).halt

/-- An issue-queue entry and the ROB entry of the same instruction. -/
structure IssueQueueEntry.Matches (q : IssueQueueEntry) (e : ROBEntry) : Prop where
  robIndex : q.robIndex = e.robIndex
  pc : q.pc = e.pc
  instruction : q.instruction = e.instruction
  physicalRd : q.physicalRd = e.physicalRd
  predictedTaken : q.predictedTaken = e.predictedTaken
  predictedTarget : q.predictedTarget = e.predictedTarget

section Records

variable {b : RenameBundle} {e : ROBEntry} {q : IssueQueueEntry} {i : Nat} {r : Word}
  {cp : Option Checkpoint}

theorem ROBEntry.FromDecode.finish (h : e.FromDecode) (r : Word) : (e.finish r).FromDecode :=
  ⟨h.opcode, h.registerWrite, h.architecturalRd, h.memoryRead, h.memoryWrite, h.branch, h.halt⟩

/-- `allocate` copies the control fields of the bundle. -/
theorem RenameBundle.FromDecode.makeEntry (h : b.FromDecode) (i : Nat)
    (cp : Option Checkpoint) : (ReOrderBuffer.makeEntry b i cp).FromDecode := by
  have hb : ∀ {α : Type} (f : DecodeBundle → α), f b.control = f (decodeWord b.pc b.instruction) :=
    fun f => congrArg f h
  have key : ∀ e : ROBEntry, e.pc = b.pc → e.instruction = b.instruction →
      e.opcode = b.opcode → e.registerWrite = b.registerWrite → e.architecturalRd = b.rd →
      e.memoryRead = b.memoryRead → e.memoryWrite = b.memoryWrite →
      e.branch = (b.controlFlow == .BRANCH) → e.halt = b.halt → e.FromDecode := by
    intro e hpc hin hop hrw hrd hmr hmw hbr hha
    refine ⟨?_, ?_, ?_, ?_, ?_, ?_, ?_⟩ <;> rw [hpc, hin]
    · exact hop.trans (hb DecodeBundle.opcode)
    · exact hrw.trans (hb DecodeBundle.registerWrite)
    · exact hrd.trans (hb DecodeBundle.rd)
    · exact hmr.trans (hb DecodeBundle.memoryRead)
    · exact hmw.trans (hb DecodeBundle.memoryWrite)
    · exact hbr.trans (congrArg (· == ControlFlow.BRANCH) (hb DecodeBundle.controlFlow))
    · exact hha.trans (hb DecodeBundle.halt)
  cases cp with
  | none => exact key _ rfl rfl rfl rfl rfl rfl rfl rfl rfl
  | some cp =>
      simp only [ReOrderBuffer.makeEntry]
      split <;> exact key _ rfl rfl rfl rfl rfl rfl rfl rfl rfl

/-- `make_issue_entry` copies the control fields of the bundle. -/
theorem RenameBundle.FromDecode.makeIssueEntry {n : Nat} (h : b.FromDecode)
    (prf : PhysicalRegisterFile n) (i : Nat) :
    (DispatchUnit.makeIssueEntry prf b i).FromDecode := by
  have hb : ∀ {α : Type} (f : DecodeBundle → α), f b.control = f (decodeWord b.pc b.instruction) :=
    fun f => congrArg f h
  exact ⟨hb DecodeBundle.opcode, hb DecodeBundle.immediate, hb DecodeBundle.aluOperation,
    hb DecodeBundle.operandA, hb DecodeBundle.operandB, hb DecodeBundle.registerWrite,
    hb DecodeBundle.memoryRead, hb DecodeBundle.memoryWrite, hb DecodeBundle.controlFlow,
    hb DecodeBundle.halt⟩

/-- The two records dispatch makes of one bundle match. -/
theorem makeIssueEntry_matches {n : Nat} (prf : PhysicalRegisterFile n) (b : RenameBundle)
    (i : Nat) (cp : Option Checkpoint) :
    (DispatchUnit.makeIssueEntry prf b i).Matches (ReOrderBuffer.makeEntry b i cp) := by
  cases cp with
  | none => exact ⟨rfl, rfl, rfl, rfl, rfl, rfl⟩
  | some cp =>
      simp only [ReOrderBuffer.makeEntry]
      split <;> exact ⟨rfl, rfl, rfl, rfl, rfl, rfl⟩

theorem IssueQueueEntry.Matches.finish (h : q.Matches e) (r : Word) : q.Matches (e.finish r) :=
  ⟨h.robIndex, h.pc, h.instruction, h.physicalRd, h.predictedTaken, h.predictedTarget⟩

theorem IssueQueueEntry.Matches.wakeup (h : q.Matches e) (hv : q.valid = true)
    (p : PhysicalRegister) (v : Word) : (q.wakeup p v).Matches e := by
  rw [q.wakeup_eq p v hv]
  exact ⟨h.robIndex, h.pc, h.instruction, h.physicalRd, h.predictedTaken, h.predictedTarget⟩

theorem IssueQueueEntry.FromDecode.wakeup (h : q.FromDecode) (hv : q.valid = true)
    (p : PhysicalRegister) (v : Word) : (q.wakeup p v).FromDecode := by
  rw [q.wakeup_eq p v hv]
  exact ⟨h.opcode, h.immediate, h.aluOperation, h.operandA, h.operandB, h.registerWrite,
    h.memoryRead, h.memoryWrite, h.controlFlow, h.halt⟩

end Records

/-! ## The joint invariant -/

/-- Queue entries wait for uncompleted instructions of the window, no two for the same one. -/
structure Linked {n m : Nat} (rob : ReOrderBuffer n) (iq : IssueQueue m) : Prop where
  rob_wf : rob.WF
  iq_wf : iq.WF
  unique : (iq.live.map IssueQueueEntry.robIndex).Nodup
  backed : ∀ q ∈ iq.live, ∃ e ∈ rob.window, e.completed = false ∧ q.Matches e

namespace Linked

variable {n m : Nat} {rob rob' : ReOrderBuffer n} {iq iq' : IssueQueue m}

/-- An entry leaves the queue, and none that is left names its slot. -/
theorem remove (h : Linked rob iq) {i : Nat} (hi : i < m) (hv : (iq.entries i).valid = true) :
    Linked rob (iq.remove i) ∧
      ∀ q ∈ (iq.remove i).live, q ∈ iq.live ∧ q.robIndex ≠ (iq.entries i).robIndex := by
  obtain ⟨hiq, hperm⟩ := h.iq_wf.remove hi hv
  have hnodup := (hperm.map IssueQueueEntry.robIndex).nodup_iff.mp h.unique
  rw [List.map_cons, List.nodup_cons] at hnodup
  have hold : ∀ q ∈ (iq.remove i).live, q ∈ iq.live := fun q hq =>
    hperm.mem_iff.mpr (List.mem_cons_of_mem _ hq)
  refine ⟨⟨h.rob_wf, hiq, hnodup.2, fun q hq => h.backed q (hold q hq)⟩, fun q hq => ?_⟩
  exact ⟨hold q hq, fun heq => hnodup.1 (heq ▸ List.mem_map_of_mem hq)⟩

/-- An instruction that has left the queue completes. -/
theorem complete (h : Linked rob iq) {index : Nat} (r : Word)
    (hissued : ∀ q ∈ iq.live, q.robIndex ≠ index) : Linked (rob.complete index r) iq := by
  obtain ⟨hwf, hwin⟩ := h.rob_wf.complete index r
  refine ⟨hwf, h.iq_wf, h.unique, fun q hq => ?_⟩
  obtain ⟨e, he, hc, hm⟩ := h.backed q hq
  have hother : ReOrderBuffer.finishAt index r e = e := by
    rw [ReOrderBuffer.finishAt, if_neg]
    exact fun heq => hissued q hq (hm.robIndex.trans heq)
  refine ⟨e, ?_, hc, hm⟩
  rw [hwin, ← hother]
  exact List.mem_map_of_mem he

/-- A result broadcast. -/
theorem wakeup (h : Linked rob iq) (p : PhysicalRegister) (v : Word) :
    Linked rob (iq.wakeup p v) := by
  have hvalid : ∀ q ∈ iq.live, q.valid = true := fun q hq => (IssueQueue.mem_live.mp hq).2
  refine ⟨h.rob_wf, h.iq_wf.wakeup p v, ?_, fun q' hq' => ?_⟩
  · rw [IssueQueue.live_wakeup, List.map_map]
    convert h.unique using 1
    refine List.map_congr_left fun q hq => ?_
    rw [Function.comp, q.wakeup_eq p v (hvalid q hq)]
  · rw [IssueQueue.live_wakeup] at hq'
    obtain ⟨q, hq, rfl⟩ := List.mem_map.mp hq'
    obtain ⟨e, he, hc, hm⟩ := h.backed q hq
    exact ⟨e, he, hc, hm.wakeup (hvalid q hq) p v⟩

/-- Retirement of a completed head: nothing in the queue waits for it. -/
theorem commit (h : Linked rob iq) {e : ROBEntry} (hc : rob.commit = some (e, rob')) :
    Linked rob' iq := by
  obtain ⟨hwf, hwin, hcomp⟩ := h.rob_wf.commit hc
  refine ⟨hwf, h.iq_wf, h.unique, fun q hq => ?_⟩
  obtain ⟨e', he', hc', hm⟩ := h.backed q hq
  rw [hwin] at he'
  rcases List.mem_cons.mp he' with rfl | he'
  · rw [hcomp] at hc'
    cases hc'
  · exact ⟨e', he', hc', hm⟩

/-- A new instruction enters both structures. -/
theorem dispatch (h : Linked rob iq) {k : Nat} {prf : PhysicalRegisterFile k} {b : RenameBundle}
    {cp : Option Checkpoint} {i : Nat} (ha : rob.allocate b cp = some (i, rob'))
    (hi : iq.insert (DispatchUnit.makeIssueEntry prf b i) = some iq') (hv : b.valid = true) :
    Linked rob' iq' ∧
      iq'.live.Perm (DispatchUnit.makeIssueEntry prf b i :: iq.live) := by
  obtain ⟨hwf, hwin, -, -, hnot⟩ := h.rob_wf.allocate ha
  obtain ⟨hiq, hperm⟩ := h.iq_wf.insert hi
  have hnew : ({ DispatchUnit.makeIssueEntry prf b i with valid := true } : IssueQueueEntry) =
      DispatchUnit.makeIssueEntry prf b i := by
    simp [DispatchUnit.makeIssueEntry, hv]
  rw [hnew] at hperm
  -- the slot is free, so nothing in the queue names it
  have hfresh : ∀ q ∈ iq.live, q.robIndex ≠ i := fun q hq heq => by
    obtain ⟨e, he, -, hm⟩ := h.backed q hq
    exact hnot (heq ▸ hm.robIndex ▸ h.rob_wf.mem_liveSlots he)
  refine ⟨⟨hwf, hiq, ?_, fun q hq => ?_⟩, hperm⟩
  · rw [(hperm.map _).nodup_iff, List.map_cons, List.nodup_cons]
    refine ⟨fun hin => ?_, h.unique⟩
    obtain ⟨q, hq, heq⟩ := List.mem_map.mp hin
    exact hfresh q hq heq
  · rw [hwin]
    rcases List.mem_cons.mp (hperm.mem_iff.mp hq) with rfl | hq
    · refine ⟨_, List.mem_append_right _ (List.mem_singleton_self _), ?_,
        makeIssueEntry_matches prf b i cp⟩
      cases cp with
      | none => rfl
      | some cp =>
          simp only [ReOrderBuffer.makeEntry]
          split <;> rfl
    · obtain ⟨e, he, hc, hm⟩ := h.backed q hq
      exact ⟨e, List.mem_append_left _ he, hc, hm⟩

end Linked

/-- Reorder buffer and issue queue describe the same instructions. -/
structure InFlight {n m : Nat} (rob : ReOrderBuffer n) (iq : IssueQueue m) : Prop where
  rob_wf : rob.WF
  iq_wf : iq.WF
  /-- No two queue entries name the same slot. -/
  unique : (iq.live.map IssueQueueEntry.robIndex).Nodup
  /-- A queue entry belongs to an uncompleted instruction. -/
  backed : ∀ q ∈ iq.live, ∃ e ∈ rob.window, e.completed = false ∧ q.Matches e
  /-- An uncompleted instruction has a queue entry. -/
  queued : ∀ e ∈ rob.window, e.completed = false → ∃ q ∈ iq.live, q.Matches e
  entryDecoded : ∀ e ∈ rob.window, e.FromDecode
  queueDecoded : ∀ q ∈ iq.live, q.FromDecode
  /-- Nothing in this machine marks an entry issued without removing it. -/
  unissued : ∀ q ∈ iq.live, q.issued = false

namespace InFlight

variable {n m : Nat} {rob rob' : ReOrderBuffer n} {iq iq' : IssueQueue m}

theorem reset (hn : 0 < n) : InFlight (.reset : ReOrderBuffer n) (.reset : IssueQueue m) where
  rob_wf := ReOrderBuffer.wf_reset hn
  iq_wf := IssueQueue.wf_reset
  unique := by simp
  backed := by simp
  queued := by simp
  entryDecoded := by simp
  queueDecoded := by simp
  unissued := by simp

theorem linked (h : InFlight rob iq) : Linked rob iq :=
  ⟨h.rob_wf, h.iq_wf, h.unique, h.backed⟩

/-- Queue entries with the same slot are the same entry. -/
theorem eq_of_robIndex (h : InFlight rob iq) {q q' : IssueQueueEntry} (hq : q ∈ iq.live)
    (hq' : q' ∈ iq.live) (hr : q.robIndex = q'.robIndex) : q = q' :=
  List.inj_on_of_nodup_map h.unique hq hq' hr

/-- The matching entry of a queue entry is the one in its slot. -/
theorem backed_by (h : InFlight rob iq) {q : IssueQueueEntry} {e : ROBEntry} (hq : q ∈ iq.live)
    (he : e ∈ rob.window) (hr : q.robIndex = e.robIndex) : e.completed = false ∧ q.Matches e := by
  obtain ⟨e', he', hc, hm⟩ := h.backed q hq
  have : e' = e := h.rob_wf.eq_of_robIndex he' he (hm.robIndex.symm.trans hr)
  exact this ▸ ⟨hc, hm⟩

/-- A completed instruction has left the queue. -/
theorem not_queued (h : InFlight rob iq) {q : IssueQueueEntry} {e : ROBEntry} (hq : q ∈ iq.live)
    (he : e ∈ rob.window) (hc : e.completed = true) : q.robIndex ≠ e.robIndex := fun hr => by
  rw [(h.backed_by hq he hr).1] at hc
  cases hc

/-- Executing one queue entry: it leaves the queue and its slot completes. -/
theorem execute (h : InFlight rob iq) {i : Nat} (hi : i < m)
    (hv : (iq.entries i).valid = true) (r : Word) :
    InFlight (rob.complete (iq.entries i).robIndex r) (iq.remove i) := by
  obtain ⟨hremoved, hsub⟩ := h.linked.remove hi hv
  obtain ⟨hwf, hiq, hunique, hbacked⟩ := hremoved.complete r fun q hq => (hsub q hq).2
  have hwin := (h.rob_wf.complete (iq.entries i).robIndex r).2
  have hperm := (h.iq_wf.remove hi hv).2
  refine ⟨hwf, hiq, hunique, hbacked, ?_, ?_, fun q hq => h.queueDecoded q (hsub q hq).1,
    fun q hq => h.unissued q (hsub q hq).1⟩
  · intro e' he' hc'
    rw [hwin] at he'
    obtain ⟨e, he, rfl⟩ := List.mem_map.mp he'
    by_cases heq : e.robIndex = (iq.entries i).robIndex
    · rw [ReOrderBuffer.finishAt, if_pos heq] at hc'
      cases hc'
    · rw [ReOrderBuffer.finishAt, if_neg heq] at hc' ⊢
      obtain ⟨q, hq, hm⟩ := h.queued e he hc'
      rcases List.mem_cons.mp (hperm.mem_iff.mp hq) with rfl | hq'
      · exact absurd hm.robIndex.symm heq
      · exact ⟨q, hq', hm⟩
  · intro e' he'
    rw [hwin] at he'
    obtain ⟨e, he, rfl⟩ := List.mem_map.mp he'
    rw [ReOrderBuffer.finishAt]
    split
    · exact (h.entryDecoded e he).finish r
    · exact h.entryDecoded e he

/-- A result broadcast. -/
theorem wakeup (h : InFlight rob iq) (p : PhysicalRegister) (v : Word) :
    InFlight rob (iq.wakeup p v) := by
  have hvalid : ∀ q ∈ iq.live, q.valid = true := fun q hq => (IssueQueue.mem_live.mp hq).2
  have hback : ∀ q' ∈ (iq.wakeup p v).live, ∃ q ∈ iq.live, q' = q.wakeup p v := by
    intro q' hq'
    rw [IssueQueue.live_wakeup] at hq'
    obtain ⟨q, hq, rfl⟩ := List.mem_map.mp hq'
    exact ⟨q, hq, rfl⟩
  obtain ⟨hwf, hiq, hunique, hbacked⟩ := h.linked.wakeup p v
  refine ⟨hwf, hiq, hunique, hbacked, ?_, h.entryDecoded, ?_, ?_⟩
  · intro e he hc
    obtain ⟨q, hq, hm⟩ := h.queued e he hc
    refine ⟨q.wakeup p v, ?_, hm.wakeup (hvalid q hq) p v⟩
    rw [IssueQueue.live_wakeup]
    exact List.mem_map_of_mem hq
  · intro q' hq'
    obtain ⟨q, hq, rfl⟩ := hback q' hq'
    exact (h.queueDecoded q hq).wakeup (hvalid q hq) p v
  · intro q' hq'
    obtain ⟨q, hq, rfl⟩ := hback q' hq'
    rw [q.wakeup_eq p v (hvalid q hq)]
    exact h.unissued q hq

/-- Retirement of a completed head. -/
theorem commit (h : InFlight rob iq) {e : ROBEntry} (hc : rob.commit = some (e, rob')) :
    InFlight rob' iq := by
  obtain ⟨hwf, hiq, hunique, hbacked⟩ := h.linked.commit hc
  have hsub : ∀ e' ∈ rob'.window, e' ∈ rob.window := fun e' he' => by
    rw [(h.rob_wf.commit hc).2.1]
    exact List.mem_cons_of_mem _ he'
  exact ⟨hwf, hiq, hunique, hbacked, fun e' he' => h.queued e' (hsub e' he'),
    fun e' he' => h.entryDecoded e' (hsub e' he'), h.queueDecoded, h.unissued⟩

/-- The squash of everything younger than a window entry. -/
theorem squash (h : InFlight rob iq) {pre post : List ROBEntry} {b : ROBEntry}
    (hw : rob.window = pre ++ b :: post) (hwf : rob'.WF) (hwin : rob'.window = pre ++ [b]) :
    InFlight rob' (iq.squash (post.map ROBEntry.robIndex)) := by
  have hnodup := h.rob_wf.nodup_robIndex
  rw [hw, show pre ++ b :: post = (pre ++ [b]) ++ post by simp, List.map_append,
    List.nodup_append] at hnodup
  have hlive : ∀ q, q ∈ (iq.squash (post.map ROBEntry.robIndex)).live ↔
      q ∈ iq.live ∧ q.robIndex ∉ post.map ROBEntry.robIndex := fun q => by
    rw [IssueQueue.live_squash, List.mem_filter]
    simp
  -- what is kept of the window has its entries in the queue, and only that
  have hsub : ∀ e ∈ rob'.window, e ∈ rob.window := fun e he => by
    rw [hwin] at he
    rw [hw, show pre ++ b :: post = (pre ++ [b]) ++ post by simp]
    exact List.mem_append_left _ he
  refine ⟨hwf, h.iq_wf.squash _, ?_, ?_, ?_, fun e he => h.entryDecoded e (hsub e he),
    fun q hq => h.queueDecoded q ((hlive q).mp hq).1,
    fun q hq => h.unissued q ((hlive q).mp hq).1⟩
  · rw [IssueQueue.live_squash]
    exact (List.filter_sublist.map _).nodup h.unique
  · intro q hq
    obtain ⟨hq', hno⟩ := (hlive q).mp hq
    obtain ⟨e, he, hc, hm⟩ := h.backed q hq'
    refine ⟨e, ?_, hc, hm⟩
    rw [hw, show pre ++ b :: post = (pre ++ [b]) ++ post by simp, List.mem_append] at he
    rw [hwin]
    refine he.resolve_right fun hpost => hno ?_
    rw [hm.robIndex]
    exact List.mem_map_of_mem hpost
  · intro e he hc
    obtain ⟨q, hq, hm⟩ := h.queued e (hsub e he) hc
    refine ⟨q, (hlive q).mpr ⟨hq, fun hin => ?_⟩, hm⟩
    rw [hm.robIndex] at hin
    rw [hwin] at he
    exact hnodup.2.2 _ (List.mem_map_of_mem he) _ hin rfl

/-- A new instruction enters both structures. -/
theorem dispatch (h : InFlight rob iq) {k : Nat} {prf : PhysicalRegisterFile k}
    {b : RenameBundle} {cp : Option Checkpoint} {i : Nat} (hv : b.valid = true)
    (hb : b.FromDecode) (ha : rob.allocate b cp = some (i, rob'))
    (hi : iq.insert (DispatchUnit.makeIssueEntry prf b i) = some iq') :
    InFlight rob' iq' := by
  obtain ⟨⟨hwf, hiq, hunique, hbacked⟩, hperm⟩ := h.linked.dispatch ha hi hv
  have hwin := (h.rob_wf.allocate ha).2.1
  have hmem : ∀ q, q ∈ iq'.live ↔ q = DispatchUnit.makeIssueEntry prf b i ∨ q ∈ iq.live :=
    fun q => hperm.mem_iff.trans List.mem_cons
  have hwmem : ∀ e, e ∈ rob'.window ↔ e ∈ rob.window ∨ e = ReOrderBuffer.makeEntry b i cp :=
    fun e => by rw [hwin, List.mem_append, List.mem_singleton]
  have hmatch := makeIssueEntry_matches prf b i cp
  refine ⟨hwf, hiq, hunique, hbacked, ?_, ?_, ?_, ?_⟩
  · intro e he hc
    rcases (hwmem e).mp he with he | rfl
    · obtain ⟨q, hq, hm⟩ := h.queued e he hc
      exact ⟨q, (hmem q).mpr (Or.inr hq), hm⟩
    · exact ⟨_, (hmem _).mpr (Or.inl rfl), hmatch⟩
  · intro e he
    rcases (hwmem e).mp he with he | rfl
    · exact h.entryDecoded e he
    · exact hb.makeEntry i cp
  · intro q hq
    rcases (hmem q).mp hq with rfl | hq
    · exact hb.makeIssueEntry prf i
    · exact h.queueDecoded q hq
  · intro q hq
    rcases (hmem q).mp hq with rfl | hq
    · rfl
    · exact h.unissued q hq

end InFlight

end CpuSim.SuperScalar
