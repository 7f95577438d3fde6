/-
  CpuSim.SuperScalar.Stages

  What a stage of `step()` can do, said once.  Commit is a bounded number of
  retirements followed by the handling of their events; memory, branch and ALU
  execution each take one ready entry out of the issue queue with its result
  (`finish`); what else a stage touches is listed in the equations here, so that
  no invariant unfolds a stage again.
-/

import CpuSim.SuperScalar.Datapath
import CpuSim.SuperScalar.InFlight

namespace CpuSim.SuperScalar

variable {cfg : Config}

/-! ## Commit -/

namespace CommitUnit

variable (u : CommitUnit cfg) (e : ROBEntry)

@[simp] theorem retire_rob : (retire u e).rob = u.rob := by
  simp only [retire]
  split <;> split <;> split <;> split <;> rfl

@[simp] theorem retire_prf : (retire u e).prf = u.prf := by
  simp only [retire]
  split <;> split <;> split <;> split <;> rfl

@[simp] theorem retire_arf :
    (retire u e).arf =
      if e.registerWrite then u.arf.write e.architecturalRd (u.prf.read e.physicalRd)
      else u.arf := by
  simp only [retire]
  split <;> split <;> split <;> split <;> rfl

@[simp] theorem retire_freeList :
    (retire u e).freeList =
      if e.registerWrite then u.freeList.releaseBack e.oldPhysicalRd else u.freeList := by
  by_cases ho : e.oldPhysicalRd = INVALID_REGISTER <;>
    simp only [retire] <;>
    split <;> split <;> split <;> split <;>
    simp [PhysicalRegisterFreeList.releaseBack, ho]

@[simp] theorem retire_rat_table : (retire u e).rat.table = u.rat.table := by
  simp only [retire]
  split <;> split <;> split <;> split <;> rfl

@[simp] theorem retire_rat_physicalRegCount :
    (retire u e).rat.physicalRegCount = u.rat.physicalRegCount := by
  simp only [retire]
  split <;> split <;> split <;> split <;> rfl

@[simp] theorem retire_storeBuffer :
    (retire u e).storeBuffer =
      if e.memoryWrite then u.storeBuffer.map fun sb => sb.markCommitted e.robIndex
      else u.storeBuffer := by
  simp only [retire]
  split <;> split <;> split <;> split <;> rfl

@[simp] theorem retire_halted : (retire u e).halted = (u.halted || e.halt) := by
  simp only [retire]
  split <;> split <;> split <;> split <;> simp_all

/-- The effects of retiring a list of entries, oldest first, on what is not the
    reorder buffer. -/
def retireAll (u : CommitUnit cfg) (es : List ROBEntry) : CommitUnit cfg := es.foldl retire u

@[simp] theorem retireAll_nil : retireAll u [] = u := rfl

@[simp] theorem retireAll_cons (es : List ROBEntry) :
    retireAll u (e :: es) = retireAll (retire u e) es := rfl

@[simp] theorem retireAll_prf (es : List ROBEntry) : (retireAll u es).prf = u.prf := by
  induction es generalizing u with
  | nil => rfl
  | cons e es ih => rw [retireAll_cons, ih, retire_prf]

@[simp] theorem retireAll_rat_table (es : List ROBEntry) :
    (retireAll u es).rat.table = u.rat.table := by
  induction es generalizing u with
  | nil => rfl
  | cons e es ih => rw [retireAll_cons, ih, retire_rat_table]

@[simp] theorem retireAll_rat_physicalRegCount (es : List ROBEntry) :
    (retireAll u es).rat.physicalRegCount = u.rat.physicalRegCount := by
  induction es generalizing u with
  | nil => rfl
  | cons e es ih => rw [retireAll_cons, ih, retire_rat_physicalRegCount]

@[simp] theorem retireAll_halted (es : List ROBEntry) :
    (retireAll u es).halted = (u.halted || es.any (·.halt)) := by
  induction es generalizing u with
  | nil => simp
  | cons e es ih => rw [retireAll_cons, ih, retire_halted, List.any_cons, Bool.or_assoc]

/-- The store buffer once the stores among the retired entries are marked. -/
def markAll {n : Nat} (sb : StoreBuffer n) (es : List ROBEntry) : StoreBuffer n :=
  es.foldl (fun sb e => if e.memoryWrite then sb.markCommitted e.robIndex else sb) sb

@[simp] theorem retireAll_storeBuffer (es : List ROBEntry) :
    (retireAll u es).storeBuffer = u.storeBuffer.map fun sb => markAll sb es := by
  induction es generalizing u with
  | nil => cases hsb : u.storeBuffer <;> simp [markAll, hsb]
  | cons e es ih =>
      rw [retireAll_cons, ih, retire_storeBuffer]
      cases hsb : u.storeBuffer <;> cases hw : e.memoryWrite <;> simp [markAll, hw]

theorem retire_withRob (rob : ReOrderBuffer cfg.robCapacity) :
    retire { u with rob := rob } e = { retire u e with rob := rob } := by
  simp only [retire]
  split <;> split <;> split <;> split <;> rfl

theorem retireAll_withRob (rob : ReOrderBuffer cfg.robCapacity) (es : List ROBEntry) :
    retireAll { u with rob := rob } es = { retireAll u es with rob := rob } := by
  induction es generalizing u with
  | nil => rfl
  | cons e es ih => rw [retireAll_cons, retire_withRob, ih, retireAll_cons]

variable {u}

/-- What the commit loop does: a completed prefix of the window retires, and the
    loop stops at the width or behind a `HALT`. -/
theorem stepLoop_spec (n : Nat) (hwf : u.rob.WF) :
    ∃ es : List ROBEntry,
      u.rob.window = es ++ (stepLoop n u).1.rob.window ∧
      (stepLoop n u).1 = { retireAll u es with rob := (stepLoop n u).1.rob } ∧
      (stepLoop n u).2 = es.map (makeEvent u.prf) ∧
      (stepLoop n u).1.rob.WF ∧ es.length ≤ n ∧ (∀ e ∈ es, e.completed = true) ∧
      (∀ pre e post, es = pre ++ e :: post → e.halt = true → post = []) := by
  induction n generalizing u with
  | zero => exact ⟨[], rfl, rfl, rfl, hwf, le_rfl, by simp, by simp⟩
  | succ n ih =>
      -- the loop stops without retiring: halted, or nothing to retire at the head
      have hstop : ∃ es : List ROBEntry,
          u.rob.window = es ++ u.rob.window ∧ u = { retireAll u es with rob := u.rob } ∧
          ([] : List CommitEvent) = es.map (makeEvent u.prf) ∧ u.rob.WF ∧ es.length ≤ n + 1 ∧
          (∀ e ∈ es, e.completed = true) ∧
          (∀ pre e post, es = pre ++ e :: post → e.halt = true → post = []) :=
        ⟨[], rfl, rfl, rfl, hwf, Nat.zero_le _, by simp, by simp⟩
      rw [stepLoop]
      split
      · exact hstop
      split
      · exact hstop
      split
      · exact hstop
      rename_i e rob' hc
      obtain ⟨hwf', hwin, hcomp⟩ := hwf.commit hc
      dsimp only
      rw [retire_withRob]
      -- a `HALT` that retires is the last to retire in this step
      by_cases hh : (retire u e).halted = true
      · rw [if_pos hh]
        refine ⟨[e], by simpa using hwin, rfl, rfl, hwf', by simp, by simpa using hcomp, ?_⟩
        intro pre x post hsplit _
        cases pre with
        | nil => simpa using (List.cons.inj hsplit).2.symm
        | cons y pre => simp at hsplit
      · rw [if_neg hh]
        have hhf : (retire u e).halted = false := eq_false_of_ne_true hh
        obtain ⟨es, h1, h2, h3, h4, h5, h6, h7⟩ :=
          ih (u := { retire u e with rob := rob' }) hwf'
        refine ⟨e :: es, ?_, ?_, ?_, h4, by simpa using h5, ?_, ?_⟩
        · rw [hwin, List.cons_append]
          exact congrArg (e :: ·) h1
        · rw [retireAll_withRob] at h2
          exact h2
        · rw [List.map_cons]
          refine congrArg (makeEvent u.prf e :: ·) (h3.trans ?_)
          simp
        · intro x hx
          rcases List.mem_cons.mp hx with rfl | hx
          · exact hcomp
          · exact h6 x hx
        · intro pre x post hsplit hx
          cases pre with
          | nil =>
              -- the head itself did not halt
              obtain ⟨rfl, rfl⟩ := List.cons.inj hsplit
              rw [retire_halted, hx, Bool.or_true] at hhf
              cases hhf
          | cons y pre => exact h7 pre x post (List.cons.inj hsplit).2 hx

end CommitUnit

namespace SuperScalarCPU

variable {s : SuperScalarCPU cfg}

/-- The commit unit as `runCommitUnit` builds it. -/
def commitUnit (s : SuperScalarCPU cfg) : CommitUnit cfg :=
  { commitWidth := 2, committedInstructionCount := s.committedInstructionCount,
    halted := s.commitHalted, rob := s.rob, prf := s.prf, arf := s.arf,
    freeList := s.freeList, rat := s.rat, storeBuffer := some s.storeBuffer }

theorem commitStage_eq (s : SuperScalarCPU cfg) :
    s.commitStage =
      (s.commitUnit.stepLoop 2).2.foldl handleCommitEvent
        { s with
          rob := (s.commitUnit.stepLoop 2).1.rob, arf := (s.commitUnit.stepLoop 2).1.arf,
          freeList := (s.commitUnit.stepLoop 2).1.freeList,
          rat := (s.commitUnit.stepLoop 2).1.rat,
          storeBuffer := (s.commitUnit.stepLoop 2).1.storeBuffer.getD s.storeBuffer,
          committedInstructionCount := (s.commitUnit.stepLoop 2).1.committedInstructionCount,
          commitHalted := (s.commitUnit.stepLoop 2).1.halted } := rfl

section HandleEvents

variable (s : SuperScalarCPU cfg) (ev : CommitEvent) (evs : List CommitEvent)

/-- `handleCommitEvent` works on the memory queues, the data memory and `halted`. -/
theorem handleCommitEvent_frame :
    handleCommitEvent s ev =
      { s with
        lsq := s.lsq.remove ev.robIndex,
        storeBuffer := (handleCommitEvent s ev).storeBuffer,
        dataMemory := (handleCommitEvent s ev).dataMemory,
        halted := s.halted || ev.halt } := by
  cases hs : ev.store <;> cases hh : ev.halt <;>
    cases hp : s.storeBuffer.popCommitted <;>
    simp [handleCommitEvent, writeCommittedStore, hs, hh, hp]

theorem handleCommitEvents_frame :
    evs.foldl handleCommitEvent s =
      { s with
        lsq := (evs.foldl handleCommitEvent s).lsq,
        storeBuffer := (evs.foldl handleCommitEvent s).storeBuffer,
        dataMemory := (evs.foldl handleCommitEvent s).dataMemory,
        halted := s.halted || evs.any (·.halt) } := by
  induction evs generalizing s with
  | nil => simp
  | cons ev evs ih =>
      rw [List.foldl_cons, ih (handleCommitEvent s ev), handleCommitEvent_frame s ev]
      simp [Bool.or_assoc]

/-- What the event of a retired entry does to store buffer and data memory: the front of
    the buffer, if it is committed, is written. -/
def drainStep {n m : Nat} (x : StoreBuffer n × DataMemory m) (e : ROBEntry) :
    StoreBuffer n × DataMemory m :=
  if e.memoryWrite then
    match x.1.popCommitted with
    | some (committedStore, storeBuffer) =>
      (storeBuffer, x.2.write committedStore.address committedStore.data)
    | none => x
  else x

theorem handleCommitEvents_queues (prf : PhysicalRegisterFile cfg.prfCount) (es : List ROBEntry) :
    ((es.map (CommitUnit.makeEvent prf)).foldl handleCommitEvent s).lsq =
        es.foldl (fun q e => q.remove e.robIndex) s.lsq ∧
      (((es.map (CommitUnit.makeEvent prf)).foldl handleCommitEvent s).storeBuffer,
        ((es.map (CommitUnit.makeEvent prf)).foldl handleCommitEvent s).dataMemory) =
        es.foldl drainStep (s.storeBuffer, s.dataMemory) := by
  induction es generalizing s with
  | nil => exact ⟨rfl, rfl⟩
  | cons e es ih =>
      have hone : (handleCommitEvent s (CommitUnit.makeEvent prf e)).lsq = s.lsq.remove e.robIndex ∧
          ((handleCommitEvent s (CommitUnit.makeEvent prf e)).storeBuffer,
            (handleCommitEvent s (CommitUnit.makeEvent prf e)).dataMemory) =
            drainStep (s.storeBuffer, s.dataMemory) e := by
        cases hs : e.memoryWrite <;> cases hh : e.halt <;> cases hp : s.storeBuffer.popCommitted <;>
          simp [handleCommitEvent, writeCommittedStore, drainStep, CommitUnit.makeEvent, hs, hh, hp]
      obtain ⟨h1, h2⟩ := ih (handleCommitEvent s (CommitUnit.makeEvent prf e))
      rw [List.map_cons, List.foldl_cons, List.foldl_cons, List.foldl_cons, h1, h2, hone.1, hone.2]
      exact ⟨rfl, rfl⟩

end HandleEvents

/-- Commit leaves everything alone that is not named here. -/
theorem commitStage_frame (s : SuperScalarCPU cfg) :
    s.commitStage =
      { s with
        rob := s.commitStage.rob, arf := s.commitStage.arf, freeList := s.commitStage.freeList,
        rat := s.commitStage.rat, lsq := s.commitStage.lsq,
        storeBuffer := s.commitStage.storeBuffer, dataMemory := s.commitStage.dataMemory,
        committedInstructionCount := s.commitStage.committedInstructionCount,
        commitHalted := s.commitStage.commitHalted, halted := s.commitStage.halted } := by
  rw [commitStage_eq, handleCommitEvents_frame]

/-- Commit, as seen from the retired entries `es`. -/
structure Commits (s t : SuperScalarCPU cfg) (es : List ROBEntry) : Prop where
  window : s.rob.window = es ++ t.rob.window
  wf : t.rob.WF
  width : es.length ≤ 2
  completed : ∀ e ∈ es, e.completed = true
  halt_last : ∀ pre e post, es = pre ++ e :: post → e.halt = true → post = []
  events : (runCommitUnit s).2 = es.map (CommitUnit.makeEvent s.prf)
  arf : t.arf = (s.commitUnit.retireAll es).arf
  freeList : t.freeList = (s.commitUnit.retireAll es).freeList
  table : t.rat.table = s.rat.table
  physicalRegCount : t.rat.physicalRegCount = s.rat.physicalRegCount
  commitHalted : t.commitHalted = es.any (·.halt)
  halted : t.halted = (s.halted || es.any (·.halt))
  iq : t.iq = s.iq
  prf : t.prf = s.prf
  predictor : t.predictor = s.predictor
  imem : t.imem = s.imem
  frontend : t.frontend = s.frontend
  haltDispatched : t.haltDispatched = s.haltDispatched
  lsq : t.lsq = es.foldl (fun q e => q.remove e.robIndex) s.lsq
  marked : (runCommitUnit s).1.storeBuffer = CommitUnit.markAll s.storeBuffer es
  stores : (t.storeBuffer, t.dataMemory) =
    es.foldl drainStep (CommitUnit.markAll s.storeBuffer es, s.dataMemory)

theorem commitStage_spec (hwf : s.rob.WF) (hh : s.commitHalted = false) :
    ∃ es, Commits s s.commitStage es := by
  -- what the commit unit retires, and what the event loop leaves alone
  obtain ⟨es, h1, h2, h3, h4, h5, h6, h7⟩ :=
    CommitUnit.stepLoop_spec (u := s.commitUnit) 2 hwf
  have hframe := handleCommitEvents_frame
    { s with
      rob := (s.commitUnit.stepLoop 2).1.rob, arf := (s.commitUnit.stepLoop 2).1.arf,
      freeList := (s.commitUnit.stepLoop 2).1.freeList,
      rat := (s.commitUnit.stepLoop 2).1.rat,
      storeBuffer := (s.commitUnit.stepLoop 2).1.storeBuffer.getD s.storeBuffer,
      committedInstructionCount := (s.commitUnit.stepLoop 2).1.committedInstructionCount,
      commitHalted := (s.commitUnit.stepLoop 2).1.halted }
    (s.commitUnit.stepLoop 2).2
  rw [← commitStage_eq] at hframe
  have hprf : s.commitUnit.prf = s.prf := rfl
  have hmarked : (s.commitUnit.stepLoop 2).1.storeBuffer.getD s.storeBuffer =
      CommitUnit.markAll s.storeBuffer es := by
    rw [h2]
    simp [commitUnit]
  have hqueues := handleCommitEvents_queues
    { s with
      rob := (s.commitUnit.stepLoop 2).1.rob, arf := (s.commitUnit.stepLoop 2).1.arf,
      freeList := (s.commitUnit.stepLoop 2).1.freeList,
      rat := (s.commitUnit.stepLoop 2).1.rat,
      storeBuffer := (s.commitUnit.stepLoop 2).1.storeBuffer.getD s.storeBuffer,
      committedInstructionCount := (s.commitUnit.stepLoop 2).1.committedInstructionCount,
      commitHalted := (s.commitUnit.stepLoop 2).1.halted } s.commitUnit.prf es
  rw [← h3, ← commitStage_eq, hmarked] at hqueues
  refine ⟨es, ?_, ?_, h5, h6, h7, h3, ?_, ?_, ?_, ?_, ?_, ?_, ?_, ?_, ?_, ?_, ?_, ?_,
    hqueues.1, hmarked, hqueues.2⟩ <;> rw [hframe]
  · exact h1
  · exact h4
  · dsimp only
    rw [h2]
  · dsimp only
    rw [h2]
  · dsimp only
    rw [h2]
    exact CommitUnit.retireAll_rat_table _ _
  · dsimp only
    rw [h2]
    exact CommitUnit.retireAll_rat_physicalRegCount _ _
  · dsimp only
    rw [h2]
    dsimp only
    rw [CommitUnit.retireAll_halted]
    simp [commitUnit, hh]
  · dsimp only
    rw [h3, List.any_map]
    rfl

/-! ## Execution -/

/-- The entry in issue-queue slot `i` leaves the queue with result `r`: it writes
    back if it has a destination, and its ROB slot completes. -/
def finish (s : SuperScalarCPU cfg) (i : Nat) (r : Word) : SuperScalarCPU cfg :=
  { s with
    iq :=
      if (s.iq.entries i).registerWrite then
        (s.iq.remove i).wakeup (s.iq.entries i).physicalRd r
      else s.iq.remove i,
    prf :=
      if (s.iq.entries i).registerWrite then s.prf.write (s.iq.entries i).physicalRd r
      else s.prf,
    rob := s.rob.complete (s.iq.entries i).robIndex r }

theorem executeAlu_eq (s : SuperScalarCPU cfg) (i : Nat) :
    s.executeAlu i = s.finish i (aluResult (s.iq.entries i)) := by
  simp only [executeAlu, finish]
  split <;> rfl

theorem resolveBranch_eq {i : Nat} (hw : (s.iq.entries i).registerWrite = false) :
    s.resolveBranch i =
      { s.finish i (s.branchResult i).targetPc with
        branchesExecuted := s.branchesExecuted + 1,
        predictor :=
          s.predictor.update (s.branchResult i).pc (s.branchResult i).taken
            (s.branchResult i).targetPc } := by
  simp [resolveBranch, finish, hw]

/-- The entry in slot `i` is one `mem_unit_` may execute. -/
def MemReady (s : SuperScalarCPU cfg) (i : Nat) : Prop :=
  i < cfg.iqCapacity ∧ MemoryExecutionUnit.readyForMemoryExecution (s.iq.entries i) = true

/-- The queue after the address of the load in slot `i` has been recorded. -/
def addressed (s : SuperScalarCPU cfg) (q : LoadStoreQueue cfg.lsqCapacity) (i : Nat) :
    LoadStoreQueue cfg.lsqCapacity :=
  q.setAddress (s.iq.entries i).robIndex
    (MemoryExecutionUnit.calculateAddress (s.iq.entries i))

/-- The queues reached by recording the addresses of loads that must wait. -/
inductive Waits (s : SuperScalarCPU cfg) : LoadStoreQueue cfg.lsqCapacity → Prop
  | start : Waits s s.lsq
  | wait {q : LoadStoreQueue cfg.lsqCapacity} {i : Nat} (hq : Waits s q) (hi : s.MemReady i)
      (hr : (s.iq.entries i).memoryRead = true)
      (hw : ((s.addressed q i).executeLoad (s.iq.entries i).robIndex).mustWait = true) :
      Waits s (s.addressed q i)

/-- The word a load takes: forwarded, else read from memory. -/
def loadData (s : SuperScalarCPU cfg) (q : LoadStoreQueue cfg.lsqCapacity) (i : Nat) : Word :=
  let fwd := (s.addressed q i).executeLoad (s.iq.entries i).robIndex
  if fwd.hit then fwd.data
  else (s.dataMemory.read (MemoryExecutionUnit.calculateAddress (s.iq.entries i))).getD 0

/-- The CPU after the load in slot `i` executed against the queue `q`. -/
def loaded (s : SuperScalarCPU cfg) (q : LoadStoreQueue cfg.lsqCapacity) (i : Nat) :
    SuperScalarCPU cfg :=
  { s.finish i (s.loadData q i) with
    lsq :=
      ((s.addressed q i).completeLoad (s.iq.entries i).robIndex (s.loadData q i)).markExecuted
        (s.iq.entries i).robIndex }

/-- The CPU after the store in slot `i` executed against the queue `q`. -/
def stored (s : SuperScalarCPU cfg) (q : LoadStoreQueue cfg.lsqCapacity) (i : Nat) :
    SuperScalarCPU cfg :=
  { s.finish i (s.iq.entries i).rs2Value with
    lsq :=
      ((s.addressed q i).setStoreData (s.iq.entries i).robIndex
        (s.iq.entries i).rs2Value).markExecuted (s.iq.entries i).robIndex,
    storeBuffer :=
      s.storeBuffer.update (s.iq.entries i).robIndex
        (MemoryExecutionUnit.calculateAddress (s.iq.entries i)) (s.iq.entries i).rs2Value }

/-- The result `execute` reports for a load. -/
def loadResult (s : SuperScalarCPU cfg) (q : LoadStoreQueue cfg.lsqCapacity) (i : Nat) :
    MemoryResult :=
  { valid := true, isLoad := true, robIndex := (s.iq.entries i).robIndex,
    physicalRd := (s.iq.entries i).physicalRd,
    address := MemoryExecutionUnit.calculateAddress (s.iq.entries i), data := s.loadData q i }

/-- The result `execute` reports for a store. -/
def storeResult (s : SuperScalarCPU cfg) (q : LoadStoreQueue cfg.lsqCapacity) (i : Nat) :
    MemoryResult :=
  (MemoryExecutionUnit.processStore
    { s.memUnit with lsq := q, issueQueue := s.iq.remove i } (s.iq.entries i)).1

/-- The cases of `mem_unit_.execute()`, with the results it returns. -/
inductive MemoryCase (s t : SuperScalarCPU cfg) : List MemoryResult → Prop
  | idle (q : LoadStoreQueue cfg.lsqCapacity) (hq : Waits s q) (h : t = { s with lsq := q }) :
      MemoryCase s t []
  | load (q : LoadStoreQueue cfg.lsqCapacity) (i : Nat) (hq : Waits s q) (hi : s.MemReady i)
      (hr : (s.iq.entries i).memoryRead = true)
      (hw : ((s.addressed q i).executeLoad (s.iq.entries i).robIndex).mustWait = false)
      (h : t = s.loaded q i) : MemoryCase s t [s.loadResult q i]
  | store (q : LoadStoreQueue cfg.lsqCapacity) (i : Nat) (hq : Waits s q) (hi : s.MemReady i)
      (hr : (s.iq.entries i).memoryRead = false) (hw : (s.iq.entries i).memoryWrite = true)
      (h : t = s.stored q i) : MemoryCase s t [s.storeResult q i]

theorem MemoryCase.of_load {t : SuperScalarCPU cfg} {rs : List MemoryResult}
    (q : LoadStoreQueue cfg.lsqCapacity) (i : Nat) (hq : Waits s q) (hi : s.MemReady i)
    (hr : (s.iq.entries i).memoryRead = true)
    (hw : ((s.addressed q i).executeLoad (s.iq.entries i).robIndex).mustWait = false)
    (ht : t = s.loaded q i) (hrs : rs = [s.loadResult q i]) : MemoryCase s t rs := by
  rw [hrs]
  exact .load q i hq hi hr hw ht

theorem MemoryCase.of_store {t : SuperScalarCPU cfg} {rs : List MemoryResult}
    (q : LoadStoreQueue cfg.lsqCapacity) (i : Nat) (hq : Waits s q) (hi : s.MemReady i)
    (hr : (s.iq.entries i).memoryRead = false) (hw : (s.iq.entries i).memoryWrite = true)
    (ht : t = s.stored q i) (hrs : rs = [s.storeResult q i]) : MemoryCase s t rs := by
  rw [hrs]
  exact .store q i hq hi hr hw ht

/-- A property that finishing a memory operation keeps, and that does not look at the memory
    queues, survives memory execution. -/
theorem MemoryCase.preserves {t : SuperScalarCPU cfg} {rs : List MemoryResult}
    {P : SuperScalarCPU cfg → Prop} (hc : MemoryCase s t rs) (h : P s)
    (hfinish : ∀ i r, s.MemReady i →
      (s.iq.entries i).memoryRead = true ∨ (s.iq.entries i).memoryWrite = true → P (s.finish i r))
    (hqueues : ∀ (u : SuperScalarCPU cfg) lsq storeBuffer, P u →
      P { u with lsq := lsq, storeBuffer := storeBuffer }) : P t := by
  cases hc with
  | idle q _ ht =>
      rw [ht]
      exact hqueues s q s.storeBuffer h
  | load q i _ hi hr _ ht =>
      rw [ht]
      exact hqueues _ _ s.storeBuffer (hfinish i (s.loadData q i) hi (Or.inl hr))
  | store q i _ hi _ hw ht =>
      rw [ht]
      exact hqueues _ _ _ (hfinish i (s.iq.entries i).rs2Value hi (Or.inr hw))

/-- The state `memUnit` leaves behind. -/
def withMemUnit (s : SuperScalarCPU cfg) (u : MemoryExecutionUnit cfg) : SuperScalarCPU cfg :=
  { s with
    rob := u.rob, iq := u.issueQueue, prf := u.prf, lsq := u.lsq,
    storeBuffer := u.storeBuffer, dataMemory := u.dataMemory }

theorem memoryStage_eq (s : SuperScalarCPU cfg) :
    s.memoryStage = s.withMemUnit s.memUnit.execute.2 := rfl

/-- `write_back` completes the instruction it is given, which is in flight. -/
theorem writeBack_eq (u : MemoryExecutionUnit cfg) (result : MemoryResult)
    (hv : result.valid = true) (hlt : result.robIndex < cfg.robCapacity)
    (hr : (u.rob.entries result.robIndex).valid = true) :
    MemoryExecutionUnit.writeBack u result =
      { u with
        prf := if result.isLoad then u.prf.write result.physicalRd result.data else u.prf,
        issueQueue :=
          if result.isLoad then u.issueQueue.wakeup result.physicalRd result.data
          else u.issueQueue,
        rob := u.rob.complete result.robIndex result.data } := by
  have he : u.rob.entry result.robIndex = some (u.rob.entries result.robIndex) := by
    rw [ReOrderBuffer.entry, if_neg (by omega)]
  cases hl : result.isLoad <;> simp [MemoryExecutionUnit.writeBack, hv, he, hr, hl]

variable {i : Nat}

theorem MemReady.live (hi : s.MemReady i) : s.iq.entries i ∈ s.iq.live := by
  have h := hi.2
  simp only [MemoryExecutionUnit.readyForMemoryExecution, Bool.and_eq_true] at h
  exact IssueQueue.entries_mem_live hi.1 h.1.1.1.1

theorem MemReady.valid (hi : s.MemReady i) : (s.iq.entries i).valid = true :=
  (IssueQueue.mem_live.mp hi.live).2

/-- The ROB slot of a queued instruction is in range and valid. -/
theorem InFlight.slot_valid (h : InFlight s.rob s.iq) {q : IssueQueueEntry} (hq : q ∈ s.iq.live) :
    q.robIndex < cfg.robCapacity ∧ (s.rob.entries q.robIndex).valid = true := by
  obtain ⟨e, he, _, hm⟩ := h.backed q hq
  rw [hm.robIndex]
  refine ⟨h.rob_wf.robIndex_lt he, ?_⟩
  rw [h.rob_wf.entries_robIndex he]
  exact h.rob_wf.valid_of_mem he

theorem executeFrom_cases (h : InFlight s.rob s.iq) {indices : List Nat}
    (hlt : ∀ i ∈ indices, i < cfg.iqCapacity) {q : LoadStoreQueue cfg.lsqCapacity}
    (hq : Waits s q) :
    MemoryCase s
      (s.withMemUnit (MemoryExecutionUnit.executeFrom indices { s.memUnit with lsq := q }).2)
      (MemoryExecutionUnit.executeFrom indices { s.memUnit with lsq := q }).1 := by
  -- the slots are scanned in order; the first that can execute ends the scan
  induction indices generalizing q with
  | nil => exact .idle q hq rfl
  | cons i indices ih =>
      have hlt' : ∀ j ∈ indices, j < cfg.iqCapacity := fun j hj => hlt j (List.mem_cons_of_mem _ hj)
      rw [MemoryExecutionUnit.executeFrom]
      by_cases hr : MemoryExecutionUnit.readyForMemoryExecution (s.iq.entries i) = true
      · have hi : s.MemReady i := ⟨hlt i (by simp), hr⟩
        obtain ⟨hcap, hvalid⟩ := InFlight.slot_valid h hi.live
        have hdec := h.queueDecoded _ hi.live
        by_cases hread : (s.iq.entries i).memoryRead = true
        · have hw : (s.iq.entries i).registerWrite = true := by
            rw [hdec.memoryRead, decodeWord_memoryRead, beq_iff_eq] at hread
            rw [hdec.registerWrite, decodeWord_registerWrite, hread]
            rfl
          -- a load behind a store that may alias it waits, and the scan goes on
          by_cases hwait : ((s.addressed q i).executeLoad (s.iq.entries i).robIndex).mustWait = true
          · have := ih hlt' (hq.wait hi hread hwait)
            unfold addressed at hwait
            simpa [memUnit, hr, hread, addressed, hwait] using this
          · have hwait' := eq_false_of_ne_true hwait
            refine .of_load q i hq hi hread hwait' ?_ ?_
            all_goals
              simp only [addressed] at hwait'
              simp only [memUnit, hr, hread, hwait', MemoryExecutionUnit.finishLoad, Bool.not_true,
                Bool.false_eq_true, if_false, if_true]
            · rw [writeBack_eq _ _ rfl hcap hvalid]
              simp only [withMemUnit, loaded, finish, loadData, addressed, hw, if_true]
              rfl
            · rfl
        · have hwrite : (s.iq.entries i).memoryWrite = true := by
            have := hr
            simp only [MemoryExecutionUnit.readyForMemoryExecution, Bool.and_eq_true,
              Bool.or_eq_true] at this
            exact this.2.resolve_left hread
          -- a store writes no register, so only the reorder buffer hears of it
          have hw : (s.iq.entries i).registerWrite = false := by
            have hop := hwrite
            rw [hdec.memoryWrite, decodeWord_memoryWrite, beq_iff_eq] at hop
            rw [hdec.registerWrite, decodeWord_registerWrite, hop]
            rfl
          refine .of_store q i hq hi (eq_false_of_ne_true hread) hwrite ?_ ?_
          all_goals
            simp only [memUnit, hr, eq_false_of_ne_true hread, MemoryExecutionUnit.processStore,
              Bool.not_true, Bool.false_eq_true, if_false]
          · rw [writeBack_eq _ _ rfl hcap hvalid]
            simp [withMemUnit, stored, finish, addressed, hw]
          · rfl
      · have := ih hlt' hq
        simpa [memUnit, hr] using this

/-- Stage 6 (A): nothing, one load or one store. -/
theorem memoryStage_cases (h : InFlight s.rob s.iq) :
    MemoryCase s s.memoryStage s.memUnit.execute.1 := by
  rw [memoryStage_eq]
  exact executeFrom_cases h (fun i hi => List.mem_range.mp hi) .start

/-- Executing a queued entry keeps the queue and the reorder buffer in step. -/
theorem InFlight.finish (h : InFlight s.rob s.iq) {i : Nat} (hi : i < cfg.iqCapacity)
    (hv : (s.iq.entries i).valid = true) (r : Word) :
    InFlight (s.finish i r).rob (s.finish i r).iq := by
  have := h.execute hi hv r
  simp only [SuperScalarCPU.finish]
  split
  · exact this.wakeup _ r
  · exact this

/-! ## Branch resolution and recovery -/

/-- Every branch in the window carries a valid snapshot of the alias table. -/
def Snapshots {n : Nat} (rob : ReOrderBuffer n) : Prop :=
  ∀ e ∈ rob.window, e.branch = true → e.hasCheckpoint = true ∧ e.checkpoint.valid = true

theorem selectBranch_some (h : s.selectBranch = some i) :
    i < cfg.iqCapacity ∧ s.iq.entries i ∈ s.iq.live ∧
      (s.iq.entries i).controlFlow = .BRANCH ∧ (s.iq.entries i).rs1Ready = true ∧
      (s.iq.entries i).rs2Ready = true := by
  obtain ⟨hi, hp⟩ := IssueQueue.findSlot_some h
  simp only [readyBranch, Bool.and_eq_true, beq_iff_eq] at hp
  exact ⟨hi, IssueQueue.entries_mem_live hi hp.1.1.1.1, hp.1.1.2, hp.1.2, hp.2⟩

theorem selectReadyAluEntry_some (h : s.selectReadyAluEntry = some i) :
    i < cfg.iqCapacity ∧ s.iq.entries i ∈ s.iq.live ∧ readyAlu (s.iq.entries i) = true := by
  obtain ⟨hi, hp⟩ := IssueQueue.findSlot_some h
  have hv := hp
  simp only [readyAlu, Bool.and_eq_true] at hv
  exact ⟨hi, IssueQueue.entries_mem_live hi hv.1.1.1.1.1.1.1.1, hp⟩

/-- A queued branch has no destination register. -/
theorem InFlight.branch_registerWrite (h : InFlight s.rob s.iq) {q : IssueQueueEntry}
    (hq : q ∈ s.iq.live) (hb : q.controlFlow = .BRANCH) : q.registerWrite = false := by
  have hdec := h.queueDecoded q hq
  rw [hdec.controlFlow, decodeWord_controlFlow] at hb
  rw [hdec.registerWrite, decodeWord_registerWrite]
  revert hb
  cases (decodeWord q.pc q.instruction).opcode <;> simp [controlFlowOf, writesRegister]

/-- Registers of squashed writers go back to the front of the free list. -/
def releaseSquashed (f : PhysicalRegisterFreeList) (es : List ROBEntry) :
    PhysicalRegisterFreeList :=
  es.foldl (fun f entry => if !entry.registerWrite then f else f.release entry.physicalRd) f

/-- The CPU after the branch in slot `i`, at window entry `b`, was mispredicted and
    everything younger (`post`) was squashed. -/
structure Recovers (s t : SuperScalarCPU cfg) (i : Nat) (pre : List ROBEntry) (b : ROBEntry)
    (post : List ROBEntry) : Prop where
  split : s.rob.window = pre ++ b :: post
  window : t.rob.window = pre ++ [b.finish (s.branchResult i).targetPc]
  wf : t.rob.WF
  frame :
    t =
      { s with
        rob := t.rob,
        iq := (s.iq.remove i).squash (post.map ROBEntry.robIndex),
        rat := { s.rat with table := b.checkpoint.mappings },
        freeList := releaseSquashed s.freeList post,
        predictor :=
          s.predictor.update (s.branchResult i).pc (s.branchResult i).taken
            (s.branchResult i).targetPc,
        frontend := s.frontend.requestRedirect (s.branchResult i).redirectPc,
        haltDispatched := false,
        branchesExecuted := s.branchesExecuted + 1,
        branchMispredictions := s.branchMispredictions + 1 }

/-- The cases of stage 6 (B). -/
inductive BranchCase (s t : SuperScalarCPU cfg) : Prop
  | none (hi : s.selectBranch = none) (h : t = s)
  | correct (i : Nat) (hi : s.selectBranch = some i)
      (hm : (s.branchResult i).mispredicted = false) (h : t = s.resolveBranch i)
  | mispredicted (i : Nat) (hi : s.selectBranch = some i)
      (hm : (s.branchResult i).mispredicted = true) (pre : List ROBEntry) (b : ROBEntry)
      (post : List ROBEntry) (hb : (s.iq.entries i).Matches b) (hc : b.completed = false)
      (h : Recovers s t i pre b post)

/-- The window after finishing one of its entries. -/
theorem window_complete_split {n : Nat} {rob : ReOrderBuffer n} (h : rob.WF)
    {pre post : List ROBEntry} {b : ROBEntry} (hw : rob.window = pre ++ b :: post) (r : Word) :
    (rob.complete b.robIndex r).WF ∧
      (rob.complete b.robIndex r).window = pre ++ b.finish r :: post := by
  obtain ⟨hwf, hwin⟩ := h.complete b.robIndex r
  have hnodup := h.nodup_robIndex
  rw [hw, List.map_append, List.map_cons, List.nodup_append, List.nodup_cons] at hnodup
  refine ⟨hwf, ?_⟩
  rw [hwin, hw, List.map_append, List.map_cons, ReOrderBuffer.finishAt, if_pos rfl]
  have hsame : ∀ es : List ROBEntry, (∀ e ∈ es, e.robIndex ≠ b.robIndex) →
      es.map (ReOrderBuffer.finishAt b.robIndex r) = es := fun es hes => by
    conv_rhs => rw [← List.map_id es]
    refine List.map_congr_left fun e he => ?_
    rw [ReOrderBuffer.finishAt, if_neg (hes e he), id]
  rw [hsame pre fun e he heq => hnodup.2.2 _ (List.mem_map_of_mem he) b.robIndex (by simp) heq,
    hsame post fun e he heq => hnodup.2.1.1 (heq ▸ List.mem_map_of_mem he)]

/-- `recover` when the branch is in flight with its own snapshot. -/
theorem recover_eq {u : BranchRecoveryUnit cfg} {result : BranchResult} {e : ROBEntry}
    {rob' : ReOrderBuffer cfg.robCapacity} {squashed : List ROBEntry} {indices : List Nat}
    (hv : result.valid = true) (hm : result.mispredicted = true)
    (he : u.rob.entry result.robIndex = some e) (hev : e.valid = true)
    (hcp : e.hasCheckpoint = true) (hcv : e.checkpoint.valid = true)
    (hsq : u.rob.squashYoungerThan result.robIndex = (rob', squashed, indices)) :
    u.recover result =
      (true,
        { rob := rob', rat := { u.rat with table := e.checkpoint.mappings },
          freeList := releaseSquashed u.freeList squashed,
          issueQueue := u.issueQueue.squash indices }) := by
  simp [BranchRecoveryUnit.recover, hv, hm, he, hev, hsq, hcv, hcp, releaseSquashed,
    BranchRecoveryUnit.checkpointToRestore, RegisterAliasTable.restore]

theorem branchStage_cases (h : InFlight s.rob s.iq) (hs : Snapshots s.rob) :
    BranchCase s s.branchStage := by
  rw [branchStage]
  cases hi : s.selectBranch with
  | none => exact .none hi rfl
  | some i =>
      dsimp only
      by_cases hm : (s.branchResult i).mispredicted = true
      · rw [if_pos hm]
        obtain ⟨hlt, hlive, hflow, -, -⟩ := selectBranch_some hi
        -- the branch stands in the window, and the entries behind it are squashed
        obtain ⟨b, hb, hc, hmatch⟩ := h.backed _ hlive
        obtain ⟨pre, post, hw⟩ := List.append_of_mem hb
        obtain ⟨hwf', hwin'⟩ :=
          window_complete_split h.rob_wf hw (s.branchResult i).targetPc
        have hbranch : b.branch = true := by
          rw [(h.entryDecoded b hb).branch, ← hmatch.pc, ← hmatch.instruction,
            ← (h.queueDecoded _ hlive).controlFlow, hflow]
          rfl
        obtain ⟨hcp, hcpv⟩ := hs b hb hbranch
        -- recovery squashes once, and the squash of the stage then finds nothing
        obtain ⟨rob2, hsq2, hwf2, hwin2⟩ := hwf'.squashYoungerThan hwin'
        obtain ⟨rob3, hsq3, hwf3, hwin3⟩ := hwf2.squashYoungerThan
          (show rob2.window = pre ++ b.finish (s.branchResult i).targetPc :: [] from hwin2)
        rw [show (b.finish (s.branchResult i).targetPc).robIndex = (s.iq.entries i).robIndex
          from hmatch.robIndex.symm] at hsq2 hsq3
        rw [← hmatch.robIndex] at hwf' hwin' hsq2
        -- recovery looks the entry up after it was completed
        have hentry : (s.rob.complete (s.iq.entries i).robIndex (s.branchResult i).targetPc).entry
            (s.iq.entries i).robIndex = some (b.finish (s.branchResult i).targetPc) := by
          have hmem : b.finish (s.branchResult i).targetPc ∈
              (s.rob.complete (s.iq.entries i).robIndex (s.branchResult i).targetPc).window := by
            rw [hwin']
            simp
          have hidx : (b.finish (s.branchResult i).targetPc).robIndex =
              (s.iq.entries i).robIndex := hmatch.robIndex.symm
          have hlt := hwf'.robIndex_lt hmem
          have hget := hwf'.entries_robIndex hmem
          rw [hidx] at hlt hget
          rw [ReOrderBuffer.entry, if_neg (by omega), hget]
        have hbv : (b.finish (s.branchResult i).targetPc).valid = true :=
          (h.rob_wf.valid_of_mem hb : b.valid = true)
        have hrec : BranchRecoveryUnit.recover
            { rob := s.rob.complete (s.iq.entries i).robIndex (s.branchResult i).targetPc,
              rat := s.rat, freeList := s.freeList, issueQueue := s.iq.remove i }
            (s.branchResult i) = _ := recover_eq rfl hm hentry hbv hcp hcpv hsq2
        have hstep : (s.resolveBranch i).recoverMispredicted (s.branchResult i) =
            { s with
              rob := rob3,
              iq := (s.iq.remove i).squash (post.map ROBEntry.robIndex),
              rat := { s.rat with table := b.checkpoint.mappings },
              freeList := releaseSquashed s.freeList post,
              predictor :=
                s.predictor.update (s.branchResult i).pc (s.branchResult i).taken
                  (s.branchResult i).targetPc,
              frontend := s.frontend.requestRedirect (s.branchResult i).redirectPc,
              haltDispatched := false,
              branchesExecuted := s.branchesExecuted + 1,
              branchMispredictions := s.branchMispredictions + 1 } := by
          have hidx : (s.branchResult i).robIndex = (s.iq.entries i).robIndex := rfl
          simp only [recoverMispredicted, resolveBranch, hrec, hidx, hsq3]
          rfl
        refine .mispredicted i hi hm pre b post hmatch hc ?_
        rw [hstep]
        exact ⟨hw, hwin3, hwf3, rfl⟩
      · rw [if_neg hm]
        exact .correct i hi (eq_false_of_ne_true hm) rfl

/-! ## Integer execution -/

/-- Induction over the ALU lanes of one step. -/
theorem aluLanes_induction {P : SuperScalarCPU cfg → Prop}
    (hstep : ∀ t i, P t → t.selectReadyAluEntry = some i → P (t.executeAlu i)) (n : Nat)
    (h : P s) : P (aluLanes n s) := by
  induction n generalizing s with
  | zero => exact h
  | succ n ih =>
      rw [aluLanes]
      split
      · exact h
      · rename_i i hi
        exact ih (hstep s i h hi)

/-- Stage 6 (C) as an induction principle. -/
theorem aluStage_induction {P : SuperScalarCPU cfg → Prop} (h : P s)
    (hstep : ∀ t i, P t → t.selectReadyAluEntry = some i → P (t.executeAlu i)) :
    P s.aluStage := aluLanes_induction hstep 2 h

end SuperScalarCPU

end CpuSim.SuperScalar
