/-
  CpuSim.SuperScalar.MemoryExecution

  One call of `MemoryExecutionUnit::execute`, on any contents of its structures: nothing,
  one load or one store, after the addresses of some waiting loads have been recorded.
  Nothing is assumed here but what the dispatcher promises: a ready operation of the issue
  queue finds its own entry of the load/store queue.
-/

import CpuSim.SuperScalar.Forwarding

namespace CpuSim.SuperScalar

open CpuSim.Lib

variable {cfg : Config}

namespace MemoryExecutionUnit

/-! ## The cases of a call -/

/-- The entry in slot `i` is one the unit may execute. -/
def Ready (u : MemoryExecutionUnit cfg) (i : Nat) : Prop :=
  i < cfg.iqCapacity ∧ readyForMemoryExecution (u.issueQueue.entries i) = true

/-- The queue after the address of the load in slot `i` has been recorded. -/
def addressed (u : MemoryExecutionUnit cfg) (q : LoadStoreQueue cfg.lsqCapacity) (i : Nat) :
    LoadStoreQueue cfg.lsqCapacity :=
  q.setAddress (u.issueQueue.entries i).robIndex (calculateAddress (u.issueQueue.entries i))

/-- The answer of the queue to the load in slot `i`. -/
def answer (u : MemoryExecutionUnit cfg) (q : LoadStoreQueue cfg.lsqCapacity) (i : Nat) :
    LoadResult :=
  (u.addressed q i).executeLoad (u.issueQueue.entries i).robIndex

/-- The queues reached by recording the addresses of loads that must wait. -/
inductive Waits (u : MemoryExecutionUnit cfg) : LoadStoreQueue cfg.lsqCapacity → Prop
  | start : Waits u u.lsq
  | wait {q : LoadStoreQueue cfg.lsqCapacity} {i : Nat} (hq : Waits u q) (hi : u.Ready i)
      (hr : (u.issueQueue.entries i).memoryRead = true) : Waits u (u.addressed q i)

/-- What a load leaves behind, with its result. -/
def loaded (u : MemoryExecutionUnit cfg) (q : LoadStoreQueue cfg.lsqCapacity) (i : Nat) :
    MemoryResult × MemoryExecutionUnit cfg :=
  finishLoad { u with lsq := u.addressed q i } i (u.issueQueue.entries i)
    (calculateAddress (u.issueQueue.entries i)) (u.answer q i)

/-- What a store leaves behind, with its result. -/
def stored (u : MemoryExecutionUnit cfg) (q : LoadStoreQueue cfg.lsqCapacity) (i : Nat) :
    MemoryResult × MemoryExecutionUnit cfg :=
  let out := processStore { u with lsq := q, issueQueue := u.issueQueue.remove i }
    (u.issueQueue.entries i)
  (out.1, writeBack out.2 out.1)

/-- The cases of `execute()`. -/
inductive Executes (u : MemoryExecutionUnit cfg) :
    List MemoryResult × MemoryExecutionUnit cfg → Prop
  | idle (q : LoadStoreQueue cfg.lsqCapacity) (hq : Waits u q) :
      Executes u ([], { u with lsq := q })
  | load (q : LoadStoreQueue cfg.lsqCapacity) (i : Nat) (hq : Waits u q) (hi : u.Ready i)
      (hr : (u.issueQueue.entries i).memoryRead = true) (hw : (u.answer q i).mustWait = false) :
      Executes u ([(u.loaded q i).1], (u.loaded q i).2)
  | store (q : LoadStoreQueue cfg.lsqCapacity) (i : Nat) (hq : Waits u q) (hi : u.Ready i)
      (hr : (u.issueQueue.entries i).memoryRead = false) :
      Executes u ([(u.stored q i).1], (u.stored q i).2)

variable {u : MemoryExecutionUnit cfg}

theorem executeFrom_executes {indices : List Nat} (hlt : ∀ i ∈ indices, i < cfg.iqCapacity)
    {q : LoadStoreQueue cfg.lsqCapacity} (hq : Waits u q) :
    Executes u (executeFrom indices { u with lsq := q }) := by
  induction indices generalizing q with
  | nil => exact .idle q hq
  | cons i indices ih =>
      have hlt' : ∀ j ∈ indices, j < cfg.iqCapacity := fun j hj => hlt j (List.mem_cons_of_mem _ hj)
      rw [executeFrom]
      by_cases hr : readyForMemoryExecution (u.issueQueue.entries i) = true
      · have hi : u.Ready i := ⟨hlt i List.mem_cons_self, hr⟩
        by_cases hread : (u.issueQueue.entries i).memoryRead = true
        · by_cases hwait : (u.answer q i).mustWait = true
          · -- the load waits, and the scan goes on with its address recorded
            have hrest := ih hlt' (hq.wait hi hread)
            unfold answer addressed at hwait
            unfold addressed at hrest
            simp only [hr, hread, hwait, Bool.not_true, Bool.false_eq_true, if_false, if_true]
            exact hrest
          · have hgo := eq_false_of_ne_true hwait
            have hload := Executes.load q i hq hi hread hgo
            unfold answer addressed at hgo
            simp only [hr, hread, hgo, Bool.not_true, Bool.false_eq_true, if_false, if_true]
            exact hload
        · have hstore := Executes.store q i hq hi (eq_false_of_ne_true hread)
          simp only [hr, hread, Bool.not_true, Bool.false_eq_true, if_false]
          exact hstore
      · simp only [hr, Bool.not_false, if_true]
        exact ih hlt' hq

/-- A call does nothing, or executes one load or one store. -/
theorem execute_executes (u : MemoryExecutionUnit cfg) : Executes u u.execute :=
  executeFrom_executes (fun _ hi => List.mem_range.mp hi) .start

/-! ## Write back -/

@[simp] theorem writeBack_lsq (u : MemoryExecutionUnit cfg) (r : MemoryResult) :
    (writeBack u r).lsq = u.lsq := by
  unfold writeBack
  split
  · rfl
  split
  · rfl
  split
  · rfl
  · split <;> rfl

theorem loaded_lsq (q : LoadStoreQueue cfg.lsqCapacity) (i : Nat) :
    (u.loaded q i).2.lsq =
      ((u.addressed q i).completeLoad (u.issueQueue.entries i).robIndex
        (u.loaded q i).1.data).markExecuted (u.issueQueue.entries i).robIndex := by
  rw [loaded, finishLoad]
  dsimp only
  rw [writeBack_lsq]

theorem stored_lsq (q : LoadStoreQueue cfg.lsqCapacity) (i : Nat) :
    (u.stored q i).2.lsq =
      ((u.addressed q i).setStoreData (u.issueQueue.entries i).robIndex
        (u.issueQueue.entries i).rs2Value).markExecuted (u.issueQueue.entries i).robIndex := by
  rw [stored]
  dsimp only
  rw [writeBack_lsq]
  rfl

/-! ## Waiting loads -/

/-- What the dispatcher promises: the entry with the index of a ready operation is of its
    kind and has not executed. -/
structure Offers (u : MemoryExecutionUnit cfg) : Prop where
  load : ∀ i, u.Ready i → (u.issueQueue.entries i).memoryRead = true →
    ∀ l ∈ u.lsq.entries, l.robIndex = (u.issueQueue.entries i).robIndex →
      l.type = .LOAD ∧ l.executed = false
  store : ∀ i, u.Ready i → (u.issueQueue.entries i).memoryRead = false →
    ∀ l ∈ u.lsq.entries, l.robIndex = (u.issueQueue.entries i).robIndex →
      l.type = .STORE ∧ l.executed = false

end MemoryExecutionUnit

/-- `l'` is `l`, or a load not yet executed whose address has been recorded. -/
def LSQEntry.Awaits (l l' : LSQEntry) : Prop :=
  l' = l ∨ (l.type = .LOAD ∧ l.executed = false ∧
    ∃ a, l' = { l with address := a, addressValid := true })

namespace LSQEntry.Awaits

variable {l l' l'' : LSQEntry}

theorem refl (l : LSQEntry) : l.Awaits l := Or.inl rfl

theorem trans (h : l.Awaits l') (h' : l'.Awaits l'') : l.Awaits l'' := by
  rcases h with rfl | ⟨ht, he, a, rfl⟩
  · exact h'
  · rcases h' with rfl | ⟨-, -, b, rfl⟩
    · exact Or.inr ⟨ht, he, a, rfl⟩
    · exact Or.inr ⟨ht, he, b, rfl⟩

theorem fields (h : l.Awaits l') :
    l'.valid = l.valid ∧ l'.type = l.type ∧ l'.robIndex = l.robIndex ∧
      l'.executed = l.executed := by
  rcases h with rfl | ⟨-, -, a, rfl⟩ <;> exact ⟨rfl, rfl, rfl, rfl⟩

theorem store_eq (h : l.Awaits l') (ht : l.type = .STORE) : l' = l := by
  rcases h with rfl | ⟨hl, -⟩
  · rfl
  · rw [hl] at ht
    cases ht

theorem executed_eq (h : l.Awaits l') (he : l.executed = true) : l' = l := by
  rcases h with rfl | ⟨-, hno, -⟩
  · rfl
  · rw [hno] at he
    cases he

end LSQEntry.Awaits

namespace MemoryExecutionUnit

variable {u : MemoryExecutionUnit cfg}

/-- Recording the address of a ready load. -/
theorem Offers.addressed (h : u.Offers) {q : LoadStoreQueue cfg.lsqCapacity}
    (hq : List.Forall₂ LSQEntry.Awaits u.lsq.entries q.entries) {i : Nat} (hi : u.Ready i)
    (hr : (u.issueQueue.entries i).memoryRead = true) :
    List.Forall₂ LSQEntry.Awaits u.lsq.entries (u.addressed q i).entries := by
  apply forall₂_updateFirst hq
  intro l hl l' hrel hmatch
  obtain ⟨-, htype, hindex, hexec⟩ := hrel.fields
  rw [LoadStoreQueue.matchesRob, Bool.and_eq_true, beq_iff_eq] at hmatch
  obtain ⟨ht, he⟩ := h.load i hi hr l hl (hindex.symm.trans hmatch.2)
  exact hrel.trans (Or.inr ⟨htype.trans ht, hexec.trans he, _, rfl⟩)

/-- Loads that wait change nothing but their own addresses. -/
theorem Waits.awaits {q : LoadStoreQueue cfg.lsqCapacity} (hq : Waits u q) (h : u.Offers) :
    List.Forall₂ LSQEntry.Awaits u.lsq.entries q.entries := by
  induction hq with
  | start => exact List.forall₂_same.mpr fun l _ => .refl l
  | wait _ hi hr ih => exact h.addressed ih hi hr

end MemoryExecutionUnit

/-! ## The scan behind waiting loads -/

namespace LoadStoreQueue

variable {n : Nat} {a : Word}

/-- The scan looks at stores only. -/
theorem scanOlder_congr {xs ys : List LSQEntry} (h : List.Forall₂ LSQEntry.Awaits xs ys) :
    scanOlder a ys = scanOlder a xs := by
  induction h with
  | nil => rfl
  | @cons x y xs ys hxy _ ih =>
      obtain ⟨hvalid, htype, -, -⟩ := hxy.fields
      by_cases ht : x.type = .STORE
      · rw [hxy.store_eq ht, scanOlder, scanOlder, ih]
      · rw [scanOlder_load ht, scanOlder_load (htype ▸ ht), ih]

theorem awaits_tags {q q' : LoadStoreQueue n}
    (h : List.Forall₂ LSQEntry.Awaits q.entries q'.entries) : q'.tags = q.tags :=
  tags_of_forall₂ h fun hxy => ⟨hxy.fields.1, hxy.fields.2.1, hxy.fields.2.2.1⟩

theorem nodup_of_tags {q q' : LoadStoreQueue n} (h : q.slots.Nodup) (ht : q'.tags = q.tags) :
    q'.slots.Nodup := by
  rw [slots_eq_tags, ht, ← slots_eq_tags]
  exact h

end LoadStoreQueue

end CpuSim.SuperScalar
