/-
  CpuSim.SuperScalar.StoreHistory

  The store buffer under any sequence of calls.  `StoreHistory` keeps, from the calls and
  their answers alone, which stores are pending, which are committed and which have been
  popped.  While no call names an index that a committed entry still holds, the buffer is
  the committed stores not yet popped, followed by the pending ones.
-/

import CpuSim.Lib.Chain
import CpuSim.SuperScalar.Memory

namespace CpuSim.SuperScalar

open CpuSim.Lib

/-! ## The calls -/

/-- A call of the store buffer. -/
inductive StoreCall where
  | allocate (robIndex : Nat) (pc : Word)
  | update (robIndex : Nat) (address data : Word)
  | markCommitted (robIndex : Nat)
  | squash (squashedRobIndices : List Nat)
  | popCommitted
  deriving DecidableEq

/-- What a call returns, as far as the history depends on it. -/
inductive StoreAnswer where
  | done
  | accepted (success : Bool)
  | popped (entry : Option StoreBufferEntry)
  deriving DecidableEq

/-- Run one call. -/
def StoreBuffer.call {Capacity : Nat} (sb : StoreBuffer Capacity) :
    StoreCall → StoreAnswer × StoreBuffer Capacity
  | .allocate robIndex pc =>
    match sb.allocate robIndex pc with
    | some sb' => (.accepted true, sb')
    | none => (.accepted false, sb)
  | .update robIndex address data => (.done, sb.update robIndex address data)
  | .markCommitted robIndex => (.done, sb.markCommitted robIndex)
  | .squash squashedRobIndices => (.done, sb.squash squashedRobIndices)
  | .popCommitted =>
    match sb.popCommitted with
    | some (e, sb') => (.popped (some e), sb')
    | none => (.popped none, sb)

/-! ## The stores behind the calls -/

/-- The stores that the calls so far are about: `pending` are allocated and neither
    committed nor squashed, `committed` are all that ever committed, each as its own last
    update left it, and `popped` are the entries handed out. -/
structure StoreHistory where
  pending : List StoreBufferEntry := []
  committed : List StoreBufferEntry := []
  popped : List StoreBufferEntry := []
  deriving DecidableEq

namespace StoreHistory

/-- The history behind one more call. -/
def after (h : StoreHistory) : StoreCall → StoreAnswer → StoreHistory
  | .allocate robIndex pc, .accepted true =>
    { h with pending := h.pending ++ [{ valid := true, robIndex, pc }] }
  | .update robIndex address data, _ =>
    { h with
      pending := h.pending.map fun e =>
        if e.robIndex = robIndex then
          { e with address := address, data := data, addressReady := true, dataReady := true }
        else e }
  | .markCommitted robIndex, _ =>
    match h.pending with
    | [] => h
    | e :: rest =>
      if e.robIndex = robIndex then
        { h with pending := rest, committed := h.committed ++ [{ e with committed := true }] }
      else h
  | .squash squashedRobIndices, _ =>
    { h with pending := h.pending.filter fun e => decide (e.robIndex ∉ squashedRobIndices) }
  | .popCommitted, .popped (some e) => { h with popped := h.popped ++ [e] }
  | _, _ => h

/-- Stores commit in allocation order, and an index is allocated again only when no
    pending store has it. -/
def Orderly (h : StoreHistory) : StoreCall → Prop
  | .allocate robIndex _ => ∀ e ∈ h.pending, e.robIndex ≠ robIndex
  | .markCommitted robIndex => ∀ e ∈ h.pending.tail, e.robIndex ≠ robIndex
  | _ => True

instance decidableOrderly (h : StoreHistory) : ∀ c, Decidable (h.Orderly c)
  | .allocate r _ => inferInstanceAs (Decidable (∀ e ∈ h.pending, e.robIndex ≠ r))
  | .update _ _ _ => isTrue trivial
  | .markCommitted r => inferInstanceAs (Decidable (∀ e ∈ h.pending.tail, e.robIndex ≠ r))
  | .squash _ => isTrue trivial
  | .popCommitted => isTrue trivial

end StoreHistory

namespace StoreBuffer

variable {n : Nat}

/-- A buffer with the history of its calls. -/
abbrev Recorded (n : Nat) := StoreBuffer n × StoreHistory

/-- One call on the buffer, recorded. -/
def record (x : Recorded n) (c : StoreCall) : Recorded n :=
  ((x.1.call c).2, x.2.after c (x.1.call c).1)

/-- The buffer behind a sequence of calls, with its history. -/
def recorded (n : Nat) (calls : List StoreCall) : Recorded n := calls.foldl record (.reset, {})

/-- The call does not name an index that a committed entry of the buffer still holds; for
    `mark_committed` this matters only when an uncommitted entry holds it too. -/
def NamesDrained (sb : StoreBuffer n) : StoreCall → Prop
  | .update robIndex _ _ => ∀ b ∈ sb.entries, b.committed = true → b.robIndex ≠ robIndex
  | .markCommitted robIndex =>
    (∀ b ∈ sb.entries, b.committed = true → b.robIndex ≠ robIndex) ∨
      ∀ b ∈ sb.entries, b.committed = false → b.robIndex ≠ robIndex
  | _ => True

instance decidableNamesDrained (sb : StoreBuffer n) : ∀ c, Decidable (sb.NamesDrained c)
  | .allocate _ _ => isTrue trivial
  | .update r _ _ =>
    inferInstanceAs (Decidable (∀ b ∈ sb.entries, b.committed = true → b.robIndex ≠ r))
  | .markCommitted r =>
    inferInstanceAs (Decidable
      ((∀ b ∈ sb.entries, b.committed = true → b.robIndex ≠ r) ∨
        ∀ b ∈ sb.entries, b.committed = false → b.robIndex ≠ r))
  | .squash _ => isTrue trivial
  | .popCommitted => isTrue trivial

/-- Committed entries stay as they are, each in its place. -/
def KeepsCommitted (sb sb' : StoreBuffer n) : Prop :=
  ∀ (i : Nat) (b : StoreBufferEntry), sb.entries[i]? = some b → b.committed = true →
    sb'.entries[i]? = some b

/-- A buffer whose entries are the committed stores not yet popped and, behind them, the
    pending ones. -/
def FollowsHistory (x : Recorded n) : Prop :=
  ∃ waiting, x.1.entries = waiting ++ x.2.pending ∧ x.2.popped ++ waiting = x.2.committed ∧
    ∀ b ∈ waiting, b.committed = true

/-- What is wanted of one call. -/
structure CallTolerates (x : Recorded n) (c : StoreCall) : Prop where
  update : ∀ robIndex address data, c = .update robIndex address data →
    KeepsCommitted x.1 (record x c).1
  mark : ∀ robIndex, c = .markCommitted robIndex → KeepsCommitted x.1 (record x c).1
  squash : ∀ squashed, c = .squash squashed →
    (record x c).1.entries =
      x.1.entries.filter fun b => b.committed || decide (b.robIndex ∉ squashed)
  history : FollowsHistory (record x c)

/-! ## One call -/

/-- `FollowsHistory` with what keeps it. -/
structure Recorded.Inv (x : Recorded n) (waiting : List StoreBufferEntry) : Prop where
  entries : x.1.entries = waiting ++ x.2.pending
  popped : x.2.popped ++ waiting = x.2.committed
  waiting : ∀ b ∈ waiting, b.valid = true ∧ b.committed = true
  pending : ∀ b ∈ x.2.pending, b.valid = true ∧ b.committed = false
  nodup : (x.2.pending.map StoreBufferEntry.robIndex).Nodup

variable {x : Recorded n} {w : List StoreBufferEntry}

theorem Recorded.Inv.valid (h : x.Inv w) {b : StoreBufferEntry} (hb : b ∈ x.1.entries) :
    b.valid = true := by
  rw [h.entries] at hb
  rcases List.mem_append.mp hb with hb | hb
  · exact (h.waiting b hb).1
  · exact (h.pending b hb).1

theorem inv_reset (n : Nat) : Recorded.Inv ((.reset, {}) : Recorded n) [] where
  entries := rfl
  popped := rfl
  waiting := by simp
  pending := by simp
  nodup := List.nodup_nil

theorem Recorded.Inv.allocate (h : x.Inv w) {r : Nat} {pc : Word}
    (ho : x.2.Orderly (.allocate r pc)) : (record x (.allocate r pc)).Inv w := by
  rw [record, call, StoreBuffer.allocate]
  by_cases hfull : x.1.full = true
  · simp only [hfull, if_true]
    exact h
  · simp only [hfull, Bool.false_eq_true, if_false]
    constructor
    · show x.1.entries ++ [_] = w ++ (x.2.pending ++ [_])
      rw [h.entries, List.append_assoc]
    · exact h.popped
    · exact h.waiting
    · intro b hb
      rcases List.mem_append.mp hb with hb | hb
      · exact h.pending b hb
      · rw [List.mem_singleton.mp hb]
        exact ⟨rfl, rfl⟩
    · -- the tag is not in use by a pending store
      show ((x.2.pending ++ [_]).map StoreBufferEntry.robIndex).Nodup
      rw [List.map_append, List.nodup_append]
      refine ⟨h.nodup, List.nodup_singleton _, ?_⟩
      rintro _ hi _ hj rfl
      obtain ⟨b, hb, hbi⟩ := List.mem_map.mp hi
      rw [List.map_singleton, List.mem_singleton] at hj
      exact ho b hb (hbi.trans hj)

theorem Recorded.Inv.update (h : x.Inv w) {r : Nat} {a d : Word}
    (hd : x.1.NamesDrained (.update r a d)) : (record x (.update r a d)).Inv w := by
  -- no entry on its way to memory has this tag
  have hskip : ∀ b ∈ w, matchesRob r b = false := by
    intro b hb
    rw [matchesRob_of_valid (h.waiting b hb).1, decide_eq_false_iff_not]
    apply hd b _ (h.waiting b hb).2
    rw [h.entries]
    exact List.mem_append_left _ hb
  constructor
  · show updateFirst _ _ x.1.entries = _
    rw [h.entries, updateFirst_append_right hskip]
    congr 1
    exact updateFirst_eq_map h.nodup fun b hb => matchesRob_of_valid (h.pending b hb).1 r
  · exact h.popped
  · exact h.waiting
  · intro b hb
    obtain ⟨b0, hb0, rfl⟩ := List.mem_map.mp hb
    have hkeep := h.pending b0 hb0
    split <;> exact hkeep
  · have hkeys : (record x (.update r a d)).2.pending.map StoreBufferEntry.robIndex =
        x.2.pending.map StoreBufferEntry.robIndex := by
      show (x.2.pending.map _).map StoreBufferEntry.robIndex = _
      rw [List.map_map]
      apply List.map_congr_left
      intro b _
      rw [Function.comp]
      split <;> rfl
    rw [hkeys]
    exact h.nodup

theorem Recorded.Inv.mark (h : x.Inv w) {r : Nat} (ho : x.2.Orderly (.markCommitted r))
    (hd : x.1.NamesDrained (.markCommitted r)) :
    ∃ w', (record x (.markCommitted r)).Inv w' := by
  by_cases hhead : ∃ e rest, x.2.pending = e :: rest ∧ e.robIndex = r
  · -- the oldest pending store commits, and no entry in front of it has its index
    obtain ⟨e, rest, hp, rfl⟩ := hhead
    have hpend := h.pending
    have hnodup := h.nodup
    rw [hp] at hpend hnodup
    have he := hpend e List.mem_cons_self
    have hmem : e ∈ x.1.entries := by
      rw [h.entries, hp]
      exact List.mem_append_right _ List.mem_cons_self
    have hfront : ∀ b ∈ w, matchesRob e.robIndex b = false := by
      intro b hb
      rw [matchesRob_of_valid (h.waiting b hb).1, decide_eq_false_iff_not]
      rcases hd with hd | hd
      · apply hd b _ (h.waiting b hb).2
        rw [h.entries]
        exact List.mem_append_left _ hb
      · exact absurd rfl (hd e hmem he.2)
    have hafter : (record x (.markCommitted e.robIndex)).2 =
        { x.2 with
          pending := rest, committed := x.2.committed ++ [{ e with committed := true }] } := by
      show x.2.after (.markCommitted e.robIndex) .done = _
      simp only [StoreHistory.after, hp, if_true]
    refine ⟨w ++ [{ e with committed := true }], ?_⟩
    constructor
    · rw [hafter]
      show updateFirst _ _ x.1.entries = (w ++ [_]) ++ rest
      rw [h.entries, updateFirst_append_right hfront, hp, updateFirst,
        matchesRob_of_valid he.1, decide_eq_true rfl, if_pos rfl, List.append_assoc,
        List.singleton_append]
    · rw [hafter]
      show x.2.popped ++ (w ++ [_]) = x.2.committed ++ [_]
      rw [← List.append_assoc, h.popped]
    · intro b hb
      rcases List.mem_append.mp hb with hb | hb
      · exact h.waiting b hb
      · rw [List.mem_singleton.mp hb]
        exact ⟨he.1, rfl⟩
    · rw [hafter]
      exact fun b hb => hpend b (List.mem_cons_of_mem _ hb)
    · rw [hafter]
      exact (List.nodup_cons.mp hnodup).2
  · -- no pending store has the index: what matches is committed already
    have hother : ∀ b ∈ x.2.pending, b.robIndex ≠ r := by
      intro b hb heq
      rcases hp : x.2.pending with _ | ⟨e, rest⟩
      · rw [hp] at hb
        cases hb
      · rw [hp] at hb
        rcases List.mem_cons.mp hb with rfl | hb
        · exact hhead ⟨b, rest, hp, heq⟩
        · apply ho b _ heq
          rw [hp]
          exact hb
    have hafter : (record x (.markCommitted r)).2 = x.2 := by
      show x.2.after (.markCommitted r) .done = x.2
      rcases hp : x.2.pending with _ | ⟨e, rest⟩
      · simp only [StoreHistory.after, hp]
      · have hne : e.robIndex ≠ r := by
          apply hother
          rw [hp]
          exact List.mem_cons_self
        simp only [StoreHistory.after, hp, hne, if_false]
    have hsame : (record x (.markCommitted r)).1.entries = x.1.entries := by
      apply updateFirst_of_fixed
      intro b hb hmatch
      rw [matchesRob_of_valid (h.valid hb), decide_eq_true_eq] at hmatch
      rw [h.entries] at hb
      rcases List.mem_append.mp hb with hb | hb
      · have hc := (h.waiting b hb).2
        cases b
        simp only at hc
        rw [hc]
      · exact absurd hmatch (hother b hb)
    refine ⟨w, ?_⟩
    constructor
    · rw [hsame, hafter]
      exact h.entries
    · rw [hafter]
      exact h.popped
    · exact h.waiting
    · rw [hafter]
      exact h.pending
    · rw [hafter]
      exact h.nodup

/-- `squash` as one filter. -/
theorem squash_entries (sb : StoreBuffer n) (rs : List Nat) :
    (sb.squash rs).entries =
      sb.entries.filter fun b => !(b.valid && !b.committed && decide (b.robIndex ∈ rs)) := by
  simp only [StoreBuffer.squash]
  generalize sb.entries = es
  induction rs generalizing es with
  | nil => simp
  | cons r rs ih =>
      rw [List.foldl_cons, ih, List.filter_filter]
      apply List.filter_congr
      intro b _
      cases b.valid <;> cases b.committed <;>
        simp only [Bool.not_true, Bool.not_false, Bool.true_and, Bool.false_and, Bool.and_true,
          Bool.and_false, List.mem_cons, Bool.decide_or, Bool.not_or]
      rw [Bool.and_comm, beq_eq_decide]

theorem Recorded.Inv.squash_entries (h : x.Inv w) (rs : List Nat) :
    (x.1.squash rs).entries =
      x.1.entries.filter fun b => b.committed || decide (b.robIndex ∉ rs) := by
  rw [StoreBuffer.squash_entries]
  apply List.filter_congr
  intro b hb
  rw [h.valid hb]
  cases b.committed <;> simp

theorem Recorded.Inv.squash (h : x.Inv w) (rs : List Nat) : (record x (.squash rs)).Inv w := by
  constructor
  · show (x.1.squash rs).entries = w ++ x.2.pending.filter _
    rw [h.squash_entries, h.entries, List.filter_append]
    congr 1
    · rw [List.filter_eq_self]
      intro b hb
      rw [(h.waiting b hb).2, Bool.true_or]
    · apply List.filter_congr
      intro b hb
      rw [(h.pending b hb).2, Bool.false_or]
  · exact h.popped
  · exact h.waiting
  · exact fun b hb => h.pending b (List.mem_of_mem_filter hb)
  · exact h.nodup.sublist (List.filter_sublist.map _)

theorem Recorded.Inv.pop (h : x.Inv w) : (record x .popCommitted).Inv w.tail := by
  have hcall : x.1.call .popCommitted =
      match w with
      | [] => (.popped none, x.1)
      | b :: w' => (.popped (some b), ⟨w' ++ x.2.pending⟩) := by
    rw [call, StoreBuffer.popCommitted, h.entries]
    rcases w with _ | ⟨b, w'⟩
    · -- with nothing committed the front, if any, is pending and stays
      rcases hp : x.2.pending with _ | ⟨e, rest⟩
      · rfl
      · have he := h.pending e (by rw [hp]; exact List.mem_cons_self)
        simp only [List.nil_append, he.2, Bool.and_false, Bool.false_eq_true, if_false]
    · have hb := h.waiting b List.mem_cons_self
      simp only [List.cons_append, hb.1, hb.2, Bool.and_self, if_true]
  rw [record, hcall]
  rcases w with _ | ⟨b, w'⟩
  · exact h
  · constructor
    · rfl
    · show x.2.popped ++ [b] ++ w' = x.2.committed
      rw [List.append_assoc]
      exact h.popped
    · exact fun c hc => h.waiting c (List.mem_cons_of_mem _ hc)
    · exact h.pending
    · exact h.nodup

/-- Every call keeps the invariant. -/
theorem Recorded.Inv.record (h : x.Inv w) {c : StoreCall} (ho : x.2.Orderly c)
    (hd : x.1.NamesDrained c) : ∃ w', (record x c).Inv w' := by
  rcases c with ⟨r, pc⟩ | ⟨r, a, d⟩ | r | rs | _
  · exact ⟨w, h.allocate ho⟩
  · exact ⟨w, h.update hd⟩
  · exact h.mark ho hd
  · exact ⟨w, h.squash rs⟩
  · exact ⟨w.tail, h.pop⟩

theorem Recorded.Inv.follows (h : x.Inv w) : FollowsHistory x :=
  ⟨w, h.entries, h.popped, fun b hb => (h.waiting b hb).2⟩

/-- What one call does. -/
theorem Recorded.Inv.tolerates (h : x.Inv w) {c : StoreCall} (ho : x.2.Orderly c)
    (hd : x.1.NamesDrained c) : CallTolerates x c where
  -- only an update of a committed entry would harm it, and `hd` rules that out
  update := by
    rintro r a d rfl i b hb hc
    apply updateFirst_getElem? hb
    intro hmatch
    have hmem := List.mem_of_getElem? hb
    rw [matchesRob_of_valid (h.valid hmem), decide_eq_true_eq] at hmatch
    exact absurd hmatch (hd b hmem hc)
  mark := by
    rintro r rfl i b hb hc
    apply updateFirst_getElem? hb
    intro _
    cases b
    simp only at hc
    rw [hc]
  squash := by
    rintro rs rfl
    exact h.squash_entries rs
  history := by
    obtain ⟨_, hnext⟩ := h.record ho hd
    exact hnext.follows

/-! ## Every run -/

/-- Popping as often as there are entries hands out what is left of the committed
    stores. -/
theorem Recorded.Inv.drain (h : x.Inv w) {k : Nat} (hk : w.length ≤ k) :
    ((List.replicate k StoreCall.popCommitted).foldl StoreBuffer.record x).2.popped =
      x.2.committed := by
  induction k generalizing x w with
  | zero =>
      obtain rfl := List.length_eq_zero_iff.mp (Nat.le_zero.mp hk)
      have hp := h.popped
      rwa [List.append_nil] at hp
  | succ k ih =>
      have hcommitted : (StoreBuffer.record x .popCommitted).2.committed = x.2.committed := by
        show (x.2.after .popCommitted _).committed = _
        rcases hans : (x.1.call .popCommitted).1 with _ | _ | _ | e <;> rfl
      rw [List.replicate_succ, List.foldl_cons, ← hcommitted]
      apply ih h.pop
      rw [List.length_tail]
      omega

theorem inv_recorded {calls : List StoreCall}
    (h : Chain record (fun x c => x.2.Orderly c ∧ x.1.NamesDrained c)
      ((.reset, {}) : Recorded n) calls) : ∃ w, (recorded n calls).Inv w := by
  apply h.foldl_invariant (I := fun x => ∃ w, x.Inv w) ⟨[], inv_reset n⟩
  rintro x c - ⟨ho, hd⟩ ⟨w, hw⟩
  exact hw.record ho hd

/-- In every orderly sequence of calls none of which names an index that a committed entry
    still holds, no call changes a committed entry, `squash` removes exactly the
    uncommitted entries it names, and what is popped, with what still waits, is what
    committed, in order; popping on hands out the rest. -/
theorem reuse_tolerated_when_drained (n : Nat) (calls : List StoreCall)
    (ho : Chain record (fun x c => x.2.Orderly c) ((.reset, {}) : Recorded n) calls)
    (hd : Chain record (fun x c => x.1.NamesDrained c) ((.reset, {}) : Recorded n) calls) :
    (∀ pre c post, calls = pre ++ c :: post → CallTolerates (recorded n pre) c) ∧
      FollowsHistory (recorded n calls) ∧
      (recorded n (calls ++
          List.replicate (recorded n calls).1.entries.length .popCommitted)).2.popped =
        (recorded n calls).2.committed := by
  have hboth := ho.and hd
  obtain ⟨w, hw⟩ := inv_recorded hboth
  refine ⟨?_, hw.follows, ?_⟩
  · intro pre c post hsplit
    rw [hsplit, Chain.append_iff] at hboth
    obtain ⟨v, hv⟩ := inv_recorded hboth.1
    have hc := hboth.2.1
    exact hv.tolerates hc.1 hc.2
  · rw [recorded, List.foldl_append]
    apply hw.drain
    rw [hw.entries, List.length_append]
    omega

/-- An index used again behind its drained store. -/
theorem reuse_tolerated_after_drain :
    let calls : List StoreCall :=
      [.allocate 3 0, .update 3 8 1, .markCommitted 3, .popCommitted, .allocate 3 4,
        .update 3 12 2, .markCommitted 3, .popCommitted]
    (∀ pre c post, calls = pre ++ c :: post → CallTolerates (recorded 16 pre) c) ∧
      FollowsHistory (recorded 16 calls) ∧
      (recorded 16 (calls ++
          List.replicate (recorded 16 calls).1.entries.length .popCommitted)).2.popped =
        (recorded 16 calls).2.committed := by
  intro calls
  apply reuse_tolerated_when_drained 16 calls
  · decide
  · decide

/-- The committed store of index 3 still waits when the index is used again: the update of
    the new store overwrites the old one, and the new one never commits. -/
theorem waiting_store_overwritten :
    let calls : List StoreCall :=
      [.allocate 3 0, .update 3 8 1, .markCommitted 3, .allocate 3 4, .update 3 12 2,
        .markCommitted 3, .popCommitted, .popCommitted]
    Chain record (fun x c => x.2.Orderly c) ((.reset, {}) : Recorded 16) calls ∧
      ¬ CallTolerates (recorded 16 (calls.take 4)) (.update 3 12 2) ∧
      (recorded 16 calls).2.popped.map (fun e => (e.address, e.data)) = [(12, 2)] ∧
      (recorded 16 calls).2.committed.map (fun e => (e.address, e.data)) = [(8, 1), (12, 2)] := by
  intro calls
  refine ⟨by decide, ?_, by decide, by decide⟩
  · intro h
    have hkept := h.update 3 12 2 rfl 0
      { valid := true, robIndex := 3, address := 8, data := 1, addressReady := true,
        dataReady := true, committed := true } (by decide) rfl
    exact absurd hkept (by decide)

end StoreBuffer

end CpuSim.SuperScalar
