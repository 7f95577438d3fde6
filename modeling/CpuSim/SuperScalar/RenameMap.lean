/-
  CpuSim.SuperScalar.RenameMap

  The alias table against the window.  `Renaming m s` says that, starting from the
  map `m` of the retired instructions, the window is a renaming in the sense of
  the library: the alias table is the map after it, every entry records the
  register it replaced, every queued source was the current name when its reader
  was renamed, no register is live twice, and the snapshot of a branch is the map
  right behind the branch or right behind its bundle mate.
-/

import CpuSim.Lib.Renaming
import CpuSim.SuperScalar.Fetched

namespace CpuSim.SuperScalar

open CpuSim.Lib.Renaming

variable {cfg : Config}

/-! ## What entries and events rename -/

/-- The destination of a ROB entry: architectural register and its new name. -/
def ROBEntry.dst (e : ROBEntry) : Option (Register × PhysicalRegister) :=
  if e.registerWrite then some (e.architecturalRd, e.physicalRd) else none

/-- The same of a commit event. -/
def CommitEvent.dst (ev : CommitEvent) : Option (Register × PhysicalRegister) :=
  if ev.registerWrite then some (ev.architecturalRd, ev.physicalRd) else none

/-- The same of a renamed bundle. -/
def RenameBundle.dst (b : RenameBundle) : Option (Register × PhysicalRegister) :=
  if b.valid && b.registerWrite then some (b.rd, b.physicalRd) else none

@[simp] theorem ROBEntry.dst_finish (e : ROBEntry) (r : Word) : (e.finish r).dst = e.dst := rfl

@[simp] theorem ROBEntry.dst_finishAt (e : ROBEntry) (i : Nat) (r : Word) :
    (ReOrderBuffer.finishAt i r e).dst = e.dst := by
  rw [ReOrderBuffer.finishAt]
  split <;> rfl

/-- A branch writes no register, touches no memory and does not halt. -/
theorem ROBEntry.FromDecode.of_branch {e : ROBEntry} (h : e.FromDecode) (hb : e.branch = true) :
    e.registerWrite = false ∧ e.memoryRead = false ∧ e.memoryWrite = false ∧ e.halt = false := by
  rw [h.branch, decodeWord_controlFlow, beq_iff_eq] at hb
  rw [h.registerWrite, h.memoryRead, h.memoryWrite, h.halt, decodeWord_registerWrite,
    decodeWord_memoryRead, decodeWord_memoryWrite, decodeWord_halt]
  cases hop : (decodeWord e.pc e.instruction).opcode <;> rw [hop] at hb <;>
    first | exact ⟨rfl, rfl, rfl, rfl⟩ | cases hb

theorem CommitEvent.dst_makeEvent (prf : PhysicalRegisterFile cfg.prfCount) (e : ROBEntry) :
    (CommitUnit.makeEvent prf e).dst = e.dst := rfl

theorem ROBEntry.dst_laneEntry (s : SuperScalarCPU cfg) {b : RenameBundle} (hv : b.valid = true) :
    (s.laneEntry b).dst = b.dst := by
  rw [SuperScalarCPU.laneEntry_eq, ROBEntry.dst, RenameBundle.dst, hv, Bool.true_and]

/-- The map after the entries `es`. -/
abbrev mapAfter (m : Register → PhysicalRegister) (es : List ROBEntry) :
    Register → PhysicalRegister := mapping ROBEntry.dst m es

theorem mapAfter_append (m : Register → PhysicalRegister) (xs ys : List ROBEntry) :
    mapAfter m (xs ++ ys) = mapAfter (mapAfter m xs) ys := mapping_append

theorem mapAfter_pair (m : Register → PhysicalRegister) (pre : List ROBEntry) (b e : ROBEntry) :
    mapAfter m (pre ++ [b, e]) = advance ROBEntry.dst (mapAfter m (pre ++ [b])) e := by
  rw [show pre ++ [b, e] = pre ++ [b] ++ [e] by simp]
  exact mapping_concat

/-- The map of the retired instructions: the reset mapping updated by their events. -/
def committedMap (events : List CommitEvent) : Register → PhysicalRegister :=
  mapping CommitEvent.dst RegisterAliasTable.resetTable events

theorem committedMap_append (prf : PhysicalRegisterFile cfg.prfCount) (events : List CommitEvent)
    (es : List ROBEntry) :
    committedMap (events ++ es.map (CommitUnit.makeEvent prf)) =
      mapAfter (committedMap events) es := by
  rw [committedMap, mapping_append]
  exact mapping_map fun e _ => CommitEvent.dst_makeEvent prf e

/-! ## One lane of rename -/

namespace RenameUnit

variable {n : Nat} {u u' : RenameUnit n} {input : DecodeBundle} {out : RenameBundle}

/-- A destination is handed out to exactly the valid register-writing inputs. -/
theorem Renames.dst_isSome (h : Renames u input out u') :
    out.dst.isSome = (input.valid && input.registerWrite) := by
  cases h with
  | bubble hv ho _ => rw [hv, ho]; rfl
  | reader hv hw ho _ => rw [hv, ho, RenameBundle.dst]; simp [preserve, hw]
  | writer p rest hv hw _ ho _ => rw [hv, hw, ho, RenameBundle.dst]; simp [preserve, hw]

/-- The destination is the front of the free list. -/
theorem Renames.freeList_eq (h : Renames u input out u') :
    u.freeList.freeRegisters = names RenameBundle.dst [out] ++ u'.freeList.freeRegisters := by
  cases h with
  | bubble _ ho hu =>
      have hd : out.dst = none := by rw [ho]; rfl
      rw [names_cons_none hd, hu]
      rfl
  | reader _ hw ho hu =>
      have hd : out.dst = none := by rw [ho, RenameBundle.dst]; simp [preserve, hw]
      rw [names_cons_none hd, hu]
      rfl
  | writer p rest _ hw hf ho hu =>
      have hd : out.dst = some (input.rd, p) := by rw [ho, RenameBundle.dst]; simp [preserve, hw]
      rw [names_cons_some hd, hf, hu]
      rfl

/-- The name replaced is the current one, and so are the source names. -/
theorem Renames.lookups (h : Renames u input out u') :
    (∀ r p, out.dst = some (r, p) → out.oldPhysicalRd = u.rat.table r) ∧
      (input.valid = true → out.physicalRs1 = u.rat.table input.rs1 ∧
        out.physicalRs2 = u.rat.table input.rs2) := by
  cases h with
  | bubble hv ho _ =>
      refine ⟨fun r p hd => ?_, fun hx => ?_⟩
      · rw [ho] at hd
        cases hd
      · rw [hv] at hx
        cases hx
  | reader _ hw ho _ =>
      refine ⟨fun r p hd => ?_, fun _ => by rw [ho]; exact ⟨rfl, rfl⟩⟩
      rw [ho, RenameBundle.dst] at hd
      simp [preserve, hw] at hd
  | writer p rest _ hw _ ho _ =>
      refine ⟨fun r q hd => ?_, fun _ => by rw [ho]; exact ⟨rfl, rfl⟩⟩
      rw [ho, RenameBundle.dst] at hd
      simp only [preserve, hw, Bool.and_self, if_true, Option.some.injEq, Prod.mk.injEq] at hd
      rw [ho, ← hd.1]
      rfl

/-- The alias table advances by the destination, as long as the table knows the
    register handed out. -/
theorem Renames.table_eq (h : Renames u input out u')
    (hrange : ∀ p ∈ names RenameBundle.dst [out], p < u.rat.physicalRegCount) :
    u'.rat.table = advance RenameBundle.dst u.rat.table out ∧
      u'.rat.physicalRegCount = u.rat.physicalRegCount := by
  cases h with
  | bubble _ ho hu =>
      have hd : out.dst = none := by rw [ho]; rfl
      rw [advance_none hd, hu]
      exact ⟨rfl, rfl⟩
  | reader _ hw ho hu =>
      have hd : out.dst = none := by rw [ho, RenameBundle.dst]; simp [preserve, hw]
      rw [advance_none hd, hu]
      exact ⟨rfl, rfl⟩
  | writer p rest _ hw _ ho hu =>
      have hd : out.dst = some (input.rd, p) := by rw [ho, RenameBundle.dst]; simp [preserve, hw]
      have hp := hrange p (by rw [names_cons_some hd]; exact List.mem_cons_self)
      rw [advance_some hd, hu, RegisterAliasTable.set, if_neg (Nat.not_le.mpr hp)]
      exact ⟨rfl, rfl⟩

end RenameUnit

namespace SuperScalarCPU

variable {s t : SuperScalarCPU cfg} {m : Register → PhysicalRegister}

/-- The snapshot of a branch `b` between `pre` and `post`: taken behind the branch, or
    behind the register-writing mate that entered with it. -/
def SnapshotOf (m : Register → PhysicalRegister) (pre : List ROBEntry) (b : ROBEntry)
    (post : List ROBEntry) : Prop :=
  b.checkpoint.mappings = mapAfter m (pre ++ [b]) ∨
    ∃ mate rest, post = mate :: rest ∧ mate.registerWrite = true ∧
      b.checkpoint.mappings = mapAfter m (pre ++ [b, mate])

/-- The source names of a queue entry are those current in front of its instruction. -/
def SourcesOf (m : Register → PhysicalRegister) (pre : List ROBEntry) (q : IssueQueueEntry) :
    Prop :=
  q.physicalRs1 = mapAfter m pre (decodeWord q.pc q.instruction).rs1 ∧
    q.physicalRs2 = mapAfter m pre (decodeWord q.pc q.instruction).rs2

/-- The register numbers in use: those of the map `m`, the names the window handed out
    on top of it, and the free ones. -/
def pool (m : Register → PhysicalRegister) (s : SuperScalarCPU cfg) :
    Multiset PhysicalRegister :=
  image m + (names ROBEntry.dst s.rob.window : Multiset PhysicalRegister) +
    (s.freeList.freeRegisters : Multiset PhysicalRegister)

/-- The window is a renaming that starts from the map `m`. -/
structure Renaming (m : Register → PhysicalRegister) (s : SuperScalarCPU cfg) : Prop where
  count : s.rat.physicalRegCount = cfg.prfCount
  table : s.haltDispatched = false → s.rat.table = mapAfter m s.rob.window
  records : Records ROBEntry.dst ROBEntry.oldPhysicalRd m s.rob.window
  distinct : (pool m s).Nodup
  snapshot : ∀ pre b post, s.rob.window = pre ++ b :: post → b.branch = true →
    b.completed = false → SnapshotOf m pre b post
  sources : ∀ q ∈ s.iq.live, ∃ pre e post, s.rob.window = pre ++ e :: post ∧ q.Matches e ∧
    SourcesOf m pre q

namespace Renaming

theorem congr (h : Renaming m s) (hrob : t.rob = s.rob) (hiq : t.iq = s.iq)
    (hrat : t.rat = s.rat) (hfree : t.freeList = s.freeList)
    (hd : t.haltDispatched = s.haltDispatched) : Renaming m t := by
  refine ⟨?_, ?_, ?_, ?_, ?_, ?_⟩
  · rw [hrat]; exact h.count
  · rw [hrat, hd, hrob]; exact h.table
  · rw [hrob]; exact h.records
  · rw [pool, hrob, hfree]; exact h.distinct
  · rw [hrob]; exact h.snapshot
  · rw [hrob, hiq]; exact h.sources

/-! ## Commit -/

/-- Retirement gives the replaced registers back, in order, at the end. -/
theorem retireAll_freeList {u : CommitUnit cfg} {es : List ROBEntry}
    (hne : ∀ e ∈ es, e.registerWrite = true → e.oldPhysicalRd ≠ INVALID_REGISTER) :
    (u.retireAll es).freeList.freeRegisters =
      u.freeList.freeRegisters ++ olds ROBEntry.dst ROBEntry.oldPhysicalRd es := by
  induction es generalizing u with
  | nil => simp [olds]
  | cons e es ih =>
      rw [CommitUnit.retireAll_cons, ih fun x hx => hne x (List.mem_cons_of_mem _ hx),
        CommitUnit.retire_freeList]
      cases hw : e.registerWrite with
      | false => simp [olds, ROBEntry.dst, hw]
      | true =>
          have := hne e List.mem_cons_self hw
          simp [olds, ROBEntry.dst, hw, PhysicalRegisterFreeList.releaseBack, this]

/-- Retirement moves the replaced registers from the map to the free list. -/
theorem pool_commit (h : Records ROBEntry.dst ROBEntry.oldPhysicalRd m s.rob.window)
    (hs : Sound s) {es : List ROBEntry} (hc : Commits s t es) :
    pool (mapAfter m es) t = pool m s := by
  rw [hc.window, Records.append_iff] at h
  have hold : ∀ e ∈ es, e.registerWrite = true → e.oldPhysicalRd ≠ INVALID_REGISTER := by
    intro e he hw heq
    have hmem : e ∈ s.rob.window := by
      rw [hc.window]
      exact List.mem_append_left _ he
    have := ((hs.numbered.entry e hmem).1 hw).2
    rw [heq] at this
    exact absurd this (by decide)
  have hfree : t.freeList.freeRegisters =
      s.freeList.freeRegisters ++ olds ROBEntry.dst ROBEntry.oldPhysicalRd es := by
    rw [hc.freeList, retireAll_freeList hold]
    rfl
  rw [pool, pool, hfree, hc.window, names_append, ← Multiset.coe_add, ← Multiset.coe_add,
    ← add_assoc (image m), ← image_mapping_add_olds h.1]
  abel

theorem commit (h : Renaming m s) (hs : Sound s) {es : List ROBEntry} (hc : Commits s t es) :
    Renaming (mapAfter m es) t := by
  have hrec := h.records
  rw [hc.window, Records.append_iff] at hrec
  refine ⟨hc.physicalRegCount.trans h.count, fun hd => ?_, hrec.2, ?_, ?_, ?_⟩
  · rw [hc.table, h.table (hc.haltDispatched ▸ hd), hc.window]
    exact mapping_append
  · rw [pool_commit h.records hs hc]
    exact h.distinct
  · intro pre b post hw hb hcomp
    have := h.snapshot (es ++ pre) b post (by rw [hc.window, hw, List.append_assoc]) hb hcomp
    rw [SnapshotOf] at this ⊢
    simpa only [mapAfter, List.append_assoc, mapping_append] using this
  · intro q hq
    rw [hc.iq] at hq
    obtain ⟨pre, e, post, hw, hm, hsrc⟩ := h.sources q hq
    -- a queued instruction is not completed, so it is behind the retired ones
    obtain ⟨e', he', hcomp, hm'⟩ := hs.inFlight.backed q hq
    have hee : e' = e := hs.inFlight.rob_wf.eq_of_robIndex he' (by rw [hw]; simp)
      (hm'.robIndex.symm.trans hm.robIndex)
    subst hee
    rw [hc.window] at hw
    rcases List.append_eq_append_iff.mp hw with ⟨as, hpre, hrest⟩ | ⟨bs, hes, hrest⟩
    · refine ⟨as, e', post, hrest, hm, ?_⟩
      rw [SourcesOf, hpre] at hsrc
      rw [SourcesOf]
      simpa only [mapAfter, mapping_append] using hsrc
    · cases bs with
      | nil =>
          refine ⟨[], e', post, by simpa using hrest.symm, hm, ?_⟩
          rw [List.append_nil] at hes
          rw [SourcesOf, ← hes] at hsrc
          exact hsrc
      | cons x bs =>
          obtain ⟨rfl, -⟩ := List.cons.inj hrest
          rw [hc.completed e' (by rw [hes]; simp)] at hcomp
          cases hcomp

/-! ## Execution -/

theorem mapAfter_finishAt (i : Nat) (r : Word) (es : List ROBEntry) :
    mapAfter m (es.map (ReOrderBuffer.finishAt i r)) = mapAfter m es :=
  mapping_map fun e _ => e.dst_finishAt i r

/-- A split of the window after one entry finished comes from a split before. -/
theorem split_finish (hs : Sound s) {i : Nat} {r : Word} {pre post : List ROBEntry}
    {e : ROBEntry} (hw : (s.finish i r).rob.window = pre ++ e :: post) :
    ∃ pre0 e0 post0, s.rob.window = pre0 ++ e0 :: post0 ∧
      pre = pre0.map (ReOrderBuffer.finishAt (s.iq.entries i).robIndex r) ∧
      e = ReOrderBuffer.finishAt (s.iq.entries i).robIndex r e0 ∧
      post = post0.map (ReOrderBuffer.finishAt (s.iq.entries i).robIndex r) := by
  rw [hs.window_finish] at hw
  obtain ⟨pre0, rest, hw0, rfl, hrest⟩ := List.map_eq_append_iff.mp hw
  obtain ⟨e0, post0, rfl, rfl, rfl⟩ := List.map_eq_cons_iff.mp hrest
  exact ⟨pre0, e0, post0, hw0, rfl, rfl, rfl⟩

theorem pool_finish (hs : Sound s) (i : Nat) (r : Word) : pool m (s.finish i r) = pool m s := by
  rw [pool, hs.window_finish, names_map fun e _ => e.dst_finishAt _ r]
  rfl

theorem finish (h : Renaming m s) (hs : Sound s) {i : Nat} (hi : i < cfg.iqCapacity)
    (hv : (s.iq.entries i).valid = true) (r : Word) : Renaming m (s.finish i r) := by
  have hwin := hs.window_finish i r
  refine ⟨h.count, fun hd => ?_, ?_, ?_, ?_, ?_⟩
  · rw [hwin, mapAfter_finishAt]
    exact h.table hd
  · rw [hwin]
    refine h.records.map (fun e _ => e.dst_finishAt _ r) fun e _ => ?_
    rw [ReOrderBuffer.finishAt]
    split <;> rfl
  · rw [pool_finish hs]
    exact h.distinct
  · intro pre b post hw hb hc
    obtain ⟨pre0, b0, post0, hw0, rfl, rfl, rfl⟩ := split_finish hs hw
    have hkeep : ReOrderBuffer.finishAt (s.iq.entries i).robIndex r b0 = b0 := by
      rw [ReOrderBuffer.finishAt] at hc ⊢
      split at hc
      · cases hc
      · rename_i hne
        rw [if_neg hne]
    rw [hkeep] at hb hc ⊢
    have happ : ∀ l, mapAfter m (pre0.map (ReOrderBuffer.finishAt (s.iq.entries i).robIndex r) ++ l)
        = mapAfter m (pre0 ++ l) := fun l => by
      rw [mapAfter, mapAfter, mapping_append, mapping_append]
      exact congrArg (mapping ROBEntry.dst · l) (mapAfter_finishAt _ r pre0)
    rcases h.snapshot pre0 b0 post0 hw0 hb hc with hcp | ⟨mate, rest, rfl, hmw, hcp⟩
    · exact Or.inl (by rw [hcp, happ])
    · refine Or.inr ⟨_, _, rfl, ?_, ?_⟩
      · rw [ReOrderBuffer.finishAt]
        split <;> exact hmw
      · rw [hcp, happ]
        -- the mate may be the entry that finished
        have hmate := advance_congr (m := mapAfter m (pre0 ++ [b0]))
          (mate.dst_finishAt (s.iq.entries i).robIndex r)
        rw [mapAfter_pair, mapAfter_pair, hmate]
  · intro q hq
    obtain ⟨q0, hq0, -, rfl⟩ := hs.live_finish hi hv r hq
    obtain ⟨pre, e, post, hw, hm, hsrc⟩ := h.sources q0 hq0
    have hvalid := (IssueQueue.mem_live.mp hq0).2
    refine ⟨pre.map (ReOrderBuffer.finishAt (s.iq.entries i).robIndex r),
      ReOrderBuffer.finishAt (s.iq.entries i).robIndex r e,
      post.map (ReOrderBuffer.finishAt (s.iq.entries i).robIndex r), ?_, ?_, ?_⟩
    · rw [hwin, hw, List.map_append, List.map_cons]
    · have hm' : q0.Matches (ReOrderBuffer.finishAt (s.iq.entries i).robIndex r e) := by
        rw [ReOrderBuffer.finishAt]
        split
        · exact hm.finish r
        · exact hm
      split
      · exact hm'.wakeup hvalid _ r
      · exact hm'
    · rw [SourcesOf, mapAfter_finishAt]
      split
      · rw [q0.wakeup_eq _ _ hvalid]
        exact hsrc
      · exact hsrc

theorem memory {rs : List MemoryResult} (h : Renaming m s) (hs : Sound s)
    (hc : MemoryCase s t rs) : Renaming m t :=
  hc.preserves h (fun _ r hi _ => h.finish hs hi.1 hi.valid r) fun _ _ _ hu =>
    hu.congr rfl rfl rfl rfl rfl

theorem executeAlu (h : Renaming m s) (hs : Sound s) {i : Nat}
    (hi : s.selectReadyAluEntry = some i) : Renaming m (s.executeAlu i) := by
  obtain ⟨hlt, hlive, -⟩ := selectReadyAluEntry_some hi
  rw [executeAlu_eq]
  exact h.finish hs hlt (IssueQueue.mem_live.mp hlive).2 _

/-! ## Recovery -/

/-- The snapshot of the branch at slot `idx` names no destination of a younger entry. -/
def SnapshotClean {n : Nat} (rob : ReOrderBuffer n) (idx : Nat) : Prop :=
  ∀ e ∈ (rob.squashYoungerThan idx).2.1, e.registerWrite = true →
    (rob.entries idx).checkpoint.mappings e.architecturalRd ≠ e.physicalRd

theorem releaseSquashed_freeList {f : PhysicalRegisterFreeList} {es : List ROBEntry}
    (hne : ∀ e ∈ es, e.registerWrite = true → e.physicalRd ≠ INVALID_REGISTER) :
    (releaseSquashed f es).freeRegisters =
      (names ROBEntry.dst es).reverse ++ f.freeRegisters := by
  induction es generalizing f with
  | nil => rfl
  | cons e es ih =>
      rw [releaseSquashed, List.foldl_cons]
      refine (ih fun x hx => hne x (List.mem_cons_of_mem _ hx)).trans ?_
      cases hw : e.registerWrite with
      | false => simp [names, ROBEntry.dst, hw]
      | true =>
          have := hne e List.mem_cons_self hw
          simp [names, ROBEntry.dst, hw, PhysicalRegisterFreeList.release, this]

/-- The snapshot a recovery restores is the map behind the branch, unless it names the
    register of a squashed instruction. -/
theorem snapshot_exact (h : Renaming m s) (hs : Sound s) {pre post : List ROBEntry}
    {b : ROBEntry} (hw : s.rob.window = pre ++ b :: post) (hb : b.branch = true)
    (hc : b.completed = false) (hclean : SnapshotClean s.rob b.robIndex) :
    b.checkpoint.mappings = mapAfter m (pre ++ [b]) := by
  rcases h.snapshot pre b post hw hb hc with hcp | ⟨mate, rest, rfl, hmw, hcp⟩
  · exact hcp
  · obtain ⟨rob', hsq, -, -⟩ := hs.inFlight.rob_wf.squashYoungerThan hw
    have hbe : s.rob.entries b.robIndex = b :=
      hs.inFlight.rob_wf.entries_robIndex (by rw [hw]; simp)
    have := hclean mate (by rw [hsq]; simp) hmw
    rw [hbe, hcp, mapAfter_pair, advance_some (r := mate.architecturalRd) (p := mate.physicalRd)
      (by simp [ROBEntry.dst, hmw]), Function.update_self] at this
    exact absurd rfl this

theorem branch_of_select (hs : Sound s) {i : Nat} {b : ROBEntry}
    (hi : s.selectBranch = some i) (hm : (s.iq.entries i).Matches b) (hb : b ∈ s.rob.window) :
    b.branch = true := by
  obtain ⟨-, hlive, hflow, -, -⟩ := selectBranch_some hi
  rw [(hs.inFlight.entryDecoded b hb).branch, ← hm.pc, ← hm.instruction,
    ← (hs.inFlight.queueDecoded _ hlive).controlFlow, hflow]
  rfl

/-- What is queued after a recovery was queued before, in front of the branch. -/
theorem live_recovered (hs : Sound s) {i : Nat} {pre post : List ROBEntry} {b : ROBEntry}
    (hi : s.selectBranch = some i) (hm : (s.iq.entries i).Matches b)
    (hr : Recovers s t i pre b post) {q : IssueQueueEntry} (hq : q ∈ t.iq.live) :
    q ∈ s.iq.live ∧ ∀ e ∈ b :: post, q.robIndex ≠ e.robIndex := by
  obtain ⟨hlt, hlive, -⟩ := selectBranch_some hi
  have hv := (IssueQueue.mem_live.mp hlive).2
  obtain ⟨-, hperm⟩ := hs.inFlight.iq_wf.remove hlt hv
  rw [hr.frame] at hq
  dsimp only at hq
  rw [IssueQueue.live_squash, List.mem_filter] at hq
  refine ⟨hperm.mem_iff.mpr (List.mem_cons_of_mem _ hq.1), fun e he => ?_⟩
  rcases List.mem_cons.mp he with rfl | he
  · -- the branch itself has left the queue
    have hnodup := (hperm.map IssueQueueEntry.robIndex).nodup_iff.mp hs.inFlight.unique
    rw [List.map_cons, List.nodup_cons] at hnodup
    intro heq
    exact hnodup.1 (by rw [hm.robIndex, ← heq]; exact List.mem_map_of_mem hq.1)
  · intro heq
    have hcon : (post.map ROBEntry.robIndex).contains q.robIndex = true := by
      rw [List.contains_iff_mem, heq]
      exact List.mem_map_of_mem he
    rw [hcon] at hq
    exact absurd hq.2 (by decide)

/-- A recovery gives the names handed out behind the branch back. -/
theorem pool_recovered (hs : Sound s) {i : Nat} {pre post : List ROBEntry} {b : ROBEntry}
    (hr : Recovers s t i pre b post) : pool m t = pool m s := by
  have hpost : ∀ e ∈ post, e.registerWrite = true → e.physicalRd ≠ INVALID_REGISTER := by
    intro e he hw heq
    have hmem : e ∈ s.rob.window := by
      rw [hr.split]
      simp [he]
    have := ((hs.numbered.entry e hmem).1 hw).1
    rw [heq] at this
    exact absurd this (by decide)
  have hfree : t.freeList.freeRegisters =
      (names ROBEntry.dst post).reverse ++ s.freeList.freeRegisters := by
    rw [hr.frame]
    exact releaseSquashed_freeList hpost
  have hnames : names ROBEntry.dst (pre ++ [b.finish (s.branchResult i).targetPc]) =
      names ROBEntry.dst (pre ++ [b]) := by
    rw [names_append, names_append]
    rfl
  have hsplit : names ROBEntry.dst (pre ++ b :: post) =
      names ROBEntry.dst (pre ++ [b]) ++ names ROBEntry.dst post := by
    rw [show pre ++ b :: post = pre ++ [b] ++ post by simp]
    exact names_append
  rw [pool, pool, hfree, hr.window, hnames, hr.split, hsplit, ← Multiset.coe_add,
    ← Multiset.coe_add, Multiset.coe_reverse]
  abel

theorem branch (h : Renaming m s) (hs : Sound s) (hc : BranchCase s t)
    (hclean : ∀ i, s.selectBranch = some i → (s.branchResult i).mispredicted = true →
      SnapshotClean s.rob (s.branchResult i).robIndex) : Renaming m t := by
  cases hc with
  | none _ ht => rw [ht]; exact h
  | correct i hi _ ht =>
      obtain ⟨hlt, hlive, -, -, -⟩ := selectBranch_some hi
      rw [ht, hs.resolveBranch_eq hi]
      exact (h.finish hs hlt (IssueQueue.mem_live.mp hlive).2 _).congr rfl rfl rfl rfl rfl
  | mispredicted i hi hm pre b post hmatch hcomp hr =>
      obtain ⟨hlt, hlive, hflow, -, -⟩ := selectBranch_some hi
      have hv := (IssueQueue.mem_live.mp hlive).2
      have hbw := InFlight.branch_registerWrite hs.inFlight hlive hflow
      have hb : b ∈ s.rob.window := by
        rw [hr.split]
        simp
      have hcl := hclean i hi hm
      rw [show (s.branchResult i).robIndex = b.robIndex from hmatch.robIndex] at hcl
      have hexact := h.snapshot_exact hs hr.split (branch_of_select hs hi hmatch hb) hcomp hcl
      have hfin : ∀ l : List ROBEntry,
          mapAfter m (l ++ [b.finish (s.branchResult i).targetPc]) = mapAfter m (l ++ [b]) :=
        fun l => by
          rw [mapAfter, mapAfter, mapping_concat, mapping_concat]
          exact advance_congr (b.dst_finish _)
      have hrec := h.records
      rw [hr.split, Records.append_iff] at hrec
      refine ⟨?_, fun _ => ?_, ?_, ?_, ?_, ?_⟩
      · rw [hr.frame]
        exact h.count
      · rw [hr.frame]
        dsimp only
        rw [hr.window, hfin, hexact]
      · rw [hr.window, Records.concat_iff]
        exact ⟨hrec.1, hrec.2.1⟩
      · rw [pool_recovered hs hr]
        exact h.distinct
      · intro pre1 b1 post1 hw1 hb1 hc1
        rw [hr.window] at hw1
        -- an unresolved branch that is left is in front of the one resolved
        obtain ⟨mid, hpre, hpost1⟩ := Lib.split_before hw1.symm fun hmem => by
          rw [List.mem_singleton.mp hmem] at hc1
          cases hc1
        have hsplit : s.rob.window = pre1 ++ b1 :: (mid ++ b :: post) := by
          rw [hr.split, hpre, List.append_assoc]
          rfl
        rcases h.snapshot pre1 b1 _ hsplit hb1 hc1 with hcp | ⟨mate, rest, hrest, hmw, hcp⟩
        · exact Or.inl hcp
        · cases mid with
          | nil =>
              obtain ⟨rfl, -⟩ := List.cons.inj hrest
              rw [((hs.inFlight.entryDecoded _ hb).of_branch
                (branch_of_select hs hi hmatch hb)).1] at hmw
              cases hmw
          | cons x mid =>
              obtain ⟨rfl, -⟩ := List.cons.inj hrest
              exact Or.inr ⟨x, _, hpost1, hmw, hcp⟩
      · intro q hq
        obtain ⟨hq0, hne⟩ := live_recovered hs hi hmatch hr hq
        obtain ⟨pre1, e, post1, hw1, hm1, hsrc⟩ := h.sources q hq0
        obtain ⟨mid, hpre, -⟩ := Lib.split_before (hw1.symm.trans hr.split) fun hmem =>
          hne e hmem hm1.robIndex
        refine ⟨pre1, e, mid ++ [b.finish (s.branchResult i).targetPc], ?_, hm1, hsrc⟩
        rw [hr.window, hpre, List.append_assoc]
        rfl

end Renaming

end SuperScalarCPU

end CpuSim.SuperScalar
