/-
  CpuSim.SuperScalar.Operands

  Operand delivery: the physical register file holds the results of the completed
  instructions in flight under their names and the retired values under the committed
  ones, and a queued operand is ready exactly when its register is, with its value.
-/

import CpuSim.SuperScalar.Recovery

namespace CpuSim.SuperScalar

open CpuSim.Lib.Renaming

variable {cfg : Config}

/-! ## The register file -/

namespace PhysicalRegisterFile

variable {n : Nat} (prf : PhysicalRegisterFile n) {p q : PhysicalRegister} (v : Word)

/-- The second file has the register as the first one has it. -/
def AgreesOn (prf prf' : PhysicalRegisterFile n) (p : PhysicalRegister) : Prop :=
  prf'.ready p = prf.ready p ∧ prf'.read p = prf.read p

theorem write_self (hp : p < n) : (prf.write p v).ready p = true ∧ (prf.write p v).read p = v := by
  simp [write, ready, read, hp]

theorem write_other (hq : q ≠ p) : prf.AgreesOn (prf.write p v) q := by
  by_cases hp : p < n <;> simp [AgreesOn, write, ready, read, hp, Function.update_of_ne hq]

theorem allocate_self : (prf.allocate p).ready p = false := by
  by_cases hp : p < n <;> simp [allocate, ready, hp]

theorem allocate_other (hq : q ≠ p) : prf.AgreesOn (prf.allocate p) q := by
  by_cases hp : p < n <;> simp [AgreesOn, allocate, ready, read, hp, Function.update_of_ne hq]

theorem setReady_other (hq : q ≠ p) (b : Bool) : prf.AgreesOn (prf.setReady p b) q := by
  by_cases hp : p < n <;> simp [AgreesOn, setReady, ready, read, hp, Function.update_of_ne hq]

end PhysicalRegisterFile

theorem ArchitecturalRegisterFile.read_write {n : Nat} (hn : 16 ≤ n)
    (arf : ArchitecturalRegisterFile n) (rd r : Register) (v : Word) :
    (arf.write rd v).read r = if r = rd then v else arf.read r := by
  have hrd : ¬ rd.val ≥ n := by omega
  have hr : ¬ r.val ≥ n := by omega
  rw [write, if_neg hrd, read, if_neg hr, read, if_neg hr]
  exact Function.update_apply _ _ _ _

/-- What a renamed lane does to the register file: its destination is not ready, every
    other register keeps its state. -/
theorem RenameUnit.Renames.prf {n : Nat} {u u' : RenameUnit n} {input : DecodeBundle}
    {out : RenameBundle} (h : RenameUnit.Renames u input out u') :
    (∀ p ∈ names RenameBundle.dst [out], u'.prf.ready p = false) ∧
      ∀ p ∉ names RenameBundle.dst [out], u.prf.AgreesOn u'.prf p := by
  cases h with
  | bubble _ ho hu =>
      rw [ho, hu]
      refine ⟨fun p hp => ?_, fun p _ => ⟨rfl, rfl⟩⟩
      cases hp
  | reader _ hw ho hu =>
      have hnone : out.dst = none := by
        rw [ho]
        simp [RenameBundle.dst, preserve, hw]
      rw [hu, names_cons_none hnone]
      refine ⟨fun p hp => ?_, fun p _ => ⟨rfl, rfl⟩⟩
      cases hp
  | writer p rest _ hw _ ho hu =>
      -- the one register taken loses its ready bit, the others are untouched
      have hsome : out.dst = some (input.rd, p) := by
        rw [ho]
        simp [RenameBundle.dst, preserve, hw]
      rw [hu, names_cons_some hsome]
      constructor
      · intro q hq
        rw [List.mem_singleton.mp hq]
        exact PhysicalRegisterFile.allocate_self _
      · intro q hq
        apply PhysicalRegisterFile.allocate_other
        rintro rfl
        exact hq List.mem_cons_self

/-! ## Queued operands -/

/-- An operand an instruction does not read is ready; one it reads is ready exactly when
    its register is, and then has its value. -/
def OperandHolds {n : Nat} (prf : PhysicalRegisterFile n) (reads : Bool) (p : PhysicalRegister)
    (ready : Bool) (value : Word) : Prop :=
  if reads then ready = prf.ready p ∧ (ready = true → value = prf.read p) else ready = true

theorem OperandHolds.agrees {n : Nat} {prf prf' : PhysicalRegisterFile n} {reads ready : Bool}
    {p : PhysicalRegister} {value : Word} (h : OperandHolds prf reads p ready value)
    (hag : prf.AgreesOn prf' p) : OperandHolds prf' reads p ready value := by
  rw [OperandHolds] at h ⊢
  rwa [hag.1, hag.2]

/-- A broadcast keeps an operand in step with the write of the register file. -/
theorem OperandHolds.broadcast {n : Nat} {prf : PhysicalRegisterFile n} {reads ready : Bool}
    {p q : PhysicalRegister} {value : Word} (h : OperandHolds prf reads q ready value)
    (hp : p < n) (hbusy : prf.ready p = false) (v : Word) :
    OperandHolds (prf.write p v) reads q (ready || q == p)
      (if !ready && q == p then v else value) := by
  by_cases hq : q = p
  · obtain ⟨h1, h2⟩ := prf.write_self v hp
    rw [hq, OperandHolds, h1, h2]
    rw [OperandHolds, hq, hbusy] at h
    cases reads with
    | false => simp
    | true =>
        rw [if_pos rfl] at h ⊢
        rw [h.1]
        simp
  · have hne : (q == p) = false := beq_eq_false_iff_ne.mpr hq
    rw [hne, Bool.or_false, Bool.and_false]
    exact h.agrees (prf.write_other v hq)

/-- Both operands of a queued instruction hold. -/
def IssueQueueEntry.Holds {n : Nat} (prf : PhysicalRegisterFile n) (q : IssueQueueEntry) : Prop :=
  OperandHolds prf (q.operandA == .REGISTER) q.physicalRs1 q.rs1Ready q.rs1Value ∧
    OperandHolds prf (q.operandB == .REGISTER || q.memoryWrite) q.physicalRs2 q.rs2Ready
      q.rs2Value

theorem makeIssueEntry_holds {n : Nat} (prf : PhysicalRegisterFile n) (b : RenameBundle) (i : Nat) :
    (DispatchUnit.makeIssueEntry prf b i).Holds prf := by
  constructor <;> rw [OperandHolds] <;> split
  all_goals
    rename_i hreads
    simp only [DispatchUnit.makeIssueEntry] at hreads ⊢
    simp only [hreads, if_true, if_false, Bool.false_eq_true]
  · exact ⟨trivial, fun _ => trivial⟩
  · exact ⟨trivial, fun _ => trivial⟩

theorem IssueQueueEntry.Holds.wakeup {n : Nat} {prf : PhysicalRegisterFile n}
    {q : IssueQueueEntry} (h : q.Holds prf) (hv : q.valid = true) {p : PhysicalRegister}
    (hp : p < n) (hbusy : prf.ready p = false) (v : Word) :
    (q.wakeup p v).Holds (prf.write p v) := by
  have h1 := h.1.broadcast hp hbusy v
  have h2 := h.2.broadcast hp hbusy v
  rw [IssueQueueEntry.wakeup_eq q p v hv]
  exact ⟨h1, h2⟩

namespace SuperScalarCPU

variable {s t : SuperScalarCPU cfg} {m : Register → PhysicalRegister}

/-! ## The invariant -/

/-- The register file against what has retired (`m` names it) and what is in flight. -/
structure Delivery (m : Register → PhysicalRegister) (s : SuperScalarCPU cfg) : Prop where
  range : ∀ p ∈ names ROBEntry.dst s.rob.window, p < cfg.prfCount
  produced : ∀ e ∈ s.rob.window, e.registerWrite = true →
    s.prf.ready e.physicalRd = e.completed ∧
      (e.completed = true → s.prf.read e.physicalRd = e.result)
  committed : ∀ r, s.prf.ready (m r) = true ∧ s.prf.read (m r) = s.arf.read r
  operands : ∀ q ∈ s.iq.live, q.Holds s.prf

namespace Delivery

theorem congr (h : Delivery m s) (hrob : t.rob = s.rob) (hiq : t.iq = s.iq) (hprf : t.prf = s.prf)
    (harf : t.arf = s.arf) : Delivery m t := by
  refine ⟨?_, ?_, ?_, ?_⟩
  · rw [hrob]
    exact h.range
  · rw [hrob, hprf]
    exact h.produced
  · rw [hprf, harf]
    exact h.committed
  · rw [hiq, hprf]
    exact h.operands

theorem mem_names_of {e : ROBEntry} (he : e ∈ s.rob.window) (hw : e.registerWrite = true) :
    e.physicalRd ∈ names ROBEntry.dst s.rob.window :=
  mem_names.mpr ⟨e, he, e.architecturalRd, by rw [ROBEntry.dst, if_pos hw]⟩

/-- Retiring completed entries moves their values to the architectural file. -/
theorem retireAll_committed (harf : 16 ≤ cfg.arfCount) {u : CommitUnit cfg} {es : List ROBEntry}
    (hprod : ∀ e ∈ es, e.registerWrite = true → u.prf.ready e.physicalRd = true)
    (h : ∀ r, u.prf.ready (m r) = true ∧ u.prf.read (m r) = u.arf.read r) :
    ∀ r, u.prf.ready (mapAfter m es r) = true ∧
      u.prf.read (mapAfter m es r) = (u.retireAll es).arf.read r := by
  induction es generalizing u m with
  | nil => exact h
  | cons e es ih =>
      have hprf := CommitUnit.retire_prf u e
      have hstep := ih (u := CommitUnit.retire u e) (m := advance ROBEntry.dst m e)
        (fun x hx hw => by rw [hprf]; exact hprod x (List.mem_cons_of_mem _ hx) hw) fun r => by
          rw [hprf, CommitUnit.retire_arf]
          cases hw : e.registerWrite with
          | false =>
              have hnone : e.dst = none := by rw [ROBEntry.dst, hw, if_neg Bool.false_ne_true]
              rw [advance_none hnone]
              exact h r
          | true =>
              have hsome : e.dst = some (e.architecturalRd, e.physicalRd) := by
                rw [ROBEntry.dst, if_pos hw]
              rw [advance_some hsome, if_pos rfl, ArchitecturalRegisterFile.read_write harf]
              -- the value that retires becomes the committed value of its register
              by_cases hr : r = e.architecturalRd
              · rw [hr, Function.update_self, if_pos rfl]
                exact ⟨hprod e List.mem_cons_self hw, rfl⟩
              · rw [Function.update_of_ne hr, if_neg hr]
                exact h r
      rw [hprf] at hstep
      exact hstep

theorem commit (h : Delivery m s) (harf : 16 ≤ cfg.arfCount) {es : List ROBEntry}
    (hc : Commits s t es) : Delivery (mapAfter m es) t := by
  have hmem : ∀ e ∈ es, e ∈ s.rob.window := fun e he => by
    rw [hc.window]
    exact List.mem_append_left _ he
  have hprod : ∀ e ∈ es, e.registerWrite = true → s.commitUnit.prf.ready e.physicalRd = true :=
    fun e he hw => ((h.produced e (hmem e he) hw).1).trans (hc.completed e he)
  have hretired := retireAll_committed harf hprod h.committed
  refine ⟨fun p hp => h.range p ?_, fun e he => ?_, fun r => ?_, ?_⟩
  · rw [hc.window, names_append]
    exact List.mem_append_right _ hp
  · rw [hc.prf]
    exact h.produced e (by rw [hc.window]; exact List.mem_append_right _ he)
  · rw [hc.prf, hc.arf]
    exact hretired r
  · rw [hc.iq, hc.prf]
    exact h.operands

/-- Executing a queued entry delivers its result. -/
theorem finish (h : Delivery m s) (hR : Renaming m s) (hs : Sound s) {i : Nat}
    (hi : i < cfg.iqCapacity) (hv : (s.iq.entries i).valid = true) (r : Word) :
    Delivery m (s.finish i r) := by
  have hlive : s.iq.entries i ∈ s.iq.live := IssueQueue.entries_mem_live hi hv
  obtain ⟨b, hb, hopen, hm⟩ := hs.inFlight.backed _ hlive
  have hwin := hs.window_finish i r
  have hnames : names ROBEntry.dst (s.finish i r).rob.window = names ROBEntry.dst s.rob.window := by
    rw [hwin]
    exact names_map fun e _ => ROBEntry.dst_finishAt e _ r
  have hwrite : (s.iq.entries i).registerWrite = b.registerWrite := by
    rw [(hs.inFlight.queueDecoded _ hlive).registerWrite, hm.pc, hm.instruction,
      ← (hs.inFlight.entryDecoded b hb).registerWrite]
  have hdistinct := (Multiset.nodup_add.mp hR.distinct).1
  -- the register file changes at the destination of `b` only, which was not ready
  have hother : ∀ p, (b.registerWrite = true → p ≠ b.physicalRd) →
      s.prf.AgreesOn (s.finish i r).prf p := by
    intro p hp
    rw [SuperScalarCPU.finish, hwrite]
    cases hw : b.registerWrite with
    | false => exact ⟨rfl, rfl⟩
    | true =>
        rw [hm.physicalRd]
        exact s.prf.write_other r (hp hw)
  have hself : b.registerWrite = true →
      b.physicalRd < cfg.prfCount ∧ s.prf.ready b.physicalRd = false ∧
        (s.finish i r).prf = s.prf.write b.physicalRd r := by
    intro hw
    refine ⟨h.range _ (mem_names_of hb hw), ?_, ?_⟩
    · rw [(h.produced b hb hw).1, hopen]
    · rw [SuperScalarCPU.finish, hwrite, hw, ← hm.physicalRd]
      rfl
  refine ⟨?_, ?_, ?_, ?_⟩
  · rw [hnames]
    exact h.range
  · intro e he hw
    rw [hwin] at he
    obtain ⟨e0, he0, rfl⟩ := List.mem_map.mp he
    rw [ReOrderBuffer.finishAt] at hw ⊢
    by_cases hslot : e0.robIndex = (s.iq.entries i).robIndex
    · rw [if_pos hslot] at hw ⊢
      have heb : e0 = b := hs.inFlight.rob_wf.eq_of_robIndex he0 hb (hslot.trans hm.robIndex)
      rw [heb] at hw ⊢
      obtain ⟨hlt, -, hprf⟩ := hself hw
      rw [hprf]
      obtain ⟨h1, h2⟩ := s.prf.write_self r hlt
      exact ⟨h1, fun _ => h2⟩
    · rw [if_neg hslot] at hw ⊢
      have hne : b.registerWrite = true → e0.physicalRd ≠ b.physicalRd := by
        intro hbw heq
        have hd0 : e0.dst = some (e0.architecturalRd, b.physicalRd) := by
          rw [ROBEntry.dst, if_pos hw, heq]
        have hdb : b.dst = some (b.architecturalRd, b.physicalRd) := by
          rw [ROBEntry.dst, if_pos hbw]
        have hsame := eq_of_nodup_names (Multiset.nodup_add.mp hdistinct).2.1 he0 hb hd0 hdb
        rw [hsame] at hslot
        exact hslot hm.robIndex.symm
      obtain ⟨h1, h2⟩ := hother _ hne
      rw [h1, h2]
      exact h.produced e0 he0 hw
  · intro x
    have hne : b.registerWrite = true → m x ≠ b.physicalRd := by
      intro hbw heq
      have himage : b.physicalRd ∈ image m := heq ▸ mem_image m x
      exact absurd (Multiset.mem_coe.mpr (mem_names_of hb hbw))
        (Multiset.disjoint_left.mp (Multiset.nodup_add.mp hdistinct).2.2 himage)
    obtain ⟨h1, h2⟩ := hother _ hne
    rw [h1, h2]
    exact h.committed x
  · intro q hq
    obtain ⟨q0, hq0, -, rfl⟩ := hs.live_finish hi hv r hq
    have hold := h.operands q0 hq0
    rw [hwrite]
    cases hw : b.registerWrite with
    | false =>
        rw [if_neg Bool.false_ne_true, SuperScalarCPU.finish, hwrite, hw]
        exact hold
    | true =>
        obtain ⟨hlt, hbusy, hprf⟩ := hself hw
        rw [if_pos rfl, hprf, hm.physicalRd]
        exact hold.wakeup (IssueQueue.mem_live.mp hq0).2 hlt hbusy r

theorem memory (h : Delivery m s) (hR : Renaming m s) (hs : Sound s) {rs : List MemoryResult}
    (hc : MemoryCase s t rs) : Delivery m t :=
  hc.preserves h (fun _ r hi _ => h.finish hR hs hi.1 hi.valid r) fun _ _ _ hu =>
    hu.congr rfl rfl rfl rfl

theorem branch (h : Delivery m s) (hR : Renaming m s) (hs : Sound s) (hc : BranchCase s t) :
    Delivery m t := by
  cases hc with
  | none _ ht => rw [ht]; exact h
  | correct i hi _ ht =>
      obtain ⟨hlt, hlive, -, -, -⟩ := selectBranch_some hi
      rw [ht, hs.resolveBranch_eq hi]
      exact (h.finish hR hs hlt (IssueQueue.mem_live.mp hlive).2 _).congr rfl rfl rfl rfl
  | mispredicted i hi _ pre b post hb _ hr =>
      have hprf : t.prf = s.prf := by rw [hr.frame]
      have harf : t.arf = s.arf := by rw [hr.frame]
      refine ⟨fun p hp => h.range p ?_, fun e he hw => ?_, ?_, fun q hq => ?_⟩
      · rw [hr.window] at hp
        rw [hr.split]
        obtain ⟨e, he, x, hd⟩ := mem_names.mp hp
        rcases List.mem_append.mp he with he | he
        · exact mem_names.mpr ⟨e, List.mem_append_left _ he, x, hd⟩
        · rw [List.mem_singleton.mp he] at hd
          exact mem_names.mpr ⟨b, List.mem_append_right _ List.mem_cons_self, x, hd⟩
      · rw [hr.window] at he
        rw [hprf]
        rcases List.mem_append.mp he with he | he
        · exact h.produced e (by rw [hr.split]; exact List.mem_append_left _ he) hw
        · -- the branch itself writes no register
          have hbmem : b ∈ s.rob.window := by rw [hr.split]; simp
          have hnone := ((hs.inFlight.entryDecoded b hbmem).of_branch
            (Renaming.branch_of_select hs hi hb hbmem)).1
          rw [List.mem_singleton.mp he] at hw
          rw [show (b.finish (s.branchResult i).targetPc).registerWrite = b.registerWrite from rfl,
            hnone] at hw
          cases hw
      · rw [hprf, harf]
        exact h.committed
      · rw [hprf]
        exact h.operands q (Renaming.live_recovered hs hi hb hr hq).1

theorem executeAlu (h : Delivery m s) (hR : Renaming m s) (hs : Sound s) {i : Nat}
    (hi : s.selectReadyAluEntry = some i) : Delivery m (s.executeAlu i) := by
  obtain ⟨hlt, hlive, -⟩ := selectReadyAluEntry_some hi
  rw [executeAlu_eq]
  exact h.finish hR hs hlt (IssueQueue.mem_live.mp hlive).2 _

theorem executed (h : Delivery m s) (hR : Renaming m s) (harf : 16 ≤ cfg.arfCount) (hs : Steps s)
    (hclean : RecoveryClean s) {es : List ROBEntry} (hes : Commits s s.committed es) :
    Delivery (mapAfter m es) s.executed := by
  have hRc := hR.commit hs.sound hes
  have hRm := hRc.memory hs.sound_committed hs.memoryCase
  have hbranch : Delivery (mapAfter m es) s.memoryDone.branchStage :=
    ((h.commit harf hes).memory hRc hs.sound_committed hs.memoryCase).branch hRm
      hs.sound_memoryDone hs.branchCase
  have hRb := hRm.branch hs.sound_memoryDone hs.branchCase hclean
  have hall : Sound s.executed ∧ Renaming (mapAfter m es) s.executed ∧
      Delivery (mapAfter m es) s.executed :=
    aluStage_induction
      (P := fun t => Sound t ∧ Renaming (mapAfter m es) t ∧ Delivery (mapAfter m es) t)
      ⟨hs.sound_branchDone, hRb, hbranch⟩ fun t i ht hi =>
        ⟨ht.1.executeAlu hi, ht.2.1.executeAlu ht.1 hi, ht.2.2.executeAlu ht.2.1 ht.1 hi⟩
  exact hall.2.2

/-- Renaming takes names nobody in flight or committed has. -/
theorem afterRename (h : Delivery m s) (hR : Renaming m s) {n : List PhysicalRegister}
    (hfree : ∃ rest, s.freeList.freeRegisters = n ++ rest)
    (hprf : ∀ p ∉ n, s.prf.AgreesOn s.afterRename.prf p) : Delivery m s.afterRename := by
  obtain ⟨rest, hfree⟩ := hfree
  have hdisjoint := (Multiset.nodup_add.mp hR.distinct).2.2
  have hlive : ∀ p, p ∈ image m + (names ROBEntry.dst s.rob.window : Multiset PhysicalRegister) →
      s.prf.AgreesOn s.afterRename.prf p := by
    intro p hp
    refine hprf p fun hmem => ?_
    refine absurd (Multiset.mem_coe.mpr ?_) (Multiset.disjoint_left.mp hdisjoint hp)
    rw [hfree]
    exact List.mem_append_left _ hmem
  refine ⟨h.range, fun e he hw => ?_, fun r => ?_, fun q hq => ?_⟩
  · obtain ⟨h1, h2⟩ := hlive e.physicalRd
      (Multiset.mem_add.mpr (Or.inr (Multiset.mem_coe.mpr (mem_names_of he hw))))
    rw [h1, h2]
    exact h.produced e he hw
  · obtain ⟨h1, h2⟩ := hlive (m r) (Multiset.mem_add.mpr (Or.inl (mem_image m r)))
    rw [h1, h2]
    exact h.committed r
  · -- a queued source is the name of its register in front of the instruction
    obtain ⟨pre, e, post, hw, -, hsrc1, hsrc2⟩ := hR.sources q hq
    have hname : ∀ r, mapAfter m pre r ∈
        image m + (names ROBEntry.dst s.rob.window : Multiset PhysicalRegister) := by
      intro r
      rw [Multiset.mem_add, Multiset.mem_coe, hw, names_append]
      rcases mapping_mem ROBEntry.dst m pre r with hmem | hmem
      · rw [mapAfter, hmem]
        exact Or.inl (mem_image m r)
      · exact Or.inr (List.mem_append_left _ hmem)
    obtain ⟨h1, h2⟩ := h.operands q hq
    exact ⟨h1.agrees (hlive _ (hsrc1 ▸ hname _)), h2.agrees (hlive _ (hsrc2 ▸ hname _))⟩

theorem dispatchLane (h : Delivery m s) (hs : Sound s) {ren : RenameBundle}
    (hb : Sound.Renamed ren)
    (hnew : ∀ p ∈ names RenameBundle.dst [ren], p < cfg.prfCount ∧ s.prf.ready p = false) :
    Delivery m (s.dispatchLane ren) := by
  have hwin := dispatchLane_window hs hb
  have hprf : (s.dispatchLane ren).prf = s.prf := by rw [dispatchLane_frame]
  have harf : (s.dispatchLane ren).arf = s.arf := by rw [dispatchLane_frame]
  -- the entry that may be new, and its destination
  have hentry : ∀ e ∈ (if s.laneDispatched ren then [s.laneEntry ren] else []),
      ren.valid = true ∧ e = s.laneEntry ren := by
    intro e he
    cases hd : s.laneDispatched ren with
    | false =>
        rw [hd] at he
        cases he
    | true =>
        rw [hd] at he
        exact ⟨((laneDispatched_iff hs.inFlight).mp hd).1, List.mem_singleton.mp he⟩
  have hdst : ∀ e ∈ (if s.laneDispatched ren then [s.laneEntry ren] else []),
      e.registerWrite = true → e.physicalRd ∈ names RenameBundle.dst [ren] := by
    intro e he hw
    obtain ⟨hv, rfl⟩ := hentry e he
    have hd := ROBEntry.dst_laneEntry s hv
    rw [ROBEntry.dst, if_pos hw] at hd
    exact mem_names.mpr ⟨ren, List.mem_cons_self, _, hd.symm⟩
  refine ⟨fun p hp => ?_, fun e he hw => ?_, ?_, fun q hq => ?_⟩
  · rw [hwin, names_append] at hp
    rcases List.mem_append.mp hp with hp | hp
    · exact h.range p hp
    · obtain ⟨e, he, r, hd⟩ := mem_names.mp hp
      have hw : e.registerWrite = true := by
        by_contra hne
        rw [ROBEntry.dst, if_neg hne] at hd
        cases hd
      rw [ROBEntry.dst, if_pos hw] at hd
      have hp' : e.physicalRd = p := congrArg Prod.snd (Option.some.inj hd)
      rw [← hp']
      exact (hnew _ (hdst e he hw)).1
  · rw [hwin] at he
    rw [hprf]
    rcases List.mem_append.mp he with he | he
    · exact h.produced e he hw
    · have hbusy := (hnew _ (hdst e he hw)).2
      obtain ⟨hv, rfl⟩ := hentry e he
      have hopen : (s.laneEntry ren).completed = false := by
        rw [laneEntry_eq] at hw ⊢
        exact (hb hv).1.writer_late hw
      rw [hbusy, hopen]
      refine ⟨rfl, fun hdone => ?_⟩
      cases hdone
  · rw [hprf, harf]
    exact h.committed
  · rw [hprf]
    rcases dispatchLane_live hs hb hq with hq | ⟨-, -, rfl⟩
    · exact h.operands q hq
    · exact makeIssueEntry_holds s.prf ren _

/-- A whole step. -/
theorem next (h : Delivery m s.executed) (hR : Renaming m s.executed) (hs : Steps s)
    (hrange : RegistersInRange s) : Delivery m s.next := by
  obtain ⟨f, hf⟩ := hs.next_backend
  rw [hf]
  cases hr : s.renames with
  | false => exact h.congr rfl rfl rfl rfl
  | true =>
      rw [if_pos rfl]
      obtain ⟨u0, h0, h1⟩ := hs.lanes hr
      obtain ⟨hfree, hout⟩ := handedOut_eq h0 h1
      have hprf0 := h0.prf
      have hprf1 := h1.prf
      have hrenamed : Delivery m s.executed.afterRename := by
        refine h.afterRename hR ⟨_, hfree⟩ fun p hp => ?_
        rw [hout, List.mem_append, not_or] at hp
        obtain ⟨a1, a2⟩ := hprf0.2 p hp.1
        obtain ⟨b1, b2⟩ := hprf1.2 p hp.2
        exact ⟨b1.trans a1, b2.trans a2⟩
      -- a register handed out is not ready until the instruction that took it finishes
      have hnew : ∀ p ∈ s.handedOut,
          p < cfg.prfCount ∧ s.executed.afterRename.prf.ready p = false := by
        intro p hp
        refine ⟨hrange hr p hp, ?_⟩
        by_cases hp1 : p ∈ names RenameBundle.dst [s.executed.renameOutputs.2.1]
        · exact hprf1.1 p hp1
        · rw [hout] at hp
          have hp0 := (List.mem_append.mp hp).resolve_right hp1
          exact (hprf1.2 p hp1).1.trans (hprf0.1 p hp0)
      rw [hout] at hnew
      obtain ⟨hs0, hs1, hr0, hr1⟩ := hs.sound_lanes hr
      have hlane0 := hrenamed.dispatchLane hs0 hr0 fun p hp => hnew p (List.mem_append_left _ hp)
      have hlanes : Delivery m s.executed.dispatchLanes := by
        rcases dispatchLanes_cases s.executed with hd | hd <;> rw [hd]
        · exact hlane0
        · refine hlane0.dispatchLane hs1 hr1 fun p hp => ?_
          rw [dispatchLane_frame]
          exact hnew p (List.mem_append_right _ hp)
      exact hlanes.congr rfl rfl rfl rfl

end Delivery

/-! ## Runs -/

/-- After `reset` the first registers are ready and hold 0. -/
theorem resetPrf_spec {k p : Nat} (prf : PhysicalRegisterFile cfg.prfCount) (hk : p < k)
    (hp : p < cfg.prfCount) (hbyte : p < 256) :
    (resetPrf k prf).ready p = true ∧ (resetPrf k prf).read p = 0 := by
  induction k with
  | zero => omega
  | succ k ih =>
      have hstep : resetPrf (k + 1) prf =
          ((resetPrf k prf).setReady (k % 256) true).write (k % 256) 0 := by
        rw [resetPrf, List.range_succ, List.foldl_append]
        rfl
      rw [hstep]
      by_cases hpk : p = k % 256
      · rw [← hpk]
        exact PhysicalRegisterFile.write_self _ 0 hp
      · have hlt : p < k := by
          rcases Nat.lt_succ_iff_lt_or_eq.mp hk with hlt | rfl
          · exact hlt
          · omega
        obtain ⟨h1, h2⟩ := PhysicalRegisterFile.setReady_other (resetPrf k prf) hpk true
        obtain ⟨h3, h4⟩ := PhysicalRegisterFile.write_other
          ((resetPrf k prf).setReady (k % 256) true) 0 hpk
        rw [h3, h4, h1, h2]
        exact ih hlt

theorem Delivery.boot (harf : 16 ≤ cfg.arfCount) (hprf : 16 ≤ cfg.prfCount) (words : List Word)
    (data : List (Nat × Word)) : Delivery (committedMap []) (boot cfg words data) := by
  rw [boot_frame]
  have hwin : ((construct cfg).loadProgram words).rob.window = [] := ReOrderBuffer.window_reset
  have hlive : ((construct cfg).loadProgram words).iq.live = [] := IssueQueue.live_reset
  refine ⟨fun p hp => ?_, fun e he => ?_, fun r => ?_, fun q hq => ?_⟩
  · rw [hwin] at hp
    cases hp
  · rw [hwin] at he
    cases he
  · have hr : r.val < 16 := r.isLt
    obtain ⟨h1, h2⟩ := resetPrf_spec (k := cfg.arfCount) (p := r.val)
      (.reset : PhysicalRegisterFile cfg.prfCount) (by omega) (by omega) (by omega)
    refine ⟨h1, h2.trans ?_⟩
    show (0 : Word) = ArchitecturalRegisterFile.read _ r
    rw [ArchitecturalRegisterFile.read]
    split <;> rfl
  · rw [hlive] at hq
    cases hq

/-- In every state of an orderly run the register file delivers. -/
theorem run_delivery {s0 : SuperScalarCPU cfg} {n : Nat} {words : List Word}
    {data : List (Nat × Word)} (h0 : s0 = boot cfg words data) (harf : 16 ≤ cfg.arfCount)
    (hprf : 16 ≤ cfg.prfCount) (hord : OrderlyRun s0 n) (hrun : (run s0 n).halted = false) :
    Renaming (committedMap (retired s0 n)) (run s0 n) ∧
      Delivery (committedMap (retired s0 n)) (run s0 n) := by
  subst h0
  refine running_induction
    (P := fun k => Renaming (committedMap (retired (boot cfg words data) k))
        (run (boot cfg words data) k) ∧
      Delivery (committedMap (retired (boot cfg words data) k)) (run (boot cfg words data) k))
    hrun ⟨Renaming.boot cfg words data, Delivery.boot harf hprf words data⟩
    fun k hk hgo hprev => ?_
  obtain ⟨hR, hD⟩ := hprev
  have h := run_steps hgo
  have ho := hord k hk hgo
  obtain ⟨es, hes, -, hexec⟩ := hR.executed h ho.clean
  rw [retired, h.stepEvents_eq hes, committedMap_append]
  exact ⟨hexec.next h (run_streaming cfg words data k) ho.inRange ho.noOrphan,
    (hD.executed hR harf h ho.clean hes).next hexec h ho.inRange⟩

end SuperScalarCPU

end CpuSim.SuperScalar
