/-
  CpuSim.SuperScalar.Wakeup

  Every operand that waits is waited for exactly once.  In a run without recoveries whose
  dispatches all succeed, an operand in the issue queue is ready together with its
  physical register, and a register that is not ready is the destination of one
  uncompleted older instruction.
-/

import CpuSim.SuperScalar.Operands

namespace CpuSim.SuperScalar

open CpuSim.Lib.Renaming

variable {cfg : Config}

/-! ## Instructions without a destination -/

theorem RenameUnit.Renames.physicalRd_eq {n : Nat} {u u' : RenameUnit n} {input : DecodeBundle}
    {out : RenameBundle} (h : RenameUnit.Renames u input out u')
    (hw : out.registerWrite = false) : out.physicalRd = INVALID_REGISTER := by
  cases h with
  | bubble _ ho _ => rw [ho]
  | reader _ _ ho _ => rw [ho]
  | writer p rest _ hin _ ho _ =>
      rw [ho] at hw
      rw [show input.registerWrite = false from hw] at hin
      cases hin

namespace SuperScalarCPU

variable {s t s0 : SuperScalarCPU cfg} {m : Register → PhysicalRegister} {n : Nat}

/-- An uncompleted instruction that writes no register names none. -/
def Silent (s : SuperScalarCPU cfg) : Prop :=
  ∀ e ∈ s.rob.window, e.completed = false → e.registerWrite = false →
    e.physicalRd = INVALID_REGISTER

theorem Silent.boot (cfg : Config) (words : List Word) (data : List (Nat × Word)) :
    Silent (boot cfg words data) := by
  intro e he
  rw [boot_frame] at he
  have hwin : ((construct cfg).loadProgram words).rob.window = [] := ReOrderBuffer.window_reset
  rw [hwin] at he
  cases he

theorem Silent.next (h : Silent s) (hs : Steps s) : Silent s.next := by
  -- an entry that a lane leaves has the destination of the renamed bundle
  have hlane {k : Nat} {u u' : RenameUnit k} {input : DecodeBundle} {out : RenameBundle}
      (hr : RenameUnit.Renames u input out u') (t : SuperScalarCPU cfg)
      (hw : (t.laneEntry out).registerWrite = false) :
      (t.laneEntry out).physicalRd = INVALID_REGISTER := by
    rw [laneEntry_eq] at hw ⊢
    exact hr.physicalRd_eq hw
  intro e he hopen hw
  rw [hs.window_next, List.mem_append] at he
  rcases he with he | he
  · exact h e (hs.executed_keeps e he hopen) hopen hw
  · rw [entered, List.mem_append] at he
    rcases he with he | he
    · cases hd : s.dispatched0 with
      | false =>
          rw [hd] at he
          cases he
      | true =>
          rw [hd, if_pos rfl, List.mem_singleton] at he
          obtain ⟨u0, h0, -⟩ := hs.lanes (hs.of_dispatched0 hd).1
          rw [he, entry0] at hw ⊢
          exact hlane h0 _ hw
    · cases hd : s.dispatched1 with
      | false =>
          rw [hd] at he
          cases he
      | true =>
          rw [hd, if_pos rfl, List.mem_singleton] at he
          obtain ⟨u0, -, h1⟩ := hs.lanes (hs.of_dispatched1 hd).1
          rw [he, entry1] at hw ⊢
          exact hlane h1 _ hw

/-! ## Runs whose dispatches succeed -/

/-- Every call of `dispatch_unit_.dispatch` with a valid bundle returns true; lane 1 is not
    dispatched behind a `HALT`. -/
def DispatchesSucceed (s : SuperScalarCPU cfg) : Prop :=
  s.renames = true →
    (s.executed.renameOutputs.1.valid = true → s.dispatched0 = true) ∧
      (s.executed.renameOutputs.2.1.valid = true → s.betweenLanes.haltDispatched = false →
        s.dispatched1 = true)

instance (s : SuperScalarCPU cfg) : Decidable s.DispatchesSucceed := by
  unfold DispatchesSucceed
  infer_instance

/-- No branch of the step is mispredicted, and every dispatch succeeds. -/
def Undisturbed (s : SuperScalarCPU cfg) : Prop :=
  s.memoryDone.branchRecovered = false ∧ s.DispatchesSucceed

instance (s : SuperScalarCPU cfg) : Decidable s.Undisturbed := by
  unfold Undisturbed
  infer_instance

/-- A dispatched lane 0 found room. -/
theorem Steps.roomForOne (h : Steps s) (hd : s.dispatched0 = true) : s.RoomForOne := by
  have hr := (h.of_dispatched0 hd).1
  obtain ⟨hsound, -, -⟩ := h.sound_executed.rename (canRename_of_renames hr)
  rw [dispatched0, hr, Bool.true_and, laneDispatched_iff hsound.inFlight] at hd
  exact hd.2

theorem Steps.noOrphan (h : Steps s) (hs : Streaming s) (hsucceed : s.DispatchesSucceed) :
    NoOrphan s := by
  intro hr
  obtain ⟨hlane0, hlane1⟩ := hsucceed hr
  obtain ⟨u0, h0, h1⟩ := h.lanes hr
  constructor
  · intro hv _
    exact h.roomForOne (hlane0 (h0.valid.trans hv))
  · intro hv _
    have hv0 := (h.bundle_valid hs hr (Or.inr hv)).1
    have hone := h.roomForOne
      (hlane0 (renamed0_fields h.sound_executed (canRename_of_renames hr) hv0).1)
    refine ⟨hone, fun hhalt => ?_⟩
    obtain ⟨hopen, hiff⟩ := h.dispatched1_iff hs hr hv hone hhalt
    exact hiff.mp (hlane1 (h1.valid.trans hv) hopen)

theorem Steps.orderlyRename (h : Steps s) (hs : Streaming s) (hprf : 64 ≤ cfg.prfCount)
    (hquiet : s.Undisturbed) : OrderlyRename s := by
  refine ⟨?_, h.noOrphan hs hquiet.2, ?_⟩
  · intro _ p hp
    have hfree := h.sound_executed.numbered.free p (List.mem_of_mem_take hp)
    exact Nat.lt_of_lt_of_le hfree hprf
  · intro i hi hm
    have hrec := hquiet.1
    rw [branchRecovered_some hi, hm] at hrec
    cases hrec

/-- What the operands of a state rest on. -/
structure Wakeable (m : Register → PhysicalRegister) (s : SuperScalarCPU cfg) : Prop where
  renamed : Renaming m s
  delivery : Delivery m s
  silent : Silent s

theorem Wakeable.next (h : Wakeable m s) (hs : Steps s) (hstream : Streaming s)
    (hprf : 64 ≤ cfg.prfCount) (harf : 16 ≤ cfg.arfCount) (hquiet : s.Undisturbed) :
    ∃ m', Wakeable m' s.next := by
  have ho := hs.orderlyRename hstream hprf hquiet
  obtain ⟨es, hes, -, hexec⟩ := h.renamed.executed hs ho.clean
  refine ⟨mapAfter m es, ?_, ?_, h.silent.next hs⟩
  · exact hexec.next hs hstream ho.inRange ho.noOrphan
  · exact (h.delivery.executed h.renamed harf hs ho.clean hes).next hexec hs ho.inRange

/-- Every state of an undisturbed run, halted ones included. -/
theorem run_wakeable (hprf : 64 ≤ cfg.prfCount) (harf : 16 ≤ cfg.arfCount) (words : List Word)
    (data : List (Nat × Word)) (n : Nat)
    (hquiet : ∀ k < n, (run (boot cfg words data) k).halted = false →
      (run (boot cfg words data) k).Undisturbed) :
    ∃ m, Wakeable m (run (boot cfg words data) n) := by
  induction n with
  | zero =>
      exact ⟨_, Renaming.boot cfg words data, Delivery.boot harf (by omega) words data,
        Silent.boot cfg words data⟩
  | succ n ih =>
      obtain ⟨m, hm⟩ := ih fun k hk => hquiet k (Nat.lt_succ_of_lt hk)
      show ∃ m, Wakeable m (run (boot cfg words data) n).next
      cases hh : (run (boot cfg words data) n).halted with
      | true =>
          rw [next_of_halted hh]
          exact ⟨m, hm.renamed.congr rfl rfl rfl rfl rfl, hm.delivery.congr rfl rfl rfl rfl,
            hm.silent⟩
      | false =>
          exact hm.next (run_steps hh) (run_streaming cfg words data n) hprf harf
            (hquiet n (Nat.lt_succ_self n) hh)

/-! ## Waiting operands -/

end SuperScalarCPU

/-- The entries in program order in front of slot `index`. -/
def ReOrderBuffer.olderThan {Capacity : Nat} (rob : ReOrderBuffer Capacity) (index : Nat) :
    List ROBEntry :=
  rob.window.takeWhile fun e => e.robIndex != index

theorem ReOrderBuffer.olderThan_eq {Capacity : Nat} {rob : ReOrderBuffer Capacity} (h : rob.WF)
    {pre post : List ROBEntry} {e : ROBEntry} (hw : rob.window = pre ++ e :: post) :
    rob.olderThan e.robIndex = pre := by
  have hnodup := h.nodup_robIndex
  rw [hw, List.map_append, List.map_cons] at hnodup
  have hne : ∀ x ∈ pre, (x.robIndex != e.robIndex) = true := by
    intro x hx
    rw [bne_iff_ne]
    intro heq
    have hdisjoint := (List.nodup_append.mp hnodup).2.2
    exact hdisjoint _ (List.mem_map_of_mem hx) _ List.mem_cons_self heq
  rw [olderThan, hw, List.takeWhile_append_of_pos hne, List.takeWhile_cons_of_neg (by simp),
    List.append_nil]

namespace SuperScalarCPU

variable {s : SuperScalarCPU cfg} {m : Register → PhysicalRegister}

/-- A ready operand has the value of its physical register, which is ready; an operand that
    waits has a register that is not ready, and one uncompleted older entry to write it. -/
def OperandAwaited (s : SuperScalarCPU cfg) (q : IssueQueueEntry) (p : PhysicalRegister)
    (ready : Bool) (value : Word) : Prop :=
  (ready = true → value = s.prf.read p ∧ s.prf.ready p = true) ∧
    (ready = false → s.prf.ready p = false ∧
      (s.rob.olderThan q.robIndex).countP (fun e => !e.completed && e.physicalRd == p) = 1)

instance (s : SuperScalarCPU cfg) (q : IssueQueueEntry) (p : PhysicalRegister) (ready : Bool)
    (value : Word) : Decidable (s.OperandAwaited q p ready value) := by
  unfold OperandAwaited
  infer_instance

/-- A register that is not ready has one uncompleted writer among the older entries. -/
theorem Wakeable.countP_writers (h : Wakeable m s) (hwf : s.rob.WF)
    {pre post : List ROBEntry} {e : ROBEntry} (hw : s.rob.window = pre ++ e :: post) {r : Register}
    (hbusy : s.prf.ready (mapAfter m pre r) = false) :
    pre.countP (fun x => !x.completed && x.physicalRd == mapAfter m pre r) = 1 := by
  have hmem : ∀ x ∈ pre, x ∈ s.rob.window := by
    intro x hx
    rw [hw]
    exact List.mem_append_left _ hx
  -- committed registers are ready, so the register is a destination in the window
  have hname : mapAfter m pre r ∈ names ROBEntry.dst pre := by
    rcases mapping_mem ROBEntry.dst m pre r with heq | hmem
    · rw [mapAfter, heq, (h.delivery.committed r).1] at hbusy
      cases hbusy
    · exact hmem
  obtain ⟨x, hx, r', hdst⟩ := mem_names.mp hname
  have hwrites : x.registerWrite = true := by
    by_contra hne
    rw [ROBEntry.dst, if_neg hne] at hdst
    cases hdst
  have hrd : x.physicalRd = mapAfter m pre r := by
    rw [ROBEntry.dst, if_pos hwrites] at hdst
    exact congrArg Prod.snd (Option.some.inj hdst)
  have hopen : x.completed = false := by
    rw [← (h.delivery.produced x (hmem x hx) hwrites).1, hrd, hbusy]
  have hlt : mapAfter m pre r < cfg.prfCount := by
    apply h.delivery.range
    rw [hw, names_append]
    exact List.mem_append_left _ hname
  have hnodup := (Multiset.nodup_add.mp (Multiset.nodup_add.mp h.renamed.distinct).1).2.1
  -- any other uncompleted entry with this destination is the same one
  have hunique : ∀ y ∈ pre, (!y.completed && y.physicalRd == mapAfter m pre r) = true → y = x := by
    intro y hy hmatch
    rw [Bool.and_eq_true, Bool.not_eq_true', beq_iff_eq] at hmatch
    have hyw : y.registerWrite = true := by
      by_contra hne
      have hnone := h.silent y (hmem y hy) hmatch.1 (eq_false_of_ne_true hne)
      rw [← hmatch.2, hnone] at hlt
      exact absurd hlt (Nat.not_lt.mpr cfg.prfCount_le)
    have hdy : y.dst = some (y.architecturalRd, mapAfter m pre r) := by
      rw [ROBEntry.dst, if_pos hyw, hmatch.2]
    exact eq_of_nodup_names hnodup (hmem y hy) (hmem x hx) hdy hdst
  obtain ⟨a, b, rfl⟩ := List.append_of_mem hx
  have hslots := hwf.nodup_robIndex
  rw [hw, List.append_assoc, List.cons_append, List.map_append, List.map_cons] at hslots
  have hfresh := List.nodup_middle.mp hslots
  have hrest : ∀ y ∈ a ++ b, y ≠ x := by
    rintro y hy rfl
    apply (List.nodup_cons.mp hfresh).1
    rw [← List.map_append]
    apply List.mem_map_of_mem
    rw [← List.append_assoc]
    exact List.mem_append_left _ hy
  have hzero : ∀ l : List ROBEntry, (∀ y ∈ l, y ∈ a ++ b) →
      l.countP (fun y => !y.completed && y.physicalRd == mapAfter m (a ++ x :: b) r) = 0 := by
    intro l hl
    rw [List.countP_eq_zero]
    intro y hy hmatch
    have hmem' : y ∈ a ++ x :: b := by
      rcases List.mem_append.mp (hl y hy) with hya | hyb
      · exact List.mem_append_left _ hya
      · exact List.mem_append_right _ (List.mem_cons_of_mem _ hyb)
    exact hrest y (hl y hy) (hunique y hmem' hmatch)
  rw [List.countP_append, List.countP_cons_of_pos,
    hzero a fun y hy => List.mem_append_left _ hy, hzero b fun y hy => List.mem_append_right _ hy]
  rw [hopen, hrd, beq_self_eq_true]
  rfl

/-- An operand that is in step with the register file is awaited. -/
theorem Wakeable.operandAwaited (h : Wakeable m s) (hwf : s.rob.WF) {pre post : List ROBEntry}
    {e : ROBEntry} {q : IssueQueueEntry} (hw : s.rob.window = pre ++ e :: post)
    (hm : q.Matches e) {r : Register} {p : PhysicalRegister} (hp : p = mapAfter m pre r)
    {ready : Bool} {value : Word} (hold : OperandHolds s.prf true p ready value) :
    s.OperandAwaited q p ready value := by
  rw [OperandHolds, if_pos rfl] at hold
  obtain ⟨hready, hvalue⟩ := hold
  constructor
  · intro hr
    exact ⟨hvalue hr, hready ▸ hr⟩
  · intro hr
    have hbusy : s.prf.ready p = false := hready ▸ hr
    refine ⟨hbusy, ?_⟩
    rw [hm.robIndex, ReOrderBuffer.olderThan_eq hwf hw, hp]
    exact h.countP_writers hwf hw (hp ▸ hbusy)

/-- No wakeup is lost: in every state of a run without recoveries in which every dispatch
    succeeds, each register operand in the issue queue is awaited. -/
theorem no_lost_wakeup (cfg : Config) (hprf : 64 ≤ cfg.prfCount) (harf : 16 ≤ cfg.arfCount)
    (words : List Word) (data : List (Nat × Word)) (n : Nat)
    (hquiet : ∀ k < n, (run (boot cfg words data) k).halted = false →
      (run (boot cfg words data) k).Undisturbed) :
    let s := run (boot cfg words data) n
    ∀ i < cfg.iqCapacity, let q := s.iq.entries i
      q.valid = true →
        (q.operandA = .REGISTER → s.OperandAwaited q q.physicalRs1 q.rs1Ready q.rs1Value) ∧
          (q.operandB = .REGISTER ∨ q.memoryWrite = true →
            s.OperandAwaited q q.physicalRs2 q.rs2Ready q.rs2Value) := by
  intro s i hi q hv
  obtain ⟨m, h⟩ := run_wakeable hprf harf words data n hquiet
  have hlive : q ∈ s.iq.live := IssueQueue.entries_mem_live hi hv
  have hwf := (run_sound_fence cfg words data n).1.inFlight.rob_wf
  obtain ⟨pre, e, post, hw, hm, hsrc1, hsrc2⟩ := h.renamed.sources q hlive
  obtain ⟨hold1, hold2⟩ := h.delivery.operands q hlive
  constructor
  · intro ha
    rw [ha] at hold1
    exact h.operandAwaited hwf hw hm hsrc1 hold1
  · intro hb
    have hreads : (q.operandB == .REGISTER || q.memoryWrite) = true := by
      rw [Bool.or_eq_true, beq_iff_eq]
      exact hb
    rw [hreads] at hold2
    exact h.operandAwaited hwf hw hm hsrc2 hold2

/-- `LI r1, 5; ADD r2, r1, r1` after two steps: the sum waits for the load immediate. -/
theorem no_lost_wakeup_waiting :
    let s := run (boot .default [0x1C400005, 0x04844000] []) 2
    (s.iq.entries 1).valid = true ∧ (s.iq.entries 1).rs1Ready = false ∧
      s.prf.ready (s.iq.entries 1).physicalRs1 = false ∧
        (s.rob.olderThan (s.iq.entries 1).robIndex).countP
          (fun e => !e.completed && e.physicalRd == (s.iq.entries 1).physicalRs1) = 1 := by
  have h := no_lost_wakeup .default (by decide) (by decide) [0x1C400005, 0x04844000] [] 2
    (by decide +kernel) 1 (by decide) (by decide +kernel)
  have hready : ((run (boot .default [0x1C400005, 0x04844000] []) 2).iq.entries 1).rs1Ready =
      false := by decide +kernel
  exact ⟨by decide +kernel, hready, (h.1 (by decide +kernel)).2 hready⟩

end SuperScalarCPU

end CpuSim.SuperScalar
