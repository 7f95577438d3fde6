/-
  CpuSim.SuperScalar.IntegerProgram

  Reorder buffers, register files and issue queues built by renaming and
  dispatching decoded integer instructions, in any interleaving and with every
  refusal.  Renaming hands out each free register once, so what is queued is
  coherent, and executing it to exhaustion has one outcome.
-/

import CpuSim.SuperScalar.IssueOrder

namespace CpuSim.SuperScalar

open Relation CpuSim.Lib.Confluence

variable {cfg : Config}

/-- The operations of the integer pipeline: the ALU ones, `LI` and `ADDI`. -/
def integerOpcodes : List Opcode := [.ADD, .SUB, .AND, .OR, .XOR, .NOT, .LI, .ADDI]

/-- A rename unit and the structures dispatch fills, with the bundles renamed but not yet
    dispatched, oldest first; the register file is the one of the rename unit. -/
structure IntegerMachine (cfg : Config) where
  renameUnit : RenameUnit cfg.prfCount
  renamed : List RenameBundle
  rob : ReOrderBuffer cfg.robCapacity
  issueQueue : IssueQueue cfg.iqCapacity

namespace IntegerMachine

variable {m : IntegerMachine cfg}

/-- What execution starts from. -/
def core (m : IntegerMachine cfg) : IntegerCore cfg :=
  { rob := m.rob, issueQueue := m.issueQueue, prf := m.renameUnit.prf }

/-- `rename(input)`. -/
def rename (m : IntegerMachine cfg) (input : DecodeBundle) : IntegerMachine cfg :=
  let (output, u) := m.renameUnit.renameOne input
  { m with renameUnit := u, renamed := m.renamed ++ [output] }

/-- `rename(input0, input1, output0, output1)`. -/
def renamePair (m : IntegerMachine cfg) (input0 input1 : DecodeBundle) : IntegerMachine cfg :=
  let (output0, output1, u) := m.renameUnit.rename input0 input1
  { m with renameUnit := u, renamed := m.renamed ++ [output0, output1] }

/-- `dispatch(input, rob_index)` of the oldest renamed bundle, which stays when it is
    refused; the two-wide overload is two of these. -/
def dispatch (m : IntegerMachine cfg) : IntegerMachine cfg :=
  match m.renamed with
  | [] => m
  | bundle :: rest =>
    match DispatchUnit.dispatch
        { rob := m.rob, issueQueue := m.issueQueue, prf := m.renameUnit.prf } bundle none with
    | none => m
    | some (_, u) => { m with renamed := rest, rob := u.rob, issueQueue := u.issueQueue }

/-- The oldest renamed bundle is given up. -/
def discard (m : IntegerMachine cfg) : IntegerMachine cfg := { m with renamed := m.renamed.tail }

/-- The machines reached by renaming and dispatching integer instructions: any alias table
    and register contents to start from, and a free list without duplicates. -/
inductive Built : IntegerMachine cfg → Prop
  | start (u : RenameUnit cfg.prfCount) (hfree : u.freeList.freeRegisters.Nodup) :
      Built { renameUnit := u, renamed := [], rob := .reset, issueQueue := .reset }
  | rename {m : IntegerMachine cfg} (h : Built m) (pc w : Word)
      (hop : (decodeWord pc w).opcode ∈ integerOpcodes) : Built (m.rename (decodeWord pc w))
  | renamePair {m : IntegerMachine cfg} (h : Built m) (pc0 w0 pc1 w1 : Word)
      (hop0 : (decodeWord pc0 w0).opcode ∈ integerOpcodes)
      (hop1 : (decodeWord pc1 w1).opcode ∈ integerOpcodes) :
      Built (m.renamePair (decodeWord pc0 w0) (decodeWord pc1 w1))
  | dispatch {m : IntegerMachine cfg} (h : Built m) : Built m.dispatch
  | discard {m : IntegerMachine cfg} (h : Built m) : Built m.discard

/-- The registers the renamed bundles will write. -/
def bundleWriters (bundles : List RenameBundle) : List PhysicalRegister :=
  (bundles.filter fun b => b.valid && b.registerWrite).map (·.physicalRd)

/-- Each register is free, or the destination of one renamed or queued instruction. -/
structure Placed (m : IntegerMachine cfg) : Prop where
  inFlight : InFlight m.rob m.issueQueue
  decoded : ∀ b ∈ m.renamed, b.valid = true → b.FromDecode
  distinct : (m.issueQueue.writers ++ bundleWriters m.renamed ++
    m.renameUnit.freeList.freeRegisters).Nodup

@[simp] theorem bundleWriters_append (bs bs' : List RenameBundle) :
    bundleWriters (bs ++ bs') = bundleWriters bs ++ bundleWriters bs' := by
  simp [bundleWriters]

/-! ## Renaming -/

/-- Renaming one instruction takes at most its destination from the front of the free
    list. -/
theorem renameOne_writers {n : Nat} (u : RenameUnit n) (input : DecodeBundle) :
    ∃ taken, u.freeList.freeRegisters =
        taken ++ (RenameUnit.renameOne u input).2.freeList.freeRegisters ∧
      (bundleWriters [(RenameUnit.renameOne u input).1]).Sublist taken := by
  cases hv : input.valid with
  | false => exact ⟨[], by simp [RenameUnit.renameOne, hv],
      by simp [RenameUnit.renameOne, hv, bundleWriters]⟩
  | true =>
      cases hw : input.registerWrite with
      | false => exact ⟨[], by simp [RenameUnit.renameOne, hv, hw],
          by simp [RenameUnit.renameOne, RenameUnit.preserve, hv, hw, bundleWriters]⟩
      | true =>
          cases hf : u.freeList.freeRegisters with
          | nil => exact ⟨[], by
              simp [RenameUnit.renameOne, hv, hw, PhysicalRegisterFreeList.allocate, hf],
              by simp [RenameUnit.renameOne, hv, hw, PhysicalRegisterFreeList.allocate, hf,
                bundleWriters]⟩
          | cons p rest =>
              refine ⟨[p], ?_, ?_⟩ <;>
                by_cases hp : p = INVALID_REGISTER <;>
                simp [RenameUnit.renameOne, RenameUnit.preserve, hv, hw,
                  PhysicalRegisterFreeList.allocate, hf, hp, bundleWriters]

theorem renameOne_decoded {n : Nat} (u : RenameUnit n) {input : DecodeBundle}
    (hd : input.Decoded) (hv : (RenameUnit.renameOne u input).1.valid = true) :
    (RenameUnit.renameOne u input).1.FromDecode := by
  have hcontrol := RenameUnit.preserve_control u.rat hd
  rw [RenameUnit.renameOne] at hv ⊢
  split at hv
  · cases hv
  · rename_i hin
    rw [if_neg hin]
    dsimp only at hv ⊢
    split at hv
    · rename_i hw
      rw [if_pos hw]
      split at hv
      · cases hv
      · rename_i hp
        rw [if_neg hp]
        exact hcontrol
    · rename_i hw
      rw [if_neg hw]
      exact hcontrol

/-- Renaming a pair, lane 1 only behind a lane 0 that got its register. -/
theorem rename_writers {n : Nat} (u : RenameUnit n) {input0 input1 : DecodeBundle}
    (hd0 : input0.Decoded) (hd1 : input1.Decoded) :
    let r := RenameUnit.rename u input0 input1
    (∃ taken, u.freeList.freeRegisters = taken ++ r.2.2.freeList.freeRegisters ∧
        (bundleWriters [r.1, r.2.1]).Sublist taken) ∧
      ∀ b ∈ [r.1, r.2.1], b.valid = true → b.FromDecode := by
  obtain ⟨taken0, hfree0, hsub0⟩ := renameOne_writers { u with stalled := false } input0
  have hdec0 := renameOne_decoded { u with stalled := false } hd0
  simp only [RenameUnit.rename]
  generalize RenameUnit.renameOne { u with stalled := false } input0 = x0 at hfree0 hsub0 hdec0 ⊢
  obtain ⟨out0, u0⟩ := x0
  dsimp only at hfree0 hsub0 hdec0 ⊢
  by_cases hfail : (input0.valid && !out0.valid) = true
  · rw [if_pos hfail]
    refine ⟨⟨taken0, hfree0, ?_⟩, fun b hb hv => ?_⟩
    · have hnone : bundleWriters [({ valid := false } : RenameBundle)] = [] := rfl
      rw [show [out0, ({ valid := false } : RenameBundle)] =
          [out0] ++ [{ valid := false }] from rfl, bundleWriters_append, hnone, List.append_nil]
      exact hsub0
    · rcases List.mem_cons.mp hb with rfl | hb
      · exact hdec0 hv
      · rw [List.mem_singleton.mp hb] at hv
        cases hv
  · rw [if_neg hfail]
    obtain ⟨taken1, hfree1, hsub1⟩ := renameOne_writers u0 input1
    have hdec1 := renameOne_decoded u0 hd1
    generalize RenameUnit.renameOne u0 input1 = x1 at hfree1 hsub1 hdec1 ⊢
    obtain ⟨out1, u1⟩ := x1
    dsimp only at hfree1 hsub1 hdec1 ⊢
    refine ⟨⟨taken0 ++ taken1, ?_, ?_⟩, fun b hb hv => ?_⟩
    · -- the stall flag leaves the free list alone
      have hkeep : (if (input1.valid && !out1.valid) = true then { u1 with stalled := true }
          else u1).freeList = u1.freeList := by
        split <;> rfl
      rw [hkeep, List.append_assoc, ← hfree1]
      exact hfree0
    · rw [show [out0, out1] = [out0] ++ [out1] from rfl, bundleWriters_append]
      exact hsub0.append hsub1
    · rcases List.mem_cons.mp hb with rfl | hb
      · exact hdec0 hv
      · rw [List.mem_singleton.mp hb] at hv ⊢
        exact hdec1 hv

/-! ## The invariant of building -/

namespace Placed

theorem start (u : RenameUnit cfg.prfCount) (hfree : u.freeList.freeRegisters.Nodup) :
    Placed { renameUnit := u, renamed := [], rob := .reset, issueQueue := .reset } where
  inFlight := InFlight.reset cfg.robCapacity_pos
  decoded := by simp
  distinct := by
    rw [IssueQueue.writers, IssueQueue.live_reset]
    exact hfree

/-- Renamed bundles join the back with registers from the front of the free list. -/
theorem append (h : Placed m) {u : RenameUnit cfg.prfCount} {outputs : List RenameBundle}
    {taken : List PhysicalRegister}
    (hfree : m.renameUnit.freeList.freeRegisters = taken ++ u.freeList.freeRegisters)
    (hsub : (bundleWriters outputs).Sublist taken)
    (hdec : ∀ b ∈ outputs, b.valid = true → b.FromDecode) :
    Placed { m with renameUnit := u, renamed := m.renamed ++ outputs } := by
  refine ⟨h.inFlight, fun b hb => ?_, ?_⟩
  · rcases List.mem_append.mp hb with hb | hb
    · exact h.decoded b hb
    · exact hdec b hb
  · have hall := h.distinct
    rw [hfree] at hall
    refine hall.sublist ?_
    rw [bundleWriters_append, ← List.append_assoc, List.append_assoc _ (bundleWriters outputs)]
    exact (List.Sublist.refl _).append (hsub.append (List.Sublist.refl _))

theorem discard (h : Placed m) : Placed m.discard := by
  have htail : m.renamed.tail.Sublist m.renamed := List.tail_sublist _
  refine ⟨h.inFlight, fun b hb => h.decoded b (htail.subset hb), h.distinct.sublist ?_⟩
  refine List.Sublist.append (List.Sublist.append (List.Sublist.refl _) ?_) (List.Sublist.refl _)
  exact (htail.filter _).map _

/-- A bundle that enters takes its destination along. -/
theorem dispatch (h : Placed m) : Placed m.dispatch := by
  rw [IntegerMachine.dispatch]
  cases hr : m.renamed with
  | nil => exact h
  | cons b rest =>
      have hdec : b.valid = true → b.FromDecode := h.decoded b (by rw [hr]; simp)
      have hrest : ∀ x ∈ rest, x.valid = true → x.FromDecode := fun x hx =>
        h.decoded x (by rw [hr]; exact List.mem_cons_of_mem _ hx)
      have hdistinct := h.distinct
      rw [hr, show b :: rest = [b] ++ rest from rfl, bundleWriters_append] at hdistinct
      dsimp only
      split
      · exact h
      rename_i idx u hd
      cases hv : b.valid with
      | false =>
          rw [DispatchUnit.dispatch, hv, Bool.not_false, if_pos rfl] at hd
          obtain ⟨-, rfl⟩ := Prod.mk.inj (Option.some.inj hd)
          have hnone : bundleWriters [b] = [] := by simp [bundleWriters, hv]
          rw [hnone, List.nil_append] at hdistinct
          exact ⟨h.inFlight, hrest, hdistinct⟩
      | true =>
          obtain ⟨rob', iq', hall, hins, rfl⟩ := DispatchUnit.dispatch_some hv hd
          refine ⟨h.inFlight.dispatch hv (hdec hv) hall hins, hrest, ?_⟩
          obtain ⟨-, hperm⟩ := h.inFlight.iq_wf.insert hins
          -- the queued entry writes what the bundle was given
          have hwriters : iq'.writers.Perm (bundleWriters [b] ++ m.issueQueue.writers) := by
            have hmap := (hperm.filter (·.registerWrite)).map IssueQueueEntry.physicalRd
            refine hmap.trans (List.Perm.of_eq ?_)
            rw [show bundleWriters [b] ++ m.issueQueue.writers =
              bundleWriters [b] ++ (m.issueQueue.live.filter (·.registerWrite)).map
                IssueQueueEntry.physicalRd from rfl]
            cases hw : b.registerWrite <;>
              simp [bundleWriters, hv, hw, DispatchUnit.makeIssueEntry]
          refine (List.Perm.nodup_iff ?_).mpr hdistinct
          refine List.Perm.append_right _ ?_
          rw [← List.append_assoc]
          exact (hwriters.trans List.perm_append_comm).append_right _

/-- What is built is placed. -/
theorem of_built (h : Built m) : Placed m := by
  have hinput : ∀ pc w, (decodeWord pc w).Decoded := fun pc w =>
    ⟨pc, w, (decodeWord pc w).prediction, rfl⟩
  induction h with
  | start u hfree => exact start u hfree
  | @rename m _ pc w _ ih =>
      obtain ⟨taken, hfree, hsub⟩ := renameOne_writers m.renameUnit (decodeWord pc w)
      refine ih.append hfree hsub fun b hb hv => ?_
      rw [List.mem_singleton.mp hb] at hv ⊢
      exact renameOne_decoded m.renameUnit (hinput pc w) hv
  | @renamePair m _ pc0 w0 pc1 w1 _ _ ih =>
      obtain ⟨⟨taken, hfree, hsub⟩, hdec⟩ :=
        rename_writers m.renameUnit (hinput pc0 w0) (hinput pc1 w1)
      exact ih.append hfree hsub hdec
  | dispatch _ ih => exact ih.dispatch
  | discard _ ih => exact ih.discard

theorem coherent (h : Placed m) : IntegerCore.Coherent m.core := by
  refine ⟨h.inFlight, ?_⟩
  have hall := h.distinct
  rw [List.append_assoc] at hall
  exact (List.nodup_append.mp hall).1

end Placed

/-! ## One outcome -/

/-- Whatever has been built by renaming and dispatching integer instructions, executing
    ready entries in any order ends in one state: every order of selection leads there and
    is exhausted nowhere else, and so do the ALU part of `SuperScalarCPU::step` and the
    execution part of `IntegerExecutionPipeline::cycle`, in at most as many rounds as
    entries are queued. -/
theorem issue_order_irrelevant (cfg : Config) (m : IntegerMachine cfg) (hm : Built m) :
    ∃ c : IntegerCore cfg,
      ReflTransGen IntegerCore.Issue m.core c ∧ c.Exhausted ∧
        (∀ c', ReflTransGen IntegerCore.Issue m.core c' →
          ReflTransGen IntegerCore.Issue c' c ∧ (c'.Exhausted → c' = c)) ∧
        (∀ s : SuperScalarCPU cfg, s.integerCore = m.core → ∀ n ≥ m.issueQueue.count,
          (SuperScalarCPU.aluStage^[n] s).integerCore = c) ∧
        ∀ u : IntegerExecutionPipeline cfg, u.core = m.core → ∀ n ≥ m.issueQueue.count,
          (IntegerExecutionPipeline.executeCycle^[n] u).core = c := by
  have hcoherent := (Placed.of_built hm).coherent
  have hconf := @IntegerCore.issue_confluent cfg
  have hcpu := fun s : SuperScalarCPU cfg => fun _ : s.integerCore.Coherent => s.aluStage_progress
  have hpipe := fun u : IntegerExecutionPipeline cfg => u.executeCycle_progress
  -- the pipeline, run for long enough from any core, gives a normal form below it
  have hnormal : ∀ x : IntegerCore cfg, x.Coherent →
      ∃ y, ReflTransGen IntegerCore.Issue x y ∧ y.Exhausted := by
    intro x hx
    obtain ⟨hrun, hend⟩ := hconf.iterate_normal (p := IntegerExecutionPipeline.core) hpipe
      (x := ⟨x.rob, x.issueQueue, x.prf, m.renameUnit.freeList⟩) hx (Nat.le_refl _)
    exact ⟨_, hrun, hend⟩
  obtain ⟨c, hrun, hend⟩ := hnormal m.core hcoherent
  refine ⟨c, hrun, hend, fun c' hc' => ?_, fun s hs n hn => ?_, fun u hu n hn => ?_⟩
  · obtain ⟨d, hd, hdend⟩ := hnormal c' (hconf.keeps_many hcoherent hc')
    have heq : d = c := hconf.normal_unique hcoherent (hc'.trans hd) hrun hdend hend
    refine ⟨heq ▸ hd, fun hc'end => ?_⟩
    exact hconf.normal_unique hcoherent hc' hrun hc'end hend
  · obtain ⟨hrun', hend'⟩ := hconf.iterate_normal (p := SuperScalarCPU.integerCore) hcpu
      (x := s) (by rw [hs]; exact hcoherent) (n := n) (by rw [hs]; exact hn)
    rw [hs] at hrun'
    exact hconf.normal_unique hcoherent hrun' hrun hend' hend
  · obtain ⟨hrun', hend'⟩ := hconf.iterate_normal (p := IntegerExecutionPipeline.core) hpipe
      (x := u) (by rw [hu]; exact hcoherent) (n := n) (by rw [hu]; exact hn)
    rw [hu] at hrun'
    exact hconf.normal_unique hcoherent hrun' hrun hend' hend

/-- `LI r1, 10` and `LI r2, 20` renamed as a pair, then `ADD r3, r1, r2`: the two loops
    agree, and `r3` is 30 in its register. -/
theorem issue_order_irrelevant_sum :
    let u : RenameUnit Config.default.prfCount :=
      { rat := .init 64, freeList := .reset, prf := .reset }
    let start : IntegerMachine .default :=
      { renameUnit := u, renamed := [], rob := .reset, issueQueue := .reset }
    let pair := start.renamePair (decodeWord 0 0x1C40000A) (decodeWord 4 0x1C800014)
    let m := (pair.dispatch.dispatch.rename (decodeWord 8 0x04C48000)).dispatch
    let s : SuperScalarCPU .default :=
      { SuperScalarCPU.construct .default with
        rob := m.rob, iq := m.issueQueue, prf := m.renameUnit.prf }
    let p : IntegerExecutionPipeline .default :=
      { rob := m.rob, issueQueue := m.issueQueue, prf := m.renameUnit.prf,
        freeList := m.renameUnit.freeList }
    (SuperScalarCPU.aluStage^[3] s).integerCore =
        (IntegerExecutionPipeline.executeCycle^[3] p).core ∧
      (IntegerExecutionPipeline.executeCycle^[3] p).prf.read 18 = 30 := by
  intro u start pair m s p
  have hbuilt : Built m :=
    .dispatch (.rename (.dispatch (.dispatch (.renamePair (.start u (by decide)) 0 0x1C40000A 4
      0x1C800014 (by decide) (by decide)))) 8 0x04C48000 (by decide))
  have hcount : m.issueQueue.count ≤ 3 := by decide +kernel
  have hsum : (IntegerExecutionPipeline.executeCycle^[3] p).prf.read 18 = 30 := by decide +kernel
  clear_value m
  obtain ⟨c, -, -, -, hcpu, hpipe⟩ := issue_order_irrelevant .default m hbuilt
  exact ⟨(hcpu s rfl 3 hcount).trans (hpipe p rfl 3 hcount).symm, hsum⟩

end IntegerMachine

end CpuSim.SuperScalar
