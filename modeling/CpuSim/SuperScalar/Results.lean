/-
  CpuSim.SuperScalar.Results

  The values computed out of order.  With the registers and the memory of `d` retired,
  every completed instruction in the window has the result the interpreter computes at
  its place in program order, because a delivered operand is the value of its register
  there.  Only the value of a load is left open here.
-/

import CpuSim.SuperScalar.Operands
import CpuSim.SuperScalar.StoreFlow
import CpuSim.SuperScalar.Interpreter

namespace CpuSim.SuperScalar

open CpuSim.Lib CpuSim.Lib.Renaming

variable {cfg : Config}

/-! ## Instructions of the window -/

/-- The instruction of an entry. -/
def ROBEntry.decoded (e : ROBEntry) : DecodedInstruction :=
  InstructionDecoder.decode ⟨e.instruction⟩

/-- The instruction of a queue entry. -/
def IssueQueueEntry.decoded (q : IssueQueueEntry) : DecodedInstruction :=
  InstructionDecoder.decode ⟨q.instruction⟩

theorem IssueQueueEntry.Matches.decoded {q : IssueQueueEntry} {e : ROBEntry} (h : q.Matches e) :
    q.decoded = e.decoded := by
  rw [IssueQueueEntry.decoded, h.instruction]
  rfl

namespace Machine

variable {words : Nat} {d : Machine words} {es es' : List ROBEntry} {e : ROBEntry}

/-- The effect of an entry. -/
def execEntry (d : Machine words) (e : ROBEntry) : Machine words := d.exec e.decoded

/-- The data after the instructions of `es`, in order. -/
def after (d : Machine words) (es : List ROBEntry) : Machine words := es.foldl execEntry d

@[simp] theorem after_nil : d.after [] = d := rfl

@[simp] theorem after_cons : d.after (e :: es) = (d.execEntry e).after es := rfl

theorem after_append : d.after (es ++ es') = (d.after es).after es' := List.foldl_append

theorem result_isSome (d : Machine words) (i : DecodedInstruction) :
    (d.result i).isSome = writesRegister i.opcode := by
  rw [result]
  cases i.opcode <;> rfl

end Machine

section FromDecode

variable {e : ROBEntry} {words : Nat}

theorem ROBEntry.FromDecode.opcode_eq (h : e.FromDecode) : e.opcode = e.decoded.opcode := by
  rw [h.opcode, decodeWord_opcode]
  rfl

theorem ROBEntry.FromDecode.result_isSome (h : e.FromDecode) (d : Machine words) :
    (d.result e.decoded).isSome = e.registerWrite := by
  rw [h.registerWrite, decodeWord_registerWrite, Machine.result_isSome, decodeWord_opcode]
  rfl

theorem ROBEntry.FromDecode.rd_eq (h : e.FromDecode) : e.architecturalRd = e.decoded.rd := by
  rw [h.architecturalRd, decodeWord_rd]
  rfl

theorem ROBEntry.FromDecode.memoryWrite_eq (h : e.FromDecode) :
    e.memoryWrite = (e.decoded.opcode == .SW) := by
  rw [h.memoryWrite, decodeWord_memoryWrite, decodeWord_opcode]
  rfl

/-- What an entry does to the registers. -/
theorem ROBEntry.FromDecode.exec_regs (h : e.FromDecode) (d : Machine words) :
    (d.execEntry e).regs =
      match d.result e.decoded with
      | some v => Function.update d.regs e.architecturalRd v
      | none => d.regs := by
  rw [h.rd_eq]
  rfl

/-- What an entry does to memory. -/
theorem ROBEntry.FromDecode.exec_mem (h : e.FromDecode) (d : Machine words) :
    (d.execEntry e).mem =
      if e.memoryWrite then d.mem.write (d.address e.decoded) (d.regs e.decoded.rs2)
      else d.mem := by
  rw [h.memoryWrite_eq, Machine.execEntry, Machine.exec]
  simp only [beq_iff_eq]

end FromDecode

/-! ## Execution of a queued instruction -/

section Queued

variable {q : IssueQueueEntry} {words : Nat} {d : Machine words}

/-- The fields of a queued instruction that execution reads. -/
theorem IssueQueueEntry.FromDecode.fields (h : q.FromDecode) :
    q.opcode = q.decoded.opcode ∧ q.immediate = q.decoded.immediate ∧
      q.aluOperation = aluOperationOf q.decoded.opcode ∧
      q.operandA = operandAOf q.decoded.opcode ∧ q.operandB = operandBOf q.decoded.opcode ∧
      q.memoryRead = (q.decoded.opcode == .LW) ∧ q.memoryWrite = (q.decoded.opcode == .SW) ∧
      q.controlFlow = controlFlowOf q.decoded.opcode := by
  have hop : (decodeWord q.pc q.instruction).opcode = q.decoded.opcode := decodeWord_opcode _ _
  rw [← hop]
  refine ⟨h.opcode, ?_, ?_, ?_, ?_, ?_, ?_, ?_⟩
  · rw [h.immediate, decodeWord_immediate]
    rfl
  · rw [h.aluOperation, decodeWord_aluOperation]
  · rw [h.operandA, decodeWord_operandA]
  · rw [h.operandB, decodeWord_operandB]
  · rw [h.memoryRead, decodeWord_memoryRead]
  · rw [h.memoryWrite, decodeWord_memoryWrite]
  · rw [h.controlFlow, decodeWord_controlFlow]

/-- The operands a queued instruction reads are those of `d`. -/
structure IssueQueueEntry.Operands (q : IssueQueueEntry) (d : Machine words) : Prop where
  rs1 : q.operandA = .REGISTER → q.rs1Value = d.regs q.decoded.rs1
  rs2 : q.operandB = .REGISTER ∨ q.memoryWrite = true → q.rs2Value = d.regs q.decoded.rs2

namespace IssueQueueEntry.Operands

/-- The ALU computes the result of the instruction. -/
theorem aluResult (h : q.Operands d) (hq : q.FromDecode)
    (hready : SuperScalarCPU.readyAlu q = true) :
    d.result q.decoded = some (SuperScalarCPU.aluResult q) := by
  obtain ⟨h1, h2⟩ := h
  obtain ⟨-, himm, hop, hA, hB, hread, hwrite, hflow⟩ := hq.fields
  simp only [SuperScalarCPU.readyAlu, Bool.and_eq_true, Bool.not_eq_true', beq_iff_eq,
    bne_iff_ne, hop, hread, hwrite, hflow] at hready
  obtain ⟨⟨⟨⟨⟨-, hload⟩, hstore⟩, hjump⟩, -⟩, halu⟩ := hready
  rw [hA] at h1
  rw [hB] at h2
  rw [SuperScalarCPU.aluResult, hop, hA, hB, himm, Machine.result]
  -- the opcodes left are those of the integer operations
  cases hcode : q.decoded.opcode <;> rw [hcode] at h1 h2 hload hstore hjump halu
  all_goals first
    | exact absurd rfl halu
    | exact absurd hload (by decide)
    | exact absurd hstore (by decide)
    | exact absurd hjump (by decide)
    | simp_all [operandAOf, operandBOf, aluOperationOf]

/-- The address of a load or a store. -/
theorem address (h : q.Operands d) (hq : q.FromDecode)
    (hmem : q.memoryRead = true ∨ q.memoryWrite = true) :
    MemoryExecutionUnit.calculateAddress q = d.address q.decoded := by
  obtain ⟨-, himm, -, hA, -, hread, hwrite, -⟩ := hq.fields
  have hreg : q.operandA = .REGISTER := by
    rw [hA]
    rw [hread, hwrite, beq_iff_eq, beq_iff_eq] at hmem
    rcases hmem with hcode | hcode <;> rw [hcode] <;> rfl
  rw [MemoryExecutionUnit.calculateAddress, Machine.address, h.rs1 hreg, himm]

/-- The address the branch unit goes on to. -/
theorem nextPc (h : q.Operands d) (hq : q.FromDecode) (hbranch : q.controlFlow = .BRANCH)
    (taken : Bool) (target : Word) :
    (BranchExecutionUnit.evaluate q taken target).nextPc = d.nextPc q.decoded q.pc := by
  obtain ⟨h1, h2⟩ := h
  obtain ⟨hcode, himm, -, hA, hB, -, -, hflow⟩ := hq.fields
  rw [hA] at h1
  rw [hB] at h2
  rw [hflow] at hbranch
  have hzero : d.regs q.decoded.rs1 - d.regs q.decoded.rs2 = 0#32 ↔
      d.regs q.decoded.rs1 = d.regs q.decoded.rs2 := by
    constructor <;> intro heq <;> bv_omega
  simp only [BranchExecutionUnit.evaluate, hcode, himm, Machine.nextPc]
  cases hop : q.decoded.opcode <;> rw [hop] at h1 h2 hbranch <;> try cases hbranch
  · rw [h1 rfl, h2 (Or.inl rfl)]
    simp [BranchExecutionUnit.resolveCondition, hzero]
  · rw [h1 rfl, h2 (Or.inl rfl)]
    simp [BranchExecutionUnit.resolveCondition, hzero]

end IssueQueueEntry.Operands

end Queued

/-! ## The window -/

/-- A completed entry has the result the interpreter computes in `d`; for a store, `own`
    has its address and data. -/
def ROBEntry.Right {words : Nat} (own : Nat → Word × Word) (d : Machine words) (e : ROBEntry) :
    Prop :=
  e.completed = true →
    (e.registerWrite = true → d.result e.decoded = some e.result) ∧
      (e.memoryWrite = true → own e.robIndex = (d.address e.decoded, d.regs e.decoded.rs2))

/-- Retiring completed entries writes their stores to memory. -/
theorem Machine.after_mem {words : Nat} {own : Nat → Word × Word} {d : Machine words}
    {es : List ROBEntry} (h : Chain Machine.execEntry (ROBEntry.Right own) d es)
    (hdec : ∀ e ∈ es, e.FromDecode) (hdone : ∀ e ∈ es, e.completed = true) :
    (d.after es).mem = d.mem.writeAll ((storeSlots es).map own) := by
  induction es generalizing d with
  | nil => rfl
  | cons e es ih =>
      have hmem := (hdec e List.mem_cons_self).exec_mem d
      rw [Machine.after_cons, ih h.2 (fun x hx => hdec x (List.mem_cons_of_mem _ hx))
        fun x hx => hdone x (List.mem_cons_of_mem _ hx), hmem]
      cases hw : e.memoryWrite with
      | false =>
          rw [storeSlots_cons_of_not es hw]
          rfl
      | true =>
          have hown := (h.1 (hdone e List.mem_cons_self)).2 hw
          rw [storeSlots_cons_of es hw, List.map_cons, hown]
          rfl

namespace SuperScalarCPU

variable {s t : SuperScalarCPU cfg} {m : Register → PhysicalRegister}
  {own own' : Nat → Word × Word} {d : Machine cfg.dataMemoryWords} {pre post : List ROBEntry}
  {e b : ROBEntry}

/-- The registers and the memory are those of `d`, and the completed entries of the
    window are right for it. -/
structure Computes (own : Nat → Word × Word) (d : Machine cfg.dataMemoryWords)
    (s : SuperScalarCPU cfg) : Prop where
  regs : ∀ r, s.arf.read r = d.regs r
  mem : s.dataMemory = d.mem
  results : Chain Machine.execEntry (ROBEntry.Right own) d s.rob.window

namespace Computes

theorem congr (h : Computes own d s) (hrob : t.rob = s.rob) (harf : t.arf = s.arf)
    (hmem : t.dataMemory = s.dataMemory) : Computes own d t := by
  refine ⟨?_, hmem.trans h.mem, ?_⟩
  · rw [harf]
    exact h.regs
  · rw [hrob]
    exact h.results

/-- Only the slots of executed stores matter. -/
theorem congr_own (h : Computes own d s)
    (heq : ∀ e ∈ s.rob.window, e.memoryWrite = true → e.completed = true →
      own' e.robIndex = own e.robIndex) : Computes own' d s := by
  refine ⟨h.regs, h.mem, h.results.mono fun d' e he hright hdone => ?_⟩
  obtain ⟨h1, h2⟩ := hright hdone
  exact ⟨h1, fun hw => (heq e he hw hdone).trans (h2 hw)⟩

/-- What a ready register holds: the value its architectural register has there. -/
theorem reads (h : Computes own d s) (hD : Delivery m s) (hs : Sound s)
    (hw : s.rob.window = pre ++ post) (r : Register)
    (hready : s.prf.ready (mapAfter m pre r) = true) :
    s.prf.read (mapAfter m pre r) = (d.after pre).regs r := by
  induction pre using List.reverseRecOn generalizing post with
  | nil => exact ((hD.committed r).2).trans (h.regs r)
  | append_singleton pre e ih =>
      have hsplit : s.rob.window = pre ++ e :: post := by
        rw [hw, List.append_assoc]
        rfl
      have he : e ∈ s.rob.window := by
        rw [hsplit]
        exact List.mem_append_right _ List.mem_cons_self
      have hdec := hs.inFlight.entryDecoded e he
      have hlast : mapAfter m (pre ++ [e]) = advance ROBEntry.dst (mapAfter m pre) e := by
        rw [mapAfter, mapping_concat]
      rw [hlast] at hready ⊢
      rw [Machine.after_append, Machine.after_cons, Machine.after_nil, hdec.exec_regs]
      have hresult := hdec.result_isSome (d.after pre)
      cases hwrite : e.registerWrite with
      | false =>
          have hnone : e.dst = none := by rw [ROBEntry.dst, hwrite, if_neg Bool.false_ne_true]
          rw [hwrite, Option.isSome_eq_false_iff, Option.isNone_iff_eq_none] at hresult
          rw [advance_none hnone] at hready ⊢
          rw [hresult]
          exact ih hsplit hready
      | true =>
          have hsome : e.dst = some (e.architecturalRd, e.physicalRd) := by
            rw [ROBEntry.dst, if_pos hwrite]
          rw [advance_some hsome] at hready ⊢
          by_cases hr : r = e.architecturalRd
          · -- the youngest writer: ready means completed
            rw [hr, Function.update_self] at hready ⊢
            obtain ⟨hdone, hval⟩ := hD.produced e he hwrite
            rw [hready] at hdone
            have hright : (d.after pre).result e.decoded = some e.result :=
              (h.results.at_split hsplit hdone.symm).1 hwrite
            rw [hval hdone.symm, hright]
            show e.result = Function.update (d.after pre).regs e.architecturalRd e.result
              e.architecturalRd
            rw [Function.update_self]
          · rw [Function.update_of_ne hr] at hready ⊢
            rw [ih hsplit hready]
            cases (d.after pre).result e.decoded with
            | none => rfl
            | some v =>
                show _ = Function.update (d.after pre).regs e.architecturalRd v r
                rw [Function.update_of_ne hr]

/-- A queued instruction with both operands has those of its place in program order. -/
theorem operands (h : Computes own d s) (hR : Renaming m s) (hD : Delivery m s) (hs : Sound s)
    {q : IssueQueueEntry} (hq : q ∈ s.iq.live) (h1 : q.rs1Ready = true)
    (h2 : q.rs2Ready = true) :
    ∃ pre e post, s.rob.window = pre ++ e :: post ∧ q.Matches e ∧ q.Operands (d.after pre) := by
  obtain ⟨pre, e, post, hw, hm, hsrc1, hsrc2⟩ := hR.sources q hq
  obtain ⟨hold1, hold2⟩ := hD.operands q hq
  rw [OperandHolds, h1] at hold1
  rw [OperandHolds, h2] at hold2
  -- a delivered operand is the value of the register it was renamed to, and that is the value of
  -- its architectural register in front of the entry
  refine ⟨pre, e, post, hw, hm, fun hA => ?_, fun hB => ?_⟩
  · rw [hA, beq_self_eq_true, if_pos rfl] at hold1
    obtain ⟨hready, hval⟩ := hold1
    rw [hval rfl, hsrc1]
    rw [hsrc1] at hready
    have hname : (decodeWord q.pc q.instruction).rs1 = q.decoded.rs1 := decodeWord_rs1 _ _
    rw [hname] at hready ⊢
    exact h.reads hD hs hw q.decoded.rs1 hready.symm
  · have hreads : (q.operandB == .REGISTER || q.memoryWrite) = true := by
      rw [Bool.or_eq_true, beq_iff_eq]
      exact hB
    rw [hreads, if_pos rfl] at hold2
    obtain ⟨hready, hval⟩ := hold2
    rw [hval rfl, hsrc2]
    rw [hsrc2] at hready
    have hname : (decodeWord q.pc q.instruction).rs2 = q.decoded.rs2 := decodeWord_rs2 _ _
    rw [hname] at hready ⊢
    exact h.reads hD hs hw q.decoded.rs2 hready.symm

/-! ## The stages -/

/-- Retiring moves the window's values to the architectural state. -/
theorem commit (h : Computes own d s) (hD : Delivery m s) (hT : StoresTrack own s) (hs : Sound s)
    (harf : 16 ≤ cfg.arfCount) {es : List ROBEntry} (hc : Commits s t es) :
    Computes own (d.after es) t := by
  have hwin := h.results
  rw [hc.window, Chain.append_iff] at hwin
  refine ⟨fun r => ?_, ?_, hwin.2⟩
  · obtain ⟨hready, hval⟩ := (hD.commit harf hc).committed r
    rw [hc.prf] at hready hval
    rw [← hval]
    exact h.reads hD hs hc.window r hready
  · rw [(hT.commit hs hc).2.1, h.mem]
    refine (Machine.after_mem hwin.1 (fun e he => ?_) hc.completed).symm
    apply hs.inFlight.entryDecoded
    rw [hc.window]
    exact List.mem_append_left _ he

/-- Finishing a queued instruction with the right result. -/
theorem finish (h : Computes own d s) (hs : Sound s) {i : Nat} (r : Word)
    (hw : s.rob.window = pre ++ b :: post) (hm : (s.iq.entries i).Matches b)
    (hright : (b.finish r).Right own (d.after pre)) : Computes own d (s.finish i r) := by
  obtain ⟨-, hwin⟩ := window_complete_split hs.inFlight.rob_wf hw r
  refine ⟨h.regs, h.mem, ?_⟩
  have hresults := h.results
  rw [hw, Chain.append_iff, Chain.cons_iff] at hresults
  show Chain _ _ d (s.rob.complete (s.iq.entries i).robIndex r).window
  rw [hm.robIndex, hwin, Chain.append_iff, Chain.cons_iff]
  exact ⟨hresults.1, hright, hresults.2.2⟩

/-- An instruction that writes neither a register nor memory is right with any result. -/
theorem right_of_no_effect (h1 : e.registerWrite = false) (h2 : e.memoryWrite = false) :
    e.Right own d := by
  intro _
  constructor
  · intro hw
    rw [h1] at hw
    cases hw
  · intro hw
    rw [h2] at hw
    cases hw

theorem executeAlu (h : Computes own d s) (hR : Renaming m s) (hD : Delivery m s) (hs : Sound s)
    {i : Nat} (hi : s.selectReadyAluEntry = some i) : Computes own d (s.executeAlu i) := by
  obtain ⟨-, hlive, hready⟩ := selectReadyAluEntry_some hi
  have hbits := hready
  simp only [readyAlu, Bool.and_eq_true, Bool.not_eq_true'] at hbits
  obtain ⟨⟨⟨⟨⟨⟨⟨-, h1⟩, h2⟩, -⟩, hstore⟩, -⟩, -⟩, -⟩ := hbits
  obtain ⟨pre, b, post, hw, hm, hop⟩ := h.operands hR hD hs hlive h1 h2
  have hdec := hs.inFlight.queueDecoded _ hlive
  rw [executeAlu_eq]
  refine h.finish hs _ hw hm fun _ => ⟨fun _ => ?_, fun hwrite => ?_⟩
  · have hresult := hop.aluResult hdec hready
    rw [hm.decoded] at hresult
    exact hresult
  · -- an integer operation is not a store
    have hb : b ∈ s.rob.window := by rw [hw]; simp
    rw [hdec.memoryWrite, hm.pc, hm.instruction,
      ← (hs.inFlight.entryDecoded b hb).memoryWrite] at hstore
    rw [show (b.finish (aluResult (s.iq.entries i))).memoryWrite = b.memoryWrite from rfl,
      hstore] at hwrite
    cases hwrite

theorem branch (h : Computes own d s) (hs : Sound s) (hc : BranchCase s t) :
    Computes own d t := by
  -- a branch writes nothing, so whatever it is finished with is right
  have hquiet : ∀ {i : Nat} {b : ROBEntry}, s.selectBranch = some i → b ∈ s.rob.window →
      (s.iq.entries i).Matches b → ∀ (r : Word) (d' : Machine cfg.dataMemoryWords),
        (b.finish r).Right own d' := by
    intro i b hi hb hm r d'
    obtain ⟨hw, -, hstore, -⟩ := (hs.inFlight.entryDecoded b hb).of_branch
      (Renaming.branch_of_select hs hi hm hb)
    exact right_of_no_effect hw hstore
  cases hc with
  | none _ ht => rw [ht]; exact h
  | correct i hi _ ht =>
      obtain ⟨-, hlive, -, -, -⟩ := selectBranch_some hi
      obtain ⟨b, hb, -, hm⟩ := hs.inFlight.backed _ hlive
      obtain ⟨pre, post, hw⟩ := List.append_of_mem hb
      rw [ht, hs.resolveBranch_eq hi]
      exact (h.finish hs (s.branchResult i).targetPc hw hm (hquiet hi hb hm _ _)).congr rfl rfl rfl
  | mispredicted i hi _ pre b post hm _ hr =>
      have hb : b ∈ s.rob.window := by rw [hr.split]; simp
      have hresults := h.results
      rw [hr.split, Chain.append_iff, Chain.cons_iff] at hresults
      refine ⟨?_, ?_, ?_⟩
      · rw [hr.frame]
        exact h.regs
      · rw [hr.frame]
        exact h.mem
      · rw [hr.window, Chain.concat_iff]
        exact ⟨hresults.1, hquiet hi hb hm _ _⟩

theorem dispatchLane (h : Computes own d s) (hs : Sound s) {ren : RenameBundle}
    (hb : Sound.Renamed ren) : Computes own d (s.dispatchLane ren) := by
  have hwin := dispatchLane_window hs hb
  refine ⟨?_, ?_, ?_⟩
  · rw [dispatchLane_frame]
    exact h.regs
  · rw [dispatchLane_frame]
    exact h.mem
  · rw [hwin, Chain.append_iff]
    refine ⟨h.results, ?_⟩
    cases hd : s.laneDispatched ren with
    | false => exact Chain.nil
    | true =>
        rw [if_pos rfl]
        refine ⟨fun hdone => ?_, trivial⟩
        -- only an instruction without effect completes at once
        have hdec := (hb ((laneDispatched_iff hs.inFlight).mp hd).1).1
        rw [laneEntry_eq] at hdone ⊢
        refine right_of_no_effect ?_ ?_ hdone
        · exact eq_false_of_ne_true fun hw =>
            Bool.false_ne_true ((hdec.writer_late hw).symm.trans hdone)
        · exact eq_false_of_ne_true fun hw =>
            Bool.false_ne_true ((hdec.classes.2.1 hw).symm.trans hdone)

end Computes

end SuperScalarCPU

end CpuSim.SuperScalar
