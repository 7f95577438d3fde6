/-
  CpuSim.SuperScalar.RenameStall

  The two-wide rename when registers run out.  It renames as many lanes as it can, in
  program order, and leaves the rest alone: a later rename of the rest takes up where
  this one stopped.
-/

import CpuSim.SuperScalar.RenameDispatch

namespace CpuSim.SuperScalar.RenameUnit

variable {PRFCount : Nat}

/-- Rename a list of instructions with the single `rename`, one after the other. -/
def renameSeq (u : RenameUnit PRFCount) :
    List DecodeBundle → List RenameBundle × RenameUnit PRFCount
  | [] => ([], u)
  | input :: inputs =>
    let (output, u') := renameOne u input
    let (outputs, u'') := renameSeq u' inputs
    (output :: outputs, u'')

/-- The instructions of a pair of lanes, in program order. -/
def instructions (input0 input1 : DecodeBundle) : List DecodeBundle :=
  [input0, input1].filter (·.valid)

/-- The outputs of a pair of lanes that carry an instruction, in program order. -/
def renamed (output0 output1 : RenameBundle) : List RenameBundle :=
  [output0, output1].filter (·.valid)

/-- What a lane still has to rename: nothing once its output is valid. -/
def remaining (output : RenameBundle) (input : DecodeBundle) : DecodeBundle :=
  if output.valid then {} else input

/-- The structures with another free list and register file. -/
def resupplied (u : RenameUnit PRFCount) (registers : List PhysicalRegister)
    (prf : PhysicalRegisterFile PRFCount) : RenameUnit PRFCount :=
  { u with freeList := ⟨registers⟩, prf := prf }

variable {u v : RenameUnit PRFCount} {input input0 input1 : DecodeBundle}

/-! ## One instruction -/

/-- No register for a destination: the output is invalid and only the flag changes. -/
theorem renameOne_exhausted (hv : input.valid = true) (hw : input.registerWrite = true)
    (hf : u.freeList.freeRegisters = []) :
    (renameOne u input).1.valid = false ∧
      (renameOne u input).2 = { u with stalled := true } := by
  have hempty : u.freeList.allocate = (INVALID_REGISTER, u.freeList) := by
    rw [PhysicalRegisterFreeList.allocate, hf]
  constructor
  · simp [renameOne, hv, hw, hempty]
  · simp [renameOne, hv, hw, hempty]

theorem renameOne_bubble (hv : input.valid = false) : renameOne u input = ({}, u) := by
  rw [renameOne, hv]
  rfl

/-- Registers at the back of the free list are not seen by an instruction that finds one. -/
theorem Renames.extend {out : RenameBundle} (h : Renames u input out v)
    (hfree : INVALID_REGISTER ∉ u.freeList.freeRegisters) (more : List PhysicalRegister)
    (prf : PhysicalRegisterFile PRFCount) :
    ∃ prf',
      renameOne (u.resupplied (u.freeList.freeRegisters ++ more) prf) input =
          (out, v.resupplied (v.freeList.freeRegisters ++ more) prf') ∧
        (prf = u.prf → prf' = v.prf) := by
  cases h with
  | bubble hv ho hu =>
      subst hu ho
      exact ⟨prf, by rw [renameOne_bubble hv], id⟩
  | reader hv hw ho hu =>
      subst hu ho
      refine ⟨prf, ?_, id⟩
      simp [renameOne, hv, hw, resupplied]
  | writer p rest hv hw hf ho hu =>
      subst hu ho
      have hp : p ≠ INVALID_REGISTER := by
        rintro rfl
        apply hfree
        rw [hf]
        exact List.mem_cons_self
      refine ⟨prf.allocate p, ?_, ?_⟩
      · simp [renameOne, hv, hw, resupplied, hf, hp, PhysicalRegisterFreeList.allocate]
      · rintro rfl
        rfl

/-- A single rename looks at the table and the free list only. -/
theorem renameOne_congr (hr : u.rat = v.rat) (hf : u.freeList = v.freeList)
    (input : DecodeBundle) :
    (renameOne u input).1 = (renameOne v input).1 ∧
      (renameOne u input).2.rat = (renameOne v input).2.rat ∧
        (renameOne u input).2.freeList = (renameOne v input).2.freeList ∧
          (u.prf = v.prf → (renameOne u input).2.prf = (renameOne v input).2.prf) := by
  simp only [renameOne, hr, hf]
  split
  · exact ⟨rfl, hr, hf, id⟩
  · split
    · split
      · exact ⟨rfl, rfl, rfl, id⟩
      · refine ⟨rfl, rfl, rfl, ?_⟩
        intro hp
        rw [hp]
    · exact ⟨rfl, hr, hf, id⟩

/-! ## Two lanes -/

/-- Lane 0 fails: lane 1 is not tried. -/
theorem rename_of_exhausted (input1 : DecodeBundle) (hv : input0.valid = true)
    (hw : input0.registerWrite = true) (hf : u.freeList.freeRegisters = []) :
    (rename u input0 input1).1.valid = false ∧ (rename u input0 input1).2.1 = {} ∧
      (rename u input0 input1).2.2 = { u with stalled := true } := by
  obtain ⟨hout, hstate⟩ := renameOne_exhausted (u := { u with stalled := false }) hv hw hf
  simp only [rename, hv, hout, Bool.not_false, Bool.and_self, if_true, hstate, and_self]

/-- Lane 0 succeeds: lane 1 is renamed behind it. -/
theorem rename_of_renames (input1 : DecodeBundle) {out0 : RenameBundle}
    (h0 : renameOne { u with stalled := false } input0 = (out0, v))
    (hv : out0.valid = input0.valid) :
    (rename u input0 input1).1 = out0 ∧ (rename u input0 input1).2.1 = (renameOne v input1).1 ∧
      (rename u input0 input1).2.2.rat = (renameOne v input1).2.rat ∧
      (rename u input0 input1).2.2.freeList = (renameOne v input1).2.freeList ∧
      (rename u input0 input1).2.2.prf = (renameOne v input1).2.prf ∧
      (input1.valid = true → (renameOne v input1).1.valid = false →
        (rename u input0 input1).2.2.stalled = true) := by
  have hok : (input0.valid && !out0.valid) = false := by
    rw [hv, Bool.and_not_self]
  simp only [rename, h0, hok, Bool.false_eq_true, if_false]
  split
  · exact ⟨trivial, trivial, rfl, rfl, rfl, fun _ _ => rfl⟩
  · next hdone =>
      refine ⟨trivial, trivial, rfl, rfl, rfl, ?_⟩
      intro hv1 ho1
      rw [hv1, ho1] at hdone
      exact absurd rfl hdone

/-- Renaming does not touch the flag. -/
theorem Renames.stalled {out : RenameBundle} (h : Renames u input out v) :
    v.stalled = u.stalled := by
  cases h with
  | bubble _ _ hu => rw [hu]
  | reader _ _ _ hu => rw [hu]
  | writer _ _ _ _ _ _ hu => rw [hu]

/-- With a register for each lane nothing stalls. -/
theorem rename_succeeds (hcan : canRename u.freeList input0 input1 = true)
    (hfree : INVALID_REGISTER ∉ u.freeList.freeRegisters) :
    (rename u input0 input1).2.2.stalled = false ∧
      (rename u input0 input1).1.valid = input0.valid ∧
        (rename u input0 input1).2.1.valid = input1.valid := by
  obtain ⟨u0, h0, h1⟩ := rename_renames hcan hfree
  refine ⟨?_, h0.valid, h1.valid⟩
  rw [h1.stalled, h0.stalled]

/-- Registers an instruction takes. -/
def takes (input : DecodeBundle) : Nat := if input.valid && input.registerWrite then 1 else 0

theorem Renames.length_freeList {out : RenameBundle} (h : Renames u input out v) :
    u.freeList.freeRegisters.length = takes input + v.freeList.freeRegisters.length := by
  cases h with
  | bubble hv _ hu => rw [hu, takes, hv, Bool.false_and, if_neg Bool.false_ne_true, Nat.zero_add]
  | reader _ hw _ hu =>
      rw [hu, takes, hw, Bool.and_false, if_neg Bool.false_ne_true, Nat.zero_add]
  | writer p rest hv hw hf _ hu =>
      rw [hu, takes, hv, hw, hf, List.length_cons, Bool.and_self, if_pos rfl, Nat.add_comm]

/-- Without one, either lane 0 finds the free list empty, or lane 0 is renamed and lane 1
    finds it empty. -/
theorem exhausted_cases (hcan : canRename u.freeList input0 input1 = false)
    (hfree : INVALID_REGISTER ∉ u.freeList.freeRegisters) :
    (input0.valid = true ∧ input0.registerWrite = true ∧ u.freeList.freeRegisters = []) ∨
      ∃ out0 v, Renames { u with stalled := false } input0 out0 v ∧
        renameOne { u with stalled := false } input0 = (out0, v) ∧
        input1.valid = true ∧ input1.registerWrite = true ∧ v.freeList.freeRegisters = [] := by
  have hneed : ¬takes input0 + takes input1 ≤ u.freeList.freeRegisters.length :=
    of_decide_eq_false hcan
  by_cases hempty :
      input0.valid = true ∧ input0.registerWrite = true ∧ u.freeList.freeRegisters = []
  · exact Or.inl hempty
  · right
    obtain ⟨out0, v, heq⟩ :
        ∃ out0 v, renameOne { u with stalled := false } input0 = (out0, v) := ⟨_, _, rfl⟩
    have h0 : Renames { u with stalled := false } input0 out0 v := by
      have hrenames : Renames { u with stalled := false } input0
          (renameOne { u with stalled := false } input0).1
          (renameOne { u with stalled := false } input0).2 := by
        apply renameOne_renames
        · intro hv hw
          apply List.length_pos_of_ne_nil
          exact fun hf => hempty ⟨hv, hw, hf⟩
        · exact hfree
      rw [heq] at hrenames
      exact hrenames
    -- what lane 0 leaves is less than lane 1 takes, which is at most one
    have hlane1 : takes input1 = 1 ∧ v.freeList.freeRegisters.length = 0 := by
      have hone : takes input1 ≤ 1 := by
        rw [takes]
        split <;> omega
      have hlength : u.freeList.freeRegisters.length =
        takes input0 + v.freeList.freeRegisters.length := h0.length_freeList
      omega
    refine ⟨out0, v, h0, heq, ?_, ?_, List.eq_nil_of_length_eq_zero hlane1.2⟩
    · by_contra hv
      simp only [takes, eq_false_of_ne_true hv, Bool.false_and, Bool.false_eq_true, if_false,
        Nat.zero_ne_one, false_and] at hlane1
    · by_contra hw
      simp only [takes, eq_false_of_ne_true hw, Bool.and_false, Bool.false_eq_true, if_false,
        Nat.zero_ne_one, false_and] at hlane1

/-! ## Resuming -/

/-- A stalled rename and the later rename of what it left have together done what one rename
    does: each lane has the same output, and the table and the free list are the same. -/
structure Completes (stalled later whole : RenameBundle × RenameBundle × RenameUnit PRFCount) :
    Prop where
  output0 : whole.1 = if stalled.1.valid then stalled.1 else later.1
  output1 : whole.2.1 = if stalled.2.1.valid then stalled.2.1 else later.2.1
  rat : later.2.2.rat = whole.2.2.rat
  freeList : later.2.2.freeList = whole.2.2.freeList
  flag : later.2.2.stalled = false

/-- A rename looks at the table and the free list only. -/
theorem rename_congr (input0 input1 : DecodeBundle) (hr : u.rat = v.rat)
    (hf : u.freeList = v.freeList) :
    (rename u input0 input1).1 = (rename v input0 input1).1 ∧
      (rename u input0 input1).2.1 = (rename v input0 input1).2.1 ∧
      (rename u input0 input1).2.2.rat = (rename v input0 input1).2.2.rat ∧
      (rename u input0 input1).2.2.freeList = (rename v input0 input1).2.2.freeList ∧
      (u.prf = v.prf → (rename u input0 input1).2.2.prf = (rename v input0 input1).2.2.prf) := by
  obtain ⟨ho0, hr0, hf0, hp0⟩ := renameOne_congr (u := { u with stalled := false })
    (v := { v with stalled := false }) hr hf input0
  obtain ⟨ho1, hr1, hf1, hp1⟩ := renameOne_congr hr0 hf0 input1
  simp only [rename, ho0]
  split
  · exact ⟨rfl, rfl, hr0, hf0, hp0⟩
  · simp only [ho1]
    split
    · exact ⟨trivial, trivial, hr1, hf1, fun hp => hp1 (hp0 hp)⟩
    · exact ⟨trivial, trivial, hr1, hf1, fun hp => hp1 (hp0 hp)⟩

/-- After a stall in lane 0 the whole pair is left. -/
theorem completes_of_lane0 (hv : input0.valid = true) (hw : input0.registerWrite = true)
    (hf : u.freeList.freeRegisters = []) {more : List PhysicalRegister}
    (prf : PhysicalRegisterFile PRFCount) (hinvalid : INVALID_REGISTER ∉ more)
    (hcan : canRename ⟨more⟩ input0 input1 = true) :
    let stalled := rename u input0 input1
    let later := rename (stalled.2.2.resupplied more prf) (remaining stalled.1 input0)
      (remaining stalled.2.1 input1)
    let whole := rename (u.resupplied more u.prf) input0 input1
    Completes stalled later whole ∧ (prf = u.prf → later.2.2.prf = whole.2.2.prf) := by
  intro stalled later whole
  obtain ⟨hout0, hout1, hstate⟩ := rename_of_exhausted input1 hv hw hf
  -- nothing was renamed, so what is left is the pair itself
  have hlater : later = rename { u.resupplied more prf with stalled := true } input0 input1 := by
    show rename ((rename u input0 input1).2.2.resupplied more prf)
      (remaining (rename u input0 input1).1 input0)
      (remaining (rename u input0 input1).2.1 input1) = _
    rw [remaining, hout0, remaining, hout1, hstate]
    rfl
  obtain ⟨ho0, ho1, hr, hfl, hp⟩ := rename_congr
    (u := { u.resupplied more prf with stalled := true }) (v := u.resupplied more u.prf)
    input0 input1 rfl rfl
  obtain ⟨hflag, -, -⟩ := rename_succeeds (u := { u.resupplied more prf with stalled := true })
    hcan hinvalid
  rw [← hlater] at ho0 ho1 hr hfl hp hflag
  have hnone0 : stalled.1.valid = false := hout0
  have hnone1 : stalled.2.1.valid = false := by
    show (rename u input0 input1).2.1.valid = false
    rw [hout1]
  refine ⟨⟨?_, ?_, hr, hfl, hflag⟩, hp⟩
  · rw [hnone0]
    exact ho0.symm
  · rw [hnone1]
    exact ho1.symm

/-- After a stall in lane 1 only that lane is left, behind what lane 0 did. -/
theorem completes_of_lane1 {out0 : RenameBundle}
    (h0 : Renames { u with stalled := false } input0 out0 v)
    (heq : renameOne { u with stalled := false } input0 = (out0, v))
    (hv : input1.valid = true) (hw : input1.registerWrite = true)
    (hf : v.freeList.freeRegisters = []) (hfree : INVALID_REGISTER ∉ u.freeList.freeRegisters)
    {more : List PhysicalRegister} (prf : PhysicalRegisterFile PRFCount)
    (hinvalid : INVALID_REGISTER ∉ more)
    (hcan : canRename ⟨u.freeList.freeRegisters ++ more⟩ input0 input1 = true) :
    let stalled := rename u input0 input1
    let later := rename (stalled.2.2.resupplied more prf) (remaining stalled.1 input0)
      (remaining stalled.2.1 input1)
    let whole := rename (u.resupplied (u.freeList.freeRegisters ++ more) u.prf) input0 input1
    Completes stalled later whole ∧ (prf = v.prf → later.2.2.prf = whole.2.2.prf) := by
  intro stalled later whole
  obtain ⟨hfail, hstate⟩ := renameOne_exhausted hv hw hf
  obtain ⟨hs0, hs1, hsr, -, -, -⟩ := rename_of_renames input1 heq h0.valid
  have hnone1 : stalled.2.1.valid = false := by
    show (rename u input0 input1).2.1.valid = false
    rw [hs1]
    exact hfail
  -- lane 0 is a bubble when resumed: it was one before, or it is done
  have hbubble : (remaining stalled.1 input0).valid = false := by
    show (remaining (rename u input0 input1).1 input0).valid = false
    rw [hs0, remaining]
    split
    · rfl
    · next hnone =>
        rw [← h0.valid]
        exact eq_false_of_ne_true hnone
  have hlater : later = rename (stalled.2.2.resupplied more prf) (remaining stalled.1 input0)
      input1 := by
    show rename _ _ (remaining stalled.2.1 input1) = _
    rw [remaining, remaining, hnone1, if_neg Bool.false_ne_true]
  -- the resumed lane 1 starts from the table lane 0 left
  have hrat : stalled.2.2.rat = v.rat := by
    show (rename u input0 input1).2.2.rat = v.rat
    rw [hsr, hstate]
  obtain ⟨hl0, hl1, hlr, hlf, hlp, -⟩ := rename_of_renames input1
    (u := stalled.2.2.resupplied more prf) (renameOne_bubble hbubble) hbubble.symm
  rw [← hlater] at hl0 hl1 hlr hlf hlp
  obtain ⟨prf', hext, hprf⟩ := h0.extend hfree more u.prf
  rw [hf, List.nil_append] at hext
  obtain ⟨hw0, hw1, hwr, hwf, hwp, -⟩ := rename_of_renames input1
    (u := u.resupplied (u.freeList.freeRegisters ++ more) u.prf) hext h0.valid
  obtain ⟨ho, hr, hfl, hp⟩ := renameOne_congr
    (u := { stalled.2.2.resupplied more prf with stalled := false })
    (v := v.resupplied more prf') hrat rfl input1
  -- what is left fits: lane 0 took all that was there
  have hroom : canRename ⟨more⟩ (remaining stalled.1 input0) input1 = true := by
    have hlength : u.freeList.freeRegisters.length =
      takes input0 + v.freeList.freeRegisters.length := h0.length_freeList
    have hneed : takes input0 + takes input1 ≤ (u.freeList.freeRegisters ++ more).length :=
      of_decide_eq_true hcan
    have hzero : takes (remaining stalled.1 input0) = 0 := by
      rw [takes, hbubble, Bool.false_and, if_neg Bool.false_ne_true]
    rw [List.length_append] at hneed
    rw [hf, List.length_nil] at hlength
    apply decide_eq_true
    show takes (remaining stalled.1 input0) + takes input1 ≤ more.length
    omega
  obtain ⟨hflag, -, -⟩ := rename_succeeds (u := stalled.2.2.resupplied more prf) hroom hinvalid
  rw [← hlater] at hflag
  refine ⟨⟨?_, ?_, ?_, ?_, ?_⟩, ?_⟩
  · show whole.1 = if (rename u input0 input1).1.valid then (rename u input0 input1).1 else later.1
    rw [hs0]
    split
    · exact hw0
    · next hnone =>
        have hinput : input0.valid = false := by
          rw [← h0.valid]
          exact eq_false_of_ne_true hnone
        rw [renameOne_bubble hinput] at heq
        rw [show whole.1 = out0 from hw0, ← (Prod.mk.inj heq).1]
        exact hl0.symm
  · rw [hnone1, if_neg Bool.false_ne_true, hl1, ho]
    exact hw1
  · rw [hlr, hr]
    exact hwr.symm
  · rw [hlf, hfl]
    exact hwf.symm
  · exact hflag
  · intro heqprf
    rw [hlp, hp (heqprf.trans (hprf rfl).symm)]
    exact hwp.symm

/-! ## Stalling -/

/-- The two lanes have renamed the instructions `done`, one after the other, and nothing
    else. -/
structure RenamedOnly (u : RenameUnit PRFCount) (done : List DecodeBundle)
    (out : RenameBundle × RenameBundle × RenameUnit PRFCount) : Prop where
  outputs : renamed out.1 out.2.1 = (renameSeq u done).1
  rat : out.2.2.rat = (renameSeq u done).2.rat
  freeList : out.2.2.freeList = (renameSeq u done).2.freeList
  prf : out.2.2.prf = (renameSeq u done).2.prf

/-- A stall in lane 0 leaves everything as it was. -/
theorem renamedOnly_of_lane0 (hv : input0.valid = true) (hw : input0.registerWrite = true)
    (hf : u.freeList.freeRegisters = []) : RenamedOnly u [] (rename u input0 input1) := by
  obtain ⟨hout0, hout1, hstate⟩ := rename_of_exhausted input1 hv hw hf
  refine ⟨?_, ?_, ?_, ?_⟩
  · simp [renamed, renameSeq, hout0, hout1]
  · rw [hstate]
    rfl
  · rw [hstate]
    rfl
  · rw [hstate]
    rfl

/-- A stall in lane 1 leaves what lane 0 did. -/
theorem renamedOnly_of_lane1 {out0 : RenameBundle}
    (h0 : Renames { u with stalled := false } input0 out0 v)
    (heq : renameOne { u with stalled := false } input0 = (out0, v))
    (hv : input1.valid = true) (hw : input1.registerWrite = true)
    (hf : v.freeList.freeRegisters = []) :
    RenamedOnly u ([input0].filter (·.valid)) (rename u input0 input1) := by
  obtain ⟨hfail, hstate⟩ := renameOne_exhausted hv hw hf
  obtain ⟨hs0, hs1, hsr, hsf, hsp, -⟩ := rename_of_renames input1 heq h0.valid
  rw [hstate] at hsr hsf hsp
  cases hv0 : input0.valid with
  | false =>
      -- lane 0 is a bubble: nothing came out
      rw [renameOne_bubble hv0] at heq
      obtain ⟨rfl, rfl⟩ := Prod.mk.inj heq
      refine ⟨?_, ?_, ?_, ?_⟩
      · simp [renamed, renameSeq, hs0, hs1, hfail, hv0]
      · simpa [renameSeq, hv0] using hsr
      · simpa [renameSeq, hv0] using hsf
      · simpa [renameSeq, hv0] using hsp
  | true =>
      have hvalid : out0.valid = true := h0.valid.trans hv0
      obtain ⟨ho, hr, hfl, hp⟩ := renameOne_congr (u := u) (v := { u with stalled := false })
        rfl rfl input0
      rw [heq] at ho hr hfl hp
      refine ⟨?_, ?_, ?_, ?_⟩
      · simp [renamed, renameSeq, hs0, hs1, hfail, hv0, hvalid, ho]
      · simpa [renameSeq, hv0, hr] using hsr
      · simpa [renameSeq, hv0, hfl] using hsf
      · simpa [renameSeq, hv0, hp rfl] using hsp

theorem invalid_not_mem {registers : List PhysicalRegister} (hcount : PRFCount ≤ 255)
    (hrange : ∀ p ∈ registers, p < PRFCount) : INVALID_REGISTER ∉ registers := by
  intro hmem
  have hlt : 255 < PRFCount := hrange _ hmem
  omega

/-- The two-wide rename with any table, register file and free list of registers in range.
    When `can_rename` holds, nothing stalls and every instruction comes out.  When it does
    not, the unit stalls with an empty free list, having renamed a proper prefix of the
    instructions and nothing else; and when registers `more` are free and the rest is
    renamed, the two calls together have renamed the pair as one call would have with the
    registers there, whatever has been written to the register file in between. -/
theorem rename_stalls_cleanly (hcount : PRFCount ≤ 255)
    (hrange : ∀ p ∈ u.freeList.freeRegisters, p < PRFCount) (input0 input1 : DecodeBundle) :
    let out := rename u input0 input1
    (canRename u.freeList input0 input1 = true →
      out.2.2.stalled = false ∧ (input0.valid = true → out.1.valid = true) ∧
        (input1.valid = true → out.2.1.valid = true)) ∧
    (canRename u.freeList input0 input1 = false →
      out.2.2.stalled = true ∧ out.2.2.freeList.freeRegisters = [] ∧
      (∃ done left, instructions input0 input1 = done ++ left ∧ left ≠ [] ∧
        RenamedOnly u done out) ∧
      ∀ more prf, (∀ p ∈ more, p < PRFCount) →
        canRename ⟨u.freeList.freeRegisters ++ more⟩ input0 input1 = true →
        let later := rename (out.2.2.resupplied more prf) (remaining out.1 input0)
          (remaining out.2.1 input1)
        let whole := rename (u.resupplied (u.freeList.freeRegisters ++ more) u.prf) input0 input1
        Completes out later whole ∧ (prf = out.2.2.prf → later.2.2.prf = whole.2.2.prf)) := by
  intro out
  have hfree := invalid_not_mem hcount hrange
  constructor
  · intro hcan
    obtain ⟨hflag, hv0, hv1⟩ := rename_succeeds hcan hfree
    exact ⟨hflag, fun h => hv0.trans h, fun h => hv1.trans h⟩
  · intro hcan
    obtain ⟨hv, hw, hf⟩ | ⟨out0, v, h0, heq, hv, hw, hf⟩ := exhausted_cases hcan hfree
    · -- lane 0 found no register
      obtain ⟨hout0, -, hstate⟩ := rename_of_exhausted input1 hv hw hf
      refine ⟨?_, ?_, ⟨[], instructions input0 input1, rfl, ?_, renamedOnly_of_lane0 hv hw hf⟩, ?_⟩
      · show (rename u input0 input1).2.2.stalled = true
        rw [hstate]
      · show (rename u input0 input1).2.2.freeList.freeRegisters = []
        rw [hstate]
        exact hf
      · simp [instructions, hv]
      · intro more prf hmore hroom
        rw [hf, List.nil_append] at hroom
        obtain ⟨hdone, hprf⟩ :=
          completes_of_lane0 hv hw hf prf (invalid_not_mem hcount hmore) hroom
        rw [hf, List.nil_append]
        refine ⟨hdone, fun hp => hprf (hp.trans ?_)⟩
        show (rename u input0 input1).2.2.prf = _
        rw [hstate]
    · -- lane 0 took the last register, or needed none, and lane 1 found none
      obtain ⟨hfail, hstate⟩ := renameOne_exhausted hv hw hf
      obtain ⟨-, -, -, hsf, hsp, hflag⟩ := rename_of_renames input1 heq h0.valid
      rw [hstate] at hsf hsp
      refine ⟨hflag hv hfail, ?_, ⟨_, [input1], ?_, List.cons_ne_nil _ _,
        renamedOnly_of_lane1 h0 heq hv hw hf⟩, ?_⟩
      · show (rename u input0 input1).2.2.freeList.freeRegisters = []
        rw [hsf]
        exact hf
      · cases hv0 : input0.valid <;> simp [instructions, hv, hv0]
      · intro more prf hmore hroom
        obtain ⟨hdone, hprf⟩ := completes_of_lane1 h0 heq hv hw hf hfree prf
          (invalid_not_mem hcount hmore) hroom
        exact ⟨hdone, fun hp => hprf (hp.trans hsp)⟩

/-- Two destinations and one free register: lane 0 takes it, lane 1 waits for another. -/
theorem rename_stalls_cleanly_last_register :
    let u : RenameUnit 32 :=
      { rat := .init 32, freeList := ⟨[16]⟩, prf := .reset }
    let input0 : DecodeBundle := { valid := true, rd := 3, registerWrite := true }
    let input1 : DecodeBundle := { valid := true, rd := 6, registerWrite := true }
    let out := rename u input0 input1
    canRename u.freeList input0 input1 = false ∧
    (canRename u.freeList input0 input1 = true →
      out.2.2.stalled = false ∧ (input0.valid = true → out.1.valid = true) ∧
        (input1.valid = true → out.2.1.valid = true)) ∧
    (canRename u.freeList input0 input1 = false →
      out.2.2.stalled = true ∧ out.2.2.freeList.freeRegisters = [] ∧
      (∃ done left, instructions input0 input1 = done ++ left ∧ left ≠ [] ∧
        RenamedOnly u done out) ∧
      ∀ more prf, (∀ p ∈ more, p < 32) →
        canRename ⟨u.freeList.freeRegisters ++ more⟩ input0 input1 = true →
        let later := rename (out.2.2.resupplied more prf) (remaining out.1 input0)
          (remaining out.2.1 input1)
        let whole := rename (u.resupplied (u.freeList.freeRegisters ++ more) u.prf) input0 input1
        Completes out later whole ∧ (prf = out.2.2.prf → later.2.2.prf = whole.2.2.prf)) :=
  ⟨by decide, rename_stalls_cleanly (by decide) (by decide) _ _⟩

end CpuSim.SuperScalar.RenameUnit
