/-
  CpuSim.SuperScalar.ProgramOrder

  The window as a stretch of the program.  Every entry is the instruction the interpreter
  comes to behind the older ones, where a branch still to execute leads on to where the
  front end followed it; and what decode is shown next continues the window.
-/

import CpuSim.SuperScalar.Followed
import CpuSim.SuperScalar.Forwarding

namespace CpuSim.SuperScalar

open CpuSim.Lib CpuSim.Lib.Renaming

variable {cfg : Config}

theorem ROBEntry.FromDecode.halt_eq {e : ROBEntry} (h : e.FromDecode) :
    e.halt = (e.decoded.opcode == .HALT) := by
  rw [h.halt, decodeWord_halt, decodeWord_opcode]
  rfl

/-! ## The interpreter along a list of entries -/

namespace Interpreter

variable {words w : Nat} {way way' : ROBEntry → Word} {σ : Interpreter words} {e : ROBEntry}
  {es es' : List ROBEntry} {imem : InstructionMemory w}

/-- The state behind an entry; a branch still to execute leads on to `way`. -/
def advance (way : ROBEntry → Word) (σ : Interpreter words) (e : ROBEntry) :
    Interpreter words where
  pc := if e.branch && !e.completed then way e else σ.data.nextPc e.decoded e.pc
  data := σ.data.execEntry e

/-- The state behind all of `es`. -/
def along (way : ROBEntry → Word) (σ : Interpreter words) (es : List ROBEntry) :
    Interpreter words := es.foldl (advance way) σ

@[simp] theorem along_nil : σ.along way [] = σ := rfl

@[simp] theorem along_cons : σ.along way (e :: es) = (σ.advance way e).along way es := rfl

theorem along_append : σ.along way (es ++ es') = (σ.along way es).along way es' :=
  List.foldl_append

theorem along_data (way : ROBEntry → Word) : (σ.along way es).data = σ.data.after es := by
  induction es generalizing σ with
  | nil => rfl
  | cons e es ih => exact ih

/-- Each of `es` is where the ones in front of it lead. -/
def Follow (way : ROBEntry → Word) (σ : Interpreter words) (es : List ROBEntry) : Prop :=
  Chain (advance way) (fun σ e => e.pc = σ.pc) σ es

namespace Follow

/-- Only branches still to execute look at `way`. -/
theorem congr_way (h : Follow way σ es)
    (heq : ∀ e ∈ es, e.branch = true → e.completed = false → way' e = way e) :
    Follow way' σ es ∧ σ.along way' es = σ.along way es := by
  have hadv : ∀ (σ : Interpreter words) (e : ROBEntry), e ∈ es →
      advance way' σ e = advance way σ e := by
    intro σ e he
    rw [advance, advance]
    cases hb : e.branch with
    | false => rfl
    | true =>
        cases hc : e.completed with
        | false => rw [heq e he hb hc]
        | true => rfl
  constructor
  · have hmap : Chain (advance way') (fun σ e => e.pc = σ.pc) σ (es.map id) :=
      Chain.map h hadv fun _ _ _ hpc => hpc
    rwa [List.map_id] at hmap
  · have hfold := foldl_map_eq (f := id) hadv σ
    rwa [List.map_id] at hfold

/-- A completed entry of the program is one step of the interpreter. -/
theorem advance_completed (way : ROBEntry → Word) (hpc : e.pc = σ.pc) (hdone : e.completed = true)
    (hword : e.instruction = imem.read e.pc) :
    σ.current imem = e.decoded ∧ σ.advance way e = σ.step imem := by
  have hcurrent : σ.current imem = e.decoded := by
    rw [current, ROBEntry.decoded, hword, hpc]
  refine ⟨hcurrent, ?_⟩
  rw [advance, step, hcurrent, hdone, Bool.not_true, Bool.and_false, hpc]
  rfl

variable {σ0 : Interpreter words} {k : Nat}

/-- Completed entries are as many steps of the interpreter. -/
theorem along_completed (h : Follow way (σ0.run imem k) es)
    (hdone : ∀ e ∈ es, e.completed = true) (hword : ∀ e ∈ es, e.instruction = imem.read e.pc) :
    (σ0.run imem k).along way es = σ0.run imem (k + es.length) := by
  induction es generalizing k with
  | nil => rfl
  | cons e es ih =>
      have hstep := (advance_completed way h.1 (hdone e List.mem_cons_self)
        (hword e List.mem_cons_self)).2
      have htail : Follow way (σ0.run imem (k + 1)) es := by
        rw [run, ← hstep]
        exact h.2
      rw [along_cons, hstep, List.length_cons, Nat.add_comm es.length, ← Nat.add_assoc]
      exact ih htail (fun x hx => hdone x (List.mem_cons_of_mem _ hx)) fun x hx =>
        hword x (List.mem_cons_of_mem _ hx)

/-- The instruction the interpreter executes for an entry. -/
theorem current {pre post : List ROBEntry} (h : Follow way (σ0.run imem k) es)
    (hdone : ∀ e ∈ es, e.completed = true) (hword : ∀ e ∈ es, e.instruction = imem.read e.pc)
    (hsplit : es = pre ++ e :: post) :
    (σ0.run imem (k + pre.length)).current imem = e.decoded := by
  have hpc := h.at_split hsplit
  rw [hsplit] at h hdone hword
  have hpre : Follow way (σ0.run imem k) pre := (Chain.append_iff.mp h).1
  have halong := along_completed hpre (fun x hx => hdone x (List.mem_append_left _ hx))
    fun x hx => hword x (List.mem_append_left _ hx)
  rw [← halong]
  have he : e ∈ pre ++ e :: post := by simp
  exact (advance_completed way hpc (hdone e he) (hword e he)).1

/-- Entries that are no `HALT` leave the interpreter running. -/
theorem running (h : Follow way (σ0.run imem k) es) (hdone : ∀ e ∈ es, e.completed = true)
    (hword : ∀ e ∈ es, e.instruction = imem.read e.pc) (hdec : ∀ e ∈ es, e.FromDecode)
    (hhalt : ∀ e ∈ es, e.halt = false)
    (hk : ∀ j < k, ((σ0.run imem j).current imem).opcode ≠ .HALT) :
    ∀ j < k + es.length, ((σ0.run imem j).current imem).opcode ≠ .HALT := by
  intro j hj
  by_cases hlt : j < k
  · exact hk j hlt
  · -- the instruction is that of an entry
    obtain ⟨i, rfl⟩ := Nat.exists_eq_add_of_le (Nat.le_of_not_lt hlt)
    have hi : i < es.length := by omega
    have hmem : es[i] ∈ es := List.getElem_mem hi
    have hsplit : es = es.take i ++ es[i] :: es.drop (i + 1) := by
      rw [List.cons_getElem_drop_succ, List.take_append_drop]
    have hcurrent := h.current hdone hword hsplit
    rw [List.length_take, Nat.min_eq_left (Nat.le_of_lt hi)] at hcurrent
    rw [hcurrent]
    have hno := hhalt _ hmem
    rw [(hdec _ hmem).halt_eq, beq_eq_false_iff_ne] at hno
    exact hno

/-- Completed entries up to a `HALT` take the interpreter to the first one it reaches, and
    the `HALT` itself changes no data. -/
theorem halts (h : Follow way (σ0.run imem k) es) (hdone : ∀ e ∈ es, e.completed = true)
    (hword : ∀ e ∈ es, e.instruction = imem.read e.pc) (hdec : ∀ e ∈ es, e.FromDecode)
    (hlast : ∀ pre e post, es = pre ++ e :: post → e.halt = true → post = [])
    (hhalt : ∃ e ∈ es, e.halt = true)
    (hk : ∀ j < k, ((σ0.run imem j).current imem).opcode ≠ .HALT) :
    ∃ j, σ0.HaltsAt imem j ∧ (σ0.run imem (k + es.length)).data = (σ0.run imem j).data := by
  obtain ⟨e, he, hyes⟩ := hhalt
  obtain ⟨pre, post, hsplit⟩ := List.append_of_mem he
  obtain rfl := hlast pre e post hsplit hyes
  have hcurrent := h.current hdone hword hsplit
  have hcode : e.decoded.opcode = .HALT := by
    rw [(hdec e he).halt_eq, beq_iff_eq] at hyes
    exact hyes
  have hsub : ∀ x ∈ pre, x ∈ es := fun x hx => by
    rw [hsplit]
    exact List.mem_append_left _ hx
  refine ⟨k + pre.length, ⟨by rw [hcurrent]; exact hcode, ?_⟩, ?_⟩
  · -- no `HALT` in front of the last entry
    rw [hsplit] at h
    have hpre : Follow way (σ0.run imem k) pre := (Chain.append_iff.mp h).1
    refine hpre.running (fun x hx => hdone x (hsub x hx)) (fun x hx => hword x (hsub x hx))
      (fun x hx => hdec x (hsub x hx)) (fun x hx => ?_) hk
    obtain ⟨pre', post', hmid⟩ := List.append_of_mem hx
    apply eq_false_of_ne_true
    intro hx'
    have hnil := hlast pre' x (post' ++ [e]) (by rw [hsplit, hmid, List.append_assoc]; rfl) hx'
    simp at hnil
  · have hlen : k + es.length = k + pre.length + 1 := by
      rw [hsplit, List.length_append]
      rfl
    rw [hlen, run, step, hcurrent]
    show (σ0.run imem (k + pre.length)).data.exec e.decoded = _
    rw [Machine.exec, Machine.result, hcode]
    rfl

end Follow

end Interpreter

/-! ## Only branches are learned -/

/-- Every valid entry of the branch target buffer is tagged with the address of a branch. -/
def BranchPredictor.TagsBranches {n w : Nat} (predictor : BranchPredictor n)
    (imem : InstructionMemory w) : Prop :=
  ∀ i, (predictor.btb i).valid = true →
    (imem.decodedAt (predictor.btb i).tag).controlFlow = .BRANCH

namespace BranchPredictor

variable {n w : Nat} {predictor : BranchPredictor n} {imem : InstructionMemory w} {pc : Word}

theorem TagsBranches.update (h : predictor.TagsBranches imem)
    (hpc : (imem.decodedAt pc).controlFlow = .BRANCH) (taken : Bool) (target : Word) :
    (predictor.update pc taken target).TagsBranches imem := by
  intro i hv
  rcases update_entry pc target taken i hv with ⟨hold, heq⟩ | ⟨htag, -⟩
  · rw [heq]
    exact h i hold
  · rw [htag]
    exact hpc

theorem TagsBranches.predict (h : predictor.TagsBranches imem)
    (hhit : (predictor.predict pc).btbHit = true) :
    (imem.decodedAt pc).controlFlow = .BRANCH := by
  simp only [BranchPredictor.predict, Bool.and_eq_true, beq_iff_eq] at hhit
  have htag := h _ hhit.1
  rwa [hhit.2] at htag

end BranchPredictor

/-! ## The window in program order -/

namespace SuperScalarCPU

/-- The branch unit finds the next instruction of the interpreter. -/
theorem Computes.branch_next {s : SuperScalarCPU cfg} {m : Register → PhysicalRegister}
    {own : Nat → Word × Word} {d : Machine cfg.dataMemoryWords} (h : Computes own d s)
    (hR : Renaming m s) (hD : Delivery m s) (hs : Sound s) {i : Nat}
    (hi : s.selectBranch = some i) :
    ∃ pre b post, s.rob.window = pre ++ b :: post ∧ (s.iq.entries i).Matches b ∧
      (s.branchResult i).nextPc = (d.after pre).nextPc b.decoded b.pc := by
  obtain ⟨-, hlive, hflow, h1, h2⟩ := selectBranch_some hi
  obtain ⟨pre, b, post, hw, hm, hop⟩ := h.operands hR hD hs hlive h1 h2
  refine ⟨pre, b, post, hw, hm, ?_⟩
  rw [← hm.decoded, ← hm.pc]
  exact hop.nextPc (hs.inFlight.queueDecoded _ hlive) hflow _ _

variable {s t : SuperScalarCPU cfg} {way way' : ROBEntry → Word}
  {σ : Interpreter cfg.dataMemoryWords} {pc : Word}

/-- The window is a stretch of the program behind `σ`, which goes on at `pc`. -/
structure InOrder (way : ROBEntry → Word) (σ : Interpreter cfg.dataMemoryWords) (pc : Word)
    (s : SuperScalarCPU cfg) : Prop where
  follow : σ.Follow way s.rob.window
  goesOn : (σ.along way s.rob.window).pc = pc

namespace InOrder

theorem congr (h : InOrder way σ pc s) (hrob : t.rob = s.rob) : InOrder way σ pc t := by
  refine ⟨?_, ?_⟩
  · rw [hrob]
    exact h.follow
  · rw [hrob]
    exact h.goesOn

theorem commit (h : InOrder way σ pc s) {es : List ROBEntry} (hc : Commits s t es) :
    σ.Follow way es ∧ InOrder way (σ.along way es) pc t := by
  obtain ⟨hfollow, hpc⟩ := h
  rw [hc.window] at hfollow hpc
  obtain ⟨hes, hrest⟩ := Chain.append_iff.mp hfollow
  rw [Interpreter.along_append] at hpc
  exact ⟨hes, hrest, hpc⟩

/-- Finishing a queued instruction; a branch goes on to where it was followed. -/
theorem finish (h : InOrder way σ pc s) (hs : Sound s) {i : Nat} {pre post : List ROBEntry}
    {b : ROBEntry} (hw : s.rob.window = pre ++ b :: post) (hm : (s.iq.entries i).Matches b)
    (r : Word) (hway : b.branch = true → b.completed = false →
      way b = (σ.data.after pre).nextPc b.decoded b.pc) : InOrder way σ pc (s.finish i r) := by
  obtain ⟨-, hwin⟩ := window_complete_split hs.inFlight.rob_wf hw r
  rw [← hm.robIndex] at hwin
  -- finishing a branch replaces `way` by the data, and the two agree on it
  have hadv : (σ.along way pre).advance way (b.finish r) = (σ.along way pre).advance way b := by
    rw [Interpreter.advance, Interpreter.advance, Interpreter.along_data,
      show (b.finish r).branch = b.branch from rfl,
      show (b.finish r).completed = true from rfl, Bool.not_true, Bool.and_false,
      if_neg Bool.false_ne_true]
    cases hb : b.branch with
    | false => rfl
    | true =>
        cases hc : b.completed with
        | true => rfl
        | false =>
            rw [hway hb hc]
            rfl
  obtain ⟨hfollow, hpc⟩ := h
  rw [hw] at hfollow hpc
  obtain ⟨hpre, hb, hpost⟩ := Chain.append_iff.mp hfollow
  rw [Interpreter.along_append, Interpreter.along_cons, ← hadv] at hpc
  refine ⟨?_, ?_⟩
  · show σ.Follow way (s.rob.complete (s.iq.entries i).robIndex r).window
    rw [hwin]
    refine Chain.append_iff.mpr ⟨hpre, hb, ?_⟩
    change Chain _ _ ((σ.along way pre).advance way (b.finish r)) post
    rw [hadv]
    exact hpost
  · show (σ.along way (s.rob.complete (s.iq.entries i).robIndex r).window).pc = pc
    rw [hwin, Interpreter.along_append, Interpreter.along_cons]
    exact hpc

/-- An instruction that is no branch finishes where it was. -/
theorem finish_other (h : InOrder way σ pc s) (hs : Sound s) {i : Nat}
    (hlive : s.iq.entries i ∈ s.iq.live) (hno : (s.iq.entries i).controlFlow ≠ .BRANCH)
    (r : Word) : InOrder way σ pc (s.finish i r) := by
  obtain ⟨b, hb, -, hm⟩ := hs.inFlight.backed _ hlive
  obtain ⟨pre, post, hw⟩ := List.append_of_mem hb
  refine h.finish hs hw hm r fun hbranch => absurd ?_ hno
  rw [(hs.inFlight.entryDecoded b hb).branch, ← hm.pc, ← hm.instruction,
    ← (hs.inFlight.queueDecoded _ hlive).controlFlow, beq_iff_eq] at hbranch
  exact hbranch

theorem memory (h : InOrder way σ pc s) (hs : Sound s) {rs : List MemoryResult}
    (hc : MemoryCase s t rs) : InOrder way σ pc t := by
  have hno : ∀ {i : Nat}, s.MemReady i →
      (s.iq.entries i).memoryRead = true ∨ (s.iq.entries i).memoryWrite = true →
        (s.iq.entries i).controlFlow ≠ .BRANCH := by
    intro i hi hop hbranch
    obtain ⟨-, -, -, -, -, hread, hwrite, hflow⟩ :=
      (hs.inFlight.queueDecoded _ hi.live).fields
    rw [hread, hwrite, beq_iff_eq, beq_iff_eq] at hop
    rw [hflow] at hbranch
    rcases hop with hop | hop <;> rw [hop] at hbranch <;> cases hbranch
  exact hc.preserves h (fun _ r hi hop => h.finish_other hs hi.live (hno hi hop) r)
    fun _ _ _ hu => hu.congr rfl

theorem executeAlu (h : InOrder way σ pc s) (hs : Sound s) {i : Nat}
    (hi : s.selectReadyAluEntry = some i) : InOrder way σ pc (s.executeAlu i) := by
  obtain ⟨-, hlive, hready⟩ := selectReadyAluEntry_some hi
  simp only [readyAlu, Bool.and_eq_true, beq_iff_eq] at hready
  rw [executeAlu_eq]
  apply h.finish_other hs hlive
  rw [hready.1.1.2]
  intro hnone
  cases hnone

/-- A branch that was followed to its next instruction leaves the window as it is, and
    a recovery cuts it behind the branch, which goes on to the redirect. -/
theorem branch (h : InOrder way σ pc s) (hs : Sound s)
    (hnext : ∀ i, s.selectBranch = some i → ∃ pre b post, s.rob.window = pre ++ b :: post ∧
      (s.iq.entries i).Matches b ∧
      (s.branchResult i).nextPc = (σ.data.after pre).nextPc b.decoded b.pc)
    (hway : ∀ i b, s.selectBranch = some i → (s.branchResult i).mispredicted = false →
      b ∈ s.rob.window → (s.iq.entries i).Matches b → way b = (s.branchResult i).nextPc)
    (hc : BranchCase s t) :
    (s.branchRecovered = false → InOrder way σ pc t) ∧
      ∀ i, s.selectBranch = some i → (s.branchResult i).mispredicted = true →
        InOrder way σ (s.branchResult i).redirectPc t := by
  cases hc with
  | none hi ht =>
      rw [ht]
      refine ⟨fun _ => h, fun i hi' => ?_⟩
      rw [hi] at hi'
      cases hi'
  | correct i hi hm ht =>
      obtain ⟨pre, b, post, hw, hmatch, hpc⟩ := hnext i hi
      have hb : b ∈ s.rob.window := by rw [hw]; simp
      refine ⟨fun _ => ?_, fun j hj hmj => ?_⟩
      · rw [ht, hs.resolveBranch_eq hi]
        refine (h.finish hs hw hmatch (s.branchResult i).targetPc fun _ _ => ?_).congr rfl
        -- the front end went on where the branch goes
        rw [hway i b hi hm hb hmatch, hpc]
      · rw [hi] at hj
        cases hj
        rw [hm] at hmj
        cases hmj
  | mispredicted i hi hm pre b post hmatch _ hr =>
      refine ⟨fun hno => ?_, fun j hj _ => ?_⟩
      · rw [branchRecovered_some hi, hm] at hno
        cases hno
      · rw [hi] at hj
        cases hj
        obtain ⟨pre', b', post', hw, hmatch', hpc⟩ := hnext i hi
        -- the branch of `hnext` is the one the squash kept last
        obtain ⟨rfl, rfl, -⟩ := split_unique hs.inFlight.rob_wf.nodup_robIndex hw hr.split
          (hmatch'.robIndex.symm.trans hmatch.robIndex)
        obtain ⟨hfollow, -⟩ := h
        rw [hw] at hfollow
        obtain ⟨hpre, hb, -⟩ := Chain.append_iff.mp hfollow
        have hredirect : (s.branchResult i).redirectPc = (s.branchResult i).nextPc := by
          have hdef : (s.branchResult i).redirectPc =
            if (s.branchResult i).mispredicted then (s.branchResult i).nextPc else 0 := rfl
          rw [hdef, hm, if_pos rfl]
        refine ⟨?_, ?_⟩
        · rw [hr.window]
          exact Chain.append_iff.mpr ⟨hpre, hb, trivial⟩
        · rw [hr.window, Interpreter.along_append, hredirect, hpc,
            ← Interpreter.along_data way]
          show (if (b'.finish _).branch && !(b'.finish _).completed then _ else _) = _
          -- finished, the branch goes where the data says, which is the redirect
          rw [show (b'.finish (s.branchResult i).targetPc).completed = true from rfl,
            Bool.not_true, Bool.and_false, if_neg Bool.false_ne_true]
          rfl

/-- The backend of a step. -/
theorem executed (h : InOrder way σ pc s) (hs : Steps s) {es : List ROBEntry}
    (hes : Commits s s.committed es) {m : Register → PhysicalRegister}
    {own : Nat → Word × Word} (hR : Renaming m s.memoryDone) (hD : Delivery m s.memoryDone)
    (hA : Agrees own (σ.data.after es) s.memoryDone)
    (hway : ∀ i b, s.memoryDone.selectBranch = some i →
      (s.memoryDone.branchResult i).mispredicted = false → b ∈ s.memoryDone.rob.window →
        (s.memoryDone.iq.entries i).Matches b → way b = (s.memoryDone.branchResult i).nextPc) :
    σ.Follow way es ∧
      (s.memoryDone.branchRecovered = false → InOrder way (σ.along way es) pc s.executed) ∧
        ∀ i, s.memoryDone.selectBranch = some i →
          (s.memoryDone.branchResult i).mispredicted = true →
            InOrder way (σ.along way es) (s.memoryDone.branchResult i).redirectPc s.executed := by
  obtain ⟨hretired, hcommit⟩ := h.commit hes
  have hmemory := hcommit.memory hs.sound_committed hs.memoryCase
  obtain ⟨hquiet, hrecovered⟩ := hmemory.branch hs.sound_memoryDone (fun i hi => by
    rw [Interpreter.along_data]
    exact hA.computes.branch_next hR hD hs.sound_memoryDone hi) hway hs.branchCase
  -- the arithmetic unit only finishes entries that are no branches
  have halu : ∀ {pc : Word}, InOrder way (σ.along way es) pc s.memoryDone.branchStage →
      InOrder way (σ.along way es) pc s.executed := by
    intro pc hbranch
    have hboth : Sound s.executed ∧ InOrder way (σ.along way es) pc s.executed :=
      aluStage_induction (P := fun t => Sound t ∧ InOrder way (σ.along way es) pc t)
        ⟨hs.sound_branchDone, hbranch⟩ fun t i ht hi =>
          ⟨ht.1.executeAlu hi, ht.2.executeAlu ht.1 hi⟩
    exact hboth.2
  exact ⟨hretired, fun hno => halu (hquiet hno), fun i hi hm => halu (hrecovered i hi hm)⟩

/-- One more entry at the end. -/
theorem enter (h : InOrder way σ pc s) {e : ROBEntry} (hw : t.rob.window = s.rob.window ++ [e])
    (hpc : e.pc = pc) : InOrder way σ ((σ.along way s.rob.window).advance way e).pc t := by
  obtain ⟨hfollow, hgoesOn⟩ := h
  constructor
  · rw [hw]
    exact Chain.append_iff.mpr ⟨hfollow, hpc.trans hgoesOn.symm, trivial⟩
  · rw [hw, Interpreter.along_append]
    rfl

end InOrder

/-! ## Branches learned in a run -/

/-- A branch that resolves trains the predictor at its own address. -/
theorem tagsBranches_branch (h : s.predictor.TagsBranches s.imem) (hf : Fetched s) (hs : Sound s)
    (hc : BranchCase s t) : t.predictor.TagsBranches s.imem := by
  have hlearn : ∀ i, s.selectBranch = some i →
      (s.predictor.update (s.branchResult i).pc (s.branchResult i).taken
        (s.branchResult i).targetPc).TagsBranches s.imem := by
    intro i hi
    obtain ⟨-, hlive, hflow, -, -⟩ := selectBranch_some hi
    -- the address learned is that of a branch of the window
    obtain ⟨b, hb, -, hm⟩ := hs.inFlight.backed _ hlive
    apply h.update
    show (decodeWord (s.iq.entries i).pc (s.imem.read (s.iq.entries i).pc)).controlFlow = _
    rw [hm.pc, ← hf.window b hb, ← hm.pc, ← hm.instruction,
      ← (hs.inFlight.queueDecoded _ hlive).controlFlow, hflow]
  cases hc with
  | none _ ht =>
      rw [ht]
      exact h
  | correct i hi _ ht =>
      rw [ht]
      exact hlearn i hi
  | mispredicted i hi _ pre b post _ _ hr =>
      rw [hr.frame]
      exact hlearn i hi

theorem Steps.tagsBranches (hs : Steps s) (hf : Fetched s)
    (h : s.predictor.TagsBranches s.imem) : s.executed.predictor.TagsBranches s.imem := by
  obtain ⟨es, hes⟩ := hs.commits
  have hframe := memoryCase_frame hs.memoryCase
  have himem : s.memoryDone.imem = s.imem := hframe.2.2.2.1.trans hes.imem
  have hpred : s.memoryDone.predictor = s.predictor := hframe.2.2.1.trans hes.predictor
  have hmemory := (hf.commit hes).memory hs.sound_committed hs.memoryCase
  rw [← hpred, ← himem] at h
  have hbranch := tagsBranches_branch h hmemory hs.sound_memoryDone hs.branchCase
  rw [himem] at hbranch
  rw [executed, aluStage_frame]
  exact hbranch

theorem run_tagsBranches (cfg : Config) (words : List Word) (data : List (Nat × Word))
    (n : Nat) :
    (run (boot cfg words data) n).predictor.TagsBranches (run (boot cfg words data) n).imem := by
  induction n with
  | zero =>
      rw [run, boot_frame]
      intro i hv
      cases hv
  | succ n ih =>
      show (run (boot cfg words data) n).next.predictor.TagsBranches
        (run (boot cfg words data) n).next.imem
      cases hgo : (run (boot cfg words data) n).halted with
      | true =>
          rw [next_of_halted hgo]
          exact ih
      | false =>
          have hs := run_steps hgo
          rw [hs.next_predictor, hs.next_imem]
          exact hs.tagsBranches (run_fetched cfg words data n) ih

/-- A lane whose prediction hits is a branch. -/
theorem lane_of_hit (h : s.predictor.TagsBranches s.imem) :
    (s.predictionResult.lane0.btbHit = true →
        (s.imem.decodedAt s.decodeLane0.pc).controlFlow = .BRANCH) ∧
      (s.predictionResult.lane1.btbHit = true →
        (s.imem.decodedAt s.decodeLane1.pc).controlFlow = .BRANCH) := by
  obtain ⟨h0, h1⟩ := BranchPredictionUnit.evaluate_lanes s.predictor s.decodeLane0.pc
    s.decodeLane0.valid s.decodeLane0.controlFlow s.decodeLane1.pc s.decodeLane1.valid
    s.decodeLane1.controlFlow
  rw [predictionResult, h0, h1]
  constructor
  · split
    · exact h.predict
    · intro hhit
      cases hhit
  · split
    · exact h.predict
    · intro hhit
      cases hhit

/-! ## What decode is shown next -/

/-- The address of the instruction decode is shown next. -/
def shownPc (s : SuperScalarCPU cfg) : Word :=
  if s.frontend.decodeBundle.valid0 then s.frontend.decodeBundle.pc0 else s.fetchPc

/-- A step shows the target of its redirect, or what was being fetched. -/
theorem Streaming.next_shownPc (hs : Streaming s) (h : Steps s) :
    s.next.shownPc = s.redirectTarget.getD s.fetchPc := by
  cases hr : s.redirectTarget with
  | none =>
      rw [shownPc, (hs.sequential h hr).1]
      rfl
  | some target =>
      obtain ⟨hdec, hpc, -⟩ := hs.redirected h hr
      rw [shownPc, hdec, hpc]
      rfl

/-! ## Lanes -/

/-- An instruction that is no branch leads on to the next one. -/
theorem nextPc_of_not_branch {e : ROBEntry} (hdec : e.FromDecode) (hb : e.branch = false)
    {words : Nat} (d : Machine words) : d.nextPc e.decoded e.pc = e.pc + 4 := by
  have hop : e.decoded.opcode = (decodeWord e.pc e.instruction).opcode := by
    rw [← hdec.opcode_eq, hdec.opcode]
  rw [hdec.branch, decodeWord_controlFlow, ← hop, beq_eq_false_iff_ne] at hb
  rw [Machine.nextPc]
  cases hcode : e.decoded.opcode <;> rw [hcode] at hb <;> first | rfl | exact absurd rfl hb

/-- A branch is not completed when it enters. -/
theorem laneEntry_open {ren : RenameBundle} (hdec : (s.laneEntry ren).FromDecode)
    (hb : (s.laneEntry ren).branch = true) : (s.laneEntry ren).completed = false := by
  obtain ⟨-, -, -, hhalt⟩ := hdec.of_branch hb
  have hop : (s.laneEntry ren).opcode ≠ .NOP := by
    intro hnop
    rw [hdec.branch, decodeWord_controlFlow, ← hdec.opcode, hnop] at hb
    cases hb
  rw [laneEntry_eq] at hhalt hop ⊢
  show (ren.halt || ren.opcode == .NOP) = false
  rw [show ren.halt = false from hhalt, beq_false_of_ne hop]
  rfl

/-- An entry that enters leads on to where the front end goes behind its lane. -/
theorem advance_entered {e : ROBEntry} (hdec : e.FromDecode)
    (hopen : e.branch = true → e.completed = false) {prediction : BranchPrediction}
    (hhit : prediction.btbHit = true → e.branch = true)
    (hway : e.branch = true → way e = followedPc e.pc prediction) :
    (σ.advance way e).pc = followedPc e.pc prediction := by
  rw [Interpreter.advance]
  cases hb : e.branch with
  | true =>
      rw [hopen hb]
      exact hway hb
  | false =>
      have hmiss : prediction.btbHit = false := eq_false_of_ne_true fun hyes => by
        rw [hhit hyes] at hb
        cases hb
      rw [followedPc, hmiss, Bool.and_false]
      exact nextPc_of_not_branch hdec hb σ.data

/-- The prediction of a lane hits for branches only. -/
theorem Steps.hit_of_entered (h : Steps s) (hs : Streaming s) (hf : Fetched s)
    (ht : s.predictor.TagsBranches s.imem) :
    (s.dispatched0 = true → (s.lanePrediction 0).btbHit = true → s.entry0.branch = true) ∧
      (s.dispatched1 = true → (s.lanePrediction 1).btbHit = true → s.entry1.branch = true) := by
  have himem := h.executed_imem
  obtain ⟨hit0, hit1⟩ := lane_of_hit (s := s.executed) (by
    rw [himem]
    exact h.tagsBranches hf ht)
  -- what enters holds the instruction at its address
  have hbranch : ∀ e ∈ s.entered, (s.imem.decodedAt e.pc).controlFlow = .BRANCH →
      e.branch = true := by
    intro e he hflow
    have hmem : e ∈ s.next.rob.window := by
      rw [h.window_next]
      exact List.mem_append_right _ he
    have hword := (hf.next hs h).window e hmem
    rw [(h.sound_next.inFlight.entryDecoded e hmem).branch, hword, h.next_imem, beq_iff_eq]
    exact hflow
  constructor
  · intro hd hhit
    obtain ⟨hr, hv, -⟩ := h.of_dispatched0 hd
    obtain ⟨p, hdec, -, hpc, -⟩ := h.input0 hs hr hv
    have hlane : s.executed.decodeLane0.pc = p := by
      rw [(decodeLane_pc _).1, h.executed_frontend (h.of_renames hr).1, hdec]
      rfl
    apply hbranch
    · rw [entered, hd]
      simp
    · rw [(h.entry0_input hd).1, hpc, ← hlane, ← himem]
      exact hit0 hhit
  · intro hd hhit
    obtain ⟨hr, hv, -, -⟩ := h.of_dispatched1 hd
    obtain ⟨p, hdec, -, hpc, -⟩ := h.input1 hs hr hv
    have hlane : s.executed.decodeLane1.pc = p + 4 := by
      rw [(decodeLane_pc _).2, h.executed_frontend (h.of_renames hr).1, hdec]
      rfl
    apply hbranch
    · rw [entered, hd]
      simp
    · rw [(h.entry1_input hd).1, hpc, ← hlane, ← himem]
      exact hit1 hhit

/-! ## A step -/

/-- The window follows the program behind `σ`, and while no `HALT` is in flight decode is
    shown next what continues it. -/
def OnPath (way : ROBEntry → Word) (σ : Interpreter cfg.dataMemoryWords)
    (s : SuperScalarCPU cfg) : Prop :=
  ∃ pc, InOrder way σ pc s ∧ (s.haltDispatched = false → s.shownPc = pc)

namespace OnPath

/-- After a recovery the front end goes on where the branch does. -/
theorem of_recovered (hs : Steps s) (hstr : Streaming s) {i : Nat}
    (hi : s.memoryDone.selectBranch = some i)
    (hm : (s.memoryDone.branchResult i).mispredicted = true)
    (h : InOrder way σ (s.memoryDone.branchResult i).redirectPc s.executed) :
    OnPath way σ s.next := by
  have hrec : s.memoryDone.branchRecovered = true := by rw [branchRecovered_some hi, hm]
  have hidle : s.renames = false := eq_false_of_ne_true fun hgo => by
    rw [(hs.of_renames hgo).1] at hrec
    cases hrec
  have htarget : s.redirectTarget = some (s.memoryDone.branchResult i).redirectPc := by
    rw [redirectTarget, hrec, if_pos rfl, resolvedBranch, hi]
    rfl
  refine ⟨_, h.congr (by rw [hs.next_idle hidle]; rfl), fun _ => ?_⟩
  rw [hstr.next_shownPc hs, htarget]
  rfl

/-- Behind a `HALT` the window only drains. -/
theorem of_fenced (hs : Steps s) (hrec : s.memoryDone.branchRecovered = false)
    (hd : s.haltDispatched = true) (h : InOrder way σ pc s.executed) : OnPath way σ s.next := by
  have hidle : s.renames = false := eq_false_of_ne_true fun hgo => by
    rw [(hs.of_renames hgo).2] at hd
    cases hd
  have hnext : s.next = s.executed.withFrontend s.next.frontend := hs.next_idle hidle
  refine ⟨pc, h.congr (by rw [hnext]; rfl), fun hopen => ?_⟩
  have hflag : s.next.haltDispatched = s.executed.haltDispatched := by
    rw [hnext]
    rfl
  rw [hflag, hs.executed_haltDispatched, hd, hrec] at hopen
  cases hopen

/-- A bubble lets the front end catch up with the window. -/
theorem of_bubble (hs : Steps s) (hstr : Streaming s)
    (hrec : s.memoryDone.branchRecovered = false) (hbubble : s.frontend.decodeBundle = {})
    (h : InOrder way σ s.shownPc s.executed) : OnPath way σ s.next := by
  have hnone : ∀ p, s.frontend.decodeBundle ≠ s.imem.bundleAt p := by
    intro p hp
    rw [hbubble] at hp
    exact absurd (congrArg FetchBundle.valid0 hp) Bool.false_ne_true
  -- with nothing in decode neither lane can have dispatched
  have hd0 : s.dispatched0 = false := eq_false_of_ne_true fun hd => by
    obtain ⟨hr, hv, -⟩ := hs.of_dispatched0 hd
    obtain ⟨p, hdec, -⟩ := hs.input0 hstr hr hv
    exact hnone p hdec
  have hd1 : s.dispatched1 = false := eq_false_of_ne_true fun hd => by
    obtain ⟨hr, hv, -, -⟩ := hs.of_dispatched1 hd
    obtain ⟨p, hdec, -⟩ := hs.input1 hstr hr hv
    exact hnone p hdec
  have hwin : s.next.rob.window = s.executed.rob.window := by
    rw [hs.window_next, entered, hd0, hd1]
    exact List.append_nil _
  have hshown : s.shownPc = s.fetchPc := by
    rw [shownPc, hbubble]
    rfl
  refine ⟨s.shownPc, ⟨by rw [hwin]; exact h.follow, by rw [hwin]; exact h.goesOn⟩, fun _ => ?_⟩
  rw [hstr.next_shownPc hs, hs.bubble_redirect hbubble hrec, hshown]
  rfl

/-- Both instructions of a bundle enter behind the window, unless lane 0 redirects past
    lane 1 or is a `HALT`; then the front end goes on where the youngest one leads. -/
theorem of_bundle (hs : Steps s) (hstr : Streaming s) (hf : Fetched s)
    (ht : s.predictor.TagsBranches s.imem) (hrec : s.memoryDone.branchRecovered = false)
    (hd : s.haltDispatched = false) (hlost : s.NothingLost) {q : Word}
    (hdec : s.frontend.decodeBundle = s.imem.bundleAt q)
    (h : InOrder way σ s.shownPc s.executed)
    (hway0 : s.dispatched0 = true → s.entry0.branch = true →
      way s.entry0 = followedPc s.entry0.pc (s.lanePrediction 0))
    (hway1 : s.dispatched1 = true → s.entry1.branch = true →
      way s.entry1 = followedPc s.entry1.pc (s.lanePrediction 1)) : OnPath way σ s.next := by
  have hshown : s.shownPc = q := by
    rw [shownPc, hdec]
    rfl
  have hsame : ∀ {p : Word}, s.frontend.decodeBundle = s.imem.bundleAt p → p = q := by
    intro p hp
    exact congrArg FetchBundle.pc0 (hp.symm.trans hdec)
  -- neither lane is shown again, so both are dispatched unless lane 1 is discarded
  have hagain0 := (not_presentedAgain hstr hs hdec s.frontend.decodeBundle.instruction0).1
  have hagain1 := (not_presentedAgain hstr hs hdec s.frontend.decodeBundle.instruction1).2
  have hd0 : s.dispatched0 = true :=
    (hlost.1 (by rw [hdec]; rfl)).resolve_right (by rw [hdec] at hagain0 ⊢; exact hagain0)
  have hd1 : s.discarded1 = false → s.dispatched1 = true := fun hkept =>
    (hlost.2 (by rw [hdec]; rfl) hkept).resolve_right (by rw [hdec] at hagain1 ⊢; exact hagain1)
  obtain ⟨hr, hv0, -⟩ := hs.of_dispatched0 hd0
  obtain ⟨p, hp, hfetch, hin0, -⟩ := hs.input0 hstr hr hv0
  rw [hsame hp] at hfetch hin0
  have hpc0 : s.entry0.pc = q := (hs.entry0_input hd0).1.trans hin0
  obtain ⟨hpast, hredirect, hredirectPc⟩ := predictionResult_redirect s.executed
  have htarget : s.redirectTarget = if s.executed.predictionResult.redirect then
      some s.executed.predictionResult.redirectPc else none := by
    rw [redirectTarget, hrec, hd]
    rfl
  have hdecoded : ∀ e ∈ s.next.rob.window, e.FromDecode := hs.sound_next.inFlight.entryDecoded
  obtain ⟨hhit0, hhit1⟩ := hs.hit_of_entered hstr hf ht
  -- lane 0
  have hmem0 : s.entry0 ∈ s.next.rob.window := by
    rw [hs.window_next, entered, hd0]
    simp
  have hbetween := hs.betweenLanes_window hr
  rw [hd0, if_pos rfl] at hbetween
  have h0 := h.enter hbetween (hpc0.trans hshown.symm)
  rw [advance_entered (hdecoded _ hmem0) (laneEntry_open (hdecoded _ hmem0)) (hhit0 hd0)
    (hway0 hd0), hpc0] at h0
  cases hlane1 : s.dispatched1 with
  | true =>
      -- lane 1 behind it
      obtain ⟨-, hv1, -, -⟩ := hs.of_dispatched1 hlane1
      obtain ⟨p', hp', -, hin1, -, hopen, -⟩ := hs.input1 hstr hr hv1
      rw [hsame hp'] at hin1
      have hpc1 : s.entry1.pc = q + 4 := (hs.entry1_input hlane1).1.trans hin1
      have hmem1 : s.entry1 ∈ s.next.rob.window := by
        rw [hs.window_next, entered, hlane1]
        simp
      have hwin : s.next.rob.window = s.betweenLanes.rob.window ++ [s.entry1] := by
        rw [hs.window_next, entered, hd0, hlane1, hbetween, List.append_assoc]
        rfl
      rw [hopen] at hpast
      have hmiss : followedPc q (s.lanePrediction 0) = q + 4 := by
        rw [followedPc, show s.lanePrediction 0 = s.executed.predictionResult.lane0 from rfl,
          ← hpast, if_neg Bool.false_ne_true]
      have h1 := h0.enter hwin (hpc1.trans hmiss.symm)
      rw [advance_entered (hdecoded _ hmem1) (laneEntry_open (hdecoded _ hmem1)) (hhit1 hlane1)
        (hway1 hlane1), hpc1] at h1
      refine ⟨_, h1, fun _ => ?_⟩
      rw [hstr.next_shownPc hs, htarget, hfetch, followedPc,
        show s.lanePrediction 1 = s.executed.predictionResult.lane1 from rfl]
      rw [← hpast, Bool.false_or] at hredirect
      cases hgo : s.executed.predictionResult.redirect with
      | true =>
          rw [← hredirect, hgo, if_pos rfl, if_pos rfl, hredirectPc hgo, ← hpast,
            if_neg Bool.false_ne_true]
          rfl
      | false =>
          rw [← hredirect, hgo, if_neg Bool.false_ne_true, if_neg Bool.false_ne_true]
          show q + 8 = q + 4 + 4
          bv_omega
  | false =>
      have hwin : s.next.rob.window = s.betweenLanes.rob.window := by
        rw [hs.window_next, entered, hd0, hlane1, hbetween]
        simp
      refine ⟨followedPc q (s.lanePrediction 0), ⟨by rw [hwin]; exact h0.follow,
        by rw [hwin]; exact h0.goesOn⟩, fun hopen => ?_⟩
      rw [hstr.next_shownPc hs, htarget, followedPc,
        show s.lanePrediction 0 = s.executed.predictionResult.lane0 from rfl]
      cases hgo : s.executed.predictionResult.lane0.taken &&
          s.executed.predictionResult.lane0.btbHit with
      | true =>
          rw [hgo, Bool.true_or] at hredirect
          rw [hredirect, if_pos rfl, if_pos rfl, hredirectPc hredirect, hgo, if_pos rfl]
          rfl
      | false =>
          -- lane 1 was discarded behind a `HALT`, which raises the fence
          have hdiscarded : s.discarded1 = true := by
            by_contra hno
            rw [hd1 (eq_false_of_ne_true hno)] at hlane1
            cases hlane1
          rw [discarded1, hpast, hgo, Bool.false_or, Bool.and_eq_true] at hdiscarded
          obtain ⟨-, hhalt, -⟩ := renamed0_fields hs.sound_executed (canRename_of_renames hr)
            hdiscarded.1
          have hentry : s.entry0.halt = true := by
            rw [entry0, laneEntry_eq]
            exact hhalt.trans hdiscarded.2
          have hno := (next_sound_fence hs.sound hs.fence).2.no_halt hopen hmem0
          rw [hentry] at hno
          cases hno

end OnPath

end SuperScalarCPU

end CpuSim.SuperScalar
