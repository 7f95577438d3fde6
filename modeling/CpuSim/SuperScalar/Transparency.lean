/-
  CpuSim.SuperScalar.Transparency

  Out-of-order execution is invisible.  The machine runs some instructions behind the
  interpreter: what has retired is where the interpreter stands, and the window is the
  stretch of the program in front of it.  The invariant asks of a step that nothing
  presented is lost, that a recovery finds a clean snapshot and squashes no memory
  operation, that the memory queues take what is dispatched, that a load scans for the
  word it reads, and that a branch was followed the way it was predicted.
-/

import CpuSim.SuperScalar.Allocation
import CpuSim.SuperScalar.ProgramOrder

namespace CpuSim.SuperScalar

open CpuSim.Lib CpuSim.Lib.Renaming

namespace SuperScalarCPU

variable {cfg : Config} {s s0 : SuperScalarCPU cfg} {way way' : ROBEntry → Word}
  {σ : Interpreter cfg.dataMemoryWords} {pc : Word} {m : Register → PhysicalRegister}
  {own : Nat → Word × Word} {n : Nat}

/-! ## Conditions on a step -/

/-- A branch that resolves in step `n` as predicted was followed that way: the prediction
    made for it was not taken, or hit the branch target buffer, or its target is the next
    instruction. -/
def PredictionHit (s0 : SuperScalarCPU cfg) (n : Nat) : Prop :=
  ∀ i ∈ (run s0 n).memoryDone.selectBranch,
    ((run s0 n).memoryDone.branchResult i).mispredicted = false →
      ∀ origin ∈ lastDispatch s0 n ((run s0 n).memoryDone.branchResult i).robIndex,
        ((run s0 origin.1).lanePrediction origin.2).taken = true →
          ((run s0 origin.1).lanePrediction origin.2).btbHit = true ∨
            ((run s0 n).memoryDone.iq.entries i).immediate = 4

instance (s0 : SuperScalarCPU cfg) (n : Nat) : Decidable (PredictionHit s0 n) := by
  unfold PredictionHit
  infer_instance

/-- The conditions on step `n` of a run. -/
structure OrderlyStep (s0 : SuperScalarCPU cfg) (n : Nat) : Prop where
  inRange : RegistersInRange (run s0 n)
  room : (run s0 n).haltDispatched = false →
    (run s0 n).memoryDone.branchRecovered = false → Room (run s0 n)
  clean : RecoveryClean (run s0 n)
  kept : NoMemorySquash (run s0 n)
  allocated : AllocationsSucceed (run s0 n)
  exact : LoadsExact (run s0 n)
  hit : PredictionHit s0 n

instance (s0 : SuperScalarCPU cfg) (n : Nat) : Decidable (OrderlyStep s0 n) :=
  decidable_of_iff
    (RegistersInRange (run s0 n) ∧
      ((run s0 n).haltDispatched = false →
        (run s0 n).memoryDone.branchRecovered = false → Room (run s0 n)) ∧
      RecoveryClean (run s0 n) ∧ NoMemorySquash (run s0 n) ∧ AllocationsSucceed (run s0 n) ∧
      LoadsExact (run s0 n) ∧ PredictionHit s0 n)
    ⟨fun ⟨h1, h2, h3, h4, h5, h6, h7⟩ => ⟨h1, h2, h3, h4, h5, h6, h7⟩,
      fun h => ⟨h.inRange, h.room, h.clean, h.kept, h.allocated, h.exact, h.hit⟩⟩

/-- A step that loses nothing gives every register it takes to an entry of the window. -/
theorem Steps.noOrphan_of_room (h : Steps s) (hs : Streaming s) (hroom : s.Room) :
    NoOrphan s := by
  obtain ⟨-, hroom0, hroom1⟩ := hroom
  intro hr
  constructor
  · intro hv _
    obtain ⟨p, hdec, -⟩ := h.input0 hs hr hv
    apply hroom0
    rw [hdec]
    rfl
  · intro hv _
    obtain ⟨p, hdec, -, -, -, hopen, -⟩ := h.input1 hs hr hv
    have hv0 : s.frontend.decodeBundle.valid0 = true := by
      rw [hdec]
      rfl
    have hv1 : s.frontend.decodeBundle.valid1 = true := by
      rw [hdec]
      rfl
    refine ⟨hroom0 hv0, fun hhalt => hroom1 hv1 ?_⟩
    rw [discarded1, hopen, hhalt, Bool.and_false]
    rfl

/-! ## The window along a step -/

/-- Only branches still to execute look at `way`. -/
theorem InOrder.congr_way (h : InOrder way σ pc s)
    (heq : ∀ e ∈ s.rob.window, e.branch = true → e.completed = false → way' e = way e) :
    InOrder way' σ pc s := by
  obtain ⟨hfollow, hgoesOn⟩ := h
  obtain ⟨hfollow', hsame⟩ := hfollow.congr_way heq
  refine ⟨hfollow', ?_⟩
  rw [hsame]
  exact hgoesOn

/-- Where the front end went behind a branch, before a step and after it: a branch that
    resolves as predicted went on there, one still to execute keeps its way, and a branch that
    enters goes the predicted way. -/
structure Steers (way way' : ROBEntry → Word) (s : SuperScalarCPU cfg) : Prop where
  resolved : ∀ i b, s.memoryDone.selectBranch = some i →
    (s.memoryDone.branchResult i).mispredicted = false → b ∈ s.memoryDone.rob.window →
      (s.memoryDone.iq.entries i).Matches b → way b = (s.memoryDone.branchResult i).nextPc
  kept : ∀ e ∈ s.executed.rob.window, e.branch = true → e.completed = false → way' e = way e
  enters0 : s.dispatched0 = true → s.entry0.branch = true →
    way' s.entry0 = followedPc s.entry0.pc (s.lanePrediction 0)
  enters1 : s.dispatched1 = true → s.entry1.branch = true →
    way' s.entry1 = followedPc s.entry1.pc (s.lanePrediction 1)

/-- A step retires a stretch of the program and stays on it. -/
theorem OnPath.next (h : OnPath way σ s) (hs : Steps s) (hstr : Streaming s) (hf : Fetched s)
    (ht : s.predictor.TagsBranches s.imem) {es : List ROBEntry} (hes : Commits s s.committed es)
    (hR : Renaming m s.memoryDone) (hD : Delivery m s.memoryDone)
    (hA : Agrees own (σ.data.after es) s.memoryDone)
    (hroom : s.haltDispatched = false → s.memoryDone.branchRecovered = false → s.Room)
    (hway : Steers way way' s) :
    σ.Follow way es ∧ OnPath way' (σ.along way es) s.next := by
  obtain ⟨pc, horder, hshown⟩ := h
  obtain ⟨hfollow, hquiet, hrecovered⟩ := horder.executed hs hes hR hD hA hway.resolved
  refine ⟨hfollow, ?_⟩
  cases hrec : s.memoryDone.branchRecovered with
  | true =>
      obtain ⟨i, hi, hm⟩ := exists_of_branchRecovered hrec
      exact OnPath.of_recovered hs hstr hi hm ((hrecovered i hi hm).congr_way hway.kept)
  | false =>
      have hexec := (hquiet hrec).congr_way hway.kept
      cases hd : s.haltDispatched with
      | true => exact OnPath.of_fenced hs hrec hd hexec
      | false =>
          -- with the fence down decode shows what continues the window
          rw [← hshown hd] at hexec
          rcases hstr.decode with hbubble | ⟨p, hdec, -⟩
          · exact OnPath.of_bubble hs hstr hrec hbubble hexec
          · have hlost := (hs.nothingLost_iff hstr hd hrec).mpr (hroom hd hrec)
            exact OnPath.of_bundle hs hstr hf ht hrec hd hlost hdec hexec hway.enters0
              hway.enters1

/-- The machine `s` and the interpreter in state `σ`: the values are those of `σ`, and what is
    in flight is the program from there on. -/
structure Simulates (m : Register → PhysicalRegister) (own : Nat → Word × Word)
    (way : ROBEntry → Word) (σ : Interpreter cfg.dataMemoryWords) (s : SuperScalarCPU cfg) :
    Prop where
  renamed : Renaming m s
  delivery : Delivery m s
  queues : QueuesTrack own s
  agrees : Agrees own σ.data s
  path : OnPath way σ s

/-- A step moves the interpreter over what it retires. -/
theorem Simulates.next (h : Simulates m own way σ s) (harf : 16 ≤ cfg.arfCount) (hs : Steps s)
    (hstr : Streaming s) (hf : Fetched s) (ht : s.predictor.TagsBranches s.imem)
    (hfit : QueuesFit s.next) (hrange : RegistersInRange s)
    (hroom : s.haltDispatched = false → s.memoryDone.branchRecovered = false → s.Room)
    (hclean : RecoveryClean s) (hkept : NoMemorySquash s) (hexact : LoadsExact s)
    (hway : Steers way way' s) :
    ∃ es, Commits s s.committed es ∧ σ.Follow way es ∧
      Simulates (mapAfter m es) (storesAfter s.committed.memUnit.execute.1 own) way'
        (σ.along way es) s.next := by
  obtain ⟨es, hes, -, hR⟩ := h.renamed.executed hs hclean
  have hD := h.delivery.executed h.renamed harf hs hclean hes
  have hQ := h.queues.executed hs hkept
  obtain ⟨hRm, hDm, hAm⟩ :=
    h.agrees.memoryDone h.queues h.renamed h.delivery harf hs hexact hes
  obtain ⟨hfollow, hpath⟩ :=
    h.path.next hs hstr hf ht hes hRm hDm hAm hroom hway
  -- a step that renames has its fence down and did not recover
  have horphan : NoOrphan s := fun hr =>
    hs.noOrphan_of_room hstr (hroom (hs.of_renames hr).2 (hs.of_renames hr).1) hr
  refine ⟨es, hes, hfollow, hR.next hs hstr hrange horphan, hD.next hR hs hrange,
    h.queues.next hs hkept hfit, ?_, hpath⟩
  rw [Interpreter.along_data]
  exact (hAm.executed hRm hDm hs hclean).next hQ hs hfit

/-! ## Where the front end went in a run -/

/-- Where the front end went behind an entry in flight before step `n`: by the prediction
    for the lane that put it into its slot. -/
def wayAt (s0 : SuperScalarCPU cfg) (n : Nat) (e : ROBEntry) : Word :=
  match lastDispatch s0 n e.robIndex with
  | some (m, lane) => followedPc e.pc ((run s0 m).lanePrediction lane)
  | none => e.pc + 4

theorem Traced.wayAt_eq {e : ROBEntry} {m lane : Nat} (h : Traced s0 n e m lane) :
    wayAt s0 n e = followedPc e.pc ((run s0 m).lanePrediction lane) := by
  rw [wayAt, h.origin]

section Runs

variable {words : List Word} {data : List (Nat × Word)}

/-- A branch that resolves as predicted went where the front end did. -/
theorem wayAt_resolved (hl : Live (boot cfg words data) n)
    (hit : PredictionHit (boot cfg words data) n) (i : Nat) (b : ROBEntry)
    (hi : (run (boot cfg words data) n).memoryDone.selectBranch = some i)
    (hm : ((run (boot cfg words data) n).memoryDone.branchResult i).mispredicted = false)
    (hb : ((run (boot cfg words data) n).memoryDone.iq.entries i).Matches b) :
    wayAt (boot cfg words data) n b =
      ((run (boot cfg words data) n).memoryDone.branchResult i).nextPc := by
  obtain ⟨e, hold, hmatch, -, -, m, lane, ht⟩ := resolving_traced hl hi
  -- `b` is that entry, perhaps finished since
  have hslot : b.robIndex = e.robIndex := hb.robIndex.symm.trans hmatch.robIndex
  have hpc : b.pc = e.pc := hb.pc.symm.trans hmatch.pc
  have horigin : lastDispatch (boot cfg words data) n
      ((run (boot cfg words data) n).memoryDone.branchResult i).robIndex = some (m, lane) := by
    show lastDispatch _ n ((run (boot cfg words data) n).memoryDone.iq.entries i).robIndex = _
    rw [hmatch.robIndex]
    exact ht.origin
  have hsame : wayAt (boot cfg words data) n b = wayAt (boot cfg words data) n e := by
    rw [wayAt, wayAt, hslot, hpc]
  rw [hsame, ht.wayAt_eq]
  exact ((ht.nextPc_iff hl hi hm hold hmatch).mpr (hit i hi hm (m, lane) horigin)).symm

/-- A branch still to execute went where it went before the step. -/
theorem wayAt_keep (hl : Live (boot cfg words data) n) (e : ROBEntry)
    (he : e ∈ (run (boot cfg words data) n).executed.rob.window) (hb : e.branch = true)
    (hc : e.completed = false) :
    wayAt (boot cfg words data) (n + 1) e = wayAt (boot cfg words data) n e := by
  obtain ⟨m, lane, ht⟩ :=
    run_traced cfg words data n e (hl.steps.executed_keeps e he hc) hb hc
  rw [ht.wayAt_eq, (ht.keep hl he hc).wayAt_eq]

theorem wayAt_steers (hl : Live (boot cfg words data) n)
    (hit : PredictionHit (boot cfg words data) n) :
    Steers (wayAt (boot cfg words data) n) (wayAt (boot cfg words data) (n + 1))
      (run (boot cfg words data) n) where
  resolved i b hi hm _ hb := wayAt_resolved hl hit i b hi hm hb
  kept := wayAt_keep hl
  enters0 hd hb := (Traced.enter0 hl hd hb).wayAt_eq
  enters1 hd hb := (Traced.enter1 hl hd hb).wayAt_eq

/-- A step of a run. -/
theorem Simulates.next_run {σ : Interpreter cfg.dataMemoryWords}
    (h : Simulates m own (wayAt (boot cfg words data) n) σ (run (boot cfg words data) n))
    (harf : 16 ≤ cfg.arfCount) (hl : Live (boot cfg words data) n)
    (horderly : OrderlyStep (boot cfg words data) n) :
    ∃ es m' own', Commits (run (boot cfg words data) n)
        (run (boot cfg words data) n).committed es ∧
      σ.Follow (wayAt (boot cfg words data) n) es ∧
      Simulates m' own' (wayAt (boot cfg words data) (n + 1))
        (σ.along (wayAt (boot cfg words data) n) es) (run (boot cfg words data) (n + 1)) := by
  have hfit := (h.queues.allocations_iff (run_queuesBounded cfg words data n) hl.steps
    horderly.kept).mp horderly.allocated
  obtain ⟨es, hes, hfollow, hnext⟩ := h.next harf hl.steps hl.streaming hl.fetched
    (run_tagsBranches cfg words data n) hfit horderly.inRange horderly.room horderly.clean
    horderly.kept horderly.exact (wayAt_steers hl horderly.hit)
  exact ⟨es, _, _, hes, hfollow, hnext⟩

end Runs

/-! ## The interpreter of a program -/

/-- The instruction memory `load_program` fills. -/
def instructionMemory (cfg : Config) (words : List Word) :
    InstructionMemory cfg.romAddressWidth := ⟨words⟩

/-- The interpreter before its first instruction: cleared registers, and a data memory
    preset as that of the machine. -/
def interpreter (cfg : Config) (data : List (Nat × Word)) : Interpreter cfg.dataMemoryWords where
  data :=
    { regs := fun _ => 0
      mem := data.foldl (fun mem d => mem.writeWord d.1 d.2) .reset }

theorem boot_dataMemory (cfg : Config) (words : List Word) (data : List (Nat × Word)) :
    (boot cfg words data).dataMemory = (interpreter cfg data).data.mem := by
  have hfold : ∀ (data : List (Nat × Word)) (s : SuperScalarCPU cfg),
      (data.foldl (fun s d => s.setDataWord d.1 d.2) s).dataMemory =
        data.foldl (fun mem d => mem.writeWord d.1 d.2) s.dataMemory := by
    intro data
    induction data with
    | nil => exact fun _ => rfl
    | cons d data ih => exact fun s => ih (s.setDataWord d.1 d.2)
  exact hfold data _

section Runs

variable {words : List Word} {data : List (Nat × Word)}

theorem Simulates.boot (harf : 16 ≤ cfg.arfCount) (hprf : 16 ≤ cfg.prfCount) (words : List Word)
    (data : List (Nat × Word)) (way : ROBEntry → Word) :
    Simulates (committedMap []) (fun _ => (0, 0)) way (interpreter cfg data)
      (boot cfg words data) := by
  have hwin : (SuperScalarCPU.boot cfg words data).rob.window = [] := by
    rw [boot_frame]
    exact ReOrderBuffer.window_reset
  refine ⟨Renaming.boot cfg words data, Delivery.boot harf hprf words data,
    QueuesTrack.boot cfg words data, ⟨⟨fun r => ?_, boot_dataMemory cfg words data, ?_⟩, ?_⟩, ?_⟩
  · rw [boot_frame]
    show ArchitecturalRegisterFile.read _ r = 0
    rw [ArchitecturalRegisterFile.read]
    split <;> rfl
  · rw [hwin]
    trivial
  · rw [boot_frame]
    intro l hl
    cases hl
  · -- decode shows a bubble, and the first bundle is fetched from address 0
    refine ⟨0, ⟨?_, ?_⟩, fun _ => ?_⟩
    · rw [hwin]
      trivial
    · rw [hwin]
      rfl
    · rw [boot_frame, shownPc]
      have hrest := Frontend.resetSequence_atRest (construct cfg).frontend
      rw [if_neg ?_]
      · exact hrest.pc0
      · rw [show ((construct cfg).loadProgram words).frontend.decodeBundle = {} from
          Frontend.resetSequence_decode _]
        exact Bool.false_ne_true

/-- What retires in a step is a stretch of completed instructions of the program. -/
theorem Live.retires (hl : Live (boot cfg words data) n) {es : List ROBEntry}
    (hes : Commits (run (boot cfg words data) n)
      (run (boot cfg words data) n).committed es) :
    (∀ e ∈ es, e.instruction = (instructionMemory cfg words).read e.pc) ∧
      ∀ e ∈ es, e.FromDecode := by
  have hmem : ∀ e ∈ es, e ∈ (run (boot cfg words data) n).rob.window := by
    intro e he
    rw [hes.window]
    exact List.mem_append_left _ he
  constructor
  · intro e he
    have hword := hl.fetched.window e (hmem e he)
    rw [run_imem] at hword
    exact hword
  · exact fun e he => hl.steps.sound.inFlight.entryDecoded e (hmem e he)

/-- The machine simulates a state of the interpreter that has not come to a `HALT`. -/
def Running (words : List Word) (data : List (Nat × Word)) (s0 : SuperScalarCPU cfg) (n : Nat) :
    Prop :=
  ∃ k m own,
    (∀ j < k, (((interpreter cfg data).run (instructionMemory cfg words) j).current
      (instructionMemory cfg words)).opcode ≠ .HALT) ∧
    Simulates m own (wayAt s0 n) ((interpreter cfg data).run (instructionMemory cfg words) k)
      (run s0 n)

/-- The registers and the memory of the machine are those of the interpreter at the first
    `HALT` it comes to. -/
def Finished (words : List Word) (data : List (Nat × Word)) (s : SuperScalarCPU cfg) : Prop :=
  ∃ k, (interpreter cfg data).HaltsAt (instructionMemory cfg words) k ∧
    (∀ r, s.arf.read r =
      ((interpreter cfg data).run (instructionMemory cfg words) k).data.regs r) ∧
    s.dataMemory = ((interpreter cfg data).run (instructionMemory cfg words) k).data.mem

/-- An orderly step of a run leaves the machine running, or finished. -/
theorem Running.next (h : Running words data (boot cfg words data) n)
    (harf : 16 ≤ cfg.arfCount) (hl : Live (boot cfg words data) n)
    (horderly : OrderlyStep (boot cfg words data) n) :
    if (run (boot cfg words data) (n + 1)).halted then
      Finished words data (run (boot cfg words data) (n + 1))
    else Running words data (boot cfg words data) (n + 1) := by
  obtain ⟨k, m, own, hk, hsim⟩ := h
  obtain ⟨es, m', own', hes, hfollow, hnext⟩ := hsim.next_run harf hl horderly
  obtain ⟨hword, hdec⟩ := hl.retires hes
  rw [hfollow.along_completed hes.completed hword] at hnext
  have hhalted : (run (boot cfg words data) (n + 1)).halted =
      es.any fun e => e.halt := by
    show (run (boot cfg words data) n).next.halted = _
    rw [hl.steps.next_halted, hes.halted, hl.steps.running, Bool.false_or]
  rw [hhalted]
  split
  · rename_i hany
    obtain ⟨j, hj, hdata⟩ := hfollow.halts hes.completed hword hdec hes.halt_last
      (List.any_eq_true.mp hany) hk
    have hcomputes := hnext.agrees.computes
    rw [hdata] at hcomputes
    exact ⟨j, hj, hcomputes.regs, hcomputes.mem⟩
  · rename_i hno
    refine ⟨k + es.length, m', own', ?_, hnext⟩
    apply hfollow.running hes.completed hword hdec _ hk
    intro e he
    by_contra hhalt
    exact hno (List.any_eq_true.mpr ⟨e, he, eq_true_of_ne_false hhalt⟩)

theorem run_running (harf : 16 ≤ cfg.arfCount) (hprf : 16 ≤ cfg.prfCount)
    (horderly : ∀ k < n, (run (boot cfg words data) k).halted = false →
      OrderlyStep (boot cfg words data) k)
    (hrun : (run (boot cfg words data) n).halted = false) :
    Running words data (boot cfg words data) n := by
  refine running_induction (P := fun k => k ≤ n →
      Running words data (boot cfg words data) k) hrun (fun _ => ?_)
    (fun k hk hgo ih hle => ?_) (Nat.le_refl n)
  · refine ⟨0, _, _, ?_, Simulates.boot harf hprf words data _⟩
    intro j hj
    cases hj
  · have hnext := (ih (Nat.le_of_lt hk)).next harf (run_live hgo) (horderly k hk hgo)
    rwa [running_of_le hle hrun, if_neg Bool.false_ne_true] at hnext

/-- Out-of-order execution is invisible in every run whose steps meet the conditions:
    whenever the machine has halted, its sixteen registers and its data memory are those of
    the sequential interpreter at the first `HALT` it reaches. -/
theorem out_of_order_invisible (cfg : Config) (harf : 16 ≤ cfg.arfCount)
    (hprf : 16 ≤ cfg.prfCount) (words : List Word) (data : List (Nat × Word)) (n : Nat)
    (horderly : ∀ k < n, (run (boot cfg words data) k).halted = false →
      OrderlyStep (boot cfg words data) k)
    (hhalted : (run (boot cfg words data) n).halted = true) :
    Finished words data (run (boot cfg words data) n) := by
  induction n with
  | zero =>
      rw [run, boot_frame] at hhalted
      cases hhalted
  | succ n ih =>
      have hprev := fun k (hk : k < n) => horderly k (Nat.lt_succ_of_lt hk)
      cases hgo : (run (boot cfg words data) n).halted with
      | true =>
          -- a halted machine stands still
          rw [run, step, next_of_halted hgo]
          exact ih hprev hgo
      | false =>
          have hnext := (run_running harf hprf hprev hgo).next harf (run_live hgo)
            (horderly n (Nat.lt_succ_self n) hgo)
          rwa [hhalted, if_pos rfl] at hnext

/-- `LI r1, 7`, four times `BNE r0, r0, 8`, `SW r1, 4(r0); LW r2, 4(r0); BEQ r1, r2, 12;
    LI r2, 1; LI r3, 1; HALT`: behind the `BNE`s the store is still in flight when the load
    reads, and the `BEQ` is taken against its prediction. -/
def forwardingProgram : List Word :=
  [0x1C400007, 0x30000008, 0x30000008, 0x30000008, 0x30000008, 0x28400004, 0x24800004,
    0x2C48000C, 0x1C800001, 0x1CC00001, 0x38000000]

/-- The load is forwarded the 7, and the recovery is clean. -/
theorem out_of_order_invisible_forwarding :
    Finished forwardingProgram [] (run (boot .default forwardingProgram []) 10) :=
  out_of_order_invisible .default (by decide) (by decide) forwardingProgram [] 10
    (by decide +kernel) (by decide +kernel)

/-- `BEQ r0, r0, 8; SW r0, 0(r0); LI r1, 7; SW r1, 4(r0); HALT`: behind the squashed store the
    second one retires without being written, and the machine halts with 0 in its word. -/
theorem squashed_store_visible :
    let words := [0x2C000008, 0x28000000, 0x1C400007, 0x28400004, 0x38000000]
    (run (boot .default words []) 8).halted = true ∧
      ¬ Finished words [] (run (boot .default words []) 8) := by
  intro words
  refine ⟨by decide +kernel, ?_⟩
  rintro ⟨k, hk, -, hmem⟩
  have hthree : (interpreter .default []).HaltsAt (instructionMemory .default words) 3 := by
    decide +kernel
  obtain rfl := hk.unique hthree
  have hword := congrArg (fun mem => mem.read 4) hmem
  revert hword
  decide +kernel

end Runs

end SuperScalarCPU

end CpuSim.SuperScalar
