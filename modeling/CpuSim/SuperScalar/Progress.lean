/-
  CpuSim.SuperScalar.Progress

  The machine does not stand still.  In a step that retires nothing the oldest instruction is
  still to execute, so some instruction executes, and the window comes closer to one whose
  head retires; a machine that simulates a program with a `HALT` therefore comes to it.
-/

import CpuSim.Lib.WindowRank
import CpuSim.SuperScalar.Accounting
import CpuSim.SuperScalar.HeadProgress
import CpuSim.SuperScalar.Transparency
import CpuSim.SuperScalar.Unexecuted

namespace CpuSim.SuperScalar

open CpuSim.Lib CpuSim.Lib.Renaming

variable {cfg : Config}

namespace SuperScalarCPU

variable {s t : SuperScalarCPU cfg} {m : Register → PhysicalRegister}

/-! ## The work in the window -/

/-- The work left in the reorder buffer. -/
def work (s : SuperScalarCPU cfg) : Nat :=
  windowRank ROBEntry.completed cfg.robCapacity s.rob.window

theorem window_length_le (h : s.rob.WF) : s.rob.window.length ≤ cfg.robCapacity := by
  rw [ReOrderBuffer.length_window]
  exact h.count_le

theorem Sound.finish_work (h : Sound s) {i : Nat} (hlive : s.iq.entries i ∈ s.iq.live)
    (r : Word) : (s.finish i r).work < s.work := by
  obtain ⟨b, hb, hc, hm⟩ := h.inFlight.backed _ hlive
  obtain ⟨pre, post, hw⟩ := List.append_of_mem hb
  obtain ⟨-, hwin⟩ := window_complete_split h.inFlight.rob_wf hw r
  rw [← hm.robIndex] at hwin
  have hlen := window_length_le h.inFlight.rob_wf
  rw [hw, List.length_append, List.length_cons] at hlen
  show windowRank _ _ (s.rob.complete (s.iq.entries i).robIndex r).window < _
  rw [work, hwin, hw]
  exact windowRank_close_lt (by omega) hc rfl

theorem memoryCase_work {rs : List MemoryResult} (h : Sound s) (hc : MemoryCase s t rs) :
    t.work ≤ s.work ∧ (rs ≠ [] → t.work < s.work) := by
  cases hc with
  | idle q _ ht =>
      rw [ht]
      exact ⟨Nat.le_refl _, fun hne => absurd rfl hne⟩
  | load q i _ hi _ _ ht =>
      have hlt := h.finish_work hi.live (s.loadData q i)
      rw [ht]
      exact ⟨Nat.le_of_lt hlt, fun _ => hlt⟩
  | store q i _ hi _ _ ht =>
      have hlt := h.finish_work hi.live (s.iq.entries i).rs2Value
      rw [ht]
      exact ⟨Nat.le_of_lt hlt, fun _ => hlt⟩

/-- Resolving a branch is progress, also when everything behind it is squashed. -/
theorem branchCase_work (h : Sound s) (hc : BranchCase s t) :
    t.work ≤ s.work ∧ (s.selectBranch ≠ none → t.work < s.work) := by
  cases hc with
  | none hi ht =>
      rw [ht]
      exact ⟨Nat.le_refl _, fun hne => absurd hi hne⟩
  | correct i hi _ ht =>
      obtain ⟨-, hlive, -⟩ := selectBranch_some hi
      have hlt := h.finish_work hlive (s.branchResult i).targetPc
      rw [ht]
      exact ⟨Nat.le_of_lt hlt, fun _ => hlt⟩
  | mispredicted i _ _ pre b post _ hopen hr =>
      have hlen := window_length_le h.inFlight.rob_wf
      rw [hr.split, List.length_append, List.length_cons] at hlen
      have hlt : t.work < s.work := by
        rw [work, work, hr.window, hr.split]
        exact windowRank_close_lt (by omega) hopen rfl
      exact ⟨Nat.le_of_lt hlt, fun _ => hlt⟩

theorem aluStage_work (h : Sound s) :
    s.aluStage.work ≤ s.work ∧ (s.selectReadyAluEntry ≠ none → s.aluStage.work < s.work) := by
  have hone : ∀ {t : SuperScalarCPU cfg} {i : Nat}, Sound t → t.selectReadyAluEntry = some i →
      (t.executeAlu i).work < t.work := by
    intro t i ht hi
    obtain ⟨-, hlive, -⟩ := selectReadyAluEntry_some hi
    rw [executeAlu_eq]
    exact ht.finish_work hlive (aluResult (t.iq.entries i))
  rw [aluStage, aluLanes]
  cases hi : s.selectReadyAluEntry with
  | none => exact ⟨Nat.le_refl _, fun hne => absurd rfl hne⟩
  | some i =>
      have hrest : Sound (aluLanes 1 (s.executeAlu i)) ∧
          (aluLanes 1 (s.executeAlu i)).work ≤ (s.executeAlu i).work :=
        aluLanes_induction (P := fun t => Sound t ∧ t.work ≤ (s.executeAlu i).work)
          (fun t j ht hj => ⟨ht.1.executeAlu hj, (Nat.le_of_lt (hone ht.1 hj)).trans ht.2⟩) 1
          ⟨h.executeAlu hi, Nat.le_refl _⟩
      have hlt := Nat.lt_of_le_of_lt hrest.2 (hone h hi)
      exact ⟨Nat.le_of_lt hlt, fun _ => hlt⟩

/-! ## Something executes -/

/-- The memory unit executes nothing only if every ready operation is a load that waits. -/
theorem executeFrom_idle {indices : List Nat} (hlt : ∀ i ∈ indices, i < cfg.iqCapacity)
    {q : LoadStoreQueue cfg.lsqCapacity} (hq : Waits s q)
    (hnone : (MemoryExecutionUnit.executeFrom indices { s.memUnit with lsq := q }).1 = []) :
    ∀ i ∈ indices, MemoryExecutionUnit.readyForMemoryExecution (s.iq.entries i) = true →
      (s.iq.entries i).memoryRead = true ∧
        ∃ q', Waits s q' ∧
          ((s.addressed q' i).executeLoad (s.iq.entries i).robIndex).mustWait = true := by
  induction indices generalizing q with
  | nil =>
      intro i hi
      cases hi
  | cons j indices ih =>
      have hlt' : ∀ i ∈ indices, i < cfg.iqCapacity := fun i hi => hlt i (List.mem_cons_of_mem _ hi)
      rw [MemoryExecutionUnit.executeFrom] at hnone
      by_cases hr : MemoryExecutionUnit.readyForMemoryExecution (s.iq.entries j) = true
      · have hj : s.MemReady j := ⟨hlt j List.mem_cons_self, hr⟩
        by_cases hread : (s.iq.entries j).memoryRead = true
        · by_cases hwait :
              ((s.addressed q j).executeLoad (s.iq.entries j).robIndex).mustWait = true
          · -- the scan goes on behind the waiting load
            have hrest : (MemoryExecutionUnit.executeFrom indices
                { s.memUnit with lsq := s.addressed q j }).1 = [] := by
              unfold addressed at hwait
              simpa [memUnit, hr, hread, addressed, hwait] using hnone
            intro i hi hready
            rcases List.mem_cons.mp hi with rfl | hi
            · exact ⟨hread, q, hq, hwait⟩
            · exact ih hlt' (hq.wait hj hread hwait) hrest i hi hready
          · have hwait' := eq_false_of_ne_true hwait
            unfold addressed at hwait'
            simp [memUnit, hr, hread, hwait', MemoryExecutionUnit.finishLoad] at hnone
        · simp [memUnit, hr, eq_false_of_ne_true hread] at hnone
      · have hrest :
            (MemoryExecutionUnit.executeFrom indices { s.memUnit with lsq := q }).1 = [] := by
          simpa [memUnit, hr] using hnone
        intro i hi hready
        rcases List.mem_cons.mp hi with rfl | hi
        · exact absurd hready hr
        · exact ih hlt' hq hrest i hi hready

/-- A memory operation at the head of the window that is ready is not passed over. -/
theorem LsqTracks.executes_memory (h : LsqTracks List.Sublist s) (hs : Sound s)
    {e : ROBEntry} {rest : List ROBEntry} (hw : s.rob.window = e :: rest) {i : Nat}
    (hi : i < cfg.iqCapacity) (hm : (s.iq.entries i).Matches e)
    (hready : MemoryExecutionUnit.readyForMemoryExecution (s.iq.entries i) = true) :
    s.memUnit.execute.1 ≠ [] := by
  intro hnone
  obtain ⟨hread, q, hq, hwait⟩ := executeFrom_idle (fun i hi => List.mem_range.mp hi) .start hnone
    i (List.mem_range.mpr hi) hready
  -- the head has no older store to wait for, whatever addresses are known
  have hlive : s.iq.entries i ∈ s.iq.live := MemReady.live ⟨hi, hready⟩
  have htracks : LsqTracks List.Sublist { s with lsq := q } := h.of_tags hq.tags rfl
  have he : e ∈ s.rob.window := by
    rw [hw]
    exact List.mem_cons_self
  have hload : e.memoryRead = true := by
    rw [(hs.inFlight.entryDecoded e he).memoryRead, ← hm.pc, ← hm.instruction,
      ← (hs.inFlight.queueDecoded _ hlive).memoryRead, hread]
  have hno := htracks.head_not_waiting (hs.congr rfl rfl rfl rfl) hw (i := i) hm hload
  change ((s.addressed q i).executeLoad (s.iq.entries i).robIndex).mustWait = false at hno
  rw [hno] at hwait
  cases hwait

/-- A step whose oldest instruction, behind what retires, can be executed executes
    something. -/
theorem Steps.executes (h : Steps s) (hR : Renaming m s.committed)
    (hD : Delivery m s.committed) (hL : LsqTracks List.Sublist s.committed) {e : ROBEntry}
    {rest : List ROBEntry} (hw : s.committed.rob.window = e :: rest)
    (hopen : e.completed = false) (hop : e.opcode ≠ .J ∧ ∀ code, e.opcode ≠ .undefined code) :
    s.executed.work < s.committed.work := by
  have hs := h.sound_committed
  obtain ⟨i, hi, honly, -, -, hcount⟩ := (hD.head_executable hR hL hs hw hopen).mpr hop
  obtain ⟨hmle, hmlt⟩ := memoryCase_work hs h.memoryCase
  obtain ⟨hble, hblt⟩ := branchCase_work h.sound_memoryDone h.branchCase
  obtain ⟨hale, halt⟩ := aluStage_work h.sound_branchDone
  change s.executed.work ≤ _ at hale
  change _ → s.executed.work < _ at halt
  -- one of the selectors accepts the head, and the stages in front of its own only help
  by_cases hmem : s.committed.memUnit.execute.1 = []
  swap
  · exact Nat.lt_of_le_of_lt (hale.trans hble) (hmlt hmem)
  have hcase := h.memoryCase
  rw [hmem] at hcase
  cases hcase with
  | idle q _ hidle =>
  by_cases hbr : s.memoryDone.selectBranch = none
  swap
  · exact Nat.lt_of_le_of_lt hale (Nat.lt_of_lt_of_le (hblt hbr) hmle)
  have hstill : s.memoryDone.branchStage = s.memoryDone := by rw [branchStage, hbr]
  by_cases halu : s.memoryDone.branchStage.selectReadyAluEntry = none
  swap
  · exact Nat.lt_of_lt_of_le (halt halu) (hble.trans hmle)
  exfalso
  have hqueue : s.memoryDone.iq = s.committed.iq := by rw [hidle]
  rw [selectBranch, hqueue] at hbr
  rw [hstill, selectReadyAluEntry, hqueue] at halu
  have hnobranch := IssueQueue.findSlot_none hbr hi
  have hnoalu := IssueQueue.findSlot_none halu hi
  have hnomem : s.committed.acceptedByMemory i = false := by
    apply eq_false_of_ne_true
    intro haccept
    rw [acceptedByMemory, Bool.and_eq_true] at haccept
    obtain ⟨hv, hslot⟩ := (honly i hi).mpr rfl
    have hmatch := (hs.inFlight.backed_by (IssueQueue.entries_mem_live hi hv)
      (by rw [hw]; exact List.mem_cons_self) hslot).2
    exact hL.executes_memory hs hw hi hmatch haccept.1 hmem
  rw [selectors, hnomem, hnobranch, hnoalu] at hcount
  cases hcount

/-! ## The phase of a step -/

/-- What is left to do until the head retires: the work in the window, and a step more while
    neither the window nor decode holds an instruction. -/
def phase (s : SuperScalarCPU cfg) : Nat :=
  s.work + if s.rob.window = [] ∧ s.frontend.decodeBundle.valid0 = false then 1 else 0

theorem work_le_empty (s : SuperScalarCPU cfg) :
    s.work ≤ windowRank ROBEntry.completed cfg.robCapacity [] :=
  windowRank_append_le cfg.robCapacity [] s.rob.window

theorem phase_le (s : SuperScalarCPU cfg) : s.phase ≤ 3 ^ cfg.robCapacity := by
  have hwork := s.work_le_empty
  have hpos : 0 < 3 ^ cfg.robCapacity := Nat.pow_pos (by omega)
  rw [windowRank_nil] at hwork
  rw [phase]
  split <;> omega

/-- A window of less work than an empty one holds an instruction. -/
theorem phase_eq_work (h : s.work < windowRank ROBEntry.completed cfg.robCapacity []) :
    s.phase = s.work := by
  have hne : s.rob.window ≠ [] := ne_nil_of_windowRank_lt h
  rw [phase, if_neg fun hempty => hne hempty.1, Nat.add_zero]

/-- A completed head retires. -/
theorem Steps.retires_head (h : Steps s) {es : List ROBEntry} (hc : Commits s s.committed es)
    {e : ROBEntry} {rest : List ROBEntry} (hw : s.rob.window = e :: rest)
    (hdone : e.completed = true) : es ≠ [] := by
  have hloop := CommitUnit.stepLoop_eq (u := s.commitUnit) 2 h.sound.inFlight.rob_wf.inRing
    h.commitHalted
  have hvalid : e.valid = true := by
    apply h.sound.inFlight.rob_wf.valid_of_mem
    rw [hw]
    exact List.mem_cons_self
  have hevents : (s.commitUnit.stepLoop 2).2 = es.map (CommitUnit.makeEvent s.prf) := hc.events
  have hwin : s.commitUnit.rob.window = e :: rest := hw
  rw [hloop, hwin, CommitUnit.retired, hvalid, hdone] at hevents
  rintro rfl
  cases hevents

/-- With an empty window, nothing is fenced and nothing recovers. -/
theorem Steps.empty_window (h : Steps s) (hw : s.rob.window = []) :
    s.haltDispatched = false ∧ s.memoryDone.branchRecovered = false ∧
      s.executed.rob.window = [] := by
  obtain ⟨es, hes⟩ := h.commits
  have hcommitted : s.committed.rob.window = [] := by
    have hwin := hes.window
    rw [hw] at hwin
    exact (List.append_eq_nil_iff.mp hwin.symm).2
  refine ⟨?_, ?_, ?_⟩
  · apply eq_false_of_ne_true
    intro hd
    rcases h.fence.flag.mp hd with ⟨e, he, -⟩ | hhalt
    · rw [hw] at he
      cases he
    · rw [h.running] at hhalt
      cases hhalt
  · apply eq_false_of_ne_true
    intro hr
    obtain ⟨i, hi, -⟩ := exists_of_branchRecovered hr
    obtain ⟨-, hlive, -⟩ := selectBranch_some hi
    obtain ⟨b, hb, -⟩ := h.sound_memoryDone.inFlight.backed _ hlive
    have hlen := (memoryCase_counts h.sound_committed h.memoryCase).1
    rw [hcommitted, List.length_nil, List.length_eq_zero_iff] at hlen
    rw [hlen] at hb
    cases hb
  · have hlen := h.executed_counts.1
    rw [hcommitted, List.length_nil] at hlen
    exact List.length_eq_zero_iff.mp (by omega)

/-- An empty machine dispatches what decode shows, or decode shows something next. -/
theorem Steps.phase_empty (h : Steps s) (hstr : Streaming s) (hw : s.rob.window = [])
    (hroom : s.haltDispatched = false → s.memoryDone.branchRecovered = false → s.Room) :
    s.next.phase < s.phase := by
  obtain ⟨hd, hrec, hexec⟩ := h.empty_window hw
  have hwork : s.work = windowRank ROBEntry.completed cfg.robCapacity [] := by rw [work, hw]
  rcases hstr.decode with hbubble | ⟨p, hdec, -⟩
  · have hnext := (hstr.sequential h (h.bubble_redirect hbubble hrec)).1
    have hphase : s.phase = s.work + 1 := by
      rw [phase, if_pos]
      exact ⟨hw, by rw [hbubble]⟩
    have hvalid : s.next.frontend.decodeBundle.valid0 ≠ false := by
      rw [hnext]
      exact Bool.true_eq_false_eq_False
    have hshown : s.next.phase = s.next.work := by
      rw [phase, if_neg fun hempty => hvalid hempty.2, Nat.add_zero]
    have := s.next.work_le_empty
    omega
  · -- the bundle at decode finds room, and its first instruction enters
    have hlost := (h.nothingLost_iff hstr hd hrec).mpr (hroom hd hrec)
    have hdispatched : s.dispatched0 = true := by
      have hagain := (not_presentedAgain hstr h hdec s.frontend.decodeBundle.instruction0).1
      rcases hlost.1 (by rw [hdec]; rfl) with hyes | hpresented
      · exact hyes
      · rw [show s.frontend.decodeBundle.pc0 = p by rw [hdec]; rfl] at hpresented
        exact absurd hpresented hagain
    have hnext : s.next.rob.window = s.entry0 :: (if s.dispatched1 then [s.entry1] else []) := by
      rw [h.window_next, hexec, entered, hdispatched, if_pos rfl]
      rfl
    have hlt : s.next.work < windowRank ROBEntry.completed cfg.robCapacity [] := by
      obtain ⟨n, hn⟩ := Nat.exists_eq_succ_of_ne_zero (Nat.ne_of_gt cfg.robCapacity_pos)
      rw [work, hnext, hn]
      exact windowRank_cons_lt n _ _
    rw [phase_eq_work hlt, phase, hwork]
    omega

/-- A step that retires nothing comes closer to one that does. -/
theorem Steps.phase_lt (h : Steps s) (hstr : Streaming s) (hc : Commits s s.committed [])
    (hR : Renaming m s.committed) (hD : Delivery m s.committed)
    (hL : LsqTracks List.Sublist s.committed)
    (hroom : s.haltDispatched = false → s.memoryDone.branchRecovered = false → s.Room)
    (hop : ∀ e rest, s.rob.window = e :: rest → e.completed = false →
      e.opcode ≠ .J ∧ ∀ code, e.opcode ≠ .undefined code) : s.next.phase < s.phase := by
  cases hw : s.rob.window with
  | nil => exact h.phase_empty hstr hw hroom
  | cons e rest =>
      have hopen : e.completed = false :=
        eq_false_of_ne_true fun hdone => h.retires_head hc hw hdone rfl
      have hwin : s.committed.rob.window = s.rob.window := hc.window.symm
      have hlt := h.executes hR hD hL (hwin.trans hw) hopen (hop e rest hw hopen)
      have hnext : s.next.work ≤ s.executed.work := by
        rw [work, h.window_next]
        exact windowRank_append_le _ _ _
      have hwork : s.next.work < s.work := by
        rw [show s.work = s.committed.work by rw [work, work, hwin]]
        exact Nat.lt_of_le_of_lt hnext hlt
      rw [phase_eq_work (Nat.lt_of_lt_of_le hwork s.work_le_empty), phase]
      omega

/-! ## The interpreter on the way to a `HALT` -/

/-- The opcodes a unit of the machine executes, and those that complete at dispatch. -/
def executes : Opcode → Bool
  | .J => false
  | .undefined _ => false
  | _ => true

theorem executes_iff (op : Opcode) :
    executes op = true ↔ op ≠ .J ∧ ∀ code, op ≠ .undefined code := by
  cases op <;> simp [executes]

theorem executes_of_completed {e : ROBEntry} (hu : Unfinished s) (he : e ∈ s.rob.window)
    (hdone : e.completed = true) : executes e.opcode = true := by
  by_contra hno
  have hunexecutable : Unexecutable e.opcode := by
    revert hno
    cases e.opcode <;> simp [executes, Unexecutable, selectable, aluOperationOf]
  rw [hu e he hunexecutable] at hdone
  cases hdone

/-- The opcode of the instruction the interpreter comes to as number `j`. -/
def opcodeAt {words w : Nat} (imem : InstructionMemory w) (σ : Interpreter words) (j : Nat) :
    Opcode := ((σ.run imem j).current imem).opcode

/-- The interpreter comes to its first `HALT` at instruction `k`, over instructions the
    machine can execute. -/
def CompletesAt {words w : Nat} (imem : InstructionMemory w) (σ : Interpreter words) (k : Nat) :
    Prop :=
  σ.HaltsAt imem k ∧ ∀ j < k, executes (opcodeAt imem σ j) = true

instance {words w : Nat} (imem : InstructionMemory w) (σ : Interpreter words) (k : Nat) :
    Decidable (CompletesAt imem σ k) := by
  unfold CompletesAt
  infer_instance

section Follow

variable {words w k : Nat} {way : ROBEntry → Word} {σ0 : Interpreter words}
  {imem : InstructionMemory w} {es : List ROBEntry}

/-- The instruction the interpreter executes for the completed entry at position `i`. -/
theorem follow_current (h : (σ0.run imem k).Follow way es) (hdone : ∀ e ∈ es, e.completed = true)
    (hword : ∀ e ∈ es, e.instruction = imem.read e.pc) {i : Nat} (hi : i < es.length) :
    (σ0.run imem (k + i)).current imem = es[i].decoded := by
  have hsplit : es = es.take i ++ es[i] :: es.drop (i + 1) := by
    rw [List.cons_getElem_drop_succ, List.take_append_drop]
  have hcurrent := h.current hdone hword hsplit
  rwa [List.length_take, Nat.min_eq_left (Nat.le_of_lt hi)] at hcurrent

/-- What holds of the opcodes before, and of those of the entries, holds of all of them. -/
theorem follow_opcodes {P : Opcode → Prop} (h : (σ0.run imem k).Follow way es)
    (hdone : ∀ e ∈ es, e.completed = true) (hword : ∀ e ∈ es, e.instruction = imem.read e.pc)
    (hdec : ∀ e ∈ es, e.FromDecode) (hP : ∀ e ∈ es, P e.opcode)
    (hk : ∀ j < k, P (opcodeAt imem σ0 j)) :
    ∀ j < k + es.length, P (opcodeAt imem σ0 j) := by
  intro j hj
  by_cases hlt : j < k
  · exact hk j hlt
  · obtain ⟨i, rfl⟩ := Nat.exists_eq_add_of_le (Nat.le_of_not_lt hlt)
    have hi : i < es.length := by omega
    have hmem : es[i] ∈ es := List.getElem_mem hi
    rw [opcodeAt, follow_current h hdone hword hi, ← (hdec _ hmem).opcode_eq]
    exact hP _ hmem

/-- The first `HALT` is the last of the entries that end with one. -/
theorem halts_at_last (h : (σ0.run imem k).Follow way es) (hdone : ∀ e ∈ es, e.completed = true)
    (hword : ∀ e ∈ es, e.instruction = imem.read e.pc) (hdec : ∀ e ∈ es, e.FromDecode)
    (hlast : ∀ pre e post, es = pre ++ e :: post → e.halt = true → post = [])
    (hhalt : ∃ e ∈ es, e.halt = true) (hk : ∀ j < k, opcodeAt imem σ0 j ≠ .HALT) {j : Nat}
    (hj : σ0.HaltsAt imem j) : k + es.length = j + 1 := by
  have hcode : ∀ {i : Nat} (hi : i < es.length),
      es[i].halt = (opcodeAt imem σ0 (k + i) == .HALT) := by
    intro i hi
    rw [(hdec _ (List.getElem_mem hi)).halt_eq, opcodeAt, follow_current h hdone hword hi]
  obtain ⟨e, he, hyes⟩ := hhalt
  obtain ⟨i, hi, rfl⟩ := List.getElem_of_mem he
  have hle : k ≤ j := by
    by_contra hlt
    exact hk j (Nat.lt_of_not_le hlt) hj.1
  have hji : j ≤ k + i := by
    by_contra hlt
    rw [hcode hi, beq_iff_eq] at hyes
    exact hj.2 (k + i) (Nat.lt_of_not_le hlt) hyes
  -- the entry of instruction `j` is a `HALT`, so nothing is behind it
  obtain ⟨a, rfl⟩ := Nat.exists_eq_add_of_le hle
  have ha : a < es.length := by omega
  have hsplit : es = es.take a ++ es[a] :: es.drop (a + 1) := by
    rw [List.cons_getElem_drop_succ, List.take_append_drop]
  have hend := hlast _ _ _ hsplit (by rw [hcode ha, beq_iff_eq]; exact hj.1)
  rw [List.drop_eq_nil_iff] at hend
  omega

end Follow

/-! ## Runs -/

section Runs

variable {words : List Word} {data : List (Nat × Word)} {n : Nat}

/-- The machine simulates the interpreter behind the instructions it has retired, all of which
    it could execute, and none of which is a `HALT`. -/
def Retiring (words : List Word) (data : List (Nat × Word)) (s0 : SuperScalarCPU cfg) (n : Nat) :
    Prop :=
  ∃ m own,
    (∀ j < (run s0 n).committedInstructionCount,
      opcodeAt (instructionMemory cfg words) (interpreter cfg data) j ≠ .HALT ∧
        executes (opcodeAt (instructionMemory cfg words) (interpreter cfg data) j) = true) ∧
    Simulates m own (wayAt s0 n)
      ((interpreter cfg data).run (instructionMemory cfg words)
        (run s0 n).committedInstructionCount) (run s0 n)

theorem Retiring.boot (harf : 16 ≤ cfg.arfCount) (hprf : 16 ≤ cfg.prfCount) (words : List Word)
    (data : List (Nat × Word)) :
    Retiring words data (SuperScalarCPU.boot cfg words data) 0 := by
  have hzero : (run (SuperScalarCPU.boot cfg words data) 0).committedInstructionCount = 0 := by
    rw [run, boot_frame]
    rfl
  refine ⟨committedMap [], fun _ => (0, 0), fun j hj => ?_, ?_⟩
  · rw [hzero] at hj
    exact absurd hj (Nat.not_lt_zero j)
  · rw [hzero]
    exact Simulates.boot harf hprf words data _

/-- The machine has retired the first `HALT` of the program and everything in front of it. -/
structure Completed (words : List Word) (data : List (Nat × Word)) (s : SuperScalarCPU cfg)
    (k : Nat) : Prop where
  completes : CompletesAt (instructionMemory cfg words) (interpreter cfg data) k
  count : s.committedInstructionCount = k + 1
  regs : ∀ r, s.arf.read r =
    ((interpreter cfg data).run (instructionMemory cfg words) k).data.regs r
  mem : s.dataMemory = ((interpreter cfg data).run (instructionMemory cfg words) k).data.mem

/-- An orderly step completes the program or goes on with it, and when it retires nothing its
    phase falls, unless the program has come to an instruction that cannot be executed. -/
theorem Retiring.next (h : Retiring words data (SuperScalarCPU.boot cfg words data) n)
    (harf : 16 ≤ cfg.arfCount) (hl : Live (SuperScalarCPU.boot cfg words data) n)
    (horderly : OrderlyStep (SuperScalarCPU.boot cfg words data) n) :
    let s0 := SuperScalarCPU.boot cfg words data
    ((run s0 (n + 1)).halted = true → ∃ k, Completed words data (run s0 (n + 1)) k) ∧
      ((run s0 (n + 1)).halted = false → Retiring words data s0 (n + 1) ∧
        (run s0 n).committedInstructionCount ≤ (run s0 (n + 1)).committedInstructionCount ∧
        ((run s0 (n + 1)).committedInstructionCount = (run s0 n).committedInstructionCount →
          (opcodeAt (instructionMemory cfg words) (interpreter cfg data)
              (run s0 n).committedInstructionCount ≠ .HALT →
            executes (opcodeAt (instructionMemory cfg words) (interpreter cfg data)
              (run s0 n).committedInstructionCount) = true) →
          (run s0 (n + 1)).phase < (run s0 n).phase)) := by
  intro s0
  obtain ⟨m, own, hops, hsim⟩ := h
  obtain ⟨es, m', own', hes, hfollow, hnext⟩ := hsim.next_run harf hl horderly
  obtain ⟨hword, hdec⟩ := hl.retires hes
  rw [hfollow.along_completed hes.completed hword] at hnext
  have hcount : (run s0 (n + 1)).committedInstructionCount =
      (run s0 n).committedInstructionCount + es.length := by
    show (run s0 n).next.committedInstructionCount = _
    rw [hl.steps.next_counters.1, hl.steps.committed_count, (hl.steps.retired_counts hes).1]
  have hhalted : (run s0 (n + 1)).halted = es.any fun e => e.halt := by
    show (run s0 n).next.halted = _
    rw [hl.steps.next_halted, hes.halted, hl.steps.running, Bool.false_or]
  have hexec : ∀ e ∈ es, executes e.opcode = true := fun e he => by
    refine executes_of_completed (run_unfinished cfg words data n) ?_ (hes.completed e he)
    rw [hes.window]
    exact List.mem_append_left _ he
  rw [hhalted]
  constructor
  · intro hany
    obtain ⟨e, he, hyes⟩ := List.any_eq_true.mp hany
    obtain ⟨k, hk, hdata⟩ := hfollow.halts hes.completed hword hdec hes.halt_last ⟨e, he, hyes⟩
      fun j hj => (hops j hj).1
    have hlen := halts_at_last hfollow hes.completed hword hdec hes.halt_last ⟨e, he, hyes⟩
      (fun j hj => (hops j hj).1) hk
    have hcomputes := hnext.agrees.computes
    rw [hdata] at hcomputes
    refine ⟨k, ⟨hk, fun j hj => ?_⟩, hcount.trans hlen, hcomputes.regs, hcomputes.mem⟩
    exact follow_opcodes (P := fun op => executes op = true) hfollow hes.completed hword hdec
      hexec (fun i hi => (hops i hi).2) j (by omega)
  · intro hno
    rw [List.any_eq_false] at hno
    refine ⟨⟨m', own', ?_, ?_⟩, ?_, fun hsame hstuck => ?_⟩
    · rw [hcount]
      refine follow_opcodes (P := fun op => op ≠ .HALT ∧ executes op = true) hfollow
        hes.completed hword hdec (fun e he => ⟨?_, hexec e he⟩) hops
      intro hcode
      apply hno e he
      rw [(hdec e he).halt_eq, ← (hdec e he).opcode_eq, hcode]
      rfl
    · rw [hcount]
      exact hnext
    · rw [hcount]
      exact Nat.le_add_right _ _
    · -- nothing retires, so the head is what the interpreter stands in front of
      have hnil : es = [] := List.length_eq_zero_iff.mp (by omega)
      subst hnil
      have hlsq := hsim.queues.lsq.commit slotOrder_eq hl.steps.sound hes
      refine hl.steps.phase_lt hl.streaming hes (hsim.renamed.commit hl.steps.sound hes)
        (hsim.delivery.commit harf hes) ⟨hlsq.valid, hlsq.slots ▸ List.Sublist.refl _⟩
        horderly.room fun e rest hw hopen => ?_
      have he : e ∈ (run s0 n).rob.window := by
        rw [hw]
        exact List.mem_cons_self
      obtain ⟨pc, horder, -⟩ := hsim.path
      have hfirst := horder.follow
      rw [hw] at hfirst
      have hread := hl.fetched.window e he
      rw [run_imem] at hread
      have hcode : opcodeAt (instructionMemory cfg words) (interpreter cfg data)
          (run s0 n).committedInstructionCount = e.opcode := by
        rw [(hl.steps.sound.inFlight.entryDecoded e he).opcode_eq, opcodeAt, Interpreter.current,
          ROBEntry.decoded, hread, hfirst.1]
        rfl
      rw [hcode] at hstuck
      refine (executes_iff e.opcode).mp (hstuck fun hcode => ?_)
      -- a `HALT` would have been completed at dispatch
      have hdone := hl.steps.fence.completed e he (by
        rw [(hl.steps.sound.inFlight.entryDecoded e he).halt_eq,
          ← (hl.steps.sound.inFlight.entryDecoded e he).opcode_eq, hcode]
        rfl)
      rw [hopen] at hdone
      cases hdone

/-- A halted machine has completed the program. -/
def Concluded (words : List Word) (data : List (Nat × Word)) (s0 : SuperScalarCPU cfg) (n : Nat) :
    Prop :=
  if (run s0 n).halted then ∃ k, Completed words data (run s0 n) k else Retiring words data s0 n

theorem run_concluded (harf : 16 ≤ cfg.arfCount) (hprf : 16 ≤ cfg.prfCount) (words : List Word)
    (data : List (Nat × Word))
    (horderly : ∀ n, (run (SuperScalarCPU.boot cfg words data) n).halted = false →
      OrderlyStep (SuperScalarCPU.boot cfg words data) n) (n : Nat) :
    Concluded words data (SuperScalarCPU.boot cfg words data) n := by
  induction n with
  | zero =>
      have hzero : (run (SuperScalarCPU.boot cfg words data) 0).halted = false := by
        rw [run, boot_frame]
        rfl
      rw [Concluded, hzero, if_neg Bool.false_ne_true]
      exact Retiring.boot harf hprf words data
  | succ n ih =>
      rw [Concluded] at ih ⊢
      cases hgo : (run (SuperScalarCPU.boot cfg words data) n).halted with
      | true =>
          rw [hgo, if_pos rfl] at ih
          obtain ⟨k, hk⟩ := ih
          rw [run, step, next_of_halted hgo, if_pos hgo]
          exact ⟨k, hk.completes, hk.count, hk.regs, hk.mem⟩
      | false =>
          rw [hgo, if_neg Bool.false_ne_true] at ih
          obtain ⟨hhalts, hgoes⟩ := ih.next harf (run_live hgo) (horderly n hgo)
          split
          · rename_i hhalt
            exact hhalts hhalt
          · rename_i hrun
            exact (hgoes (eq_false_of_ne_true hrun)).1

/-- The steps within which a program of `k` instructions in front of its `HALT` completes. -/
def stepBound (cfg : Config) (k : Nat) : Nat := (k + 2) * (3 ^ cfg.robCapacity + 1)

/-- What is left to do of a program whose `HALT` is instruction `k`. -/
def remaining (k : Nat) (s : SuperScalarCPU cfg) : Nat :=
  (k + 1 - s.committedInstructionCount) * (3 ^ cfg.robCapacity + 1) + s.phase

theorem remaining_lt {k : Nat} {s t : SuperScalarCPU cfg}
    (hle : s.committedInstructionCount ≤ t.committedInstructionCount)
    (hk : s.committedInstructionCount ≤ k)
    (hphase : t.committedInstructionCount = s.committedInstructionCount → t.phase < s.phase) :
    remaining k t < remaining k s := by
  rw [remaining, remaining]
  rcases Nat.eq_or_lt_of_le hle with heq | hlt
  · rw [heq]
    exact Nat.add_lt_add_left (hphase heq.symm) _
  · -- retiring an instruction pays for any phase
    have hless : k + 1 - t.committedInstructionCount + 1 ≤ k + 1 - s.committedInstructionCount := by
      omega
    have hmul := Nat.mul_le_mul_right (3 ^ cfg.robCapacity + 1) hless
    have hphase := t.phase_le
    rw [Nat.add_mul, Nat.one_mul] at hmul
    omega

theorem remaining_le (k : Nat) (s : SuperScalarCPU cfg) : remaining k s + 1 ≤ stepBound cfg k := by
  have hphase := s.phase_le
  have hmul := Nat.mul_le_mul_right (3 ^ cfg.robCapacity + 1)
    (Nat.sub_le (k + 1) s.committedInstructionCount)
  have hsplit : stepBound cfg k =
      (k + 1) * (3 ^ cfg.robCapacity + 1) + (3 ^ cfg.robCapacity + 1) := by
    rw [stepBound, ← Nat.succ_mul]
  rw [hsplit, remaining]
  omega

/-- A program that completes halts the machine. -/
theorem halts_within (harf : 16 ≤ cfg.arfCount) (hprf : 16 ≤ cfg.prfCount)
    (horderly : ∀ n, (run (SuperScalarCPU.boot cfg words data) n).halted = false →
      OrderlyStep (SuperScalarCPU.boot cfg words data) n) {k : Nat}
    (hk : CompletesAt (instructionMemory cfg words) (interpreter cfg data) k) :
    ∃ n ≤ stepBound cfg k, (run (SuperScalarCPU.boot cfg words data) n).halted = true := by
  have hrank := @halts_of_rank
    (fun n => (run (SuperScalarCPU.boot cfg words data) n).halted)
    (fun n => remaining k (run (SuperScalarCPU.boot cfg words data) n)) ?_
  · obtain ⟨n, hn, hhalt⟩ := hrank
    exact ⟨n, hn.trans (remaining_le k _), hhalt⟩
  · intro n hgo
    have hstate := run_concluded harf hprf words data horderly n
    rw [Concluded, hgo, if_neg Bool.false_ne_true] at hstate
    obtain ⟨-, hgoes⟩ := hstate.next harf (run_live hgo) (horderly n hgo)
    cases hnext : (run (SuperScalarCPU.boot cfg words data) (n + 1)).halted with
    | true => exact Or.inl rfl
    | false =>
        obtain ⟨-, hle, hphase⟩ := hgoes hnext
        obtain ⟨m, own, hops, -⟩ := hstate
        -- what has retired lies in front of the `HALT`
        have hcount :
            (run (SuperScalarCPU.boot cfg words data) n).committedInstructionCount ≤ k := by
          by_contra hlt
          exact (hops k (Nat.lt_of_not_le hlt)).1 hk.1.1
        refine Or.inr (remaining_lt hle hcount fun hsame => hphase hsame fun hcode => ?_)
        refine hk.2 _ (Nat.lt_of_le_of_ne hcount fun heq => hcode ?_)
        rw [heq]
        exact hk.1.1

/-- Halted machines stay as they are, so a later halted state has completed the program too. -/
theorem completed_of_halted (harf : 16 ≤ cfg.arfCount) (hprf : 16 ≤ cfg.prfCount)
    (horderly : ∀ n, (run (SuperScalarCPU.boot cfg words data) n).halted = false →
      OrderlyStep (SuperScalarCPU.boot cfg words data) n)
    (hhalt : (run (SuperScalarCPU.boot cfg words data) n).halted = true) :
    ∃ k, Completed words data (run (SuperScalarCPU.boot cfg words data) n) k := by
  have hstate := run_concluded harf hprf words data horderly n
  rwa [Concluded, hhalt, if_pos rfl] at hstate

end Runs

/-! ## `run(max_cycles)` -/

/-- Every step counts a cycle. -/
theorem next_cycles (s : SuperScalarCPU cfg) : s.next.cycles = s.cycles + 1 := by
  rw [next]
  split
  · rfl
  · have hcommit : s.memoryDone.cycles = s.cycles + 1 := by
      show s.committed.cycles = _
      rw [committed, commitStage_frame]
    have hbranch : s.memoryDone.branchStage.cycles = s.memoryDone.cycles := by
      rw [branchStage]
      split
      · rfl
      · dsimp only
        split <;> rfl
    rw [dispatched, fetchStage, dispatchStage_frame]
    dsimp only
    rw [executed, aluStage_frame]
    exact hbranch.trans hcommit

/-- `run(max_cycles)`; the bound is on the cycle counter of the machine. -/
def runUntil (maxCycles : Nat) (s : SuperScalarCPU cfg) : SuperScalarCPU cfg :=
  if !s.halted && decide (s.cycles < maxCycles) then runUntil maxCycles s.step.1 else s
termination_by maxCycles - s.cycles
decreasing_by
  rename_i hgo
  rw [Bool.and_eq_true, decide_eq_true_iff] at hgo
  rw [step, next_cycles]
  omega

/-- The loop ends in the state of the first halted step, or of the last one it may make. -/
theorem runUntil_run (maxCycles : Nat) (s0 : SuperScalarCPU cfg) (n : Nat)
    (hcycles : (run s0 n).cycles = n) (hn : n ≤ maxCycles)
    (hrun : ∀ j < n, (run s0 j).halted = false) :
    ∃ stop ≤ maxCycles, runUntil maxCycles (run s0 n) = run s0 stop ∧
      (run s0 stop).cycles = stop ∧ (∀ j < stop, (run s0 j).halted = false) ∧
      ((run s0 stop).halted = true ∨ stop = maxCycles) := by
  induction hleft : maxCycles - n generalizing n with
  | zero =>
      have hend : n = maxCycles := by omega
      refine ⟨n, hn, ?_, hcycles, hrun, Or.inr hend⟩
      rw [runUntil, hcycles, hend, decide_eq_false (Nat.lt_irrefl maxCycles), Bool.and_false]
      rfl
  | succ left ih =>
      have hlt : n < maxCycles := by omega
      rw [runUntil, hcycles, decide_eq_true hlt, Bool.and_true]
      cases hgo : (run s0 n).halted with
      | true => exact ⟨n, hn, rfl, hcycles, hrun, Or.inl hgo⟩
      | false =>
          refine ih (n + 1) ?_ hlt (fun j hj => ?_) (by omega)
          · rw [run, step, next_cycles, hcycles]
          · rcases Nat.lt_succ_iff_lt_or_eq.mp hj with hj | rfl
            · exact hrun j hj
            · exact hgo

/-- A program halts the machine if and only if the interpreter comes to a `HALT` over
    instructions the machine executes; then `run(max_cycles)` with enough cycles returns with
    all of them retired and the registers and the memory of the interpreter. -/
theorem run_completes (cfg : Config) (harf : 16 ≤ cfg.arfCount) (hprf : 16 ≤ cfg.prfCount)
    (words : List Word) (data : List (Nat × Word))
    (horderly : ∀ n, (run (boot cfg words data) n).halted = false →
      OrderlyStep (boot cfg words data) n) :
    let imem := instructionMemory cfg words
    let σ := interpreter cfg data
    ((∃ maxCycles, (runUntil maxCycles (boot cfg words data)).halted = true) ↔
        ∃ k, CompletesAt imem σ k) ∧
      ∀ k, CompletesAt imem σ k → ∀ maxCycles ≥ stepBound cfg k,
        (runUntil maxCycles (boot cfg words data)).halted = true ∧
          (runUntil maxCycles (boot cfg words data)).cycles ≤ stepBound cfg k ∧
          Completed words data (runUntil maxCycles (boot cfg words data)) k := by
  intro imem σ
  have hstart : (run (boot cfg words data) 0).cycles = 0 := by
    rw [run, boot_frame]
    rfl
  have hstops := fun maxCycles => runUntil_run maxCycles (boot cfg words data) 0 hstart
    (Nat.zero_le maxCycles) fun j hj => absurd hj (Nat.not_lt_zero j)
  have hcompletes : ∀ k, CompletesAt imem σ k → ∀ maxCycles ≥ stepBound cfg k,
      (runUntil maxCycles (boot cfg words data)).halted = true ∧
        (runUntil maxCycles (boot cfg words data)).cycles ≤ stepBound cfg k ∧
        Completed words data (runUntil maxCycles (boot cfg words data)) k := by
    intro k hk maxCycles hbound
    obtain ⟨n, hn, hhalt⟩ := halts_within harf hprf horderly hk
    obtain ⟨stop, -, heq, hcycles, hrun, hend⟩ := hstops maxCycles
    change runUntil maxCycles (boot cfg words data) = _ at heq
    -- the loop cannot have passed the halted state
    have hstop : stop ≤ n := by
      by_contra hlt
      rw [hrun n (Nat.lt_of_not_le hlt)] at hhalt
      cases hhalt
    have hhalted : (run (boot cfg words data) stop).halted = true := by
      rcases hend with hyes | hmax
      · exact hyes
      · have : n = stop := by omega
        exact this ▸ hhalt
    obtain ⟨j, hj⟩ := completed_of_halted harf hprf horderly hhalted
    obtain rfl := hj.completes.1.unique hk.1
    rw [heq, hcycles]
    exact ⟨hhalted, hstop.trans hn, hj⟩
  refine ⟨⟨?_, ?_⟩, hcompletes⟩
  · rintro ⟨maxCycles, hhalt⟩
    obtain ⟨stop, -, heq, -, -, -⟩ := hstops maxCycles
    change runUntil maxCycles (boot cfg words data) = _ at heq
    rw [heq] at hhalt
    obtain ⟨k, hk⟩ := completed_of_halted harf hprf horderly hhalt
    exact ⟨k, hk.completes⟩
  · rintro ⟨k, hk⟩
    exact ⟨stepBound cfg k, (hcompletes k hk _ (Nat.le_refl _)).1⟩

/-- The steps of a run are orderly if those up to a halted state are. -/
theorem orderly_of_halted {s0 : SuperScalarCPU cfg} {stop : Nat}
    (h : ∀ n < stop, OrderlyStep s0 n) (hhalt : (run s0 stop).halted = true) (n : Nat)
    (hgo : (run s0 n).halted = false) : OrderlyStep s0 n := by
  apply h n
  by_contra hge
  rw [running_of_le (Nat.le_of_not_lt hge) hgo] at hhalt
  cases hhalt

/-- `LI r1, 7; SW r1, 4(r0); LW r2, 4(r0); HALT` -/
def roundTripProgram : List Word := [0x1C400007, 0x28400004, 0x24800004, 0x38000000]

/-- Its `HALT` is reached, with the stored word in `r2`. -/
theorem run_completes_round_trip :
    let s := runUntil (stepBound .default 3) (boot .default roundTripProgram [])
    s.halted = true ∧ Completed roundTripProgram [] s 3 := by
  have hdone := (run_completes .default (by decide) (by decide) roundTripProgram []
    (@orderly_of_halted _ _ 8 (by decide +kernel) (by decide +kernel))).2 3 (by decide +kernel)
    (stepBound .default 3) (Nat.le_refl _)
  exact ⟨hdone.1, hdone.2.2⟩

end SuperScalarCPU

end CpuSim.SuperScalar
