/-
  CpuSim.SuperScalar.Followed

  Which way the front end really went after a branch.  A prediction is acted on
  only when the branch target buffer hits, while resolution compares direction
  bits; the two agree exactly when a branch predicted taken had a hit, or its
  target is the next instruction anyway.
-/

import CpuSim.SuperScalar.Fetched

namespace CpuSim.SuperScalar

namespace SuperScalarCPU

variable {cfg : Config} {s s0 : SuperScalarCPU cfg} {n m lane : Nat} {pc pc' : Word}

/-! ## The history of a run -/

/-- The step and the lane that last put an instruction into ROB slot `slot` before
    step `n`. -/
def lastDispatch (s0 : SuperScalarCPU cfg) : Nat → Nat → Option (Nat × Nat)
  | 0, _ => none
  | n + 1, slot =>
    let s := run s0 n
    if s.halted then lastDispatch s0 n slot
    else if s.dispatched1 && s.betweenLanes.rob.tail == slot then some (n, 1)
    else if s.dispatched0 && s.executed.rob.tail == slot then some (n, 0)
    else lastDispatch s0 n slot

/-- The prediction made for a lane. -/
def lanePrediction (s : SuperScalarCPU cfg) (lane : Nat) : BranchPrediction :=
  if lane = 0 then s.executed.predictionResult.lane0 else s.executed.predictionResult.lane1

/-- Decode sees lane 1 of the bundle and lane 0 does not redirect past it. -/
def matePresented (s : SuperScalarCPU cfg) : Bool :=
  s.frontend.decodeBundle.valid1 &&
    !(s.executed.predictionResult.redirect && s.executed.predictionResult.redirectLane == 0)

/-- `pc` is the address of the first instruction presented at decode after lane
    `lane` of step `m`: the mate in lane 1, or else the next bundle that is not a
    bubble. -/
def PresentedNext (s0 : SuperScalarCPU cfg) (m lane : Nat) (pc : Word) : Prop :=
  if lane = 0 ∧ (run s0 m).matePresented = true then
    (run s0 m).frontend.decodeBundle.pc1 = pc
  else
    ∃ k, m < k ∧ (run s0 k).frontend.decodeBundle.valid0 = true ∧
      (run s0 k).frontend.decodeBundle.pc0 = pc ∧
      ∀ j, m < j → j < k → (run s0 j).frontend.decodeBundle.valid0 = false

/-- There is one first instruction. -/
theorem PresentedNext.unique (h : PresentedNext s0 m lane pc) (h' : PresentedNext s0 m lane pc') :
    pc = pc' := by
  rw [PresentedNext] at h h'
  split at h
  · rename_i hm
    rw [if_pos hm] at h'
    rw [← h, ← h']
  · rename_i hm
    rw [if_neg hm] at h'
    obtain ⟨k, hk, hv, hp, hgap⟩ := h
    obtain ⟨k', hk', hv', hp', hgap'⟩ := h'
    rcases Nat.lt_trichotomy k k' with hlt | heq | hgt
    · rw [hgap' k hk hlt] at hv
      cases hv
    · rw [← hp, ← hp', heq]
    · rw [hgap k' hk' hgt] at hv'
      cases hv'

/-- Where the front end goes after a branch at `pc` with a given prediction. -/
def followedPc (pc : Word) (prediction : BranchPrediction) : Word :=
  if prediction.taken && prediction.btbHit then prediction.target else pc + 4

/-! ## The trace of a branch in flight -/

/-- The branch entry `e` of state `n` came from lane `lane` of step `m`, and the front
    end followed its prediction: the next instruction has been presented, or the
    redirect is still on its way and nothing younger has been seen. -/
structure Traced (s0 : SuperScalarCPU cfg) (n : Nat) (e : ROBEntry) (m lane : Nat) : Prop where
  origin : lastDispatch s0 n e.robIndex = some (m, lane)
  taken : e.predictedTaken = ((run s0 m).lanePrediction lane).taken
  hit : ((run s0 m).lanePrediction lane).btbHit = true →
    ((run s0 m).lanePrediction lane).target =
      e.pc + ((run s0 m).imem.decodedAt e.pc).immediate
  followed :
    PresentedNext s0 m lane (followedPc e.pc ((run s0 m).lanePrediction lane)) ∨
      (n = m + 1 ∧ ¬(lane = 0 ∧ (run s0 m).matePresented = true) ∧
        (run s0 n).frontend.decodeBundle = {} ∧
        (run s0 n).fetchPc = followedPc e.pc ((run s0 m).lanePrediction lane) ∧
        (run s0 n).rob.window.getLast? = some e)

/-- The state of a run at a step that does something. -/
structure Live (s0 : SuperScalarCPU cfg) (n : Nat) : Prop where
  steps : Steps (run s0 n)
  streaming : Streaming (run s0 n)
  fetched : Fetched (run s0 n)

/-- With a bubble at decode only a recovery redirects. -/
theorem Steps.bubble_redirect (h : Steps s) (hbubble : s.frontend.decodeBundle = {})
    (hrec : s.memoryDone.branchRecovered = false) : s.redirectTarget = none := by
  have hfront := h.executed_frontend hrec
  have hpred : s.executed.predictionResult.redirect = false := by
    have hv0 : s.executed.decodeLane0.valid = false := by
      rw [decodeLane0, hfront, hbubble]
      rfl
    have hv1 : s.executed.decodeLane1.valid = false := by
      rw [decodeLane1, hfront, hbubble]
      rfl
    simp [predictionResult, BranchPredictionUnit.evaluate, hv0, hv1]
  rw [redirectTarget, hrec, hpred, Bool.and_false]
  rfl

/-- A redirect on its way arrives in a step without a recovery: decode holds a bubble,
    so nothing else can redirect. -/
theorem presented_of_pending (hl : Live s0 n) {e : ROBEntry}
    (hp : n = m + 1 ∧ ¬(lane = 0 ∧ (run s0 m).matePresented = true) ∧
      (run s0 n).frontend.decodeBundle = {} ∧ (run s0 n).fetchPc = pc ∧
      (run s0 n).rob.window.getLast? = some e)
    (hrec : (run s0 n).memoryDone.branchRecovered = false) : PresentedNext s0 m lane pc := by
  obtain ⟨h, hs, -⟩ := hl
  obtain ⟨hn, hmate, hbubble, hpc, -⟩ := hp
  obtain ⟨hdec, -, -⟩ := hs.sequential h (h.bubble_redirect hbubble hrec)
  rw [PresentedNext, if_neg hmate]
  refine ⟨n + 1, by omega, ?_, ?_, fun j hj hj' => ?_⟩
  · show (run s0 n).next.frontend.decodeBundle.valid0 = true
    rw [hdec]
    rfl
  · show (run s0 n).next.frontend.decodeBundle.pc0 = pc
    rw [hdec, ← hpc]
    rfl
  · have hjn : j = n := by omega
    rw [hjn, hbubble]

/-- An older branch stays traced. -/
theorem Traced.keep (hl : Live s0 n) {e : ROBEntry} (ht : Traced s0 n e m lane)
    (he : e ∈ (run s0 n).executed.rob.window) (hc : e.completed = false) :
    Traced s0 (n + 1) e m lane := by
  have h := hl.steps
  have hwf := h.sound_executed.inFlight.rob_wf
  refine ⟨?_, ht.taken, ht.hit, ?_⟩
  · -- its slot is live, so neither lane takes it
    rw [lastDispatch, h.running]
    simp only [Bool.false_eq_true, if_false]
    rw [if_neg, if_neg]
    · exact ht.origin
    · intro hslot
      rw [Bool.and_eq_true, beq_iff_eq] at hslot
      refine hwf.tail_not_live (h.of_dispatched0 hslot.1).2.2 ?_
      rw [hslot.2]
      exact hwf.mem_liveSlots he
    · intro hslot
      rw [Bool.and_eq_true, beq_iff_eq] at hslot
      obtain ⟨hr, -, hroom, hsound⟩ := h.of_dispatched1 hslot.1
      refine hsound.inFlight.rob_wf.tail_not_live hroom ?_
      rw [hslot.2]
      refine hsound.inFlight.rob_wf.mem_liveSlots ?_
      rw [h.betweenLanes_window hr]
      exact List.mem_append_left _ he
  · rcases ht.followed with hp | hpend
    · exact Or.inl hp
    · left
      refine presented_of_pending hl hpend ?_
      by_contra hno
      exact h.recovered_not_last (eq_true_of_ne_false hno) he hc hpend.2.2.2.2

/-- What a redirect by a prediction leads to. -/
theorem Steps.redirect_of_prediction (h : Steps s) (hs : Streaming s) (hr : s.renames = true)
    (hp : s.executed.predictionResult.redirect = true) :
    s.next.frontend.decodeBundle = {} ∧
      s.next.fetchPc = s.executed.predictionResult.redirectPc := by
  obtain ⟨hrec, hd⟩ := h.of_renames hr
  have htarget : s.redirectTarget = some s.executed.predictionResult.redirectPc := by
    rw [redirectTarget, hrec, hd, hp]
    rfl
  exact ⟨(hs.redirected h htarget).1, (hs.redirected h htarget).2.1⟩

/-- A redirect that is on its way, or a bundle presented in the very next step. -/
theorem Traced.followed_of {e : ROBEntry} (h : Steps (run s0 n)) (hs : Streaming (run s0 n))
    (hr : (run s0 n).renames = true)
    (hmate : ¬(lane = 0 ∧ (run s0 n).matePresented = true))
    (hlast : (run s0 (n + 1)).rob.window.getLast? = some e)
    (hpc : (run s0 n).executed.predictionResult.redirect = false →
      (run s0 n).fetchPc = pc)
    (hredirect : (run s0 n).executed.predictionResult.redirect = true →
      (run s0 n).executed.predictionResult.redirectPc = pc) :
    PresentedNext s0 n lane pc ∨
      (¬(lane = 0 ∧ (run s0 n).matePresented = true) ∧
        (run s0 (n + 1)).frontend.decodeBundle = {} ∧ (run s0 (n + 1)).fetchPc = pc ∧
        (run s0 (n + 1)).rob.window.getLast? = some e) := by
  cases hp : (run s0 n).executed.predictionResult.redirect with
  | true =>
      -- a redirect first shows a bubble, and the target waits to be fetched
      obtain ⟨hbubble, hfetch⟩ := h.redirect_of_prediction hs hr hp
      exact Or.inr ⟨hmate, hbubble, hfetch.trans (hredirect hp), hlast⟩
  | false =>
      obtain ⟨hrec, -⟩ := h.of_renames hr
      have hnone : (run s0 n).redirectTarget = none := by
        rw [redirectTarget, hrec, hp, Bool.and_false]
        rfl
      have hdec := (hs.sequential h hnone).1
      left
      rw [PresentedNext, if_neg hmate]
      refine ⟨n + 1, by omega, ?_, ?_, fun j hj hj' => by omega⟩
      · show (run s0 n).next.frontend.decodeBundle.valid0 = true
        rw [hdec]
        rfl
      · show (run s0 n).next.frontend.decodeBundle.pc0 = pc
        rw [hdec]
        exact hpc hp

/-- A branch entering in lane 0 is traced: its mate follows it, or the redirect. -/
theorem Traced.enter0 (hl : Live s0 n) (hd : (run s0 n).dispatched0 = true)
    (hb : (run s0 n).entry0.branch = true) : Traced s0 (n + 1) (run s0 n).entry0 n 0 := by
  obtain ⟨h, hs, hf⟩ := hl
  obtain ⟨hr, hv, hroom⟩ := h.of_dispatched0 hd
  obtain ⟨p, hdec, hpc, hinpc, -, hpred⟩ := h.input0 hs hr hv
  obtain ⟨epc, -, ebr, etaken, -⟩ := h.entry0_input hd
  rw [ebr, beq_iff_eq] at hb
  rw [hinpc] at epc
  rw [(hpred hb).1] at etaken
  have hfront := h.executed_frontend (h.of_renames hr).1
  have hslot : (run s0 n).entry0.robIndex = (run s0 n).executed.rob.tail := by
    rw [entry0, laneEntry_eq]
    rfl
  obtain ⟨hpast, hredirect, hredirectPc⟩ := predictionResult_redirect (run s0 n).executed
  have hwin : (run s0 (n + 1)).rob.window =
      (run s0 n).executed.rob.window ++ (run s0 n).entered := h.window_next
  refine ⟨?_, etaken, fun hhit => ?_, ?_⟩
  · -- lane 1, behind lane 0, takes another slot
    rw [lastDispatch, h.running]
    simp only [Bool.false_eq_true, if_false]
    rw [if_neg, if_pos]
    · rw [hd, hslot]
      simp
    · intro hslot1
      rw [Bool.and_eq_true, beq_iff_eq] at hslot1
      obtain ⟨-, -, hroom1, hsound⟩ := h.of_dispatched1 hslot1.1
      refine hsound.inFlight.rob_wf.tail_not_live hroom1 ?_
      rw [hslot1.2]
      refine hsound.inFlight.rob_wf.mem_liveSlots ?_
      rw [h.betweenLanes_window hr, hd]
      simp
  · have hlane : (run s0 n).executed.decodeLane0.pc = p := by
      rw [(decodeLane_pc _).1, hfront, hdec]
      rfl
    have := (hf.executed h).predictionResult_target.1 hhit
    rwa [hlane, h.executed_imem, ← epc] at this
  · cases htaken : (run s0 n).executed.predictionResult.lane0.taken &&
        (run s0 n).executed.predictionResult.lane0.btbHit with
    | true =>
        rw [htaken, Bool.true_or] at hredirect
        rw [htaken] at hpast
        have hmate : (run s0 n).matePresented = false := by
          rw [matePresented, hpast, Bool.not_true, Bool.and_false]
        have hd1 : (run s0 n).dispatched1 = false := by
          by_contra hno
          obtain ⟨-, hv1, -, -⟩ := h.of_dispatched1 (eq_true_of_ne_false hno)
          rw [renInput1, if_pos hpast] at hv1
          cases hv1
        refine (followed_of h hs hr (fun hx => ?_) ?_ (fun hno => ?_) fun _ => ?_).imp_right
          (⟨rfl, ·⟩)
        · rw [hmate] at hx
          cases hx.2
        · rw [hwin, entered, hd, hd1]
          simp
        · rw [hredirect] at hno
          cases hno
        · rw [hredirectPc hredirect, if_pos htaken, followedPc]
          exact (if_pos htaken).symm
    | false =>
        -- the mate is presented, and it is the next instruction
        left
        have hmate : (run s0 n).matePresented = true := by
          rw [matePresented, hpast, htaken, hdec]
          rfl
        rw [PresentedNext, if_pos ⟨rfl, hmate⟩, hdec, followedPc, epc]
        exact (if_neg (by rw [show (run s0 n).lanePrediction 0 =
          (run s0 n).executed.predictionResult.lane0 from rfl, htaken]; decide)).symm

/-- A branch entering in lane 1 is traced: the next bundle follows it, or the redirect. -/
theorem Traced.enter1 (hl : Live s0 n) (hd : (run s0 n).dispatched1 = true)
    (hb : (run s0 n).entry1.branch = true) : Traced s0 (n + 1) (run s0 n).entry1 n 1 := by
  obtain ⟨h, hs, hf⟩ := hl
  obtain ⟨hr, hv, hroom, -⟩ := h.of_dispatched1 hd
  obtain ⟨p, hdec, hpc, hinpc, -, hopen, hpred⟩ := h.input1 hs hr hv
  obtain ⟨epc, -, ebr, etaken, -⟩ := h.entry1_input hd
  rw [ebr, beq_iff_eq] at hb
  rw [hinpc] at epc
  rw [(hpred hb).1] at etaken
  have hfront := h.executed_frontend (h.of_renames hr).1
  have hslot : (run s0 n).entry1.robIndex = (run s0 n).betweenLanes.rob.tail := by
    rw [entry1, laneEntry_eq]
  obtain ⟨hpast, hredirect, hredirectPc⟩ := predictionResult_redirect (run s0 n).executed
  have hwin : (run s0 (n + 1)).rob.window =
      (run s0 n).executed.rob.window ++ (run s0 n).entered := h.window_next
  rw [hopen] at hpast
  -- lane 0 did not redirect, so a redirect is that of lane 1
  rw [← hpast, Bool.false_or] at hredirect
  refine ⟨?_, etaken, fun hhit => ?_, ?_⟩
  · rw [lastDispatch, h.running]
    simp only [Bool.false_eq_true, if_false]
    rw [if_pos]
    rw [hd, hslot]
    simp
  · have hlane : (run s0 n).executed.decodeLane1.pc = p + 4 := by
      rw [(decodeLane_pc _).2, hfront, hdec]
      rfl
    have := (hf.executed h).predictionResult_target.2 hhit
    rwa [hlane, h.executed_imem, ← epc] at this
  · refine (followed_of h hs hr (fun hx => by omega) ?_ (fun hno => ?_) fun hyes => ?_).imp_right
      (⟨rfl, ·⟩)
    · rw [hwin, entered, hd, if_pos rfl, ← List.append_assoc, List.getLast?_append_of_ne_nil _
        (by simp)]
      rfl
    · rw [hredirect] at hno
      rw [hpc, epc, followedPc, show (run s0 n).lanePrediction 1 =
        (run s0 n).executed.predictionResult.lane1 from rfl, hno, if_neg (by decide)]
      bv_omega
    · rw [hredirectPc hyes, ← hpast, if_neg (by decide), followedPc,
        show (run s0 n).lanePrediction 1 = (run s0 n).executed.predictionResult.lane1 from rfl,
        if_pos (hredirect ▸ hyes)]

theorem run_live {words : List Word} {data : List (Nat × Word)}
    (h : (run (boot cfg words data) n).halted = false) : Live (boot cfg words data) n :=
  ⟨run_steps h, run_streaming cfg words data n, run_fetched cfg words data n⟩

/-- Every branch in flight and not resolved is traced. -/
theorem run_traced (cfg : Config) (words : List Word) (data : List (Nat × Word)) (n : Nat) :
    ∀ e ∈ (run (boot cfg words data) n).rob.window, e.branch = true → e.completed = false →
      ∃ m lane, Traced (boot cfg words data) n e m lane := by
  induction n with
  | zero =>
      intro e he
      rw [run, boot_frame] at he
      rw [show (((construct cfg).loadProgram words).rob : ReOrderBuffer cfg.robCapacity) = .reset
        from rfl, ReOrderBuffer.window_reset] at he
      cases he
  | succ n ih =>
      intro e he hb hc
      by_cases hh : (run (boot cfg words data) n).halted = true
      · -- a halted machine holds nothing
        have hempty := (run_sound_fence cfg words data n).2.drained hh
        have hsame : (run (boot cfg words data) (n + 1)).rob =
            (run (boot cfg words data) n).rob := by
          show (run (boot cfg words data) n).next.rob = _
          rw [SuperScalarCPU.next, if_pos hh]
        rw [hsame, hempty] at he
        cases he
      · have hl := run_live (eq_false_of_ne_true hh)
        have hwin : (run (boot cfg words data) (n + 1)).rob.window =
            (run (boot cfg words data) n).executed.rob.window ++
              (run (boot cfg words data) n).entered := hl.steps.window_next
        rw [hwin] at he
        rcases List.mem_append.mp he with he | he
        · obtain ⟨m, lane, ht⟩ := ih e (hl.steps.executed_keeps e he hc) hb hc
          exact ⟨m, lane, ht.keep hl he hc⟩
        · rcases mem_entered he with ⟨hd, rfl⟩ | ⟨hd, rfl⟩
          · exact ⟨n, 0, Traced.enter0 hl hd hb⟩
          · exact ⟨n, 1, Traced.enter1 hl hd hb⟩

/-! ## Resolution -/

/-- A branch that is not mispredicted went the way its direction bit said. -/
theorem taken_of_not_mispredicted {i : Nat} (hm : (s.branchResult i).mispredicted = false) :
    (s.branchResult i).taken = (s.iq.entries i).predictedTaken := by
  simp only [branchResult, BranchExecutionUnit.evaluate] at hm ⊢
  split at hm
  · cases hm
  · rename_i hne
    simpa using (Eq.symm (by simpa using hne))

/-- An unresolved branch that executes now, where it came from and where the front end
    went after it. -/
theorem resolving_traced {words : List Word} {data : List (Nat × Word)} {i : Nat}
    (hl : Live (boot cfg words data) n)
    (hi : (run (boot cfg words data) n).memoryDone.selectBranch = some i) :
    ∃ e ∈ (run (boot cfg words data) n).rob.window,
      ((run (boot cfg words data) n).memoryDone.iq.entries i).Matches e ∧ e.branch = true ∧
        e.completed = false ∧ ∃ m lane, Traced (boot cfg words data) n e m lane := by
  have h := hl.steps
  obtain ⟨-, hlive, hflow, -, -⟩ := selectBranch_some hi
  have hin := h.sound_memoryDone.inFlight
  obtain ⟨e, he, hc, hmatch⟩ := hin.backed _ hlive
  obtain ⟨es, hes⟩ := h.commits
  have hold : e ∈ (run (boot cfg words data) n).rob.window :=
    (hes.keeps.trans (memoryCase_keeps h.sound_committed h.memoryCase)) e he hc
  have hbranch : e.branch = true := by
    rw [(hin.entryDecoded e he).branch, ← hmatch.pc, ← hmatch.instruction,
      ← (hin.queueDecoded _ hlive).controlFlow, hflow]
    rfl
  exact ⟨e, hold, hmatch, hbranch, hc, run_traced cfg words data n e hold hbranch hc⟩

/-- A branch that is not mispredicted was followed to its `next_pc` exactly when a
    prediction of taken had a hit, or its target is the next instruction. -/
theorem Traced.nextPc_iff {words : List Word} {data : List (Nat × Word)} {i : Nat} {e : ROBEntry}
    (hl : Live (boot cfg words data) n) (ht : Traced (boot cfg words data) n e m lane)
    (hi : (run (boot cfg words data) n).memoryDone.selectBranch = some i)
    (hm : ((run (boot cfg words data) n).memoryDone.branchResult i).mispredicted = false)
    (hold : e ∈ (run (boot cfg words data) n).rob.window)
    (hmatch : ((run (boot cfg words data) n).memoryDone.iq.entries i).Matches e) :
    ((run (boot cfg words data) n).memoryDone.branchResult i).nextPc =
        followedPc e.pc ((run (boot cfg words data) m).lanePrediction lane) ↔
      (((run (boot cfg words data) m).lanePrediction lane).taken = true →
        ((run (boot cfg words data) m).lanePrediction lane).btbHit = true ∨
          ((run (boot cfg words data) n).memoryDone.iq.entries i).immediate = 4) := by
  obtain ⟨-, hlive, -, -, -⟩ := selectBranch_some hi
  have htaken := taken_of_not_mispredicted hm
  rw [hmatch.predictedTaken, ht.taken] at htaken
  -- the entry in the queue and the predictor decode the same word
  have himm : ((run (boot cfg words data) n).memoryDone.iq.entries i).immediate =
      ((run (boot cfg words data) m).imem.decodedAt e.pc).immediate := by
    rw [(hl.steps.sound_memoryDone.inFlight.queueDecoded _ hlive).immediate, hmatch.pc,
      hmatch.instruction, hl.fetched.window e hold, run_imem, run_imem]
    rfl
  have hnext : ((run (boot cfg words data) n).memoryDone.branchResult i).nextPc =
      if ((run (boot cfg words data) m).lanePrediction lane).taken then
        e.pc + ((run (boot cfg words data) n).memoryDone.iq.entries i).immediate
      else e.pc + 4 := by
    rw [← htaken, ← hmatch.pc]
    rfl
  rw [hnext, followedPc]
  cases hp : ((run (boot cfg words data) m).lanePrediction lane).taken with
  | false => simp
  | true =>
      cases hb : ((run (boot cfg words data) m).lanePrediction lane).btbHit with
      -- on a hit the target is the one learned; without, the front end went straight on
      | true => simp [ht.hit hb, himm]
      | false => simp

/-- A branch resolved as correctly predicted came from a lane of an earlier step, and
    the first instruction presented after that lane is the one at `next_pc` exactly
    when a prediction of taken had a hit in the branch target buffer, or the target
    is the next instruction. -/
theorem followed_iff_hit (cfg : Config) (words : List Word) (data : List (Nat × Word)) (n i : Nat)
    (hrun : (run (boot cfg words data) n).halted = false)
    (hi : (run (boot cfg words data) n).memoryDone.selectBranch = some i)
    (hm : ((run (boot cfg words data) n).memoryDone.branchResult i).mispredicted = false) :
    ∃ m lane,
      lastDispatch (boot cfg words data) n
        ((run (boot cfg words data) n).memoryDone.branchResult i).robIndex = some (m, lane) ∧
      (PresentedNext (boot cfg words data) m lane
          ((run (boot cfg words data) n).memoryDone.branchResult i).nextPc ↔
        (((run (boot cfg words data) m).lanePrediction lane).taken = true →
          ((run (boot cfg words data) m).lanePrediction lane).btbHit = true ∨
            ((run (boot cfg words data) n).memoryDone.iq.entries i).immediate = 4)) := by
  have hl := run_live hrun
  obtain ⟨e, hold, hmatch, -, -, m, lane, ht⟩ := resolving_traced hl hi
  refine ⟨m, lane, ?_, ?_⟩
  · show lastDispatch _ n ((run (boot cfg words data) n).memoryDone.iq.entries i).robIndex = _
    rw [hmatch.robIndex]
    exact ht.origin
  have hpresented : PresentedNext (boot cfg words data) m lane
      (followedPc e.pc ((run (boot cfg words data) m).lanePrediction lane)) := by
    rcases ht.followed with hp | hp
    · exact hp
    · exact presented_of_pending hl hp (by rw [branchRecovered_some hi, hm])
  rw [← ht.nextPc_iff hl hi hm hold hmatch]
  exact ⟨fun hp => hp.unique hpresented, fun heq => heq ▸ hpresented⟩

/-- `BEQ r0, r0, 1024; HALT` in a ROM of 256 words: the branch is fetched again at
    address 1024, where it shares the counter trained at address 0 but misses in the
    target buffer.  It is judged correctly predicted, with `next_pc` 2048. -/
theorem followed_iff_hit_aliased :
    ∃ m lane,
      lastDispatch (boot .default [0x2C000400, 0x38000000] []) 5 1 = some (m, lane) ∧
      (PresentedNext (boot .default [0x2C000400, 0x38000000] []) m lane 2048 ↔
        (((run (boot .default [0x2C000400, 0x38000000] []) m).lanePrediction lane).taken = true →
          ((run (boot .default [0x2C000400, 0x38000000] []) m).lanePrediction lane).btbHit = true ∨
            ((run (boot .default [0x2C000400, 0x38000000] []) 5).memoryDone.iq.entries 0).immediate
              = 4)) := by
  have h := followed_iff_hit .default [0x2C000400, 0x38000000] [] 5 0 (by decide +kernel)
    (by decide +kernel) (by decide +kernel)
  rwa [show ((run (boot .default [0x2C000400, 0x38000000] []) 5).memoryDone.branchResult 0).robIndex
      = 1 by decide +kernel,
    show ((run (boot .default [0x2C000400, 0x38000000] []) 5).memoryDone.branchResult 0).nextPc
      = 2048 by decide +kernel] at h

/-- There the front end fell through to the `HALT` at 1028 instead. -/
theorem aliased_branch_not_followed :
    (run (boot .default [0x2C000400, 0x38000000] []) 5).memoryDone.selectBranch = some 0 ∧
      ((run (boot .default [0x2C000400, 0x38000000] []) 5).memoryDone.branchResult 0).mispredicted
        = false ∧
      lastDispatch (boot .default [0x2C000400, 0x38000000] []) 5
        ((run (boot .default [0x2C000400, 0x38000000] []) 5).memoryDone.branchResult 0).robIndex
        = some (4, 0) ∧
      ¬ PresentedNext (boot .default [0x2C000400, 0x38000000] []) 4 0
        ((run (boot .default [0x2C000400, 0x38000000] []) 5).memoryDone.branchResult 0).nextPc := by
  refine ⟨by decide +kernel, by decide +kernel, by decide +kernel, ?_⟩
  rw [PresentedNext, if_pos ⟨rfl, by decide +kernel⟩]
  decide +kernel

end SuperScalarCPU

end CpuSim.SuperScalar
