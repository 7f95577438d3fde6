/-
  CpuSim.SuperScalar.PredictorHistory

  Where a prediction comes from.  The counter of an index folds the outcomes of every
  branch that shares the index; the target comes from the last taken branch of the index,
  and only when it is the branch being predicted.
-/

import CpuSim.Lib.IndexedFold
import CpuSim.SuperScalar.Branch

namespace CpuSim.SuperScalar

open CpuSim.Lib

/-- `BranchPredictionState`. -/
inductive BranchPredictionState where
  | STRONG_NOT_TAKEN
  | WEAK_NOT_TAKEN
  | WEAK_TAKEN
  | STRONG_TAKEN
  deriving DecidableEq, Repr

/-- `static_cast<std::uint8_t>(state)`. -/
def BranchPredictionState.code : BranchPredictionState → Nat
  | .STRONG_NOT_TAKEN => 0
  | .WEAK_NOT_TAKEN => 1
  | .WEAK_TAKEN => 2
  | .STRONG_TAKEN => 3

/-- The arguments of a call of `update`. -/
structure BranchUpdate where
  pc : Word
  taken : Bool
  target : Word
  deriving DecidableEq, Repr

/-- A two-bit counter after one more outcome. -/
def saturate (counter : Nat) (taken : Bool) : Nat :=
  if taken then min 3 (counter + 1) else counter - 1

namespace BranchPredictor

variable {TableSize : Nat}

/-- The predictor after a sequence of calls of `update`. -/
def trained (TableSize : Nat) (initial : BranchPredictionState) (updates : List BranchUpdate) :
    BranchPredictor TableSize :=
  updates.foldl (fun predictor u => predictor.update u.pc u.taken u.target) (reset initial.code)

/-- The outcomes of the branches that share the index of `pc`, in order. -/
def outcomes (TableSize : Nat) (updates : List BranchUpdate) (pc : Word) : List Bool :=
  (updates.filter fun u => hash TableSize u.pc = hash TableSize pc).map BranchUpdate.taken

/-- The counter of `pc` as the history has it. -/
def counterOf (TableSize : Nat) (initial : BranchPredictionState) (updates : List BranchUpdate)
    (pc : Word) : Nat :=
  (outcomes TableSize updates pc).foldl saturate initial.code

/-- The most recent taken update of the index of `pc` was made by `pc` itself, with this
    target. -/
def LastTaken (TableSize : Nat) (updates : List BranchUpdate) (pc target : Word) : Prop :=
  ∃ before u after, updates = before ++ u :: after ∧
    u.taken = true ∧ u.pc = pc ∧ u.target = target ∧
    ∀ w ∈ after, w.taken = true → hash TableSize w.pc ≠ hash TableSize pc

/-- What the history says of a lane: it holds a control-flow instruction whose counter
    predicts taken, with a target of its own. -/
structure Predicts (TableSize : Nat) (initial : BranchPredictionState)
    (updates : List BranchUpdate) (pc : Word) (valid : Bool) (controlFlow : ControlFlow)
    (target : Word) : Prop where
  valid : valid = true
  controlFlow : controlFlow ≠ .NONE
  counter : 2 ≤ counterOf TableSize initial updates pc
  target : LastTaken TableSize updates pc target

/-! ## The two tables as folds -/

variable {initial : BranchPredictionState} {updates : List BranchUpdate}

/-- The counter branch of `update`. -/
def countOutcome (counter : Nat) (u : BranchUpdate) : Nat :=
  if u.taken then (if counter < 3 then counter + 1 else counter)
  else if counter > 0 then counter - 1 else counter

/-- The target buffer branch of `update`. -/
def recordTarget : BTBEntry → BranchUpdate → BTBEntry :=
  overwrite BranchUpdate.taken fun u => { valid := true, tag := u.pc, target := u.target }

/-- `update` changes one cell of each table. -/
theorem update_eq (predictor : BranchPredictor TableSize) (u : BranchUpdate) :
    predictor.update u.pc u.taken u.target =
      { counters := updateCell (hash TableSize ·.pc) countOutcome predictor.counters u,
        btb := updateCell (hash TableSize ·.pc) recordTarget predictor.btb u } := by
  cases ht : u.taken with
  | true => simp [update, updateCell, countOutcome, recordTarget, overwrite, ht]
  | false => simp [update, updateCell, countOutcome, recordTarget, overwrite, ht]

theorem trained_eq (TableSize : Nat) (initial : BranchPredictionState)
    (updates : List BranchUpdate) :
    trained TableSize initial updates =
      { counters :=
          updates.foldl (updateCell (hash TableSize ·.pc) countOutcome) fun _ => initial.code,
        btb := updates.foldl (updateCell (hash TableSize ·.pc) recordTarget) fun _ => {} } := by
  rw [trained]
  induction updates using List.reverseRecOn with
  | nil => rfl
  | append_singleton us u ih =>
      rw [List.foldl_append, List.foldl_append, List.foldl_append, ih, List.foldl_cons,
        List.foldl_nil, update_eq]
      rfl

theorem code_le (initial : BranchPredictionState) : initial.code ≤ 3 := by
  cases initial <;> decide

/-- Inside the range of the counter the source saturates as the fold does. -/
theorem countOutcome_eq {counter : Nat} (h : counter ≤ 3) (u : BranchUpdate) :
    countOutcome counter u = saturate counter u.taken := by
  rw [countOutcome, saturate]
  split <;> split <;> omega

theorem saturate_le {counter : Nat} (h : counter ≤ 3) (taken : Bool) :
    saturate counter taken ≤ 3 := by
  rw [saturate]
  split <;> omega

theorem foldl_countOutcome {counter : Nat} (h : counter ≤ 3) (us : List BranchUpdate) :
    us.foldl countOutcome counter = (us.map BranchUpdate.taken).foldl saturate counter := by
  induction us generalizing counter with
  | nil => rfl
  | cons u us ih =>
      rw [List.foldl_cons, List.map_cons, List.foldl_cons, countOutcome_eq h]
      exact ih (saturate_le h u.taken)

theorem counterOf_le (pc : Word) : counterOf TableSize initial updates pc ≤ 3 := by
  rw [counterOf]
  generalize outcomes TableSize updates pc = taken
  have hbound : ∀ counter ≤ 3, taken.foldl saturate counter ≤ 3 := by
    induction taken with
    | nil => exact fun _ h => h
    | cons b bs ih => exact fun counter h => ih _ (saturate_le h b)
  exact hbound _ (code_le initial)

/-- The counter of an index is the fold of the outcomes of its branches. -/
theorem counters_trained (pc : Word) :
    (trained TableSize initial updates).counters (hash TableSize pc) =
      counterOf TableSize initial updates pc := by
  rw [trained_eq]
  simp only [foldl_updateCell]
  rw [foldl_countOutcome (code_le initial)]
  rfl

/-- The last taken branch of an index. -/
def lastTaken (TableSize : Nat) (updates : List BranchUpdate) (pc : Word) : Option BranchUpdate :=
  updates.reverse.find? fun u => decide (hash TableSize u.pc = hash TableSize pc) && u.taken

theorem lastTaken_eq_some {pc : Word} {u : BranchUpdate} :
    lastTaken TableSize updates pc = some u ↔
      ∃ before after, updates = before ++ u :: after ∧
        (hash TableSize u.pc = hash TableSize pc ∧ u.taken = true) ∧
        ∀ w ∈ after, w.taken = true → hash TableSize w.pc ≠ hash TableSize pc := by
  have htest : ∀ w : BranchUpdate,
      (decide (hash TableSize w.pc = hash TableSize pc) && w.taken) = false ↔
        (w.taken = true → hash TableSize w.pc ≠ hash TableSize pc) := by
    intro w
    rw [Bool.and_comm, Bool.and_eq_false_imp, decide_eq_false_iff_not]
  simp only [lastTaken, find?_reverse_eq_some, Bool.and_eq_true, decide_eq_true_iff, htest]

/-- The target buffer holds the last taken branch of the index. -/
theorem btb_trained (pc : Word) :
    (trained TableSize initial updates).btb (hash TableSize pc) =
      ((lastTaken TableSize updates pc).map fun u =>
        { valid := true, tag := u.pc, target := u.target }).getD {} := by
  rw [trained_eq]
  simp only [foldl_updateCell]
  rw [recordTarget, foldl_overwrite, ← List.filter_reverse, List.find?_filter, lastTaken]
  simp only [decide_eq_true_iff, Bool.decide_and, Bool.decide_eq_true]

/-- The buffer hits exactly when the last taken branch of the index is `pc` itself. -/
theorem btbHit_trained (pc target : Word) :
    ((trained TableSize initial updates).predict pc).btbHit = true ∧
        ((trained TableSize initial updates).predict pc).target = target ↔
      LastTaken TableSize updates pc target := by
  have hlast : LastTaken TableSize updates pc target ↔
      ∃ u, lastTaken TableSize updates pc = some u ∧ u.pc = pc ∧ u.target = target := by
    simp only [lastTaken_eq_some]
    constructor
    · rintro ⟨before, u, after, hus, ht, hpc, htarget, hnone⟩
      exact ⟨u, ⟨before, after, hus, ⟨by rw [hpc], ht⟩, hnone⟩, hpc, htarget⟩
    · rintro ⟨u, ⟨before, after, hus, ⟨-, ht⟩, hnone⟩, hpc, htarget⟩
      exact ⟨before, u, after, hus, ht, hpc, htarget, hnone⟩
  rw [hlast]
  simp only [predict, btb_trained]
  cases lastTaken TableSize updates pc with
  | none => simp
  | some u =>
      by_cases hpc : u.pc = pc
      · simp [hpc]
      · simp [hpc]

/-- A lane whose prediction redirects is one the history predicts. -/
theorem predict_trained (pc target : Word) :
    ((trained TableSize initial updates).predict pc).taken = true ∧
        ((trained TableSize initial updates).predict pc).btbHit = true ∧
        ((trained TableSize initial updates).predict pc).target = target ↔
      2 ≤ counterOf TableSize initial updates pc ∧ LastTaken TableSize updates pc target := by
  rw [btbHit_trained, ← counters_trained]
  simp only [predict, decide_eq_true_iff]

end BranchPredictor

namespace BranchPredictionUnit

open BranchPredictor

variable {TableSize : Nat} {initial : BranchPredictionState} {updates : List BranchUpdate}

/-- The test `evaluate` makes of a lane. -/
def redirects (predictor : BranchPredictor TableSize) (pc : Word) (valid : Bool)
    (controlFlow : ControlFlow) : Bool :=
  (valid && isControlFlow controlFlow) && (predictor.predict pc).taken &&
    (predictor.predict pc).btbHit

/-- The three outcomes of `evaluate`. -/
theorem evaluate_cases (predictor : BranchPredictor TableSize) (pc0 : Word) (valid0 : Bool)
    (controlFlow0 : ControlFlow) (pc1 : Word) (valid1 : Bool) (controlFlow1 : ControlFlow) :
    let result := evaluate predictor pc0 valid0 controlFlow0 pc1 valid1 controlFlow1
    if redirects predictor pc0 valid0 controlFlow0 then
      result.redirect = true ∧ result.redirectLane = 0 ∧
        result.redirectPc = (predictor.predict pc0).target
    else if redirects predictor pc1 valid1 controlFlow1 then
      result.redirect = true ∧ result.redirectLane = 1 ∧
        result.redirectPc = (predictor.predict pc1).target
    else result.redirect = false := by
  cases h0 : valid0 && isControlFlow controlFlow0 <;>
    cases h1 : valid1 && isControlFlow controlFlow1 <;>
    simp only [evaluate, redirects, h0, h1, Bool.false_and, Bool.true_and, Bool.false_eq_true,
      if_false, if_true] <;>
    split_ifs <;> simp_all

/-- The test passes exactly when the history predicts a target, which is then the one in the
    buffer. -/
theorem redirects_trained (pc : Word) (valid : Bool) (controlFlow : ControlFlow)
    (target : Word) :
    redirects (trained TableSize initial updates) pc valid controlFlow = true ∧
        ((trained TableSize initial updates).predict pc).target = target ↔
      Predicts TableSize initial updates pc valid controlFlow target := by
  have hpredict := @predict_trained TableSize initial updates pc target
  rw [redirects, Bool.and_eq_true, Bool.and_eq_true, Bool.and_eq_true, isControlFlow, bne_iff_ne]
  constructor
  · rintro ⟨⟨⟨⟨hv, hcf⟩, ht⟩, hhit⟩, htarget⟩
    obtain ⟨hc, hlast⟩ := hpredict.mp ⟨ht, hhit, htarget⟩
    exact ⟨hv, hcf, hc, hlast⟩
  · rintro ⟨hv, hcf, hc, hlast⟩
    obtain ⟨ht, hhit, htarget⟩ := hpredict.mpr ⟨hc, hlast⟩
    exact ⟨⟨⟨⟨hv, hcf⟩, ht⟩, hhit⟩, htarget⟩

/-- For every table size, initial state, sequence of updates and pair of lanes: the counter
    of a lane is the saturating fold of the outcomes of the branches of its index; the unit
    redirects to `target` in lane 0 exactly when the history predicts `target` for lane 0,
    in lane 1 exactly when it predicts it for lane 1 and nothing for lane 0, and in no
    other lane. -/
theorem prediction_provenance (TableSize : Nat) (initial : BranchPredictionState)
    (updates : List BranchUpdate) (pc0 : Word) (valid0 : Bool) (controlFlow0 : ControlFlow)
    (pc1 : Word) (valid1 : Bool) (controlFlow1 : ControlFlow) :
    let predictor := trained TableSize initial updates
    let result := evaluate predictor pc0 valid0 controlFlow0 pc1 valid1 controlFlow1
    let predicts0 := Predicts TableSize initial updates pc0 valid0 controlFlow0
    let predicts1 := Predicts TableSize initial updates pc1 valid1 controlFlow1
    (∀ pc, predictor.counters (hash TableSize pc) = counterOf TableSize initial updates pc ∧
      predictor.counters (hash TableSize pc) ≤ 3) ∧
    (∀ target, result.redirect = true ∧ result.redirectLane = 0 ∧ result.redirectPc = target ↔
      predicts0 target) ∧
    (∀ target, result.redirect = true ∧ result.redirectLane = 1 ∧ result.redirectPc = target ↔
      predicts1 target ∧ ∀ t, ¬predicts0 t) ∧
    (result.redirect = true → result.redirectLane = 0 ∨ result.redirectLane = 1) := by
  intro predictor result predicts0 predicts1
  have h0 : ∀ target, redirects predictor pc0 valid0 controlFlow0 = true ∧
      (predictor.predict pc0).target = target ↔ predicts0 target :=
    redirects_trained pc0 valid0 controlFlow0
  have h1 : ∀ target, redirects predictor pc1 valid1 controlFlow1 = true ∧
      (predictor.predict pc1).target = target ↔ predicts1 target :=
    redirects_trained pc1 valid1 controlFlow1
  have hcases := evaluate_cases predictor pc0 valid0 controlFlow0 pc1 valid1 controlFlow1
  refine ⟨?_, ?_⟩
  · intro pc
    have hcounter := @counters_trained TableSize initial updates pc
    refine ⟨hcounter, ?_⟩
    rw [hcounter]
    exact counterOf_le pc
  · -- which of the three outcomes it is decides every part
    by_cases hr0 : redirects predictor pc0 valid0 controlFlow0 = true
    · rw [if_pos hr0] at hcases
      obtain ⟨hredirect, hlane, hpc⟩ :
        result.redirect = true ∧ result.redirectLane = 0 ∧
          result.redirectPc = (predictor.predict pc0).target := hcases
      refine ⟨?_, ?_, fun _ => Or.inl hlane⟩
      · intro target
        rw [← h0, hpc]
        exact ⟨fun h => ⟨hr0, h.2.2⟩, fun h => ⟨hredirect, hlane, h.2⟩⟩
      · intro target
        constructor
        · rintro ⟨-, hlane1, -⟩
          omega
        · rintro ⟨-, hnone⟩
          exact absurd ((h0 _).mp ⟨hr0, rfl⟩) (hnone _)
    · have hnone0 : ∀ t, ¬predicts0 t := fun t ht => hr0 ((h0 t).mpr ht).1
      by_cases hr1 : redirects predictor pc1 valid1 controlFlow1 = true
      · rw [if_neg hr0, if_pos hr1] at hcases
        obtain ⟨hredirect, hlane, hpc⟩ :
          result.redirect = true ∧ result.redirectLane = 1 ∧
            result.redirectPc = (predictor.predict pc1).target := hcases
        refine ⟨?_, ?_, fun _ => Or.inr hlane⟩
        · intro target
          constructor
          · rintro ⟨-, hlane0, -⟩
            omega
          · intro ht
            exact absurd ht (hnone0 target)
        · intro target
          rw [← h1, hpc]
          exact ⟨fun h => ⟨⟨hr1, h.2.2⟩, hnone0⟩, fun h => ⟨hredirect, hlane, h.1.2⟩⟩
      · rw [if_neg hr0, if_neg hr1] at hcases
        have hstay : result.redirect = false := hcases
        refine ⟨?_, ?_, ?_⟩
        · intro target
          rw [hstay]
          exact ⟨fun h => absurd h.1 (by decide), fun h => absurd h (hnone0 target)⟩
        · intro target
          rw [hstay]
          exact ⟨fun h => absurd h.1 (by decide), fun h => absurd ((h1 target).mpr h.1).1 hr1⟩
        · rw [hstay]
          exact fun h => absurd h (by decide)

end BranchPredictionUnit

end CpuSim.SuperScalar
