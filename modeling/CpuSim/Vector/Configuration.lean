/-
  CpuSim.Vector.Configuration

  The vector configuration unit.  Levels that are no bits reach the decoder, the comparator and
  the muxes, but the pair of vector length and type is loaded together, and only from a request
  that is binary throughout.
-/

import CpuSim.Components.Alu
import CpuSim.Lib.TwoPhase
import CpuSim.Logic.FourValued

namespace CpuSim.Vector

open Logic

/-! ## The units -/

/-- `VLMAXUnit::evaluate`: the maximal vector length of an element width, and whether there is
    one. -/
def VLMAXUnit.evaluate (lib : Components) (sew : Bus 2) : Bus 8 × LogicState :=
  let decoded := lib.decoder2to4 sew
  let valid := lib.notGate (decoded 3)
  let vlmax : Bus 8 := fun i =>
    if i = 4 then decoded 0
    else if i = 3 then decoded 1
    else if i = 2 then decoded 2
    else .LOW
  (vlmax, valid)

/-- `MinimumUnit::evaluate`. -/
def MinimumUnit.evaluate {width : Nat} (lib : Components) (a b : Bus width) : Bus width :=
  lib.mux a b (lib.comparator a b).greater

/-- The inputs of the configuration unit but for its clock. -/
structure ConfigurationInputs where
  avl : Bus 8
  sew : Bus 2
  configure : LogicState
  reset : LogicState

/-- `VectorConfigurationUnit`: its wires and its two registers. -/
structure VectorConfigurationUnit where
  vlmax : Bus 8
  vlmaxValid : LogicState
  valid : LogicState
  writeEnable : LogicState
  vlNext : Bus 8
  vlLoadOut : Bus 8
  vlRegIn : Bus 8
  vtypeLoadOut : Bus 2
  vtypeRegIn : Bus 2
  vlReg : Logic.Register (Bus 8)
  vtypeReg : Logic.Register (Bus 2)

namespace VectorConfigurationUnit

variable (lib : Components)

/-- `vl()`. -/
def vl (s : VectorConfigurationUnit) : Bus 8 := s.vlReg.output

/-- `vtype()`. -/
def vtype (s : VectorConfigurationUnit) : Bus 2 := s.vtypeReg.output

/-- The validity policy: an invalid element width decides, then an unknown one, then whether
    the requested length is known. -/
def currentValid (sewValid : LogicState) (avlAllKnown : Bool) : LogicState :=
  if sewValid = .LOW then .LOW
  else if sewValid = .UNKNOWN then .UNKNOWN
  else if avlAllKnown then .HIGH else .UNKNOWN

/-- `evaluate_combinational`. -/
def evaluateCombinational (u : ConfigurationInputs) (s : VectorConfigurationUnit) :
    VectorConfigurationUnit :=
  let (vlmax, vlmaxValid) := VLMAXUnit.evaluate lib u.sew
  let avlAllKnown := decide u.avl.Binary
  let valid := currentValid vlmaxValid avlAllKnown
  let vlNext := MinimumUnit.evaluate lib u.avl vlmax
  let shouldWrite := u.configure == .HIGH && valid == .HIGH
  let writeEnable := LogicState.ofBool shouldWrite
  let vlLoadOut := lib.mux s.vl vlNext writeEnable
  let vlRegIn := lib.mux vlLoadOut (.fill .LOW) u.reset
  let vtypeLoadOut := lib.mux s.vtype u.sew writeEnable
  let vtypeRegIn := lib.mux vtypeLoadOut (.fill .LOW) u.reset
  { s with
    vlmax := vlmax
    vlmaxValid := vlmaxValid
    valid := valid
    writeEnable := writeEnable
    vlNext := vlNext
    vlLoadOut := vlLoadOut
    vlRegIn := vlRegIn
    vtypeLoadOut := vtypeLoadOut
    vtypeRegIn := vtypeRegIn }

/-- `evaluate_registers`. -/
def evaluateRegisters (clock : Bool) (s : VectorConfigurationUnit) : VectorConfigurationUnit :=
  { s with
    vlReg := s.vlReg.evaluate clock s.vlRegIn
    vtypeReg := s.vtypeReg.evaluate clock s.vtypeRegIn }

/-- `evaluate()`. -/
def evaluate (s : VectorConfigurationUnit) (clock : Bool) (u : ConfigurationInputs) :
    VectorConfigurationUnit :=
  evaluateRegisters clock (evaluateCombinational lib u s)

/-- The constructor writes LOW to both outputs; what the rest of the unit holds is left to the
    first evaluation. -/
structure Constructed (s : VectorConfigurationUnit) : Prop where
  vl : s.vl = .fill .LOW
  vtype : s.vtype = .fill .LOW

/-! ## Two phases -/

/-- What the two registers follow while the clock is LOW. -/
def registerInputs (u : ConfigurationInputs) (o : Bus 8 × Bus 2) : Bus 8 × Bus 2 :=
  let request := VLMAXUnit.evaluate lib u.sew
  let writeEnable := LogicState.ofBool
    (u.configure == .HIGH && currentValid request.2 (decide u.avl.Binary) == .HIGH)
  (lib.mux (lib.mux o.1 (MinimumUnit.evaluate lib u.avl request.1) writeEnable) (.fill .LOW)
      u.reset,
    lib.mux (lib.mux o.2 u.sew writeEnable) (.fill .LOW) u.reset)

theorem vlReg_evaluate (s : VectorConfigurationUnit) (clock : Bool) (u : ConfigurationInputs) :
    (evaluate lib s clock u).vlReg =
      s.vlReg.evaluate clock (registerInputs lib u (s.vl, s.vtype)).1 := rfl

theorem vtypeReg_evaluate (s : VectorConfigurationUnit) (clock : Bool)
    (u : ConfigurationInputs) :
    (evaluate lib s clock u).vtypeReg =
      s.vtypeReg.evaluate clock (registerInputs lib u (s.vl, s.vtype)).2 := rfl

/-- The unit as a component that is clocked in two phases. -/
def clocked : Lib.TwoPhase VectorConfigurationUnit ConfigurationInputs (Bus 8 × Bus 2) where
  evaluate := evaluate lib
  output s := (s.vl, s.vtype)
  settled s := (s.vlReg.settled, s.vtypeReg.settled)
  next := registerInputs lib
  output_low _ _ := rfl
  settled_low _ _ := rfl
  output_high s u := by
    rw [vl, vtype, vlReg_evaluate, vtypeReg_evaluate, Logic.Register.output_evaluate_high,
      Logic.Register.output_evaluate_high]
  settled_high s u := by
    rw [vlReg_evaluate, vtypeReg_evaluate, Logic.Register.settled_evaluate_high,
      Logic.Register.settled_evaluate_high]

end VectorConfigurationUnit

/-! ## What a request does -/

/-- The maximal vector length of an element width; the last width is reserved. -/
def VLMAX (sew : Nat) : Nat :=
  match sew with
  | 0 => 16
  | 1 => 8
  | 2 => 4
  | _ => 0

namespace ConfigurationInputs

/-- A request that can be granted: it is made, it is binary and its width is not reserved. -/
def Granted (u : ConfigurationInputs) : Prop :=
  u.configure = .HIGH ∧ u.avl.Binary ∧ u.sew.Binary ∧ u.sew.value ≠ 3

instance Granted.instDecidable (u : ConfigurationInputs) : Decidable u.Granted :=
  inferInstanceAs (Decidable (_ ∧ _ ∧ _ ∧ _))

/-- The vector length and type after a cycle: zero after a reset, those of a granted request,
    the old ones otherwise. -/
def apply (u : ConfigurationInputs) (o : Bus 8 × Bus 2) : Bus 8 × Bus 2 :=
  if u.reset = .HIGH then (.ofNat 8 0, .ofNat 2 0)
  else if u.Granted then (.ofNat 8 (min u.avl.value (VLMAX u.sew.value)), u.sew)
  else o

end ConfigurationInputs

/-- A binary pair with a length that its type allows. -/
structure ValidConfiguration (o : Bus 8 × Bus 2) : Prop where
  vl : o.1.Binary
  vtype : o.2.Binary
  defined : o.2.value ≠ 3
  le : o.1.value ≤ VLMAX o.2.value

theorem VLMAX_lt (sew : Nat) : VLMAX sew < 2 ^ 8 := by
  unfold VLMAX
  split <;> omega

/-- A cycle keeps the pair valid. -/
theorem ValidConfiguration.apply {o : Bus 8 × Bus 2} (h : ValidConfiguration o)
    (u : ConfigurationInputs) : ValidConfiguration (u.apply o) := by
  unfold ConfigurationInputs.apply
  split
  · exact ⟨Bus.binary_ofNat 0, Bus.binary_ofNat 0, by decide, by decide⟩
  · split
    · next hgranted =>
        obtain ⟨-, -, hsew, hdefined⟩ := hgranted
        refine ⟨Bus.binary_ofNat _, hsew, hdefined, ?_⟩
        have hmax := VLMAX_lt u.sew.value
        rw [Bus.value_ofNat (by omega)]
        exact Nat.min_le_right _ _
    · exact h

/-! ## The units on requests -/

section Library

variable {lib : Components}

/-- A binary element width has its maximal vector length, unless it is reserved. -/
theorem vlmaxUnit_exact (hdecoder : lib.Decoder2to4Exact) (hnot : lib.NotExact) {sew : Bus 2}
    (hsew : sew.Binary) :
    VLMAXUnit.evaluate lib sew =
      (.ofNat 8 (VLMAX sew.value), .ofBool (decide (sew.value ≠ 3))) := by
  have hlt : sew.value < 4 := sew.value_lt
  have hdecoded : lib.decoder2to4 sew = fun line => .ofBool (line.val == sew.value) := by
    have hexact := hdecoder sew.value hlt
    rw [← Bus.eq_ofNat_value hsew] at hexact
    exact hexact
  unfold VLMAXUnit.evaluate
  rw [hdecoded]
  dsimp only
  rw [hnot.1]
  -- four widths are left
  generalize sew.value = w at hlt
  revert w
  decide

/-- An element width with a level that is no bit is of unknown validity. -/
theorem vlmaxUnit_unknown (hdecoder : lib.Decoder2to4Unknown) (hnot : lib.NotExact) {sew : Bus 2}
    (hsew : ¬ sew.Binary) : (VLMAXUnit.evaluate lib sew).2 = .UNKNOWN := by
  unfold VLMAXUnit.evaluate
  rw [hdecoder sew hsew]
  exact hnot.2

/-- The minimum of two numbers. -/
theorem minimumUnit_exact (hmux : lib.MuxPasses) (hcomparator : lib.ComparatorExact) {n x y : Nat}
    (hx : x < 2 ^ n) (hy : y < 2 ^ n) :
    MinimumUnit.evaluate lib (.ofNat n x) (.ofNat n y) = .ofNat n (min x y) := by
  unfold MinimumUnit.evaluate
  rw [hcomparator n x y hx hy]
  by_cases hgreater : y < x
  · rw [decide_eq_true hgreater, Nat.min_eq_right (by omega)]
    exact (hmux n _ _).2
  · rw [decide_eq_false hgreater, Nat.min_eq_left (by omega)]
    exact (hmux n _ _).1

/-- A request is written exactly if it can be granted. -/
theorem shouldWrite_eq (hdecoder : lib.Decoder2to4Exact) (hunknown : lib.Decoder2to4Unknown)
    (hnot : lib.NotExact) (u : ConfigurationInputs) :
    (u.configure == .HIGH &&
        VectorConfigurationUnit.currentValid (VLMAXUnit.evaluate lib u.sew).2
          (decide u.avl.Binary) == .HIGH) = decide u.Granted := by
  unfold ConfigurationInputs.Granted
  by_cases hsew : u.sew.Binary
  · rw [vlmaxUnit_exact hdecoder hnot hsew]
    -- the width is reserved or not, the requested length is known or not
    by_cases hdefined : u.sew.value = 3 <;> by_cases havl : u.avl.Binary <;>
      simp [VectorConfigurationUnit.currentValid, LogicState.ofBool, hsew, hdefined, havl,
        beq_eq_decide]
  · -- validity is unknown, and unknown is not HIGH
    rw [vlmaxUnit_unknown hunknown hnot hsew]
    simp [VectorConfigurationUnit.currentValid, hsew]

/-- What the registers follow is what the request does. -/
theorem registerInputs_eq (hmux : lib.MuxPasses) (hdecoder : lib.Decoder2to4Exact)
    (hunknown : lib.Decoder2to4Unknown) (hcomparator : lib.ComparatorExact) (hnot : lib.NotExact)
    {u : ConfigurationInputs} (hreset : u.reset.isBinary = true) (o : Bus 8 × Bus 2) :
    VectorConfigurationUnit.registerInputs lib u o = u.apply o := by
  unfold VectorConfigurationUnit.registerInputs ConfigurationInputs.apply
  dsimp only
  rw [shouldWrite_eq hdecoder hunknown hnot]
  cases hr : u.reset with
  | UNKNOWN | HIGH_IMPEDANCE =>
      rw [hr] at hreset
      cases hreset
  | HIGH =>
      rw [(hmux 8 _ _).2, (hmux 2 _ _).2, if_pos rfl, Bus.fill_low, Bus.fill_low]
  | LOW =>
      rw [(hmux 8 _ _).1, (hmux 2 _ _).1, if_neg (by decide)]
      -- both load muxes have the same select: the pair moves together or stays
      by_cases hgranted : u.Granted
      · obtain ⟨-, havl, hsew, -⟩ := id hgranted
        have hmin := minimumUnit_exact hmux hcomparator u.avl.value_lt (VLMAX_lt u.sew.value)
        rw [← Bus.eq_ofNat_value havl] at hmin
        rw [decide_eq_true hgranted, if_pos hgranted, vlmaxUnit_exact hdecoder hnot hsew, hmin]
        exact Prod.ext (hmux 8 _ _).2 (hmux 2 _ _).2
      · rw [decide_eq_false hgranted, if_neg hgranted]
        exact Prod.ext (hmux 8 _ _).1 (hmux 2 _ _).1

end Library

/-! ## Runs -/

/-- A sequence of evaluations that a sequence of clock cycles can begin with: the clock is LOW
    first. -/
def StartsLow (steps : List (Bool × ConfigurationInputs)) : Prop :=
  ∀ step ∈ steps.head?, step.1 = false

open VectorConfigurationUnit in
/-- From construction, over every sequence of evaluations with four-valued requests and a binary
    reset, vector length and type are binary and the length is one the type allows; and a cycle
    changes the pair by a reset or a granted request only, both parts together. -/
theorem configuration_invariant {lib : Components} (hmux : lib.MuxPasses)
    (hdecoder : lib.Decoder2to4Exact) (hunknown : lib.Decoder2to4Unknown)
    (hcomparator : lib.ComparatorExact) (hnot : lib.NotExact) {s : VectorConfigurationUnit}
    (hs : s.Constructed) {steps : List (Bool × ConfigurationInputs)} (hlow : StartsLow steps)
    (hreset : ∀ step ∈ steps, step.2.reset.isBinary = true) :
    ValidConfiguration ((clocked lib).output ((clocked lib).run s steps)) ∧
      ∀ c : Lib.TwoPhase.Cycle ConfigurationInputs, c.low.reset.isBinary = true →
        (clocked lib).output ((clocked lib).cycle ((clocked lib).run s steps) c) =
          c.low.apply ((clocked lib).output ((clocked lib).run s steps)) := by
  constructor
  · have hinitial : ValidConfiguration ((clocked lib).output s) := by
      show ValidConfiguration (s.vl, s.vtype)
      rw [hs.vl, hs.vtype, Bus.fill_low, Bus.fill_low]
      exact ⟨Bus.binary_ofNat 0, Bus.binary_ofNat 0, by decide, by decide⟩
    have hnext : ∀ step ∈ steps, ∀ o, ValidConfiguration o →
        ValidConfiguration ((clocked lib).next step.2 o) := by
      intro step hmem o ho
      show ValidConfiguration (registerInputs lib step.2 o)
      rw [registerInputs_eq hmux hdecoder hunknown hcomparator hnot (hreset step hmem)]
      exact ho.apply step.2
    -- the latches hold anything until a LOW evaluation
    cases steps with
    | nil => exact hinitial
    | cons step steps =>
        obtain ⟨clock, u⟩ := step
        have hclock : clock = false := hlow (clock, u) rfl
        subst hclock
        exact ((clocked lib).holds_run_low hinitial hnext).1
  · intro c hc
    rw [Lib.TwoPhase.output_cycle]
    exact registerInputs_eq hmux hdecoder hunknown hcomparator hnot hc _

/-- A unit as it is constructed. -/
def constructed : VectorConfigurationUnit where
  vlmax := .fill .UNKNOWN
  vlmaxValid := .LOW
  valid := .LOW
  writeEnable := .LOW
  vlNext := .fill .UNKNOWN
  vlLoadOut := .fill .LOW
  vlRegIn := .fill .LOW
  vtypeLoadOut := .fill .LOW
  vtypeRegIn := .fill .LOW
  vlReg := ⟨.fill .UNKNOWN, .fill .LOW, false⟩
  vtypeReg := ⟨.fill .UNKNOWN, .fill .LOW, false⟩

/-- A request. -/
def request (avl : Bus 8) (sew : Bus 2) : ConfigurationInputs where
  avl := avl
  sew := sew
  configure := .HIGH
  reset := .LOW

/-- The unit with the components of the library. -/
def standardUnit : Lib.TwoPhase VectorConfigurationUnit ConfigurationInputs (Bus 8 × Bus 2) :=
  VectorConfigurationUnit.clocked (.standard ALUInterface.aluResult)

/-- A cycle with an unknown width. -/
def unknownWidth : List (Bool × ConfigurationInputs) :=
  [(false, request (.ofNat 8 20) (.fill .UNKNOWN)), (true, request (.ofNat 8 20) (.fill .UNKNOWN))]

/-- After such a cycle five elements of the widest type are asked for: four are granted. -/
theorem configuration_invariant_recovers :
    ValidConfiguration
        (standardUnit.output (standardUnit.run constructed unknownWidth)) ∧
      standardUnit.output (standardUnit.cycle (standardUnit.run constructed unknownWidth)
        ⟨[], request (.ofNat 8 5) (.ofNat 2 2), request (.ofNat 8 5) (.ofNat 2 2), []⟩) =
          (.ofNat 8 4, .ofNat 2 2) := by
  have hreset : ∀ step ∈ unknownWidth, step.2.reset.isBinary = true := by
    intro step hmem
    rcases List.mem_cons.mp hmem with rfl | hmem
    · rfl
    · rw [List.mem_singleton.mp hmem]
      rfl
  have hlow : StartsLow unknownWidth := by
    intro step hstep
    cases hstep
    rfl
  obtain ⟨hvalid, hcycle⟩ := configuration_invariant
    (Components.standard_muxPasses ALUInterface.aluResult)
    (Components.standard_decoder2to4Exact _) (Components.standard_decoder2to4Unknown _)
    (Components.standard_comparatorExact _) (Components.standard_notExact _)
    (⟨rfl, rfl⟩ : constructed.Constructed) hlow hreset
  refine ⟨hvalid, ?_⟩
  refine (hcycle _ rfl).trans ?_
  rw [ConfigurationInputs.apply, if_neg (by decide), if_pos (by decide)]
  decide

end CpuSim.Vector
