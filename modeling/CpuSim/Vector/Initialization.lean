/-
  CpuSim.Vector.Initialization

  `initialize_register` drives a clock of its own through `evaluate()`.  A datapath built with a
  `logic::Clock` overwrites that clock with the level of the object, and sees no edge.
-/

import CpuSim.Components.Alu
import CpuSim.Vector.Datapath

namespace CpuSim.Vector

open Logic

namespace VectorDatapath

variable (lib : Components)

/-- `clock_wire_ref_.write(level)`. -/
def writeClock (d : VectorDatapath) (level : Bool) : VectorDatapath := { d with clockWire := level }

/-- The external write of a register, set up. -/
def setExternal (d : VectorDatapath) (regIndex : Fin 32) (lanes : Fin 4 → Word) : VectorDatapath :=
  { d with
    useExternalWrite := true
    signals :=
      { d.signals with
        writeAddr := .ofNat 5 regIndex.val
        writeData := ofLanes lanes
        enable := .HIGH } }

/-- The end of the write: no register is enabled and the mode is the previous one. -/
def endExternal (d : VectorDatapath) (prevMode : Bool) : VectorDatapath :=
  { d with signals := { d.signals with enable := .LOW }, useExternalWrite := prevMode }

/-- `initialize_register(reg_index, lanes)`. -/
def initializeRegister (d : VectorDatapath) (regIndex : Fin 32) (lanes : Fin 4 → Word) :
    VectorDatapath :=
  let prevMode := d.useExternalWrite
  let d := d.setExternal regIndex lanes
  let d := evaluate lib (d.writeClock false)
  let d := evaluate lib (d.writeClock true)
  let d := evaluate lib (d.writeClock false)
  evaluate lib (d.endExternal prevMode)

/-- The register holds the lanes, the others are as they were, and so is the writeback mode. -/
structure Initializes (d : VectorDatapath) (regIndex : Fin 32) (lanes : Fin 4 → Word) :
    Prop where
  contents : (initializeRegister lib d regIndex lanes).contents =
    Function.update d.contents regIndex (ofLanes lanes)
  mode : (initializeRegister lib d regIndex lanes).useExternalWrite = d.useExternalWrite

variable {lib}

/-- An external write loads the addressed register. -/
theorem registerInputs_external (hmux : lib.MuxPasses) (hdecoder : lib.DecoderExact) {s : Signals}
    {regIndex : Fin 32} (haddr : s.writeAddr = .ofNat 5 regIndex.val) (henable : s.enable = .HIGH)
    (hreset : s.reset = .LOW) (v : Fin 32 → Bus 128) :
    registerInputs lib s true v = Function.update v regIndex s.writeData := by
  funext i
  have henables := congrFun (hdecoder 5 32 regIndex.val true regIndex.isLt) i
  have hhigh : s.enable = .ofBool true := henable
  rw [registerInputs]
  simp only [if_true]
  rw [haddr, hhigh, henables, hreset, (hmux 128 _ _).1]
  -- the decoder enables the addressed register and no other
  by_cases hi : i = regIndex
  · rw [hi, Function.update_self, show (true && regIndex.val == regIndex.val) = true by simp]
    exact (hmux 128 _ _).2
  · have hne : i.val ≠ regIndex.val := fun heq => hi (Fin.ext heq)
    rw [Function.update_of_ne hi, show (true && i.val == regIndex.val) = false by simp [hne]]
    exact (hmux 128 _ _).1

/-- What the registers drive once an evaluation has seen the clock at a level. -/
def driven (d : VectorDatapath) (level : Bool) : Fin 32 → Bus 128 :=
  if level then d.settled else d.contents

theorem contents_evaluate (d : VectorDatapath) :
    (evaluate lib d).contents = d.driven d.level := by
  cases hlevel : d.level with
  | false => exact contents_of_low lib hlevel
  | true => exact contents_of_high lib hlevel

/-- Evaluating again at the same level changes nothing. -/
theorem driven_evaluate {d : VectorDatapath} {level : Bool} (hlevel : d.level = level) :
    (evaluate lib d).driven level = d.driven level := by
  cases level with
  | false => exact contents_of_low lib hlevel
  | true => exact settled_of_high lib hlevel

section Sources

variable {d : VectorDatapath}

theorem level_writeClock_wire (hsource : d.source = .wire) (l : Bool) :
    (d.writeClock l).level = l := by
  rw [level, show (d.writeClock l).source = .wire from hsource]
  rfl

/-- A `logic::Clock` decides, whatever was written to the wire. -/
theorem level_clock (hsource : d.source = .clock) : d.level = d.clockObject := by
  rw [level, hsource]

/-- With a `logic::Wire` the private clock makes one edge. -/
theorem contents_initializeRegister_wire (hmux : lib.MuxPasses) (hdecoder : lib.DecoderExact)
    (hsource : d.source = .wire) (hreset : d.signals.reset = .LOW) (regIndex : Fin 32)
    (lanes : Fin 4 → Word) :
    (initializeRegister lib d regIndex lanes).contents =
      Function.update d.contents regIndex (ofLanes lanes) := by
  let w := d.setExternal regIndex lanes
  let d1 := evaluate lib (w.writeClock false)
  let d2 := evaluate lib (d1.writeClock true)
  let d3 := evaluate lib (d2.writeClock false)
  let d4 := d3.endExternal d.useExternalWrite
  -- the LOW evaluation follows the new contents, the HIGH one drives them
  have h1 : d1.settled = registerInputs lib w.signals true d.contents :=
    settled_of_low lib (level_writeClock_wire hsource false)
  have h2 : d2.contents = d1.settled := contents_of_high lib (level_writeClock_wire hsource true)
  have h3 : d3.contents = d2.contents := contents_of_low lib (level_writeClock_wire hsource false)
  have hlow : d4.level = false := by
    rw [level, show d4.source = .wire from hsource]
    exact level_writeClock_wire hsource false
  have h4 : (evaluate lib d4).contents = d3.contents := contents_of_low lib hlow
  show (evaluate lib d4).contents = _
  rw [h4, h3, h2, h1]
  exact registerInputs_external hmux hdecoder (s := w.signals) rfl rfl hreset d.contents

/-- With a `logic::Clock` it makes none: the registers drive what they would have driven at the
    level of the clock. -/
theorem contents_initializeRegister_clock (hsource : d.source = .clock) (regIndex : Fin 32)
    (lanes : Fin 4 → Word) :
    (initializeRegister lib d regIndex lanes).contents = d.driven d.clockObject := by
  let w := d.setExternal regIndex lanes
  let d1 := evaluate lib (w.writeClock false)
  let d2 := evaluate lib (d1.writeClock true)
  let d3 := evaluate lib (d2.writeClock false)
  let d4 := d3.endExternal d.useExternalWrite
  -- all four evaluations see the level of the object
  have h1 : d1.driven d.clockObject = d.driven d.clockObject :=
    driven_evaluate (d := w.writeClock false) (level_clock hsource)
  have h2 : d2.driven d.clockObject = d1.driven d.clockObject :=
    driven_evaluate (d := d1.writeClock true) (level_clock hsource)
  have h3 : d3.driven d.clockObject = d2.driven d.clockObject :=
    driven_evaluate (d := d2.writeClock false) (level_clock hsource)
  have hlevel : d4.level = d.clockObject := level_clock (d := d4) hsource
  show (evaluate lib d4).contents = _
  rw [contents_evaluate, hlevel, ← h1, ← h2, ← h3]
  rfl

end Sources

/-- The writeback mode is put back. -/
theorem useExternalWrite_initializeRegister (d : VectorDatapath) (regIndex : Fin 32)
    (lanes : Fin 4 → Word) :
    (initializeRegister lib d regIndex lanes).useExternalWrite = d.useExternalWrite := rfl

/-- A register of the datapath. -/
abbrev register (d : VectorDatapath) (i : Fin 32) : VectorRegister 128 := d.registerFile.registers i

/-- What the registers drive is the new contents, register by register: with the clock LOW the
    addressed register holds the lanes already; with the clock HIGH it does so once the edges
    that are coming are over, and these change no other register. -/
theorem driven_eq_update_iff (d : VectorDatapath) (regIndex : Fin 32) (lanes : Fin 4 → Word) :
    d.driven d.clockObject = Function.update d.contents regIndex (ofLanes lanes) ↔
      d.clockObject = false ∧ (d.register regIndex).output = ofLanes lanes ∨
        d.clockObject = true ∧
          (if (d.register regIndex).clockHigh then (d.register regIndex).output
            else (d.register regIndex).captured) = ofLanes lanes ∧
          ∀ i ≠ regIndex, (d.register i).clockHigh = false →
            (d.register i).captured = (d.register i).output := by
  rw [Function.eq_update_iff, driven]
  cases d.clockObject with
  | false =>
      rw [if_neg Bool.false_ne_true]
      simp only [implies_true, and_true, true_and, Bool.false_eq_true, false_and, or_false]
      rfl
  | true =>
      -- a register that has seen the clock HIGH has no edge coming
      have hother : ∀ i, d.settled i = d.contents i ↔
          ((d.register i).clockHigh = false → (d.register i).captured = (d.register i).output) := by
        intro i
        show (d.register i).settled = (d.register i).output ↔ _
        rw [Logic.Register.settled]
        cases (d.register i).clockHigh <;> simp
      simp only [if_true, hother, Bool.true_eq_false, false_and, false_or, true_and]
      rfl

/-- A register is initialised through either constructor's clock exactly if the clock is a
    `logic::Wire`, or if the registers come to hold the new contents without the write. -/
theorem initialize_register_iff (hmux : lib.MuxPasses) (hdecoder : lib.DecoderExact)
    {d : VectorDatapath} (hreset : d.signals.reset = .LOW) (regIndex : Fin 32)
    (lanes : Fin 4 → Word) :
    Initializes lib d regIndex lanes ↔
      d.source = .wire ∨
        -- the clock object is LOW: the register holds the lanes
        d.clockObject = false ∧ (d.register regIndex).output = ofLanes lanes ∨
        -- it is HIGH: the register holds or is about to drive them, and no other register is
        -- about to change
        d.clockObject = true ∧
          (if (d.register regIndex).clockHigh then (d.register regIndex).output
            else (d.register regIndex).captured) = ofLanes lanes ∧
          ∀ i ≠ regIndex, (d.register i).clockHigh = false →
            (d.register i).captured = (d.register i).output := by
  rw [← driven_eq_update_iff d regIndex lanes]
  constructor
  · intro h
    cases hsource : d.source with
    | wire => exact Or.inl rfl
    | clock =>
        right
        rw [← @contents_initializeRegister_clock lib d hsource regIndex lanes]
        exact h.contents
  · rintro (hsource | hdriven)
    · exact ⟨contents_initializeRegister_wire hmux hdecoder hsource hreset regIndex lanes,
        useExternalWrite_initializeRegister d regIndex lanes⟩
    · refine ⟨?_, useExternalWrite_initializeRegister d regIndex lanes⟩
      cases hsource : d.source with
      | wire => exact contents_initializeRegister_wire hmux hdecoder hsource hreset regIndex lanes
      | clock => rw [contents_initializeRegister_clock hsource, hdriven]

/-- A datapath with zeros in its registers and a LOW clock of either kind. -/
def cleared (source : ClockSource) : VectorDatapath :=
  .holding source
    { rs1 := .ofNat 5 0, rs2 := .ofNat 5 0, rd := .ofNat 5 0, writeData := .fill .UNKNOWN
      writeAddr := .fill .UNKNOWN, opcode := .ofWord 0, vl := .ofWord 0, enable := .LOW
      reset := .LOW }
    fun _ => .fill .LOW

/-- With a `logic::Wire` register 1 takes its lanes. -/
theorem initialize_register_wire :
    Initializes (.standard ALUInterface.aluResult) (cleared .wire) 1 fun _ => 7 :=
  (initialize_register_iff (Components.standard_muxPasses _) (Components.standard_decoderExact _)
    rfl 1 fun _ => 7).mpr (Or.inl rfl)

/-- With a `logic::Clock` it stays zero. -/
theorem clock_object_blocks_initialization :
    ¬ Initializes (.standard ALUInterface.aluResult) (cleared .clock) 1 fun _ => 7 := by
  intro h
  have hcontents := h.contents
  rw [contents_initializeRegister_clock rfl] at hcontents
  have hbit := congrFun (congrFun hcontents 1) 0
  rw [Function.update_self] at hbit
  exact absurd hbit (by decide)

end VectorDatapath

end CpuSim.Vector
