/-
  CpuSim.Logic.FourValued

  The wires and buses of the external logic library with their four levels, and its
  combinational components as parameters.
-/

import CpuSim.Isa.Instruction
import CpuSim.Logic.Register
import Mathlib.Data.Nat.Bitwise

namespace CpuSim.Logic

/-- `logic::LogicState`. -/
inductive LogicState where
  | LOW | HIGH | UNKNOWN | HIGH_IMPEDANCE
  deriving DecidableEq, Repr

namespace LogicState

/-- `logic::is_binary`. -/
def isBinary : LogicState → Bool
  | .LOW | .HIGH => true
  | .UNKNOWN | .HIGH_IMPEDANCE => false

/-- The level of a bit. -/
def ofBool (b : Bool) : LogicState := if b then .HIGH else .LOW

@[simp] theorem isBinary_ofBool (b : Bool) : (ofBool b).isBinary = true := by
  cases b <;> rfl

theorem ofBool_injective {a b : Bool} (h : ofBool a = ofBool b) : a = b := by
  revert h
  cases a <;> cases b <;> decide

theorem eq_ofBool_of_isBinary {l : LogicState} (h : l.isBinary = true) :
    l = ofBool (l == .HIGH) := by
  revert h
  cases l <;> decide

end LogicState

/-- `logic::Bus<n>`. -/
abbrev Bus (n : Nat) := Fin n → LogicState

namespace Bus

variable {n : Nat}

/-- All wires at one level: `write(level)`. -/
def fill (level : LogicState) : Bus n := fun _ => level

/-- `write_value(value)`. -/
def ofNat (n value : Nat) : Bus n := fun i => .ofBool (value.testBit i.val)

/-- The bits of a word. -/
def ofWord (w : BitVec n) : Bus n := ofNat n w.toNat

/-- Every wire carries a bit. -/
def Binary (b : Bus n) : Prop := ∀ i, (b i).isBinary = true

instance Binary.instDecidable (b : Bus n) : Decidable b.Binary :=
  inferInstanceAs (Decidable (∀ i, (b i).isBinary = true))

theorem binary_ofNat (value : Nat) : (ofNat n value).Binary := by
  intro i
  exact LogicState.isBinary_ofBool _

theorem binary_ofWord (w : BitVec n) : (ofWord w).Binary := binary_ofNat w.toNat

theorem fill_low : (fill .LOW : Bus n) = ofNat n 0 := by
  funext i
  rw [ofNat, Nat.zero_testBit]
  rfl

/-- A bus holds one value below `2 ^ n`. -/
theorem ofNat_inj {x y : Nat} (hx : x < 2 ^ n) (hy : y < 2 ^ n) (h : ofNat n x = ofNat n y) :
    x = y := by
  apply Nat.eq_of_testBit_eq
  intro i
  by_cases hi : i < n
  · exact LogicState.ofBool_injective (congrFun h ⟨i, hi⟩)
  · have hle : 2 ^ n ≤ 2 ^ i := Nat.pow_le_pow_right (by omega) (by omega)
    rw [Nat.testBit_lt_two_pow (by omega), Nat.testBit_lt_two_pow (by omega)]

/-- The number on a binary bus: `read_value()`. -/
def value (b : Bus n) : Nat := Nat.ofBits fun i => b i == .HIGH

theorem value_lt (b : Bus n) : b.value < 2 ^ n := Nat.ofBits_lt_two_pow _

/-- A binary bus carries its number. -/
theorem eq_ofNat_value {b : Bus n} (h : b.Binary) : b = ofNat n b.value := by
  funext i
  rw [ofNat, value, Nat.testBit_ofBits_lt _ _ i.isLt]
  exact LogicState.eq_ofBool_of_isBinary (h i)

theorem value_ofNat {x : Nat} (hx : x < 2 ^ n) : (ofNat n x).value = x := by
  apply ofNat_inj (n := n) (value_lt _) hx
  exact (eq_ofNat_value (binary_ofNat x)).symm

/-- A word is read back. -/
theorem value_ofWord (w : BitVec n) : BitVec.ofNat n (ofWord w).value = w := by
  rw [ofWord, value_ofNat w.isLt, BitVec.ofNat_toNat, BitVec.setWidth_eq]

end Bus

/-! ## Combinational components -/

/-- The flags of `logic::Comparator`. -/
structure Comparison where
  equal : LogicState
  greater : LogicState
  less : LogicState
  deriving DecidableEq, Repr

/-- What the combinational components of the library drive for their inputs. -/
structure Components where
  notGate : LogicState → LogicState
  mux {n : Nat} : Bus n → Bus n → LogicState → Bus n
  muxTree {inputs width address : Nat} : (Fin inputs → Bus width) → Bus address → Bus width
  decoder {address lines : Nat} : Bus address → LogicState → Bus lines
  decoder2to4 : Bus 2 → Bus 4
  comparator {n : Nat} : Bus n → Bus n → Comparison
  alu : Bus 32 → Bus 32 → Bus 3 → Bus 32

namespace Components

variable (c : Components)

/-- A mux of binary inputs drives the selected one. -/
def MuxExact : Prop :=
  ∀ (n : Nat) (a b : Bus n), a.Binary → b.Binary → c.mux a b .LOW = a ∧ c.mux a b .HIGH = b

/-- A mux with a binary select passes the selected input unchanged. -/
def MuxPasses : Prop := ∀ (n : Nat) (a b : Bus n), c.mux a b .LOW = a ∧ c.mux a b .HIGH = b

/-- A mux tree of binary inputs drives the one that is addressed. -/
def MuxTreeExact : Prop :=
  ∀ (inputs width address : Nat) (data : Fin inputs → Bus width), (∀ i, (data i).Binary) →
    ∀ i : Fin inputs, i.val < 2 ^ address → c.muxTree data (.ofNat address i.val) = data i

/-- A decoder raises the line that is addressed while it is enabled, and no other. -/
def DecoderExact : Prop :=
  ∀ (address lines v : Nat) (enable : Bool), v < 2 ^ address →
    c.decoder (.ofNat address v) (.ofBool enable) =
      fun line : Fin lines => .ofBool (enable && line.val == v)

/-- The decoder without an enable. -/
def Decoder2to4Exact : Prop :=
  ∀ v < 4, c.decoder2to4 (.ofNat 2 v) = fun line => .ofBool (line.val == v)

/-- A decoder does not guess: an input that is not binary makes all its lines unknown. -/
def Decoder2to4Unknown : Prop :=
  ∀ input : Bus 2, ¬ input.Binary → c.decoder2to4 input = .fill .UNKNOWN

/-- A comparator of binary inputs compares their numbers. -/
def ComparatorExact : Prop :=
  ∀ (n x y : Nat), x < 2 ^ n → y < 2 ^ n →
    c.comparator (.ofNat n x) (.ofNat n y) =
      ⟨.ofBool (x == y), .ofBool (decide (y < x)), .ofBool (decide (x < y))⟩

/-- An inverter of a bit, and of nothing known. -/
def NotExact : Prop :=
  (∀ b : Bool, c.notGate (.ofBool b) = .ofBool (!b)) ∧ c.notGate .UNKNOWN = .UNKNOWN

/-- An ALU of binary inputs drives the result of its operation. -/
def ALUExact (op : BitVec 3 → Word → Word → Word) : Prop :=
  ∀ (opcode : BitVec 3) (a b : Word),
    c.alu (.ofWord a) (.ofWord b) (.ofWord opcode) = .ofWord (op opcode a b)

/-- The components a datapath is built from are exact on binary inputs. -/
structure Exact (op : BitVec 3 → Word → Word → Word) : Prop where
  mux : c.MuxExact
  muxTree : c.MuxTreeExact
  decoder : c.DecoderExact
  comparator : c.ComparatorExact
  alu : c.ALUExact op

/-! ## The components of the library -/

/-- Components that are exact on binary inputs and drive nothing known on others. -/
def standard (op : BitVec 3 → Word → Word → Word) : Components where
  notGate level := if level.isBinary then .ofBool (level == .LOW) else .UNKNOWN
  mux a b select :=
    match select with
    | .LOW => a
    | .HIGH => b
    | _ => .fill .UNKNOWN
  muxTree data address :=
    if h : address.value < _ then if address.Binary then data ⟨address.value, h⟩
      else .fill .UNKNOWN
    else .fill .UNKNOWN
  decoder address enable :=
    if address.Binary ∧ enable.isBinary then
      fun line => .ofBool (enable == .HIGH && line.val == address.value)
    else .fill .UNKNOWN
  decoder2to4 input :=
    if input.Binary then fun line => .ofBool (line.val == input.value) else .fill .UNKNOWN
  comparator a b :=
    if a.Binary ∧ b.Binary then
      ⟨.ofBool (a.value == b.value), .ofBool (decide (b.value < a.value)),
        .ofBool (decide (a.value < b.value))⟩
    else ⟨.UNKNOWN, .UNKNOWN, .UNKNOWN⟩
  alu a b opcode :=
    if a.Binary ∧ b.Binary ∧ opcode.Binary then
      .ofWord (op (BitVec.ofNat 3 opcode.value) (BitVec.ofNat 32 a.value) (BitVec.ofNat 32 b.value))
    else .fill .UNKNOWN

section Standard

variable (op : BitVec 3 → Word → Word → Word)

theorem standard_muxPasses : (standard op).MuxPasses := by
  intro n a b
  exact ⟨rfl, rfl⟩

theorem MuxPasses.exact {c : Components} (h : c.MuxPasses) : c.MuxExact := by
  intro n a b _ _
  exact h n a b

theorem standard_muxTreeExact : (standard op).MuxTreeExact := by
  intro inputs width address data _ i hi
  have hvalue : (Bus.ofNat address i.val).value = i.val := Bus.value_ofNat hi
  show (if h : (Bus.ofNat address i.val).value < inputs then _ else _) = _
  rw [dif_pos (by rw [hvalue]; exact i.isLt), if_pos (Bus.binary_ofNat _)]
  congr 1
  apply Fin.ext
  exact hvalue

theorem standard_decoderExact : (standard op).DecoderExact := by
  intro address lines v enable hv
  funext line
  show (if (Bus.ofNat address v).Binary ∧ _ then _ else _ : Bus lines) line = _
  rw [if_pos ⟨Bus.binary_ofNat v, LogicState.isBinary_ofBool enable⟩, Bus.value_ofNat hv]
  cases enable <;> rfl

theorem standard_decoder2to4Exact : (standard op).Decoder2to4Exact := by
  intro v hv
  funext line
  show (if (Bus.ofNat 2 v).Binary then _ else _ : Bus 4) line = _
  rw [if_pos (Bus.binary_ofNat v), Bus.value_ofNat hv]

theorem standard_decoder2to4Unknown : (standard op).Decoder2to4Unknown := by
  intro input h
  show (if input.Binary then _ else _ : Bus 4) = _
  rw [if_neg h]

theorem standard_comparatorExact : (standard op).ComparatorExact := by
  intro n x y hx hy
  show (if (Bus.ofNat n x).Binary ∧ (Bus.ofNat n y).Binary then _ else _) = _
  rw [if_pos ⟨Bus.binary_ofNat x, Bus.binary_ofNat y⟩, Bus.value_ofNat hx, Bus.value_ofNat hy]

theorem standard_notExact : (standard op).NotExact := by
  constructor
  · intro b
    cases b <;> rfl
  · rfl

theorem standard_aluExact : (standard op).ALUExact op := by
  intro opcode a b
  show (if (Bus.ofWord a).Binary ∧ (Bus.ofWord b).Binary ∧ (Bus.ofWord opcode).Binary then _
    else _) = _
  rw [if_pos ⟨Bus.binary_ofWord a, Bus.binary_ofWord b, Bus.binary_ofWord opcode⟩]
  rw [Bus.value_ofWord, Bus.value_ofWord, Bus.value_ofWord]

theorem standard_exact : (standard op).Exact op where
  mux := (standard_muxPasses op).exact
  muxTree := standard_muxTreeExact op
  decoder := standard_decoderExact op
  comparator := standard_comparatorExact op
  alu := standard_aluExact op

end Standard

end Components

end CpuSim.Logic
