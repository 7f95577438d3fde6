/-
  CpuSim.SuperScalar.InstructionCache

  `InstructionCacheLine`, the direct-mapped instruction cache, and
  `InstructionCacheController`, the state machine that refills its lines word by word from
  a memory that answers when it likes.  A bus is the bit vector it carries.
-/

import CpuSim.Isa.Instruction
import CpuSim.Lib.LineAddress
import CpuSim.Logic.Register
import Mathlib.Logic.Function.Basic

namespace CpuSim.SuperScalar

open CpuSim.Lib

/-! ## The cache -/

/-- The template parameters, with `InstructionWidth = 32`, and what the `static_assert`s ask
    of them; an address has to fit into a `std::size_t`. -/
structure CacheGeometry where
  CPUAddressWidth : Nat
  NumLines : Nat
  InstructionsPerLine : Nat
  numLines_pow : NumLines.isPowerOfTwo
  instructionsPerLine_pow : InstructionsPerLine.isPowerOfTwo
  address_fits : CPUAddressWidth ≤ 64
  line_fits : Nat.log2 (4 * InstructionsPerLine) + Nat.log2 NumLines ≤ CPUAddressWidth

namespace CacheGeometry

/-- `InstructionBytes`. -/
def InstructionBytes (_ : CacheGeometry) : Nat := 4

/-- `LineBytes`. -/
def LineBytes (g : CacheGeometry) : Nat := g.InstructionBytes * g.InstructionsPerLine

/-- `OffsetBits`. -/
def OffsetBits (g : CacheGeometry) : Nat := Nat.log2 g.LineBytes

/-- `IndexBits`. -/
def IndexBits (g : CacheGeometry) : Nat := Nat.log2 g.NumLines

/-- `get_line_index(address)`. -/
def getLineIndex (g : CacheGeometry) (address : Nat) : Nat :=
  (address >>> g.OffsetBits) &&& (g.NumLines - 1)

/-- `get_tag(address)`. -/
def getTag (g : CacheGeometry) (address : Nat) : Nat := address >>> (g.OffsetBits + g.IndexBits)

/-- `get_instruction_offset(address)`. -/
def getInstructionOffset (g : CacheGeometry) (address : Nat) : Nat :=
  (address &&& (g.LineBytes - 1)) / g.InstructionBytes

end CacheGeometry

/-- `InstructionCacheLine::CacheLine`. -/
structure CacheLine where
  valid : Bool := false
  tag : Nat := 0
  instructions : Nat → Word := fun _ => 0

/-- `InstructionCacheLine`. -/
structure InstructionCacheLine (g : CacheGeometry) where
  lines : Nat → CacheLine := fun _ => {}

namespace InstructionCacheLine

variable {g : CacheGeometry}

/-- A port of the cache: `hit` and `instruction`. -/
structure Port where
  hit : Bool
  instruction : Word
  deriving DecidableEq, Repr

/-- `evaluate_port(address, instruction, hit)`. -/
def evaluatePort (c : InstructionCacheLine g) (address : BitVec g.CPUAddressWidth) : Port :=
  let lineIndex := g.getLineIndex address.toNat
  let tag := g.getTag address.toNat
  let instructionOffset := g.getInstructionOffset address.toNat
  let line := c.lines lineIndex
  let cacheHit := line.valid && line.tag == tag
  { hit := cacheHit, instruction := if cacheHit then line.instructions instructionOffset else 0 }

/-- `evaluate()`: both ports. -/
def evaluate (c : InstructionCacheLine g) (enable : Bool)
    (address0 address1 : BitVec g.CPUAddressWidth) : Port × Port :=
  if enable then (c.evaluatePort address0, c.evaluatePort address1)
  else (⟨false, 0⟩, ⟨false, 0⟩)

/-- `refill(line_index, tag, instructions)`. -/
def refill (c : InstructionCacheLine g) (lineIndex tag : Nat) (instructions : Nat → Word) :
    InstructionCacheLine g :=
  if g.NumLines ≤ lineIndex then c
  else
    { lines := fun i =>
        if i = lineIndex then { valid := true, tag := tag, instructions := instructions }
        else c.lines i }

/-- `invalidate()`. -/
def invalidate (c : InstructionCacheLine g) : InstructionCacheLine g where
  lines := fun i => { c.lines i with valid := false }

end InstructionCacheLine

/-! ## The controller -/

/-- `InstructionCacheController::State`. -/
inductive RefillState where
  | IDLE | REFILL_REQUEST | REFILL_WAIT | INSTALL | COMPLETE
  deriving DecidableEq, Repr

/-- `InstructionCacheController`, with the cache it controls. -/
structure InstructionCacheController (g : CacheGeometry) where
  memoryRequest : Bool := false
  memoryAddress : BitVec g.CPUAddressWidth := 0
  refillDone : Bool := false
  stateRegister : Logic.Register RefillState := ⟨.IDLE, .IDLE, false⟩
  nextState : RefillState := .IDLE
  missAddressRegister : Logic.Register (BitVec g.CPUAddressWidth) := ⟨0, 0, false⟩
  nextMissAddress : BitVec g.CPUAddressWidth := 0
  lineBaseRegister : Logic.Register (BitVec g.CPUAddressWidth) := ⟨0, 0, false⟩
  nextLineBase : BitVec g.CPUAddressWidth := 0
  refillWordRegister : Logic.Register (BitVec 8) := ⟨0, 0, false⟩
  nextRefillWord : BitVec 8 := 0
  refillBuffer : Nat → Word := fun _ => 0
  cache : InstructionCacheLine g := {}

/-- The input wires and buses of an evaluation. -/
structure ControllerInputs (g : CacheGeometry) where
  clock : Bool
  reset : Bool
  miss : Bool
  missAddress : BitVec g.CPUAddressWidth
  memoryResponse : Bool
  memoryInstruction : Word
  deriving DecidableEq, Repr

namespace InstructionCacheController

variable {g : CacheGeometry}

/-- The four registers evaluated on their `next_` buses. -/
def evaluateRegisters (c : InstructionCacheController g) (clock : Bool) :
    InstructionCacheController g :=
  { c with
    stateRegister := c.stateRegister.evaluate clock c.nextState
    missAddressRegister := c.missAddressRegister.evaluate clock c.nextMissAddress
    lineBaseRegister := c.lineBaseRegister.evaluate clock c.nextLineBase
    refillWordRegister := c.refillWordRegister.evaluate clock c.nextRefillWord }

/-- The default outputs and next values. -/
def defaults (c : InstructionCacheController g) : InstructionCacheController g :=
  { c with
    memoryRequest := false
    refillDone := false
    nextState := c.stateRegister.output
    nextMissAddress := c.missAddressRegister.output
    nextLineBase := c.lineBaseRegister.output
    nextRefillWord := c.refillWordRegister.output }

/-- `miss_address & ~(LineBytes - 1)` on `std::size_t`. -/
def lineBase (g : CacheGeometry) (missAddress : Nat) : Nat :=
  (BitVec.ofNat 64 missAddress &&& ~~~BitVec.ofNat 64 (g.LineBytes - 1)).toNat

/-- `evaluate_idle()`. -/
def evaluateIdle (c : InstructionCacheController g) (i : ControllerInputs g) :
    InstructionCacheController g :=
  if !i.miss then c
  else
    { c with
      nextMissAddress := i.missAddress
      nextLineBase := BitVec.ofNat _ (lineBase g i.missAddress.toNat)
      nextRefillWord := 0
      nextState := .REFILL_REQUEST }

/-- The address of the current word of the line. -/
def wordAddress (c : InstructionCacheController g) : BitVec g.CPUAddressWidth :=
  BitVec.ofNat _ (c.lineBaseRegister.output.toNat +
    c.refillWordRegister.output.toNat * g.InstructionBytes)

/-- `evaluate_refill_request()`. -/
def evaluateRefillRequest (c : InstructionCacheController g) : InstructionCacheController g :=
  { c with
    memoryAddress := c.wordAddress
    memoryRequest := true
    nextState := .REFILL_WAIT }

/-- `evaluate_refill_wait()`. -/
def evaluateRefillWait (c : InstructionCacheController g) (i : ControllerInputs g) :
    InstructionCacheController g :=
  let word := c.refillWordRegister.output.toNat
  let c := { c with memoryAddress := c.wordAddress, memoryRequest := true }
  if !i.memoryResponse then c
  else
    { c with
      refillBuffer :=
        if word < g.InstructionsPerLine then
          Function.update c.refillBuffer word i.memoryInstruction
        else c.refillBuffer
      nextRefillWord := BitVec.ofNat 8 (word + 1)
      nextState := if g.InstructionsPerLine ≤ word + 1 then .INSTALL else .REFILL_REQUEST }

/-- `evaluate_install()`. -/
def evaluateInstall (c : InstructionCacheController g) : InstructionCacheController g :=
  let lineBase := c.lineBaseRegister.output.toNat
  { c with
    cache := c.cache.refill (g.getLineIndex lineBase) (g.getTag lineBase) c.refillBuffer
    nextState := .COMPLETE }

/-- `evaluate_complete()`. -/
def evaluateComplete (c : InstructionCacheController g) : InstructionCacheController g :=
  { c with refillDone := true, nextState := .IDLE }

/-- The reset override. -/
def resetOverride (c : InstructionCacheController g) (reset : Bool) :
    InstructionCacheController g :=
  if reset then
    { c with
      nextState := .IDLE
      nextMissAddress := 0
      nextLineBase := 0
      nextRefillWord := 0
      memoryRequest := false
      refillDone := false }
  else c

/-- The combinational part of `evaluate()`. -/
def combinational (c : InstructionCacheController g) (i : ControllerInputs g) :
    InstructionCacheController g :=
  let c := c.defaults
  let c :=
    match c.stateRegister.output with
    | .IDLE => c.evaluateIdle i
    | .REFILL_REQUEST => c.evaluateRefillRequest
    | .REFILL_WAIT => c.evaluateRefillWait i
    | .INSTALL => c.evaluateInstall
    | .COMPLETE => c.evaluateComplete
  c.resetOverride i.reset

/-- `evaluate()`. -/
def evaluate (c : InstructionCacheController g) (i : ControllerInputs g) :
    InstructionCacheController g :=
  ((c.evaluateRegisters i.clock).combinational i).evaluateRegisters i.clock

end InstructionCacheController

/-! ## The address split -/

namespace CacheGeometry

variable (g : CacheGeometry)

theorem two_pow_offsetBits : 2 ^ g.OffsetBits = g.LineBytes := by
  obtain ⟨k, hk⟩ := g.instructionsPerLine_pow
  have hbytes : g.LineBytes = 2 ^ (k + 2) := by
    rw [LineBytes, InstructionBytes, hk, Nat.pow_add, Nat.mul_comm]
  rw [OffsetBits, hbytes, Nat.log2_two_pow]

theorem two_pow_indexBits : 2 ^ g.IndexBits = g.NumLines := by
  obtain ⟨k, hk⟩ := g.numLines_pow
  rw [IndexBits, hk, Nat.log2_two_pow]

theorem numLines_pos : 0 < g.NumLines := by
  rw [← two_pow_indexBits]
  exact Nat.two_pow_pos _

theorem instructionsPerLine_pos : 0 < g.InstructionsPerLine := by
  obtain ⟨k, hk⟩ := g.instructionsPerLine_pow
  rw [hk]
  exact Nat.two_pow_pos _

/-- The cache divides a byte address as the word it lies in. -/
theorem getLineIndex_eq (a : Nat) :
    g.getLineIndex a = LineAddress.index g.InstructionsPerLine g.NumLines (a / 4) := by
  rw [getLineIndex, ← two_pow_indexBits, Nat.and_two_pow_sub_one_eq_mod, Nat.shiftRight_eq_div_pow,
    two_pow_offsetBits, LineBytes, InstructionBytes, LineAddress.index, Nat.div_div_eq_div_mul]

theorem getTag_eq (a : Nat) :
    g.getTag a = LineAddress.tag g.InstructionsPerLine g.NumLines (a / 4) := by
  rw [getTag, Nat.shiftRight_eq_div_pow, Nat.pow_add, two_pow_offsetBits, two_pow_indexBits,
    LineBytes, InstructionBytes, LineAddress.tag, Nat.div_div_eq_div_mul, Nat.mul_assoc]

theorem getInstructionOffset_eq (a : Nat) :
    g.getInstructionOffset a = LineAddress.offset g.InstructionsPerLine (a / 4) := by
  rw [getInstructionOffset, ← two_pow_offsetBits, Nat.and_two_pow_sub_one_eq_mod,
    two_pow_offsetBits, LineBytes, InstructionBytes, LineAddress.offset,
    Nat.mod_mul_right_div_self]

end CacheGeometry

/-- Masking with `~(LineBytes - 1)` rounds an address down to its line. -/
theorem InstructionCacheController.lineBase_eq (g : CacheGeometry) {a : Nat}
    (ha : a < 2 ^ g.CPUAddressWidth) :
    InstructionCacheController.lineBase g a = a / g.LineBytes * g.LineBytes := by
  have hfits : a < 2 ^ 64 := Nat.lt_of_lt_of_le ha (Nat.pow_le_pow_right (by decide) g.address_fits)
  have hoff : g.OffsetBits ≤ 64 :=
    Nat.le_trans (Nat.le_trans (Nat.le_add_right _ _) g.line_fits) g.address_fits
  rw [InstructionCacheController.lineBase, ← g.two_pow_offsetBits]
  apply Nat.eq_of_testBit_eq
  intro i
  rw [BitVec.testBit_toNat, BitVec.getLsbD_and, BitVec.getLsbD_not, BitVec.getLsbD_ofNat,
    BitVec.getLsbD_ofNat, Nat.testBit_two_pow_sub_one, Nat.testBit_mul_two_pow,
    Nat.testBit_div_two_pow]
  -- bit i survives the mask exactly from the offset bits on
  by_cases hi : i < 64
  · by_cases ho : i < g.OffsetBits
    · simp [hi, ho, Nat.not_le.mpr ho]
    · have ho' := Nat.not_lt.mp ho
      simp [hi, ho, ho', Nat.sub_add_cancel ho']
  · have hlow : a.testBit i = false :=
      Nat.testBit_lt_two_pow (Nat.lt_of_lt_of_le hfits
        (Nat.pow_le_pow_right (by decide) (Nat.not_lt.mp hi)))
    have ho' : g.OffsetBits ≤ i := by omega
    simp [hi, ho', Nat.sub_add_cancel ho', hlow]

/-! ## Coherence -/

section Coherence

variable {g : CacheGeometry} (M : Nat → Word)

/-- Every valid line holds the memory words of its tag and index. -/
def InstructionCacheLine.Coherent (c : InstructionCacheLine g) : Prop :=
  ∀ i < g.NumLines, (c.lines i).valid = true → ∀ k < g.InstructionsPerLine,
    (c.lines i).instructions k =
      M (LineAddress.base g.InstructionsPerLine g.NumLines (c.lines i).tag i + k)

/-- The first `n` words of the buffer are those of the line at `base`. -/
structure Assembled (g : CacheGeometry) (base n : Nat) (buffer : Nat → Word) : Prop where
  aligned : g.LineBytes ∣ base
  words : ∀ j < n, buffer j = M (base / 4 + j)

/-- What the buffer holds when the registers are in a state: the words before the current
    one while the line is assembled, all of them when it is installed. -/
def Latched (state : RefillState) (base : BitVec g.CPUAddressWidth) (word : BitVec 8)
    (buffer : Nat → Word) : Prop :=
  match state with
  | .REFILL_REQUEST | .REFILL_WAIT =>
      Assembled M g base.toNat word.toNat buffer ∧ word.toNat < g.InstructionsPerLine
  | .INSTALL => Assembled M g base.toNat g.InstructionsPerLine buffer
  | .IDLE | .COMPLETE => True

variable {M}

/-- One more word. -/
theorem Assembled.succ {base n : Nat} {buffer : Nat → Word} (h : Assembled M g base n buffer)
    {v : Word} (hv : v = M (base / 4 + n)) :
    Assembled M g base (n + 1) (Function.update buffer n v) := by
  refine ⟨h.aligned, fun j hj => ?_⟩
  rcases Nat.lt_succ_iff_lt_or_eq.mp hj with hlt | rfl
  · rw [Function.update_of_ne (Nat.ne_of_lt hlt)]
    exact h.words j hlt
  · rw [Function.update_self, hv]

/-- A word that is not assembled yet may be overwritten. -/
theorem Assembled.update {base n : Nat} {buffer : Nat → Word} (h : Assembled M g base n buffer)
    (v : Word) : Assembled M g base n (Function.update buffer n v) := by
  refine ⟨h.aligned, fun j hj => ?_⟩
  rw [Function.update_of_ne (Nat.ne_of_lt hj)]
  exact h.words j hj

/-- An aligned address begins the line of its tag and index. -/
theorem lineAddress_base_eq {base : Nat} (h : g.LineBytes ∣ base) :
    LineAddress.base g.InstructionsPerLine g.NumLines (g.getTag base) (g.getLineIndex base) =
      base / 4 := by
  obtain ⟨q, rfl⟩ := h
  have hdiv : g.LineBytes * q / 4 = q * g.InstructionsPerLine := by
    rw [CacheGeometry.LineBytes, CacheGeometry.InstructionBytes, Nat.mul_assoc,
      Nat.mul_div_cancel_left _ (by decide), Nat.mul_comm]
  rw [g.getTag_eq, g.getLineIndex_eq, LineAddress.base_eq, hdiv,
    Nat.mul_div_cancel _ g.instructionsPerLine_pos]

/-- A line that is assembled can be installed. -/
theorem InstructionCacheLine.Coherent.refill {c : InstructionCacheLine g} (h : c.Coherent M)
    {base : Nat} {buffer : Nat → Word}
    (hbuf : Assembled M g base g.InstructionsPerLine buffer) :
    (c.refill (g.getLineIndex base) (g.getTag base) buffer).Coherent M := by
  rw [InstructionCacheLine.refill]
  split
  · exact h
  · intro i hi
    dsimp only
    by_cases hline : i = g.getLineIndex base
    · rw [if_pos hline]
      intro _ k hk
      rw [hline, lineAddress_base_eq hbuf.aligned]
      exact hbuf.words k hk
    · rw [if_neg hline]
      exact h i hi

/-- Invalidating leaves no line to be wrong. -/
theorem InstructionCacheLine.Coherent.invalidate (c : InstructionCacheLine g) :
    c.invalidate.Coherent M := by
  intro i _ hvalid
  cases hvalid

/-- A hit of a coherent cache delivers the word that contains the address. -/
theorem InstructionCacheLine.Coherent.hit {c : InstructionCacheLine g} (h : c.Coherent M)
    {address : BitVec g.CPUAddressWidth} (hhit : (c.evaluatePort address).hit = true) :
    (c.evaluatePort address).instruction = M (address.toNat / 4) := by
  have hline : ((c.lines (g.getLineIndex address.toNat)).valid &&
      (c.lines (g.getLineIndex address.toNat)).tag == g.getTag address.toNat) = true := hhit
  have hinstr : (c.evaluatePort address).instruction =
      (c.lines (g.getLineIndex address.toNat)).instructions
        (g.getInstructionOffset address.toNat) := if_pos hline
  obtain ⟨hvalid, htag⟩ := Bool.and_eq_true_iff.mp hline
  rw [beq_iff_eq] at htag
  have hindex : g.getLineIndex address.toNat < g.NumLines := by
    rw [g.getLineIndex_eq]
    exact LineAddress.index_lt g.numLines_pos _
  have hoff : g.getInstructionOffset address.toNat < g.InstructionsPerLine := by
    rw [g.getInstructionOffset_eq]
    exact LineAddress.offset_lt g.instructionsPerLine_pos _
  rw [hinstr, h _ hindex hvalid _ hoff, htag, g.getTag_eq, g.getLineIndex_eq,
    g.getInstructionOffset_eq, LineAddress.base_add_offset]

end Coherence

/-! ## The combinational part -/

namespace InstructionCacheController

variable {g : CacheGeometry} {M : Nat → Word}

/-- The reset override only touches the next values and two output wires. -/
theorem resetOverride_keeps (c : InstructionCacheController g) (reset : Bool) :
    (c.resetOverride reset).refillBuffer = c.refillBuffer ∧
      (c.resetOverride reset).cache = c.cache ∧
      (c.resetOverride reset).memoryAddress = c.memoryAddress := by
  cases reset <;> exact ⟨rfl, rfl, rfl⟩

/-- The combinational part moves no register. -/
theorem combinational_registers (c : InstructionCacheController g) (i : ControllerInputs g) :
    (c.combinational i).stateRegister = c.stateRegister ∧
      (c.combinational i).lineBaseRegister = c.lineBaseRegister ∧
      (c.combinational i).refillWordRegister = c.refillWordRegister := by
  simp only [combinational, resetOverride, evaluateIdle, evaluateRefillWait]
  split <;> cases c.defaults.stateRegister.output <;> dsimp only <;> repeat' split
  all_goals exact ⟨rfl, rfl, rfl⟩

/-- The buffer changes in `REFILL_WAIT` only, at the current word. -/
theorem combinational_buffer (c : InstructionCacheController g) (i : ControllerInputs g) :
    (c.combinational i).refillBuffer =
      if c.stateRegister.output = .REFILL_WAIT ∧ i.memoryResponse = true ∧
          c.refillWordRegister.output.toNat < g.InstructionsPerLine then
        Function.update c.refillBuffer c.refillWordRegister.output.toNat i.memoryInstruction
      else c.refillBuffer := by
  rw [combinational, (resetOverride_keeps _ _).1]
  have hstate : c.defaults.stateRegister.output = c.stateRegister.output := rfl
  rw [hstate]
  cases c.stateRegister.output with
  | IDLE =>
      dsimp only [evaluateIdle]
      split <;> rfl
  | REFILL_REQUEST => rfl
  | REFILL_WAIT =>
      dsimp only [evaluateRefillWait, defaults]
      cases i.memoryResponse with
      | false => rfl
      | true => simp
  | INSTALL => rfl
  | COMPLETE => rfl

/-- The cache changes in `INSTALL` only, by the line in the buffer. -/
theorem combinational_cache (c : InstructionCacheController g) (i : ControllerInputs g) :
    (c.combinational i).cache =
      if c.stateRegister.output = .INSTALL then
        c.cache.refill (g.getLineIndex c.lineBaseRegister.output.toNat)
          (g.getTag c.lineBaseRegister.output.toNat) c.refillBuffer
      else c.cache := by
  rw [combinational, (resetOverride_keeps _ _).2.1]
  have hstate : c.defaults.stateRegister.output = c.stateRegister.output := rfl
  rw [hstate]
  cases c.stateRegister.output with
  | IDLE =>
      dsimp only [evaluateIdle]
      split <;> rfl
  | REFILL_REQUEST => rfl
  | REFILL_WAIT =>
      dsimp only [evaluateRefillWait]
      split <;> rfl
  | INSTALL => rfl
  | COMPLETE => rfl

/-- The address bus is driven while a word is requested. -/
theorem combinational_address (c : InstructionCacheController g) (i : ControllerInputs g)
    (hstate : c.stateRegister.output = .REFILL_REQUEST ∨ c.stateRegister.output = .REFILL_WAIT) :
    (c.combinational i).memoryAddress = c.wordAddress := by
  rw [combinational, (resetOverride_keeps _ _).2.2]
  have hdef : c.defaults.stateRegister.output = c.stateRegister.output := rfl
  rw [hdef]
  rcases hstate with h | h <;> rw [h]
  · rfl
  · dsimp only [evaluateRefillWait]
    split <;> rfl

/-- The line of a miss is aligned. -/
theorem lineBase_aligned (a : BitVec g.CPUAddressWidth) :
    g.LineBytes ∣ (BitVec.ofNat g.CPUAddressWidth (lineBase g a.toNat)).toNat := by
  have hle : a.toNat / g.LineBytes * g.LineBytes < 2 ^ g.CPUAddressWidth :=
    Nat.lt_of_le_of_lt (Nat.div_mul_le_self _ _) a.isLt
  rw [lineBase_eq g a.isLt, BitVec.toNat_ofNat, Nat.mod_eq_of_lt hle]
  exact Nat.dvd_mul_left _ _

/-- What a response has to carry in `REFILL_WAIT`. -/
def Answers (M : Nat → Word) (c : InstructionCacheController g) (i : ControllerInputs g) : Prop :=
  c.stateRegister.output = .REFILL_WAIT → i.memoryResponse = true →
    i.memoryInstruction =
      M (c.lineBaseRegister.output.toNat / 4 + c.refillWordRegister.output.toNat)

/-- What the registers drive stays true of the buffer, whatever the inputs. -/
theorem combinational_latched {c : InstructionCacheController g} {i : ControllerInputs g}
    (h : Latched M c.stateRegister.output c.lineBaseRegister.output c.refillWordRegister.output
      c.refillBuffer) :
    Latched M c.stateRegister.output c.lineBaseRegister.output c.refillWordRegister.output
      (c.combinational i).refillBuffer := by
  rw [combinational_buffer]
  split
  · next hwait =>
      rw [hwait.1] at h ⊢
      exact ⟨h.1.update _, h.2⟩
  · exact h

/-- What the registers load next is true of the new buffer, if a response carries the word
    that was asked for. -/
theorem combinational_next (hwidth : g.InstructionsPerLine ≤ 256)
    {c : InstructionCacheController g} {i : ControllerInputs g}
    (h : Latched M c.stateRegister.output c.lineBaseRegister.output c.refillWordRegister.output
      c.refillBuffer) (hresp : c.Answers M i) :
    Latched M (c.combinational i).nextState (c.combinational i).nextLineBase
      (c.combinational i).nextRefillWord (c.combinational i).refillBuffer := by
  have hbuf := combinational_latched (i := i) h
  rw [combinational_buffer] at hbuf ⊢
  cases hreset : i.reset with
  | true =>
      rw [combinational, hreset]
      exact trivial
  | false =>
      have hcomb : c.combinational i = match c.stateRegister.output with
          | .IDLE => c.defaults.evaluateIdle i
          | .REFILL_REQUEST => c.defaults.evaluateRefillRequest
          | .REFILL_WAIT => c.defaults.evaluateRefillWait i
          | .INSTALL => c.defaults.evaluateInstall
          | .COMPLETE => c.defaults.evaluateComplete := by
        rw [combinational, hreset]
        rfl
      rw [hcomb]
      cases hs : c.stateRegister.output with
      | IDLE =>
          simp only [evaluateIdle]
          cases i.miss with
          | false =>
              show Latched M c.stateRegister.output _ _ _
              rw [hs]
              exact trivial
          | true =>
              -- a miss starts with an empty buffer at the line of its address
              exact ⟨⟨lineBase_aligned i.missAddress, fun j hj => absurd hj (Nat.not_lt_zero j)⟩,
                g.instructionsPerLine_pos⟩
      | REFILL_REQUEST =>
          rw [hs] at hbuf
          exact hbuf
      | REFILL_WAIT =>
          rw [hs] at h hbuf
          cases hr : i.memoryResponse with
          | false =>
              have hnext : (c.defaults.evaluateRefillWait i).nextState = c.stateRegister.output ∧
                  (c.defaults.evaluateRefillWait i).nextLineBase = c.lineBaseRegister.output ∧
                  (c.defaults.evaluateRefillWait i).nextRefillWord =
                    c.refillWordRegister.output := by
                simp only [evaluateRefillWait, hr]
                exact ⟨rfl, rfl, rfl⟩
              rw [hnext.1, hnext.2.1, hnext.2.2, hs, if_neg (by simp)]
              exact h
          | true =>
              have hnext : (c.defaults.evaluateRefillWait i).nextState =
                    (if g.InstructionsPerLine ≤ c.refillWordRegister.output.toNat + 1 then
                      .INSTALL else .REFILL_REQUEST) ∧
                  (c.defaults.evaluateRefillWait i).nextLineBase = c.lineBaseRegister.output ∧
                  (c.defaults.evaluateRefillWait i).nextRefillWord =
                    BitVec.ofNat 8 (c.refillWordRegister.output.toNat + 1) := by
                simp only [evaluateRefillWait, hr]
                exact ⟨rfl, rfl, rfl⟩
              have hword := h.1.succ (hresp hs hr)
              have hwrite : RefillState.REFILL_WAIT = .REFILL_WAIT ∧ true = true ∧
                  c.refillWordRegister.output.toNat < g.InstructionsPerLine := ⟨rfl, rfl, h.2⟩
              rw [hnext.1, hnext.2.1, hnext.2.2, if_pos hwrite]
              by_cases hlast : g.InstructionsPerLine ≤ c.refillWordRegister.output.toNat + 1
              · -- the last word completes the line
                have hlen : c.refillWordRegister.output.toNat + 1 = g.InstructionsPerLine :=
                  Nat.le_antisymm h.2 hlast
                rw [if_pos hlast]
                rw [hlen] at hword
                exact hword
              · -- the counter does not wrap before it
                have hcount : (BitVec.ofNat 8 (c.refillWordRegister.output.toNat + 1)).toNat =
                    c.refillWordRegister.output.toNat + 1 := by
                  rw [BitVec.toNat_ofNat]
                  omega
                rw [if_neg hlast, Latched, hcount]
                exact ⟨hword, Nat.not_le.mp hlast⟩
      | INSTALL => exact trivial
      | COMPLETE => exact trivial

/-! ## Evaluations -/

/-- What the memory owes the controller: a response sampled while the clock is LOW carries
    the word at the address driven last. -/
def Responds (M : Nat → Word) (c : InstructionCacheController g) (i : ControllerInputs g) : Prop :=
  i.clock = false → i.memoryResponse = true →
    i.memoryInstruction = M (c.memoryAddress.toNat / 4)

/-- The invariant: the buffer fits what the registers drive and, while the clock is LOW,
    what they have captured; the address of the word asked for is on the bus. -/
structure Coherent (M : Nat → Word) (c : InstructionCacheController g) : Prop where
  driven : Latched M c.stateRegister.output c.lineBaseRegister.output
    c.refillWordRegister.output c.refillBuffer
  captured : c.stateRegister.clockHigh = false →
    Latched M c.stateRegister.captured c.lineBaseRegister.captured
      c.refillWordRegister.captured c.refillBuffer
  lineBase_level : c.lineBaseRegister.clockHigh = c.stateRegister.clockHigh
  refillWord_level : c.refillWordRegister.clockHigh = c.stateRegister.clockHigh
  address : c.stateRegister.output = .REFILL_WAIT → c.memoryAddress = c.wordAddress
  cache : c.cache.Coherent M

/-- The words of an aligned line do not leave the address space. -/
theorem wordAddress_toNat {c : InstructionCacheController g} {buffer : Nat → Word}
    (h : Assembled M g c.lineBaseRegister.output.toNat c.refillWordRegister.output.toNat buffer)
    (hword : c.refillWordRegister.output.toNat < g.InstructionsPerLine) :
    c.wordAddress.toNat =
      c.lineBaseRegister.output.toNat + c.refillWordRegister.output.toNat * 4 := by
  obtain ⟨q, hq⟩ := h.aligned
  have hlt := c.lineBaseRegister.output.isLt
  have hdvd : g.LineBytes ∣ 2 ^ g.CPUAddressWidth := by
    rw [← g.two_pow_offsetBits]
    exact Nat.pow_dvd_pow 2 (Nat.le_trans (Nat.le_add_right _ _) g.line_fits)
  obtain ⟨n, hn⟩ := hdvd
  have hline : g.LineBytes = 4 * g.InstructionsPerLine := rfl
  -- the line ends at or before the end of the address space
  have hend : g.LineBytes * (q + 1) ≤ 2 ^ g.CPUAddressWidth := by
    rw [hn] at hlt ⊢
    rw [hq] at hlt
    exact Nat.mul_le_mul_left _ (Nat.lt_of_mul_lt_mul_left hlt)
  rw [wordAddress, CacheGeometry.InstructionBytes, BitVec.toNat_ofNat, Nat.mod_eq_of_lt]
  rw [Nat.mul_add, Nat.mul_one, ← hq] at hend
  omega

/-- A response the memory owes is an answer for the current word. -/
theorem Coherent.answers {c : InstructionCacheController g} (h : c.Coherent M)
    {i : ControllerInputs g} (hclock : i.clock = false) (hresp : c.Responds M i) :
    c.Answers M i := by
  intro hstate hr
  have hdriven := h.driven
  rw [hstate] at hdriven
  rw [hresp hclock hr, h.address hstate, wordAddress_toNat hdriven.1 hdriven.2]
  congr 1
  omega

/-- What the combinational part keeps, of any registers. -/
theorem combinational_keeps {c : InstructionCacheController g} (i : ControllerInputs g)
    (hdriven : Latched M c.stateRegister.output c.lineBaseRegister.output
      c.refillWordRegister.output c.refillBuffer) (hcache : c.cache.Coherent M) :
    Latched M c.stateRegister.output c.lineBaseRegister.output c.refillWordRegister.output
        (c.combinational i).refillBuffer ∧
      (c.combinational i).cache.Coherent M ∧
      (c.stateRegister.output = .REFILL_WAIT →
        (c.combinational i).memoryAddress = c.wordAddress) := by
  refine ⟨combinational_latched hdriven, ?_, fun hwait =>
    combinational_address c i (Or.inr hwait)⟩
  rw [combinational_cache]
  split
  · next hinstall =>
      rw [hinstall] at hdriven
      exact hcache.refill hdriven
  · exact hcache

/-- An evaluation while the clock is LOW. -/
theorem Coherent.evaluate_low (hwidth : g.InstructionsPerLine ≤ 256)
    {c : InstructionCacheController g} (h : c.Coherent M) {i : ControllerInputs g}
    (hclock : i.clock = false) (hresp : c.Responds M i) : (c.evaluate i).Coherent M := by
  have hanswers := h.answers hclock hresp
  rw [evaluate, hclock]
  -- the registers capture the stale next values first; nothing reads them
  obtain ⟨hstate, hbase, hword⟩ := combinational_registers (c.evaluateRegisters false) i
  have hdriven : Latched M (c.evaluateRegisters false).stateRegister.output
      (c.evaluateRegisters false).lineBaseRegister.output
      (c.evaluateRegisters false).refillWordRegister.output
      (c.evaluateRegisters false).refillBuffer := h.driven
  obtain ⟨hkept, hcache, haddr⟩ := combinational_keeps i hdriven h.cache
  have hnext := combinational_next hwidth hdriven hanswers
  constructor
  · show Latched M ((c.evaluateRegisters false).combinational i).stateRegister.output
      ((c.evaluateRegisters false).combinational i).lineBaseRegister.output
      ((c.evaluateRegisters false).combinational i).refillWordRegister.output _
    rw [hstate, hbase, hword]
    exact hkept
  · intro _
    exact hnext
  · rfl
  · rfl
  · intro hwait
    have hout : (c.evaluateRegisters false).stateRegister.output = .REFILL_WAIT := by
      rw [← hstate]
      exact hwait
    have heq := haddr hout
    show ((c.evaluateRegisters false).combinational i).memoryAddress = BitVec.ofNat _
      (((c.evaluateRegisters false).combinational i).lineBaseRegister.output.toNat +
        ((c.evaluateRegisters false).combinational i).refillWordRegister.output.toNat * _)
    rw [hbase, hword]
    exact heq
  · exact hcache

/-- Evaluated again while the clock stays HIGH, the registers do not move. -/
theorem evaluateRegisters_of_high {c : InstructionCacheController g}
    (hs : c.stateRegister.clockHigh = true) (hb : c.lineBaseRegister.clockHigh = true)
    (hw : c.refillWordRegister.clockHigh = true) :
    (c.evaluateRegisters true).stateRegister = c.stateRegister ∧
      (c.evaluateRegisters true).lineBaseRegister = c.lineBaseRegister ∧
      (c.evaluateRegisters true).refillWordRegister = c.refillWordRegister :=
  ⟨Logic.Register.evaluate_of_high hs c.nextState,
    Logic.Register.evaluate_of_high hb c.nextLineBase,
    Logic.Register.evaluate_of_high hw c.nextRefillWord⟩

/-- The registers after a HIGH evaluation drive what they captured, or what they drove if the
    clock was HIGH before. -/
theorem Coherent.driven_rising {c : InstructionCacheController g} (h : c.Coherent M) :
    Latched M (c.evaluateRegisters true).stateRegister.output
        (c.evaluateRegisters true).lineBaseRegister.output
        (c.evaluateRegisters true).refillWordRegister.output c.refillBuffer ∧
      (c.evaluateRegisters true).stateRegister.clockHigh = true ∧
      (c.evaluateRegisters true).lineBaseRegister.clockHigh = true ∧
      (c.evaluateRegisters true).refillWordRegister.clockHigh = true := by
  have hdriven := h.driven
  have hcaptured := h.captured
  have hbase := h.lineBase_level
  have hword := h.refillWord_level
  simp only [evaluateRegisters, Logic.Register.evaluate]
  cases hclock : c.stateRegister.clockHigh with
  | false =>
      rw [hclock] at hbase hword
      rw [hbase, hword]
      exact ⟨hcaptured hclock, rfl, rfl, rfl⟩
  | true =>
      rw [hclock] at hbase hword
      rw [hbase, hword]
      exact ⟨hdriven, hclock, hbase, hword⟩

/-- An evaluation while the clock is HIGH, with any inputs. -/
theorem Coherent.evaluate_high {c : InstructionCacheController g} (h : c.Coherent M)
    {i : ControllerInputs g} (hclock : i.clock = true) : (c.evaluate i).Coherent M := by
  obtain ⟨hdriven, hs, hb, hw⟩ := h.driven_rising
  obtain ⟨hstate, hbase, hword⟩ := combinational_registers (c.evaluateRegisters true) i
  obtain ⟨hkept, hcache, haddr⟩ := @combinational_keeps _ _ (c.evaluateRegisters true) i
    hdriven h.cache
  -- the second evaluation of the registers sees no edge
  obtain ⟨hstate', hbase', hword'⟩ : (c.evaluate i).stateRegister =
        (c.evaluateRegisters true).stateRegister ∧
      (c.evaluate i).lineBaseRegister = (c.evaluateRegisters true).lineBaseRegister ∧
      (c.evaluate i).refillWordRegister = (c.evaluateRegisters true).refillWordRegister := by
    rw [← hstate] at hs
    rw [← hbase] at hb
    rw [← hword] at hw
    rw [evaluate, hclock, ← hstate, ← hbase, ← hword]
    exact evaluateRegisters_of_high hs hb hw
  constructor
  · rw [hstate', hbase', hword', evaluate, hclock]
    exact hkept
  · rw [hstate', hs]
    rintro ⟨⟩
  · rw [hstate', hbase', hb, hs]
  · rw [hstate', hword', hw, hs]
  · intro hwait
    rw [hstate'] at hwait
    rw [wordAddress, hbase', hword', evaluate, hclock]
    exact haddr hwait
  · rw [evaluate, hclock]
    exact hcache

/-! ## Runs -/

/-- The controllers and caches some evaluations and invalidations lead to, over a memory with
    fixed contents. -/
inductive Reached (M : Nat → Word) : InstructionCacheController g → Prop where
  | constructed : Reached M {}
  | evaluate {c : InstructionCacheController g} (h : Reached M c) (i : ControllerInputs g)
      (hresp : c.Responds M i) : Reached M (c.evaluate i)
  | invalidate {c : InstructionCacheController g} (h : Reached M c) :
      Reached M { c with cache := c.cache.invalidate }

/-- The memory answers a sequence of evaluations. -/
def Responding (M : Nat → Word) (c : InstructionCacheController g) :
    List (ControllerInputs g) → Prop
  | [] => True
  | i :: is => c.Responds M i ∧ Responding M (c.evaluate i) is

instance decidableResponds (M : Nat → Word) (c : InstructionCacheController g)
    (i : ControllerInputs g) : Decidable (c.Responds M i) := by
  unfold Responds
  infer_instance

instance decidableResponding (M : Nat → Word) (c : InstructionCacheController g) :
    (is : List (ControllerInputs g)) → Decidable (c.Responding M is)
  | [] => isTrue trivial
  | i :: is =>
    have := decidableResponding M (c.evaluate i) is
    inferInstanceAs (Decidable (_ ∧ _))

/-- Evaluations the memory answers are a run. -/
theorem Reached.evaluates {c : InstructionCacheController g} (h : Reached M c)
    {is : List (ControllerInputs g)} (hresp : c.Responding M is) :
    Reached M (is.foldl InstructionCacheController.evaluate c) := by
  induction is generalizing c with
  | nil => exact h
  | cons i is ih =>
      obtain ⟨hfirst, hrest⟩ := hresp
      exact ih (h.evaluate i hfirst) hrest

/-- Every run keeps the invariant. -/
theorem Reached.coherent (hwidth : g.InstructionsPerLine ≤ 256)
    {c : InstructionCacheController g} (h : Reached M c) : c.Coherent M := by
  induction h with
  | constructed =>
      exact ⟨trivial, fun _ => trivial, rfl, rfl, nofun, nofun⟩
  | evaluate _ i hresp ih =>
      cases hclock : i.clock with
      | false => exact ih.evaluate_low hwidth hclock hresp
      | true => exact ih.evaluate_high hclock
  | invalidate _ ih =>
      exact ⟨ih.driven, ih.captured, ih.lineBase_level, ih.refillWord_level, ih.address,
        InstructionCacheLine.Coherent.invalidate _⟩

/-- In every reachable state each valid line holds the memory words of its tag and index, and
    every hit on either port delivers the memory word that contains the address. -/
theorem instruction_cache_coherent (hwidth : g.InstructionsPerLine ≤ 256)
    {c : InstructionCacheController g} (h : Reached M c) :
    c.cache.Coherent M ∧
      ∀ (enable : Bool) (address0 address1 : BitVec g.CPUAddressWidth),
        ((c.cache.evaluate enable address0 address1).1.hit = true →
          (c.cache.evaluate enable address0 address1).1.instruction = M (address0.toNat / 4)) ∧
        ((c.cache.evaluate enable address0 address1).2.hit = true →
          (c.cache.evaluate enable address0 address1).2.instruction =
            M (address1.toNat / 4)) := by
  have hcache := (h.coherent hwidth).cache
  refine ⟨hcache, fun enable address0 address1 => ?_⟩
  cases enable with
  | false => exact ⟨nofun, nofun⟩
  | true => exact ⟨hcache.hit, hcache.hit⟩

/-- Two lines of eight words, with 8-bit addresses. -/
def smallGeometry : CacheGeometry where
  CPUAddressWidth := 8
  NumLines := 2
  InstructionsPerLine := 8
  numLines_pow := ⟨1, rfl⟩
  instructionsPerLine_pow := ⟨3, rfl⟩
  address_fits := by decide
  line_fits := by decide +kernel

/-- The request and the response for one word of the line. -/
def refillWord (word : Word) : List (ControllerInputs smallGeometry) :=
  [⟨false, false, false, 0, false, 0⟩, ⟨true, false, false, 0, false, 0⟩,
    ⟨false, false, false, 0, true, word⟩, ⟨true, false, false, 0, false, 0⟩]

/-- The inputs of a refill of the line at address 32: a miss in its second word, and the eight
    words, with the edge that installs the line at the end. -/
def refillInputs : List (ControllerInputs smallGeometry) :=
  [⟨false, false, true, 36, false, 0⟩, ⟨true, false, false, 0, false, 0⟩] ++
    [108, 109, 110, 111, 112, 113, 114, 115].flatMap refillWord

/-- The refill is a run over a memory with `n + 100` at word `n`; addresses 61 and 38 then hit
    with the last and the second word of the line. -/
theorem instruction_cache_coherent_refill :
    let c := refillInputs.foldl evaluate {}
    Reached (fun n => BitVec.ofNat 32 (n + 100)) c ∧
      (c.cache.evaluate true 61 38).1.hit = true ∧
      (c.cache.evaluate true 61 38).1.instruction = 115 ∧
      (c.cache.evaluate true 61 38).2.hit = true ∧
      (c.cache.evaluate true 61 38).2.instruction = 109 := by
  intro c
  have hrun : Reached (fun n => BitVec.ofNat 32 (n + 100)) c :=
    Reached.constructed.evaluates (by decide +kernel)
  have hhit0 : (c.cache.evaluate true 61 38).1.hit = true := by decide +kernel
  have hhit1 : (c.cache.evaluate true 61 38).2.hit = true := by decide +kernel
  obtain ⟨hword0, hword1⟩ := (instruction_cache_coherent (by decide) hrun).2 true 61 38
  exact ⟨hrun, hhit0, hword0 hhit0, hhit1, hword1 hhit1⟩

end InstructionCacheController

end CpuSim.SuperScalar
