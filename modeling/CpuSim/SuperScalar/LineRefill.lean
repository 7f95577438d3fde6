/-
  CpuSim.SuperScalar.LineRefill

  A refill as a run of clock cycles.  The controller asks for the words of the line one by
  one and counts them in an 8-bit register; whether the count reaches the end of the line
  depends on the length of the line alone.
-/

import Mathlib.Order.Nat
import Mathlib.Data.Nat.Count
import CpuSim.SuperScalar.InstructionCache

namespace CpuSim.SuperScalar

/-- The inputs of an evaluation but the clock and the reset, which stays LOW. -/
structure RefillInputs (g : CacheGeometry) where
  miss : Bool := false
  missAddress : BitVec g.CPUAddressWidth := 0
  memoryResponse : Bool := false
  memoryInstruction : Word := 0

/-- The inputs at a clock level. -/
def RefillInputs.at {g : CacheGeometry} (i : RefillInputs g) (clock : Bool) :
    ControllerInputs g where
  clock := clock
  reset := false
  miss := i.miss
  missAddress := i.missAddress
  memoryResponse := i.memoryResponse
  memoryInstruction := i.memoryInstruction

/-- A clock cycle: the controller is evaluated any number of times while the clock is LOW,
    last with the inputs `settled`, then with the rising edge and any number of times while
    the clock is HIGH. -/
structure RefillCycle (g : CacheGeometry) where
  low : List (RefillInputs g) := []
  settled : RefillInputs g := {}
  edge : RefillInputs g := {}
  high : List (RefillInputs g) := []

namespace InstructionCacheController

variable {g : CacheGeometry}

/-- Some evaluations at one clock level. -/
def phase (clock : Bool) (c : InstructionCacheController g) (is : List (RefillInputs g)) :
    InstructionCacheController g :=
  is.foldl (fun c i => c.evaluate (i.at clock)) c

/-- The evaluations of the LOW phase. -/
def lowPhase (c : InstructionCacheController g) (y : RefillCycle g) :
    InstructionCacheController g :=
  (c.phase false y.low).evaluate (y.settled.at false)

/-- One clock cycle. -/
def cycle (c : InstructionCacheController g) (y : RefillCycle g) :
    InstructionCacheController g :=
  ((c.lowPhase y).evaluate (y.edge.at true)).phase true y.high

/-- The controller after `n` cycles. -/
def after (c : InstructionCacheController g) (cycles : Nat → RefillCycle g) :
    Nat → InstructionCacheController g
  | 0 => c
  | n + 1 => (after c cycles n).cycle (cycles n)

/-- The state between two cycles. -/
def state (c : InstructionCacheController g) : RefillState := c.stateRegister.output

/-- The controller is taken out of `REFILL_WAIT` by a response. -/
def Responded (c : InstructionCacheController g) (cycles : Nat → RefillCycle g) (n : Nat) : Prop :=
  (after c cycles n).state = .REFILL_WAIT ∧ (cycles n).settled.memoryResponse = true

instance decidableResponded (c : InstructionCacheController g) (cycles : Nat → RefillCycle g) :
    DecidablePred (c.Responded cycles) := fun _ => instDecidableAnd

/-- Each response sampled in a LOW phase carries the word at the address driven last. -/
def PhaseResponds (M : Nat → Word) : InstructionCacheController g → List (RefillInputs g) → Prop
  | _, [] => True
  | c, i :: is => c.Responds M (i.at false) ∧ PhaseResponds M (c.evaluate (i.at false)) is

/-- A memory with contents `M` that answers each request within `bound` cycles. -/
structure Serves (M : Nat → Word) (bound : Nat) (c : InstructionCacheController g)
    (cycles : Nat → RefillCycle g) : Prop where
  words : ∀ n, (after c cycles n).PhaseResponds M ((cycles n).low ++ [(cycles n).settled])
  bounded : ∀ n, (after c cycles n).state = .REFILL_WAIT →
    ∃ k < bound, (cycles (n + k)).settled.memoryResponse = true

/-- The refill of the line of `a` runs to its end: after `T` cycles in the request loop with
    one response for each word, the buffer holds the line, which is then installed. -/
def Completes (M : Nat → Word) (a : BitVec g.CPUAddressWidth) (c : InstructionCacheController g)
    (cycles : Nat → RefillCycle g) : Prop :=
  ∃ T, (∀ n, 0 < n → n < T →
      (after c cycles n).state = .REFILL_REQUEST ∨ (after c cycles n).state = .REFILL_WAIT) ∧
    (after c cycles T).state = .INSTALL ∧
    Nat.count (c.Responded cycles) T = g.InstructionsPerLine ∧
    (∀ k < g.InstructionsPerLine, (after c cycles T).refillBuffer k =
      M (a.toNat / g.LineBytes * g.InstructionsPerLine + k)) ∧
    (after c cycles (T + 1)).state = .COMPLETE ∧
    (after c cycles (T + 2)).state = .IDLE

/-! ## The registers over a cycle -/

/-- What the registers of a refill hold: the state, the line and the current word. -/
structure RefillPosition (g : CacheGeometry) where
  state : RefillState
  base : BitVec g.CPUAddressWidth
  word : BitVec 8

/-- What the registers drive. -/
def outputs (c : InstructionCacheController g) : RefillPosition g :=
  ⟨c.stateRegister.output, c.lineBaseRegister.output, c.refillWordRegister.output⟩

/-- What the registers have captured. -/
def captures (c : InstructionCacheController g) : RefillPosition g :=
  ⟨c.stateRegister.captured, c.lineBaseRegister.captured, c.refillWordRegister.captured⟩

/-- The clock level the registers have seen last. -/
structure AtLevel (level : Bool) (c : InstructionCacheController g) : Prop where
  state : c.stateRegister.clockHigh = level
  base : c.lineBaseRegister.clockHigh = level
  word : c.refillWordRegister.clockHigh = level

/-- Where the controller goes from a position. -/
def next (p : RefillPosition g) (i : RefillInputs g) : RefillPosition g :=
  match p.state with
  | .IDLE =>
    if i.miss then
      ⟨.REFILL_REQUEST, BitVec.ofNat _ (lineBase g i.missAddress.toNat), 0⟩
    else p
  | .REFILL_REQUEST => { p with state := .REFILL_WAIT }
  | .REFILL_WAIT =>
    if i.memoryResponse then
      { p with
        state := if g.InstructionsPerLine ≤ p.word.toNat + 1 then .INSTALL else .REFILL_REQUEST,
        word := BitVec.ofNat 8 (p.word.toNat + 1) }
    else p
  | .INSTALL => { p with state := .COMPLETE }
  | .COMPLETE => { p with state := .IDLE }

variable {c : InstructionCacheController g} {M : Nat → Word}

/-- The next values are computed from what the registers drive. -/
theorem combinational_position (c : InstructionCacheController g) (i : RefillInputs g)
    (clock : Bool) :
    (⟨(c.combinational (i.at clock)).nextState, (c.combinational (i.at clock)).nextLineBase,
      (c.combinational (i.at clock)).nextRefillWord⟩ : RefillPosition g) = next c.outputs i := by
  have hdef : c.defaults.stateRegister.output = c.stateRegister.output := rfl
  rw [combinational, resetOverride, hdef, next]
  simp only [RefillInputs.at, Bool.false_eq_true, if_false]
  cases hs : c.stateRegister.output with
  | IDLE => cases i.miss <;> simp [evaluateIdle, defaults, outputs, hs]
  | REFILL_REQUEST => simp [evaluateRefillRequest, defaults, outputs, hs]
  | REFILL_WAIT =>
      cases i.memoryResponse <;> simp [evaluateRefillWait, defaults, outputs, hs]
  | INSTALL => simp [evaluateInstall, defaults, outputs, hs]
  | COMPLETE => simp [evaluateComplete, defaults, outputs, hs]

/-- While the clock is LOW the registers capture the next position and drive the old one. -/
theorem evaluate_low_position (c : InstructionCacheController g) (i : RefillInputs g) :
    (c.evaluate (i.at false)).outputs = c.outputs ∧
      (c.evaluate (i.at false)).captures = next c.outputs i ∧
      AtLevel false (c.evaluate (i.at false)) := by
  obtain ⟨hs, hb, hw⟩ := combinational_registers (c.evaluateRegisters false) (i.at false)
  have hnext := combinational_position (c.evaluateRegisters false) i false
  refine ⟨?_, ?_, ⟨rfl, rfl, rfl⟩⟩
  · show RefillPosition.mk
      ((c.evaluateRegisters false).combinational (i.at false)).stateRegister.output
      ((c.evaluateRegisters false).combinational (i.at false)).lineBaseRegister.output
      ((c.evaluateRegisters false).combinational (i.at false)).refillWordRegister.output = _
    rw [hs, hb, hw]
    rfl
  · exact hnext

/-- With the clock HIGH only the first pass over the registers can see an edge. -/
theorem evaluate_high_registers (h : AtLevel true (c.evaluateRegisters true))
    (i : RefillInputs g) :
    (c.evaluate (i.at true)).outputs = (c.evaluateRegisters true).outputs ∧
      AtLevel true (c.evaluate (i.at true)) := by
  obtain ⟨hs, hb, hw⟩ := combinational_registers (c.evaluateRegisters true) (i.at true)
  obtain ⟨hs', hb', hw'⟩ :=
    @evaluateRegisters_of_high g ((c.evaluateRegisters true).combinational (i.at true))
      (hs ▸ h.state) (hb ▸ h.base) (hw ▸ h.word)
  have hstate : (c.evaluate (i.at true)).stateRegister = (c.evaluateRegisters true).stateRegister :=
    hs'.trans hs
  have hbase : (c.evaluate (i.at true)).lineBaseRegister =
    (c.evaluateRegisters true).lineBaseRegister := hb'.trans hb
  have hword : (c.evaluate (i.at true)).refillWordRegister =
    (c.evaluateRegisters true).refillWordRegister := hw'.trans hw
  -- the second pass sees a clock that is HIGH already
  rw [outputs, outputs, hstate, hbase, hword]
  refine ⟨rfl, ?_, ?_, ?_⟩
  · rw [hstate]
    exact h.state
  · rw [hbase]
    exact h.base
  · rw [hword]
    exact h.word

/-- The rising edge drives what was captured. -/
theorem evaluate_edge_position (h : AtLevel false c) (i : RefillInputs g) :
    (c.evaluate (i.at true)).outputs = c.captures ∧ AtLevel true (c.evaluate (i.at true)) := by
  have hrise : AtLevel true (c.evaluateRegisters true) ∧
      (c.evaluateRegisters true).outputs = c.captures := by
    simp only [evaluateRegisters, Logic.Register.evaluate, h.state, h.base, h.word, outputs,
      captures, Bool.not_true, Bool.not_false, Bool.false_eq_true, if_false, if_true, and_true]
    exact ⟨rfl, rfl, rfl⟩
  rw [← hrise.2]
  exact evaluate_high_registers hrise.1 i

/-- While the clock stays HIGH nothing moves. -/
theorem evaluate_high_position (h : AtLevel true c) (i : RefillInputs g) :
    (c.evaluate (i.at true)).outputs = c.outputs ∧ AtLevel true (c.evaluate (i.at true)) := by
  obtain ⟨hs, hb, hw⟩ := evaluateRegisters_of_high h.state h.base h.word
  have hstay : AtLevel true (c.evaluateRegisters true) := by
    refine ⟨?_, ?_, ?_⟩
    · rw [hs]
      exact h.state
    · rw [hb]
      exact h.base
    · rw [hw]
      exact h.word
  have hout : (c.evaluateRegisters true).outputs = c.outputs := by
    rw [outputs, hs, hb, hw]
    rfl
  rw [← hout]
  exact evaluate_high_registers hstay i

theorem phase_low_outputs (c : InstructionCacheController g) (is : List (RefillInputs g)) :
    (c.phase false is).outputs = c.outputs := by
  induction is generalizing c with
  | nil => rfl
  | cons i is ih =>
      rw [phase, List.foldl_cons, ← phase, ih]
      exact (evaluate_low_position c i).1

theorem phase_high_outputs (h : AtLevel true c) (is : List (RefillInputs g)) :
    (c.phase true is).outputs = c.outputs ∧ AtLevel true (c.phase true is) := by
  induction is generalizing c with
  | nil => exact ⟨rfl, h⟩
  | cons i is ih =>
      obtain ⟨hout, hlevel⟩ := evaluate_high_position h i
      rw [phase, List.foldl_cons, ← phase, ← hout]
      exact ih hlevel

/-- A cycle moves the registers by the last inputs of its LOW phase. -/
theorem cycle_outputs (c : InstructionCacheController g) (y : RefillCycle g) :
    (c.cycle y).outputs = next c.outputs y.settled := by
  obtain ⟨-, hcap, hlow⟩ := evaluate_low_position (c.phase false y.low) y.settled
  obtain ⟨hedge, hlevel⟩ := evaluate_edge_position (c := c.lowPhase y) hlow y.edge
  rw [cycle, (phase_high_outputs hlevel y.high).1, hedge, lowPhase, hcap, phase_low_outputs]

/-! ## The buffer over a cycle -/

/-- The controller with an empty cache, which no register and no buffer looks at. -/
def emptied (c : InstructionCacheController g) : InstructionCacheController g :=
  { c with cache := {} }

/-- The buffer fits the position, as far as the refill has come. -/
def Filling (M : Nat → Word) (c : InstructionCacheController g) : Prop := c.emptied.Coherent M

theorem Coherent.emptied (h : c.Coherent M) : c.emptied.Coherent M := by
  refine ⟨h.driven, h.captured, h.lineBase_level, h.refillWord_level, h.address, ?_⟩
  intro i _ hvalid
  cases hvalid

/-- What the combinational part leaves does not depend on the cache, which it only fills. -/
theorem combinational_emptied (c : InstructionCacheController g) (i : ControllerInputs g) :
    (c.emptied.combinational i).emptied = (c.combinational i).emptied := by
  have hstate : c.emptied.defaults.stateRegister.output = c.stateRegister.output := rfl
  have hstate' : c.defaults.stateRegister.output = c.stateRegister.output := rfl
  rw [combinational, combinational, hstate, hstate']
  cases i.reset <;> cases c.stateRegister.output with
  | IDLE =>
      simp only [evaluateIdle]
      cases i.miss <;> rfl
  | REFILL_REQUEST => rfl
  | REFILL_WAIT =>
      simp only [evaluateRefillWait]
      cases i.memoryResponse <;> rfl
  | INSTALL => rfl
  | COMPLETE => rfl

theorem evaluate_emptied (c : InstructionCacheController g) (i : ControllerInputs g) :
    (c.emptied.evaluate i).emptied = (c.evaluate i).emptied := by
  have hcomb := combinational_emptied (c.evaluateRegisters i.clock) i
  have hregs : ∀ d e : InstructionCacheController g, d.emptied = e.emptied →
      (d.evaluateRegisters i.clock).emptied = (e.evaluateRegisters i.clock).emptied := by
    intro d e hde
    show d.emptied.evaluateRegisters i.clock = e.emptied.evaluateRegisters i.clock
    rw [hde]
  exact hregs _ _ hcomb

/-- An evaluation keeps the buffer right. -/
theorem Filling.evaluate (hwidth : g.InstructionsPerLine ≤ 256) (h : Filling M c)
    {i : ControllerInputs g} (hresp : c.Responds M i) : Filling M (c.evaluate i) := by
  rw [Filling, ← evaluate_emptied]
  apply Coherent.emptied
  cases hclock : i.clock with
  | false => exact Coherent.evaluate_low hwidth h hclock hresp
  | true => exact Coherent.evaluate_high h hclock

/-- Out of `IDLE` the first evaluation with the clock LOW makes it right. -/
theorem filling_of_idle (hwidth : g.InstructionsPerLine ≤ 256) (h : c.state = .IDLE)
    {i : RefillInputs g} (hresp : c.Responds M (i.at false)) :
    Filling M (c.evaluate (i.at false)) := by
  -- a LOW evaluation overwrites whatever the registers have captured
  let d : InstructionCacheController g :=
    { c.emptied with
      stateRegister := ⟨c.stateRegister.captured, c.stateRegister.output, true⟩
      lineBaseRegister := ⟨c.lineBaseRegister.captured, c.lineBaseRegister.output, true⟩
      refillWordRegister := ⟨c.refillWordRegister.captured, c.refillWordRegister.output, true⟩ }
  have hstate : d.stateRegister.output = .IDLE := h
  have hd : d.Coherent M := by
    refine ⟨?_, ?_, rfl, rfl, ?_, ?_⟩
    · rw [hstate]
      exact trivial
    · intro hlow
      cases hlow
    · intro hwait
      rw [hstate] at hwait
      cases hwait
    · intro j _ hvalid
      cases hvalid
  have hstep : (d.evaluate (i.at false)).Coherent M := hd.evaluate_low hwidth rfl hresp
  rw [Filling, ← evaluate_emptied]
  exact hstep.emptied

theorem Filling.phase_low (hwidth : g.InstructionsPerLine ≤ 256) (h : Filling M c)
    {is : List (RefillInputs g)} (hresp : c.PhaseResponds M is) :
    Filling M (c.phase false is) := by
  induction is generalizing c with
  | nil => exact h
  | cons i is ih => exact ih (h.evaluate hwidth hresp.1) hresp.2

theorem Filling.phase_high (hwidth : g.InstructionsPerLine ≤ 256) (h : Filling M c)
    (is : List (RefillInputs g)) : Filling M (c.phase true is) := by
  induction is generalizing c with
  | nil => exact h
  | cons i is ih =>
      apply ih
      apply h.evaluate hwidth
      intro hlow
      cases hlow

/-- A cycle keeps the buffer right, or makes it right. -/
theorem filling_cycle (hwidth : g.InstructionsPerLine ≤ 256) {y : RefillCycle g}
    (h : Filling M c ∨ c.state = .IDLE) (hresp : c.PhaseResponds M (y.low ++ [y.settled])) :
    Filling M (c.cycle y) := by
  have hlow : c.lowPhase y = c.phase false (y.low ++ [y.settled]) := by
    rw [lowPhase, phase, phase, List.foldl_append]
    rfl
  have hfilled : Filling M (c.lowPhase y) := by
    rw [hlow]
    obtain hfill | hidle := h
    · exact hfill.phase_low hwidth hresp
    · cases his : y.low ++ [y.settled] with
      | nil => exact absurd his (by simp)
      | cons i is =>
          rw [his] at hresp
          exact (filling_of_idle hwidth hidle hresp.1).phase_low hwidth hresp.2
  -- no response is taken on the edge
  have hedge : Filling M ((c.lowPhase y).evaluate (y.edge.at true)) := by
    apply hfilled.evaluate hwidth
    intro hlow
    cases hlow
  exact hedge.phase_high hwidth y.high

/-! ## The request loop -/

variable {cycles : Nat → RefillCycle g} {bound : Nat} {a : BitVec g.CPUAddressWidth}

theorem after_succ_outputs (c : InstructionCacheController g) (cycles : Nat → RefillCycle g)
    (n : Nat) : (after c cycles (n + 1)).outputs =
      next (after c cycles n).outputs (cycles n).settled := cycle_outputs _ _

/-- The states up to cycle `n` are in the request loop, with `w` responses behind them and the
    position `p` at cycle `n`. -/
structure InLoop (c : InstructionCacheController g) (cycles : Nat → RefillCycle g) (n w : Nat)
    (p : RefillPosition g) : Prop where
  position : (after c cycles n).outputs = p
  loop : ∀ m, 0 < m → m < n →
    (after c cycles m).state = .REFILL_REQUEST ∨ (after c cycles m).state = .REFILL_WAIT
  responses : Nat.count (c.Responded cycles) n = w

/-- One more cycle in the loop. -/
theorem InLoop.step {n w : Nat} {p : RefillPosition g} (h : InLoop c cycles n w p)
    (hp : n = 0 ∨ p.state = .REFILL_REQUEST ∨ p.state = .REFILL_WAIT) :
    InLoop c cycles (n + 1)
      (w + if p.state = .REFILL_WAIT ∧ (cycles n).settled.memoryResponse = true then 1 else 0)
      (next p (cycles n).settled) := by
  have hstate : (after c cycles n).state = p.state := congrArg RefillPosition.state h.position
  refine ⟨?_, ?_, ?_⟩
  · rw [after_succ_outputs, h.position]
  · intro m hpos hm
    obtain hlt | rfl := Nat.lt_succ_iff_lt_or_eq.mp hm
    · exact h.loop m hpos hlt
    · rw [hstate]
      obtain rfl | hp := hp
      · omega
      · exact hp
  · rw [Nat.count_succ, h.responses]
    simp only [Responded, hstate]

/-- The first cycle: the miss is accepted. -/
theorem inLoop_start (hidle : c.state = .IDLE) (hmiss : (cycles 0).settled.miss = true)
    (ha : (cycles 0).settled.missAddress = a) :
    InLoop c cycles 1 0 ⟨.REFILL_REQUEST, BitVec.ofNat _ (lineBase g a.toNat), 0⟩ := by
  have hzero : InLoop c cycles 0 0 c.outputs := by
    refine ⟨rfl, ?_, rfl⟩
    intro m _ hm
    omega
  have hone := hzero.step (Or.inl rfl)
  have hstate : c.outputs.state = .IDLE := hidle
  rw [hstate, next, hstate, hmiss, ha] at hone
  exact hone

/-- The controller waits until the memory answers. -/
theorem InLoop.wait {n w k : Nat} {p : RefillPosition g} (h : InLoop c cycles n w p)
    (hp : p.state = .REFILL_WAIT) (hresp : (cycles (n + k)).settled.memoryResponse = true) :
    ∃ m, n ≤ m ∧ InLoop c cycles m w p ∧ (cycles m).settled.memoryResponse = true := by
  induction k generalizing n with
  | zero => exact ⟨n, le_rfl, h, hresp⟩
  | succ k ih =>
      cases hr : (cycles n).settled.memoryResponse with
      | true => exact ⟨n, le_rfl, h, hr⟩
      | false =>
          have hstay := h.step (Or.inr (Or.inr hp))
          rw [hr, next, hp] at hstay
          simp only [Bool.false_eq_true, and_false, if_false, hr, Nat.add_zero] at hstay
          obtain ⟨m, hm, hloop, hdone⟩ := ih hstay (by rw [← hresp]; congr 3; omega)
          exact ⟨m, by omega, hloop, hdone⟩

/-- A word is asked for, waited for and counted. -/
theorem InLoop.word (hserves : Serves M bound c cycles) {n w : Nat} {b : BitVec g.CPUAddressWidth}
    {word : BitVec 8} (h : InLoop c cycles n w ⟨.REFILL_REQUEST, b, word⟩) :
    ∃ m, n < m ∧ InLoop c cycles m (w + 1)
      ⟨if g.InstructionsPerLine ≤ word.toNat + 1 then .INSTALL else .REFILL_REQUEST, b,
        BitVec.ofNat 8 (word.toNat + 1)⟩ := by
  have hwait : InLoop c cycles (n + 1) w ⟨.REFILL_WAIT, b, word⟩ := h.step (Or.inr (Or.inl rfl))
  obtain ⟨k, -, hk⟩ := hserves.bounded (n + 1) (congrArg RefillPosition.state hwait.position)
  obtain ⟨m, hm, hloop, hresp⟩ := hwait.wait rfl hk
  have hnext := hloop.step (Or.inr (Or.inr rfl))
  rw [hresp, next, hresp] at hnext
  exact ⟨m + 1, by omega, hnext⟩

/-- As long as the counter does not wrap, the loop asks for one word after the other. -/
theorem inLoop_words (hwidth : g.InstructionsPerLine ≤ 256) (hserves : Serves M bound c cycles)
    (hidle : c.state = .IDLE) (hmiss : (cycles 0).settled.miss = true)
    (ha : (cycles 0).settled.missAddress = a) {w : Nat} (hw : w < g.InstructionsPerLine) :
    ∃ n, 0 < n ∧ InLoop c cycles n w
      ⟨.REFILL_REQUEST, BitVec.ofNat _ (lineBase g a.toNat), BitVec.ofNat 8 w⟩ := by
  induction w with
  | zero => exact ⟨1, Nat.one_pos, inLoop_start hidle hmiss ha⟩
  | succ w ih =>
      obtain ⟨n, hn, hloop⟩ := ih (by omega)
      obtain ⟨m, hm, hnext⟩ := hloop.word hserves
      have hword : (BitVec.ofNat 8 w).toNat = w := by
        rw [BitVec.toNat_ofNat]
        omega
      rw [hword, if_neg (by omega)] at hnext
      exact ⟨m, by omega, hnext⟩

/-! ## Completion -/

theorem filling_after (hwidth : g.InstructionsPerLine ≤ 256) (hserves : Serves M bound c cycles)
    (hidle : c.state = .IDLE) (n : Nat) : Filling M (after c cycles (n + 1)) := by
  induction n with
  | zero => exact filling_cycle hwidth (Or.inr hidle) (hserves.words 0)
  | succ n ih => exact filling_cycle hwidth (Or.inl ih) (hserves.words (n + 1))

/-- The line of an address, counted in words. -/
theorem lineBase_words (a : BitVec g.CPUAddressWidth) :
    (BitVec.ofNat g.CPUAddressWidth (lineBase g a.toNat)).toNat / 4 =
      a.toNat / g.LineBytes * g.InstructionsPerLine := by
  have hlt : a.toNat / g.LineBytes * g.LineBytes < 2 ^ g.CPUAddressWidth :=
    Nat.lt_of_le_of_lt (Nat.div_mul_le_self _ _) a.isLt
  rw [lineBase_eq g a.isLt, BitVec.toNat_ofNat, Nat.mod_eq_of_lt hlt]
  have hbytes : a.toNat / g.LineBytes * g.LineBytes =
      a.toNat / g.LineBytes * g.InstructionsPerLine * 4 := by
    rw [Nat.mul_assoc, Nat.mul_comm g.InstructionsPerLine]
    rfl
  rw [hbytes, Nat.mul_div_cancel _ (by decide)]

/-- A line of at most 256 words is refilled. -/
theorem completes_of_narrow (hwidth : g.InstructionsPerLine ≤ 256)
    (hserves : Serves M bound c cycles) (hidle : c.state = .IDLE)
    (hmiss : (cycles 0).settled.miss = true) (ha : (cycles 0).settled.missAddress = a) :
    Completes M a c cycles := by
  have hpos := g.instructionsPerLine_pos
  obtain ⟨n, hn, hloop⟩ := inLoop_words hwidth hserves hidle hmiss ha
    (show g.InstructionsPerLine - 1 < g.InstructionsPerLine by omega)
  obtain ⟨T, hT, hend⟩ := hloop.word hserves
  -- the counter of the last word has not wrapped, and one more word fills the line
  have hlast : (BitVec.ofNat 8 (g.InstructionsPerLine - 1)).toNat + 1 =
      g.InstructionsPerLine := by
    rw [BitVec.toNat_ofNat]
    omega
  rw [hlast, if_pos le_rfl] at hend
  have hstate : (after c cycles T).state = .INSTALL :=
    congrArg RefillPosition.state hend.position
  have hcomplete : (after c cycles (T + 1)).outputs.state = .COMPLETE := by
    rw [after_succ_outputs, hend.position]
    rfl
  have hdone : (after c cycles (T + 2)).outputs.state = .IDLE := by
    rw [after_succ_outputs, next, hcomplete]
  refine ⟨T, hend.loop, hstate, ?_, ?_, hcomplete, hdone⟩
  · rw [hend.responses]
    omega
  · obtain ⟨k, rfl⟩ : ∃ k, T = k + 1 := ⟨T - 1, by omega⟩
    have hdriven := (filling_after hwidth hserves hidle k).driven
    have hinstall : (after c cycles (k + 1)).emptied.stateRegister.output = .INSTALL := hstate
    have hbase : (after c cycles (k + 1)).lineBaseRegister.output =
      BitVec.ofNat _ (lineBase g a.toNat) := congrArg RefillPosition.base hend.position
    rw [hinstall] at hdriven
    intro j hj
    rw [← lineBase_words, ← hbase]
    exact hdriven.words j hj

/-- On a line of more than 256 words the 8-bit counter never gets to its end. -/
theorem never_installs (hwide : 256 < g.InstructionsPerLine) (hidle : c.state = .IDLE) (n : Nat) :
    (after c cycles n).state = .IDLE ∨ (after c cycles n).state = .REFILL_REQUEST ∨
      (after c cycles n).state = .REFILL_WAIT := by
  induction n with
  | zero => exact Or.inl hidle
  | succ n ih =>
      show (after c cycles (n + 1)).outputs.state = _ ∨ (after c cycles (n + 1)).outputs.state = _ ∨
        (after c cycles (n + 1)).outputs.state = _
      rw [after_succ_outputs]
      obtain hs | hs | hs := ih
      · have hstate : (after c cycles n).outputs.state = .IDLE := hs
        simp only [next, hstate]
        split
        · exact Or.inr (Or.inl rfl)
        · exact Or.inl hstate
      · have hstate : (after c cycles n).outputs.state = .REFILL_REQUEST := hs
        simp only [next, hstate]
        exact Or.inr (Or.inr trivial)
      · have hstate : (after c cycles n).outputs.state = .REFILL_WAIT := hs
        have hword := (after c cycles n).outputs.word.isLt
        -- the word counter has eight bits and wraps below the length of the line
        have hshort : ¬g.InstructionsPerLine ≤ (after c cycles n).outputs.word.toNat + 1 := by
          omega
        simp only [next, hstate, if_neg hshort]
        split
        · exact Or.inr (Or.inl rfl)
        · exact Or.inr (Or.inr hstate)

theorem not_completes_of_wide (hwide : 256 < g.InstructionsPerLine) (hidle : c.state = .IDLE)
    (M : Nat → Word) (a : BitVec g.CPUAddressWidth) : ¬Completes M a c cycles := by
  rintro ⟨T, -, hinstall, -⟩
  have hloop : (after c cycles T).state = .IDLE ∨ (after c cycles T).state = .REFILL_REQUEST ∨
      (after c cycles T).state = .REFILL_WAIT := never_installs hwide hidle T
  rcases hloop with hs | hs | hs
  · rw [hs] at hinstall
    cases hinstall
  · rw [hs] at hinstall
    cases hinstall
  · rw [hs] at hinstall
    cases hinstall

/-- For every geometry the `static_assert`s accept, every memory and bound, every controller
    in `IDLE`, every miss address and every run of cycles in which the memory answers: the
    refill completes exactly when the line has at most 256 words. -/
theorem refill_completes_iff (hidle : c.state = .IDLE) (hmiss : (cycles 0).settled.miss = true)
    (ha : (cycles 0).settled.missAddress = a) (hserves : Serves M bound c cycles) :
    Completes M a c cycles ↔ g.InstructionsPerLine ≤ 256 := by
  constructor
  · intro hcompletes
    by_contra hwide
    exact not_completes_of_wide (by omega) hidle M a hcompletes
  · intro hwidth
    exact completes_of_narrow hwidth hserves hidle hmiss ha

/-- A cycle in which the memory answers at once with the word at the address on the bus. -/
def reply (M : Nat → Word) (a : BitVec g.CPUAddressWidth) (c : InstructionCacheController g)
    (miss : Bool) : RefillCycle g where
  settled :=
    { miss := miss, missAddress := a, memoryResponse := true,
      memoryInstruction := M (c.memoryAddress.toNat / 4) }

/-- The controller after `n` such cycles, of which the first reports the miss. -/
def answered (M : Nat → Word) (a : BitVec g.CPUAddressWidth) (c : InstructionCacheController g) :
    Nat → InstructionCacheController g
  | 0 => c
  | n + 1 => (answered M a c n).cycle (reply M a (answered M a c n) (n == 0))

/-- The cycles of a memory that answers at once. -/
def answering (M : Nat → Word) (a : BitVec g.CPUAddressWidth) (c : InstructionCacheController g)
    (n : Nat) : RefillCycle g :=
  reply M a (answered M a c n) (n == 0)

theorem after_answering (M : Nat → Word) (a : BitVec g.CPUAddressWidth)
    (c : InstructionCacheController g) (n : Nat) :
    after c (answering M a c) n = answered M a c n := by
  induction n with
  | zero => rfl
  | succ n ih =>
      rw [after, ih]
      rfl

theorem serves_answering (M : Nat → Word) (a : BitVec g.CPUAddressWidth)
    (c : InstructionCacheController g) : Serves M 1 c (answering M a c) := by
  refine ⟨?_, ?_⟩
  · intro n
    rw [after_answering]
    exact ⟨fun _ _ => rfl, trivial⟩
  · intro n _
    exact ⟨0, Nat.one_pos, rfl⟩

/-- A refill of a line of eight different words runs to its end. -/
theorem refill_completes_iff_small :
    Completes (fun n => BitVec.ofNat 32 (n + 100)) 36
      ({} : InstructionCacheController smallGeometry)
      (answering (fun n => BitVec.ofNat 32 (n + 100)) 36 {}) :=
  (refill_completes_iff rfl rfl rfl (serves_answering _ 36 {})).mpr (by decide)

/-- Four lines of 512 words, with 32-bit addresses. -/
def wideGeometry : CacheGeometry where
  CPUAddressWidth := 32
  NumLines := 4
  InstructionsPerLine := 512
  numLines_pow := ⟨2, rfl⟩
  instructionsPerLine_pow := ⟨9, rfl⟩
  address_fits := by decide
  line_fits := by decide +kernel

/-- With lines of 512 words a miss of address 0 is answered word after word and never
    installed: after word 255 the counter is 0 again. -/
theorem wide_line_never_completes :
    let c : InstructionCacheController wideGeometry := {}
    Serves (fun _ => 7) 1 c (answering (fun _ => 7) 0 c) ∧
      (answering (fun _ => 7) 0 c 0).settled.miss = true ∧
      (∀ n, (after c (answering (fun _ => 7) 0 c) n).state ≠ .INSTALL) ∧
      ¬Completes (fun _ => 7) 0 c (answering (fun _ => 7) 0 c) := by
  intro c
  refine ⟨serves_answering _ 0 c, rfl, ?_, ?_⟩
  · intro n hinstall
    have hwide : 256 < wideGeometry.InstructionsPerLine := by decide
    have hloop : (after c (answering (fun _ => 7) 0 c) n).state = .IDLE ∨
        (after c (answering (fun _ => 7) 0 c) n).state = .REFILL_REQUEST ∨
        (after c (answering (fun _ => 7) 0 c) n).state = .REFILL_WAIT :=
      never_installs hwide rfl n
    rw [hinstall] at hloop
    simp at hloop
  · exact not_completes_of_wide (by decide) rfl _ _

end InstructionCacheController

end CpuSim.SuperScalar
