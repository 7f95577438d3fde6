/-
  CpuSim.Benchmarks.Loops

  The loops of the benchmarks for every count: Fibonacci numbers, factorials by repeated
  addition and the sum of an array, on each of the three CPUs, with the cycles they take.
-/

import CpuSim.Benchmarks.Runner
import Mathlib.Data.Nat.Fib.Basic
import Mathlib.Data.Nat.Factorial.Basic

namespace CpuSim.Benchmarks

open Isa (State)
open Lib (Triple)
open Logic.Memory (upperHalf wordOf)
open InstructionDecoder (decode)
open DecodedInstruction

/-! ## Counts -/

/-- `li rd, n`. -/
@[irreducible] def liWord (rd : Register) (n : Nat) : Word :=
  Assembler.encode (Assembler.instructionOf .LI rd 0 0 (BitVec.ofNat 32 n))

theorem decode_liWord (rd : Register) {n : Nat} (hn : n < 2 ^ 17) :
    decode ⟨liWord rd n⟩ = li rd (BitVec.ofNat 32 n) := by
  have hfits : Assembler.Fits 18 (BitVec.ofNat 32 n) := by
    have hnat : (BitVec.ofNat 32 n).toNat = n := by
      rw [BitVec.toNat_ofNat]
      omega
    rw [Assembler.Fits, BitVec.toInt_eq_toNat_of_lt (by omega), hnat]
    omega
  rw [liWord]
  exact Assembler.decode_encode (by exact rfl) rd 0 0 hfits

theorem portable_liWord {rd : Register} (hrd : rd ≠ 15) {n : Nat} (hn : n < 2 ^ 17) :
    PortableWord (liWord rd n) := by
  rw [PortableWord, decode_liWord rd hn]
  exact ⟨nofun, fun _ => hrd, fun h => by rcases h with h | h <;> cases h⟩

/-- A program with a count. -/
theorem portable_of_count {pre post : List Word} {rd : Register} {n : Nat}
    (hpre : Portable pre = true) (hpost : Portable post = true) (hrd : rd ≠ 15)
    (hn : n < 2 ^ 17) : Portable (pre ++ liWord rd n :: post) = true := by
  rw [Portable, List.all_append, List.all_cons, decide_eq_true (portable_liWord hrd hn),
    Bool.true_and, Bool.and_eq_true]
  exact ⟨hpre, hpost⟩

theorem ofNat_succ_sub_one (k : Nat) : BitVec.ofNat 32 (k + 1) - 1 = BitVec.ofNat 32 k := by
  rw [BitVec.ofNat_add]
  exact BitVec.add_sub_cancel _ _

theorem ofNat_eq_zero {k : Nat} (hk : k < 2 ^ 32) : BitVec.ofNat 32 k = 0 ↔ k = 0 := by
  rw [← BitVec.toNat_inj, BitVec.toNat_ofNat, Nat.mod_eq_of_lt hk]
  rfl

/-! ## Fibonacci numbers -/

/-- `fibonacci` with another count. -/
def fibonacciWords (n : Nat) : List Word :=
  [0x1C400000, 0x1C800001] ++ liWord 3 n ::
    [0x1D000001, 0x05448000, 0x04480000, 0x04940000, 0x08CD0000, 0x30C3FFFC, 0x38000000]

/-- In front of the loop body, `k` passes to go: `F(n - k)` in r1, `F(n - k + 1)` in r2. -/
structure FibonacciLoop (n k : Nat) (s : State) : Prop where
  pc : s.pc = if k = 0 then 9 else 4
  zero : s.regs 0 = 0
  one : s.regs 4 = 1
  count : s.regs 3 = BitVec.ofNat 32 k
  current : s.regs 1 = BitVec.ofNat 32 (Nat.fib (n - k))
  next : s.regs 2 = BitVec.ofNat 32 (Nat.fib (n - k + 1))

theorem fibonacci_start {n : Nat} (hpos : 0 < n) (hn : n < 2 ^ 17) (memory : Nat → Word) :
    ProgramTriple (fibonacciWords n) 4 (16, 0)
      (fun s => s.pc = 0 ∧ s.regs 0 = 0 ∧ s.memory = memory)
      (fun s => FibonacciLoop n n s ∧ s.memory = memory) := by
  have hcode : CodeAt (fibonacciWords n) 0 [li 1 0, li 2 1, li 3 (BitVec.ofNat 32 n), li 4 1] := by
    refine ⟨((fibonacciWords n).drop 4).map fun word => decode ⟨word⟩, ?_⟩
    rw [← decode_liWord 3 hn]
    rfl
  apply triple_block hcode (Nat.le_of_ble_eq_true rfl) rfl
  rintro s ⟨hpc, hzero, rfl⟩
  refine ⟨hpc, ?_, ?_, ?_⟩
  · simp [AccessesAlong]
  · simp [blockCharge]
  · refine ⟨⟨?_, ?_, ?_, ?_, ?_, ?_⟩, ?_⟩
    all_goals simp [hpc, hzero, hpos.ne']

theorem fibonacci_pass {n k : Nat} (hk : k < n) (hn : n < 2 ^ 17) (memory : Nat → Word) :
    ProgramTriple (fibonacciWords n) 5 (19, if k = 0 then 0 else 2)
      (fun s => FibonacciLoop n (k + 1) s ∧ s.memory = memory)
      (fun s => FibonacciLoop n k s ∧ s.memory = memory) := by
  have hcode : CodeAt (fibonacciWords n) 4
      [add 5 1 2, add 1 2 0, add 2 5 0, sub 3 3 4, .bne 3 0 (-4)] := by
    refine ⟨[decode ⟨0x38000000⟩], ?_⟩
    show _ = [_, _, _, _, _, _]
    decide
  apply triple_block hcode (Nat.le_of_ble_eq_true rfl) rfl
  rintro s ⟨⟨hpc, hzero, hone, hcount, hcurrent, hnext⟩, rfl⟩
  have hstep : n - k = n - (k + 1) + 1 := by omega
  have hcount' : s.regs 3 - s.regs 4 = BitVec.ofNat 32 k := by
    rw [hcount, hone, ofNat_succ_sub_one]
  have hdone : s.regs 3 - s.regs 4 = 0#32 ↔ k = 0 := by
    rw [hcount']
    exact ofNat_eq_zero (by omega)
  refine ⟨hpc, ?_, ?_, ?_⟩
  · simp [AccessesAlong]
  · simp [blockCharge, hzero, hdone]
  · refine ⟨⟨?_, ?_, ?_, ?_, ?_, ?_⟩, ?_⟩
    · simp [hpc, hzero, hdone]
    · simp [hzero]
    · simp [hone]
    · simp [hcount']
    · simp [hzero, hnext, hstep]
    · simp [hzero, hcurrent, hnext, hstep, Nat.fib_add_two, BitVec.ofNat_add]
    · simp

/-- Where it ends. -/
def FibonacciDone (n : Nat) (memory : Nat → Word) (s : State) : Prop :=
  s.pc = 9 ∧ s.regs 2 = BitVec.ofNat 32 (Nat.fib (n + 1)) ∧ s.memory = memory

theorem fibonacci_triple {n : Nat} (hpos : 0 < n) (hn : n < 2 ^ 17) (memory : Nat → Word) :
    ProgramTriple (fibonacciWords n) (4 + 5 * n) (16 + 19 * n, 2 * (n - 1))
      (fun s => s.pc = 0 ∧ s.regs 0 = 0 ∧ s.memory = memory) (FibonacciDone n memory) := by
  have hloop : ProgramTriple (fibonacciWords n) (∑ k ∈ Finset.range n, 5)
      (∑ k ∈ Finset.range n, (19, if k = 0 then 0 else 2))
      (fun s => FibonacciLoop n n s ∧ s.memory = memory)
      (fun s => FibonacciLoop n 0 s ∧ s.memory = memory) :=
    Triple.countdown (I := fun k s => FibonacciLoop n k s ∧ s.memory = memory)
      fun k hk => fibonacci_pass hk hn memory
  have htime : ∑ k ∈ Finset.range n, 5 = 5 * n := by
    rw [Finset.sum_const, Finset.card_range, smul_eq_mul, Nat.mul_comm]
  -- every pass but the last branches back
  have hcost : ∀ m : Nat, ∑ k ∈ Finset.range m, (19, if k = 0 then 0 else 2) =
      ((19 * m, 2 * (m - 1)) : Nat × Nat) := by
    intro m
    induction m with
    | zero => rfl
    | succ m ih =>
        rw [Finset.sum_range_succ, ih]
        cases m with
        | zero => rfl
        | succ m =>
            rw [if_neg (Nat.succ_ne_zero m), Prod.mk_add_mk, Nat.add_sub_cancel,
              Nat.add_sub_cancel]
            rfl
  rw [htime, hcost] at hloop
  have hall := (fibonacci_start hpos hn memory).trans hloop
  have hzero : 0 + 2 * (n - 1) = 2 * (n - 1) := Nat.zero_add _
  rw [Prod.mk_add_mk, hzero] at hall
  apply hall.consequence fun _ hs => hs
  rintro s ⟨⟨hpc, -, -, -, -, hnext⟩, hmemory⟩
  exact ⟨hpc, hnext, hmemory⟩

theorem fibonacci_program {n : Nat} (hn : n < 2 ^ 17) : Program (fibonacciWords n) 9 where
  length := Nat.le_of_ble_eq_true rfl
  portable := portable_of_count (by decide) (by decide) (by decide) hn
  halt := ⟨[], rfl⟩

/-- The cycles of the Fibonacci benchmark with count `n`. -/
def fibonacciCycles (n : Nat) : Organisation → Nat
  | .singleCycle => 5 * n + 4
  | .multiCycle => 19 * n + 18
  | .pipelined => 7 * n + 6

/-- For every count, from all registers with r0 at zero and any memory, the benchmark ends on
    each CPU with `F(n + 1)` modulo `2^32` in r2 and the RAM as it was. -/
theorem fibonacci_everywhere {n : Nat} (hpos : 0 < n) (hn : n < 2 ^ 17) (o : Organisation)
    {regs : Register → Word} (hzero : regs 0 = 0) (memory : Nat → Word) (maxCycles : Nat) :
    let out := runOn o ((fibonacciWords n).map o.word) regs memory maxCycles
    out.cycles = min maxCycles (fibonacciCycles n o) ∧
      (out.halted = true ↔ fibonacciCycles n o ≤ maxCycles) ∧
      (fibonacciCycles n o ≤ maxCycles →
        out.registers 2 = BitVec.ofNat 32 (Nat.fib (n + 1)) ∧ SameRam memory out.memory) := by
  have hstart : (startState regs memory).pc = 0 ∧ (startState regs memory).regs 0 = 0 ∧
      (startState regs memory).memory = memory := ⟨rfl, hzero, rfl⟩
  have hcycles : o.cycles (4 + 5 * n) (16 + 19 * n, 2 * (n - 1)) = fibonacciCycles n o := by
    cases o with
    | singleCycle | multiCycle | pipelined =>
        rw [Organisation.cycles, fibonacciCycles]
        omega
  obtain ⟨helapsed, hhalted, hshows⟩ := runOn_of_triple (fibonacci_program hn)
    (fibonacci_triple hpos hn memory) (fun _ hq => hq.1) hstart o maxCycles
  rw [hcycles] at helapsed hhalted hshows
  refine ⟨helapsed, hhalted, fun hle => ?_⟩
  obtain ⟨s, ⟨-, hresult, hmemory⟩, hregs, hram⟩ := hshows hle
  rw [hregs]
  rw [hmemory] at hram
  exact ⟨hresult, hram⟩

/-- Seven passes on the pipelined CPU: 21 after 55 cycles. -/
theorem fibonacci_everywhere_seven :
    let out := runOn .pipelined ((fibonacciWords 7).map Organisation.pipelined.word) zeroRegisters
      (fun _ => 0) 50000
    out.cycles = 55 ∧ out.registers 2 = 21 := by
  obtain ⟨hcycles, -, hdone⟩ :=
    fibonacci_everywhere (n := 7) (by decide) (by decide) .pipelined
      (show zeroRegisters 0 = 0 from rfl) (fun _ => 0) 50000
  exact ⟨hcycles, (hdone (by decide)).1⟩

/-! ## Factorials -/

/-- `factorial` behind the count. -/
def factorialBody : List Word :=
  [0x1C800001, 0x1D400001, 0x2C40000B, 0x04C80000, 0x1D000000, 0x05840000, 0x2D800004, 0x0510C000,
    0x09994000, 0x2C03FFFD, 0x04900000, 0x08454000, 0x2C03FFF6, 0x38000000]

theorem factorialBody_decoded : (factorialBody.map fun word => decode ⟨word⟩) =
    [li 2 1, li 5 1, .beq 1 0 11, add 3 2 0, li 4 0, add 6 1 0, .beq 6 0 4, add 4 4 3, sub 6 6 5,
      .beq 0 0 (-3), add 2 4 0, sub 1 1 5, .beq 0 0 (-10), decode ⟨0x38000000⟩] := by
  decide

/-- `factorial` with another count. -/
def factorialWords (n : Nat) : List Word := liWord 1 n :: factorialBody

/-- `k` factors to go: `n! / k!` in r2. -/
structure FactorialLoop (memory : Nat → Word) (n k : Nat) (pc : Word) (s : State) : Prop where
  pc : s.pc = pc
  zero : s.regs 0 = 0
  one : s.regs 5 = 1
  left : s.regs 1 = BitVec.ofNat 32 k
  product : s.regs 2 = BitVec.ofNat 32 (n.descFactorial (n - k))
  memory : s.memory = memory

/-- The product times `k + 1`, `m` additions to go. -/
structure MultiplyLoop (memory : Nat → Word) (n k m : Nat) (pc : Word) (s : State) : Prop where
  outer : FactorialLoop memory n (k + 1) pc s
  summand : s.regs 3 = BitVec.ofNat 32 (n.descFactorial (n - (k + 1)))
  sum : s.regs 4 = BitVec.ofNat 32 ((k + 1 - m) * n.descFactorial (n - (k + 1)))
  left : s.regs 6 = BitVec.ofNat 32 m

section Factorial

variable {n k m : Nat} {memory : Nat → Word}

theorem factorial_start (hn : n < 2 ^ 17) :
    ProgramTriple (factorialWords n) 3 (12, 0)
      (fun s => s.pc = 0 ∧ s.regs 0 = 0 ∧ s.memory = memory) (FactorialLoop memory n n 3) := by
  have hcode : CodeAt (factorialWords n) 0 [li 1 (BitVec.ofNat 32 n), li 2 1, li 5 1] := by
    refine ⟨((factorialWords n).drop 3).map fun word => decode ⟨word⟩, ?_⟩
    rw [← decode_liWord 1 hn]
    rfl
  apply triple_block hcode (Nat.le_of_ble_eq_true rfl) rfl
  rintro s ⟨hpc, hzero, rfl⟩
  refine ⟨hpc, ?_, ?_, ?_⟩
  · simp [AccessesAlong]
  · simp [blockCharge]
  · constructor
    all_goals simp [hpc, hzero]

/-- The code behind the count does not depend on it. -/
theorem factorial_code {p : Nat} {is : List DecodedInstruction}
    (h : CodeAt factorialBody p is) : CodeAt (factorialWords n) (p + 1) is := h

/-- The test of the outer loop. -/
theorem factorial_test (hk : k < 2 ^ 32) :
    ProgramTriple (factorialWords n) 1 (3, if k = 0 then 2 else 0) (FactorialLoop memory n k 3)
      (FactorialLoop memory n k (if k = 0 then 14 else 4)) := by
  have hcode : CodeAt (factorialWords n) 3 [.beq 1 0 11] :=
    factorial_code (.of_decoded factorialBody_decoded ⟨_, rfl⟩)
  apply triple_block hcode (Nat.le_of_ble_eq_true rfl) rfl
  rintro s ⟨hpc, hzero, hone, hleft, hproduct, hmemory⟩
  have hdone : s.regs 1 = 0#32 ↔ k = 0 := by
    rw [hleft]
    exact ofNat_eq_zero hk
  refine ⟨hpc, ?_, ?_, ?_⟩
  · simp [AccessesAlong]
  · simp [blockCharge, hzero, hdone]
  · refine ⟨?_, hzero, hone, hleft, hproduct, hmemory⟩
    simp [hpc, hzero, hdone]

theorem multiply_start :
    ProgramTriple (factorialWords n) 3 (12, 0) (FactorialLoop memory n (k + 1) 4)
      (MultiplyLoop memory n k (k + 1) 7) := by
  have hcode : CodeAt (factorialWords n) 4 [add 3 2 0, li 4 0, add 6 1 0] :=
    factorial_code (.of_decoded factorialBody_decoded ⟨_, rfl⟩)
  apply triple_block hcode (Nat.le_of_ble_eq_true rfl) rfl
  rintro s ⟨hpc, hzero, hone, hleft, hproduct, hmemory⟩
  refine ⟨hpc, ?_, ?_, ?_⟩
  · simp [AccessesAlong]
  · simp [blockCharge]
  · refine ⟨⟨?_, ?_, ?_, ?_, ?_, ?_⟩, ?_, ?_, ?_⟩
    all_goals simp [hpc, hzero, hone, hleft, hproduct, hmemory]

/-- The test of the inner loop. -/
theorem multiply_test (hm : m < 2 ^ 32) :
    ProgramTriple (factorialWords n) 1 (3, if m = 0 then 2 else 0) (MultiplyLoop memory n k m 7)
      (MultiplyLoop memory n k m (if m = 0 then 11 else 8)) := by
  have hcode : CodeAt (factorialWords n) 7 [.beq 6 0 4] :=
    factorial_code (.of_decoded factorialBody_decoded ⟨_, rfl⟩)
  apply triple_block hcode (Nat.le_of_ble_eq_true rfl) rfl
  rintro s ⟨⟨hpc, hzero, hone, hleft, hproduct, hmemory⟩, hsummand, hsum, hcount⟩
  have hdone : s.regs 6 = 0#32 ↔ m = 0 := by
    rw [hcount]
    exact ofNat_eq_zero hm
  refine ⟨hpc, ?_, ?_, ?_⟩
  · simp [AccessesAlong]
  · simp [blockCharge, hzero, hdone]
  · refine ⟨⟨?_, hzero, hone, hleft, hproduct, hmemory⟩, hsummand, hsum, hcount⟩
    simp [hpc, hzero, hdone]

theorem multiply_body (hm : m < k + 1) :
    ProgramTriple (factorialWords n) 3 (11, 2) (MultiplyLoop memory n k (m + 1) 8)
      (MultiplyLoop memory n k m 7) := by
  have hcode : CodeAt (factorialWords n) 8 [add 4 4 3, sub 6 6 5, .beq 0 0 (-3)] :=
    factorial_code (.of_decoded factorialBody_decoded ⟨_, rfl⟩)
  apply triple_block hcode (Nat.le_of_ble_eq_true rfl) rfl
  rintro s ⟨⟨hpc, hzero, hone, hleft, hproduct, hmemory⟩, hsummand, hsum, hcount⟩
  have hmore : k + 1 - m = k + 1 - (m + 1) + 1 := by omega
  have hcount' : s.regs 6 - s.regs 5 = BitVec.ofNat 32 m := by
    rw [hcount, hone, ofNat_succ_sub_one]
  have hsum' : s.regs 4 + s.regs 3 =
      BitVec.ofNat 32 ((k + 1 - m) * n.descFactorial (n - (k + 1))) := by
    rw [hsum, hsummand, ← BitVec.ofNat_add, hmore, Nat.succ_mul]
  refine ⟨hpc, ?_, ?_, ?_⟩
  · simp [AccessesAlong]
  · simp [blockCharge]
  · refine ⟨⟨?_, ?_, ?_, ?_, ?_, ?_⟩, ?_, ?_, ?_⟩
    · simp [hpc]
    · simp [hzero]
    · simp [hone]
    · simp [hleft]
    · simp [hproduct]
    · simp [hmemory]
    · simp [hsummand]
    · simp [hsum']
    · simp [hcount']

theorem factorial_next (hk : k < n) :
    ProgramTriple (factorialWords n) 3 (11, 2) (MultiplyLoop memory n k 0 11)
      (FactorialLoop memory n k 3) := by
  have hcode : CodeAt (factorialWords n) 11 [add 2 4 0, sub 1 1 5, .beq 0 0 (-10)] :=
    factorial_code (.of_decoded factorialBody_decoded ⟨_, rfl⟩)
  apply triple_block hcode (Nat.le_of_ble_eq_true rfl) rfl
  rintro s ⟨⟨hpc, hzero, hone, hleft, hproduct, hmemory⟩, hsummand, hsum, hcount⟩
  have hleft' : s.regs 1 - s.regs 5 = BitVec.ofNat 32 k := by
    rw [hleft, hone, ofNat_succ_sub_one]
  have hfactor : n.descFactorial (n - k) = (k + 1) * n.descFactorial (n - (k + 1)) := by
    have hsucc : n - k = n - (k + 1) + 1 := by omega
    have hlast : n - (n - (k + 1)) = k + 1 := by omega
    rw [hsucc, Nat.descFactorial_succ, hlast]
  have hproduct' : s.regs 4 = BitVec.ofNat 32 (n.descFactorial (n - k)) := by
    rw [hsum, hfactor, Nat.sub_zero]
  refine ⟨hpc, ?_, ?_, ?_⟩
  · simp [AccessesAlong]
  · simp [blockCharge]
  · constructor
    · simp [hpc]
    · simp [hzero]
    · simp [hone]
    · simp [hleft']
    · simp [hproduct', hzero]
    · simp [hmemory]

theorem multiply_pass (hm : m < k + 1) (hk : k < 2 ^ 17) :
    ProgramTriple (factorialWords n) 4 (14, 2) (MultiplyLoop memory n k (m + 1) 7)
      (MultiplyLoop memory n k m 7) :=
  Triple.trans (multiply_test (by omega))
    (multiply_body hm)

/-- One factor: its number of additions, and the tests and moves around them. -/
theorem factorial_pass (hk : k < n) (hn : n < 2 ^ 17) :
    ProgramTriple (factorialWords n) (4 * (k + 1) + 8) (14 * (k + 1) + 29, 2 * (k + 1) + 4)
      (FactorialLoop memory n (k + 1) 3) (FactorialLoop memory n k 3) := by
  have htest : ProgramTriple (factorialWords n) 1 (3, 0) (FactorialLoop memory n (k + 1) 3)
      (FactorialLoop memory n (k + 1) 4) := factorial_test (by omega)
  have hloop : ProgramTriple (factorialWords n) (∑ m ∈ Finset.range (k + 1), 4)
      (∑ m ∈ Finset.range (k + 1), (14, 2)) (MultiplyLoop memory n k (k + 1) 7)
      (MultiplyLoop memory n k 0 7) :=
    Triple.countdown (I := fun m => MultiplyLoop memory n k m 7)
      fun m hm => multiply_pass hm (by omega)
  have hexit : ProgramTriple (factorialWords n) 1 (3, 2) (MultiplyLoop memory n k 0 7)
      (MultiplyLoop memory n k 0 11) := multiply_test (by decide)
  have hall := (((htest.trans multiply_start).trans hloop).trans hexit).trans (factorial_next hk)
  rw [Finset.sum_const, Finset.sum_const, Finset.card_range] at hall
  have htime : 1 + 3 + (k + 1) • 4 + 1 + 3 = 4 * (k + 1) + 8 := by
    rw [smul_eq_mul]
    omega
  have hcost : (3, 0) + (12, 0) + (k + 1) • (14, 2) + (3, 2) + (11, 2) =
      ((14 * (k + 1) + 29, 2 * (k + 1) + 4) : Nat × Nat) := by
    simp only [Prod.smul_mk, Prod.mk_add_mk, smul_eq_mul, Prod.mk.injEq]
    omega
  rw [htime, hcost] at hall
  exact hall

end Factorial

/-- Where it ends. -/
def FactorialDone (n : Nat) (memory : Nat → Word) (s : State) : Prop :=
  s.pc = 14 ∧ s.regs 2 = BitVec.ofNat 32 n.factorial ∧ s.memory = memory

theorem factorial_triple {n : Nat} (hn : n < 2 ^ 17) (memory : Nat → Word) :
    ProgramTriple (factorialWords n) (2 * n * n + 10 * n + 4)
      (7 * n * n + 36 * n + 15, n * n + 5 * n + 2)
      (fun s => s.pc = 0 ∧ s.regs 0 = 0 ∧ s.memory = memory) (FactorialDone n memory) := by
  have hloop : ProgramTriple (factorialWords n) (∑ k ∈ Finset.range n, (4 * (k + 1) + 8))
      (∑ k ∈ Finset.range n, (14 * (k + 1) + 29, 2 * (k + 1) + 4)) (FactorialLoop memory n n 3)
      (FactorialLoop memory n 0 3) :=
    Triple.countdown (I := fun k => FactorialLoop memory n k 3) fun k hk => factorial_pass hk hn
  have hexit : ProgramTriple (factorialWords n) 1 (3, 2) (FactorialLoop memory n 0 3)
      (FactorialLoop memory n 0 14) := factorial_test (by decide)
  have htime : ∀ m : Nat, ∑ k ∈ Finset.range m, (4 * (k + 1) + 8) = 2 * m * m + 10 * m := by
    intro m
    induction m with
    | zero => rfl
    | succ m ih =>
        rw [Finset.sum_range_succ, ih]
        ring
  have hcost : ∀ m : Nat, ∑ k ∈ Finset.range m, (14 * (k + 1) + 29, 2 * (k + 1) + 4) =
      ((7 * m * m + 36 * m, m * m + 5 * m) : Nat × Nat) := by
    intro m
    induction m with
    | zero => rfl
    | succ m ih =>
        rw [Finset.sum_range_succ, ih, Prod.mk_add_mk]
        congr 1 <;> ring
  rw [htime, hcost] at hloop
  have hall := ((factorial_start hn).trans hloop).trans hexit
  have hsteps : 3 + (2 * n * n + 10 * n) + 1 = 2 * n * n + 10 * n + 4 := by omega
  have hcharge : (12, 0) + (7 * n * n + 36 * n, n * n + 5 * n) + (3, 2) =
      ((7 * n * n + 36 * n + 15, n * n + 5 * n + 2) : Nat × Nat) := by
    simp only [Prod.mk_add_mk, Prod.mk.injEq]
    omega
  rw [hsteps, hcharge] at hall
  apply hall.consequence fun _ hs => hs
  rintro s ⟨hpc, -, -, -, hproduct, hmemory⟩
  rw [Nat.sub_zero, Nat.descFactorial_self] at hproduct
  exact ⟨hpc, hproduct, hmemory⟩

theorem factorial_program {n : Nat} (hn : n < 2 ^ 17) : Program (factorialWords n) 14 where
  length := Nat.le_of_ble_eq_true rfl
  portable := by
    rw [factorialWords, ← List.nil_append (_ :: _)]
    exact portable_of_count rfl (by decide) (by decide) hn
  halt := factorial_code (.of_decoded factorialBody_decoded ⟨_, rfl⟩)

/-- The cycles of the factorial benchmark with count `n`. -/
def factorialCycles (n : Nat) : Organisation → Nat
  | .singleCycle => 2 * n * n + 10 * n + 4
  | .multiCycle => 7 * n * n + 36 * n + 17
  | .pipelined => 3 * n * n + 15 * n + 10

/-- For every count the factorial benchmark ends on each CPU with `n!` modulo `2^32` in r2 and
    the RAM as it was. -/
theorem factorial_everywhere {n : Nat} (hn : n < 2 ^ 17) (o : Organisation)
    {regs : Register → Word} (hzero : regs 0 = 0) (memory : Nat → Word) (maxCycles : Nat) :
    let out := runOn o ((factorialWords n).map o.word) regs memory maxCycles
    out.cycles = min maxCycles (factorialCycles n o) ∧
      (out.halted = true ↔ factorialCycles n o ≤ maxCycles) ∧
      (factorialCycles n o ≤ maxCycles →
        out.registers 2 = BitVec.ofNat 32 n.factorial ∧ SameRam memory out.memory) := by
  have hstart : (startState regs memory).pc = 0 ∧ (startState regs memory).regs 0 = 0 ∧
      (startState regs memory).memory = memory := ⟨rfl, hzero, rfl⟩
  have hcycles : o.cycles (2 * n * n + 10 * n + 4)
      (7 * n * n + 36 * n + 15, n * n + 5 * n + 2) = factorialCycles n o := by
    cases o with
    | singleCycle => exact Nat.max_eq_left (by omega)
    | multiCycle => rw [Organisation.cycles, factorialCycles]
    | pipelined =>
        rw [Organisation.cycles, factorialCycles]
        ring
  obtain ⟨helapsed, hhalted, hshows⟩ := runOn_of_triple (factorial_program hn)
    (factorial_triple hn memory) (fun _ hq => hq.1) hstart o maxCycles
  rw [hcycles] at helapsed hhalted hshows
  refine ⟨helapsed, hhalted, fun hle => ?_⟩
  obtain ⟨s, ⟨-, hresult, hmemory⟩, hregs, hram⟩ := hshows hle
  rw [hregs]
  rw [hmemory] at hram
  exact ⟨hresult, hram⟩

/-- The multi-cycle CPU takes 372 cycles for `5!`. -/
theorem factorial_everywhere_five :
    let out := runOn .multiCycle ((factorialWords 5).map Organisation.multiCycle.word) zeroRegisters
      (fun _ => 0) 50000
    out.cycles = 372 ∧ out.registers 2 = 120 := by
  obtain ⟨hcycles, -, hdone⟩ :=
    factorial_everywhere (n := 5) (by decide) .multiCycle (show zeroRegisters 0 = 0 from rfl)
      (fun _ => 0) 50000
  exact ⟨hcycles, (hdone (by decide)).1⟩

/-! ## The sum of an array -/

/-- `array_sum` behind the count. -/
def arraySumBody : List Word :=
  [0x1CC00000, 0x1D000001, 0x25440000, 0x04CD4000, 0x04450000, 0x08890000, 0x3083FFFC, 0x28C40010,
    0x38000000]

theorem arraySumBody_decoded : (arraySumBody.map fun word => decode ⟨word⟩) =
    [li 3 0, li 4 1, lw 5 0 1, add 3 3 5, add 1 1 4, sub 2 2 4, .bne 2 0 (-4), sw 3 16 1,
      decode ⟨0x38000000⟩] := by
  decide

/-- `array_sum` with another count. -/
def arraySumWords (n : Nat) : List Word := [0x1C400080] ++ liWord 2 n :: arraySumBody

/-- The words of RAM from `0x80` on. -/
def arraySum (memory : Nat → Word) (n : Nat) : Word := ∑ i ∈ Finset.range n, memory (0x80 + i)

/-- `k` words to go: the sum of the others in r3, the address of the next in r1. -/
structure ArrayLoop (memory : Nat → Word) (n k : Nat) (s : State) : Prop where
  pc : s.pc = if k = 0 then 9 else 4
  zero : s.regs 0 = 0
  one : s.regs 4 = 1
  left : s.regs 2 = BitVec.ofNat 32 k
  address : s.regs 1 = BitVec.ofNat 32 (0x80 + (n - k))
  sum : s.regs 3 = arraySum memory (n - k)
  memory : s.memory = memory

section ArraySum

variable {n k : Nat} {memory : Nat → Word}

/-- The address of a word in the RAM half. -/
theorem wordOf_ofNat {a : Nat} (ha : a < 256) : wordOf 8 (BitVec.ofNat 32 a) = a := by
  rw [wordOf, BitVec.toNat_ofNat]
  omega

theorem upperHalf_of_le {a : Nat} (ha : 128 ≤ a) : upperHalf 8 a = true := by
  rw [upperHalf, decide_eq_true_iff]
  omega

theorem arraySum_code {p : Nat} {is : List DecodedInstruction} (h : CodeAt arraySumBody p is) :
    CodeAt (arraySumWords n) (p + 2) is := h

theorem arraySum_start (hpos : 0 < n) (hn : n < 2 ^ 17) :
    ProgramTriple (arraySumWords n) 4 (16, 0)
      (fun s => s.pc = 0 ∧ s.regs 0 = 0 ∧ s.memory = memory) (ArrayLoop memory n n) := by
  have hcode : CodeAt (arraySumWords n) 0
      [li 1 0x80, li 2 (BitVec.ofNat 32 n), li 3 0, li 4 1] := by
    refine ⟨((arraySumWords n).drop 4).map fun word => decode ⟨word⟩, ?_⟩
    rw [← decode_liWord 2 hn]
    rfl
  apply triple_block hcode (Nat.le_of_ble_eq_true rfl) rfl
  rintro s ⟨hpc, hzero, rfl⟩
  refine ⟨hpc, ?_, ?_, ?_⟩
  · simp [AccessesAlong]
  · simp [blockCharge]
  · constructor
    all_goals simp [hpc, hzero, hpos.ne', arraySum]

theorem arraySum_pass (hk : k < n) (hn : n ≤ 111) :
    ProgramTriple (arraySumWords n) 5 (20, if k = 0 then 1 else 3)
      (ArrayLoop memory n (k + 1)) (ArrayLoop memory n k) := by
  have hcode : CodeAt (arraySumWords n) 4
      [lw 5 0 1, add 3 3 5, add 1 1 4, sub 2 2 4, .bne 2 0 (-4)] :=
    arraySum_code (.of_decoded arraySumBody_decoded ⟨_, rfl⟩)
  apply triple_block hcode (Nat.le_of_ble_eq_true rfl) rfl
  rintro s ⟨hpc, hzero, hone, hleft, haddress, hsum, hmemory⟩
  have hmore : n - k = n - (k + 1) + 1 := by omega
  have hword : wordOf 8 (s.regs 1) = 0x80 + (n - (k + 1)) := by
    rw [haddress]
    exact wordOf_ofNat (by omega)
  have hupper : upperHalf 8 (wordOf 8 (s.regs 1)) = true := by
    rw [hword]
    exact upperHalf_of_le (by omega)
  have hleft' : s.regs 2 - s.regs 4 = BitVec.ofNat 32 k := by
    rw [hleft, hone, ofNat_succ_sub_one]
  have hdone : s.regs 2 - s.regs 4 = 0#32 ↔ k = 0 := by
    rw [hleft']
    exact ofNat_eq_zero (by omega)
  have haddress' : s.regs 1 + s.regs 4 = BitVec.ofNat 32 (0x80 + (n - k)) := by
    rw [haddress, hone, hmore, ← Nat.add_assoc, BitVec.ofNat_add _ 1]
    rfl
  have hsum' : s.regs 3 + s.memory (wordOf 8 (s.regs 1)) = arraySum memory (n - k) := by
    rw [hsum, hword, hmemory, hmore]
    exact (Finset.sum_range_succ _ _).symm
  refine ⟨hpc, ?_, ?_, ?_⟩
  · simp [AccessesAlong, hupper]
  · simp [blockCharge, hzero, hdone]
    split <;> rfl
  · constructor
    · simp [hpc, hzero, hdone]
    · simp [hzero]
    · simp [hone]
    · simp [hleft']
    · simp [haddress']
    · simp [hsum']
    · simp [hmemory]

/-- Where it ends: the sum in r3 and in the word 16 behind the array. -/
def ArraySumDone (n : Nat) (memory : Nat → Word) (s : State) : Prop :=
  s.pc = 10 ∧ s.regs 3 = arraySum memory n ∧
    s.memory = Function.update memory (0x90 + n) (arraySum memory n)

theorem arraySum_store (hn : n ≤ 111) :
    ProgramTriple (arraySumWords n) 1 (4, 0) (ArrayLoop memory n 0) (ArraySumDone n memory) := by
  have hcode : CodeAt (arraySumWords n) 9 [sw 3 16 1] :=
    arraySum_code (.of_decoded arraySumBody_decoded ⟨_, rfl⟩)
  apply triple_block hcode (Nat.le_of_ble_eq_true rfl) rfl
  rintro s ⟨hpc, hzero, hone, hleft, haddress, hsum, hmemory⟩
  have hword : wordOf 8 (s.regs 1 + 16#32) = 0x90 + n := by
    rw [haddress, Nat.sub_zero, ← BitVec.ofNat_add, wordOf_ofNat (by omega)]
    omega
  have hupper : upperHalf 8 (0x90 + n) = true := upperHalf_of_le (by omega)
  refine ⟨hpc, ?_, ?_, ?_, hsum, ?_⟩
  · simp [AccessesAlong, hword, hupper]
  · simp [blockCharge]
  · simp [hpc]
  · simp [Logic.Memory.write, hword, hupper, hmemory, hsum]

theorem arraySum_triple (hpos : 0 < n) (hn : n ≤ 111) :
    ProgramTriple (arraySumWords n) (5 * n + 5) (20 * n + 20, 3 * n - 2)
      (fun s => s.pc = 0 ∧ s.regs 0 = 0 ∧ s.memory = memory) (ArraySumDone n memory) := by
  have hloop : ProgramTriple (arraySumWords n) (∑ k ∈ Finset.range n, 5)
      (∑ k ∈ Finset.range n, (20, if k = 0 then 1 else 3)) (ArrayLoop memory n n)
      (ArrayLoop memory n 0) :=
    Triple.countdown (I := ArrayLoop memory n) fun k hk => arraySum_pass hk hn
  -- every pass but the last branches back
  have hcost : ∀ m : Nat, ∑ k ∈ Finset.range m, (20, if k = 0 then 1 else 3) =
      ((20 * m, 3 * m - 2) : Nat × Nat) := by
    intro m
    induction m with
    | zero => rfl
    | succ m ih =>
        rw [Finset.sum_range_succ, ih, Prod.mk_add_mk, Prod.mk.injEq]
        cases m with
        | zero => exact ⟨rfl, rfl⟩
        | succ m =>
            rw [if_neg (Nat.succ_ne_zero m)]
            omega
  rw [Finset.sum_const, Finset.card_range, hcost] at hloop
  have hall := ((arraySum_start hpos (by omega)).trans hloop).trans (arraySum_store hn)
  have hsteps : 4 + n • 5 + 1 = 5 * n + 5 := by
    rw [smul_eq_mul]
    omega
  have hcharge : (16, 0) + (20 * n, 3 * n - 2) + (4, 0) =
      ((20 * n + 20, 3 * n - 2) : Nat × Nat) := by
    simp only [Prod.mk_add_mk, Prod.mk.injEq]
    omega
  rw [hsteps, hcharge] at hall
  exact hall

theorem arraySum_program (hn : n ≤ 111) : Program (arraySumWords n) 10 where
  length := Nat.le_of_ble_eq_true rfl
  portable := portable_of_count (by decide) (by decide) (by decide) (by omega)
  halt := arraySum_code (.of_decoded arraySumBody_decoded ⟨_, rfl⟩)

end ArraySum

/-- The cycles of the array benchmark with count `n`. -/
def arraySumCycles (n : Nat) : Organisation → Nat
  | .singleCycle => 5 * n + 5
  | .multiCycle => 20 * n + 22
  | .pipelined => 8 * n + 7

/-- For every count that leaves the array and the result in the RAM, and any memory, the array
    benchmark ends on each CPU with the sum modulo `2^32` in r3 and behind the array, and the
    other words of the RAM as they were. -/
theorem array_sum_everywhere {n : Nat} (hpos : 0 < n) (hn : n ≤ 111) (o : Organisation)
    {regs : Register → Word} (hzero : regs 0 = 0) (memory : Nat → Word) (maxCycles : Nat) :
    let out := runOn o ((arraySumWords n).map o.word) regs memory maxCycles
    out.cycles = min maxCycles (arraySumCycles n o) ∧
      (out.halted = true ↔ arraySumCycles n o ≤ maxCycles) ∧
      (arraySumCycles n o ≤ maxCycles →
        out.registers 3 = arraySum memory n ∧
          SameRam (Function.update memory (0x90 + n) (arraySum memory n)) out.memory) := by
  have hstart : (startState regs memory).pc = 0 ∧ (startState regs memory).regs 0 = 0 ∧
      (startState regs memory).memory = memory := ⟨rfl, hzero, rfl⟩
  have hcycles : o.cycles (5 * n + 5) (20 * n + 20, 3 * n - 2) = arraySumCycles n o := by
    cases o with
    | singleCycle => exact Nat.max_eq_left (by omega)
    | multiCycle => rw [Organisation.cycles, arraySumCycles]
    | pipelined =>
        rw [Organisation.cycles, arraySumCycles]
        omega
  obtain ⟨helapsed, hhalted, hshows⟩ := runOn_of_triple (arraySum_program hn)
    (arraySum_triple hpos hn) (fun _ hq => hq.1) hstart o maxCycles
  rw [hcycles] at helapsed hhalted hshows
  refine ⟨helapsed, hhalted, fun hle => ?_⟩
  obtain ⟨s, ⟨-, hresult, hmemory⟩, hregs, hram⟩ := hshows hle
  rw [hregs]
  rw [hmemory] at hram
  exact ⟨hresult, hram⟩

/-- Eight words that count up from zero by one, on the single-cycle CPU. -/
theorem array_sum_everywhere_eight :
    let out := runOn .singleCycle ((arraySumWords 8).map Organisation.singleCycle.word)
      zeroRegisters (fun a => BitVec.ofNat 32 (a - 0x80)) 50000
    out.cycles = 45 ∧ out.registers 3 = 28 ∧ out.memory 0x98 = 28 := by
  obtain ⟨hcycles, -, hdone⟩ :=
    array_sum_everywhere (n := 8) (by decide) (by decide) .singleCycle
      (show zeroRegisters 0 = 0 from rfl) (fun a => BitVec.ofNat 32 (a - 0x80)) 50000
  obtain ⟨hsum, hram⟩ := hdone (by decide)
  have hvalue : arraySum (fun a => BitVec.ofNat 32 (a - 0x80)) 8 = 28 := by decide
  rw [hvalue] at hsum hram
  refine ⟨hcycles, hsum, ?_⟩
  rw [← hram 0x98 (by decide) (by decide)]
  rfl

end CpuSim.Benchmarks
