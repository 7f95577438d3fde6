/-
  CpuSim.Benchmarks.Suite

  `BENCHMARKS` as they are written, with their checks, and what the runner reports of them.
-/

import CpuSim.Benchmarks.Loops

namespace CpuSim.Benchmarks

open Isa (State)
open InstructionDecoder (decode)
open DecodedInstruction

/-! ## Sources -/

/-- `FIBONACCI_ASM`. -/
def FIBONACCI_ASM : String := "
    li r1, 0
    li r2, 1
    li r3, 7
    li r4, 1
loop:
    add r5, r1, r2
    mv r1, r2
    mv r2, r5
    sub r3, r3, r4
    bnez r3, loop
    halt
"

/-- `ARRAY_SUM_ASM`. -/
def ARRAY_SUM_ASM : String := "
    li r1, 0x80
    li r2, 8
    li r3, 0
    li r4, 1
arr_loop:
    lw r5, 0(r1)
    add r3, r3, r5
    add r1, r1, r4
    sub r2, r2, r4
    bnez r2, arr_loop
    sw r3, 16(r1)
    halt
"

/-- `RAW_HAZARD_ASM`. -/
def RAW_HAZARD_ASM : String := "
    li r1, 2
    add r2, r1, r1
    add r3, r2, r1
    add r4, r3, r2
    add r5, r4, r3
    add r6, r5, r4
    add r7, r6, r5
    add r8, r7, r6
    add r9, r8, r7
    add r10, r9, r8
    halt
"

/-- `LOAD_USE_UNSCHEDULED_ASM`. -/
def LOAD_USE_UNSCHEDULED_ASM : String := "
    li r1, 0x80
    lw r2, 0(r1)
    add r3, r2, r2
    lw r4, 1(r1)
    add r5, r4, r3
    lw r6, 2(r1)
    add r7, r6, r5
    halt
"

/-- `LOAD_USE_SCHEDULED_ASM`. -/
def LOAD_USE_SCHEDULED_ASM : String := "
    li r1, 0x80
    lw r2, 0(r1)
    li r8, 100
    add r3, r2, r2
    lw r4, 1(r1)
    add r8, r8, r8
    add r5, r4, r3
    lw r6, 2(r1)
    add r8, r8, r8
    add r7, r6, r5
    halt
"

/-- `FACTORIAL_ASM`. -/
def FACTORIAL_ASM : String := "
    li r1, 5
    li r2, 1
    li r5, 1
fact_loop:
    beqz r1, done
    mv r3, r2
    li r4, 0
    mv r6, r1
mult_loop:
    beqz r6, mult_done
    add r4, r4, r3
    sub r6, r6, r5
    b mult_loop
mult_done:
    mv r2, r4
    sub r1, r1, r5
    b fact_loop
done:
    halt
"

/-! ## Checks -/

/-- A number as `f"{n}"` prints it. -/
def shown (w : Word) : String := toString w.toNat

/-- `_validate_fib`. -/
def validateFib (cpu : Outcome) : Bool × String :=
  let res := cpu.registers 2
  (res == 21, "r2 = " ++ shown res ++ " (expected 21)")

/-- `_validate_array_sum`. -/
def validateArraySum (cpu : Outcome) : Bool × String :=
  let r3 := cpu.registers 3
  let memVal := cpu.memory 0x98
  (r3 == 360 && memVal == 360,
    "r3 = " ++ shown r3 ++ ", RAM[0x98] = " ++ shown memVal ++ " (expected 360)")

/-- `_validate_raw`. -/
def validateRaw (cpu : Outcome) : Bool × String :=
  let r10 := cpu.registers 10
  (r10 == 178, "r10 = " ++ shown r10 ++ " (expected 178)")

/-- `_validate_load_use_unscheduled`. -/
def validateLoadUseUnscheduled (cpu : Outcome) : Bool × String :=
  let r7 := cpu.registers 7
  (r7 == 50, "r7 = " ++ shown r7 ++ " (expected 50)")

/-- `_validate_load_use_scheduled`. -/
def validateLoadUseScheduled (cpu : Outcome) : Bool × String :=
  let r7 := cpu.registers 7
  let r8 := cpu.registers 8
  (r7 == 50 && r8 == 400,
    "r7 = " ++ shown r7 ++ ", r8 = " ++ shown r8 ++ " (expected r7=50, r8=400)")

/-- `_validate_factorial`. -/
def validateFactorial (cpu : Outcome) : Bool × String :=
  let res := cpu.registers 2
  (res == 120, "r2 = " ++ shown res ++ " (expected 120)")

/-! ## Benchmarks -/

/-- `BENCHMARKS["fibonacci"]`. -/
def fibonacci : Benchmark where
  asm := .text FIBONACCI_ASM.toList
  validate := some validateFib

/-- `BENCHMARKS["array_sum"]`. -/
def arraySumBenchmark : Benchmark where
  asm := .text ARRAY_SUM_ASM.toList
  initMemory := (List.range 8).map fun i => (0x80 + i, BitVec.ofNat 32 ((i + 1) * 10))
  validate := some validateArraySum

/-- `BENCHMARKS["raw_hazard"]`. -/
def rawHazard : Benchmark where
  asm := .text RAW_HAZARD_ASM.toList
  validate := some validateRaw

/-- `BENCHMARKS["load_use_unscheduled"]`. -/
def loadUseUnscheduled : Benchmark where
  asm := .text LOAD_USE_UNSCHEDULED_ASM.toList
  initMemory := [(0x80, 5), (0x81, 15), (0x82, 25)]
  validate := some validateLoadUseUnscheduled

/-- `BENCHMARKS["load_use_scheduled"]`. -/
def loadUseScheduled : Benchmark where
  asm := .text LOAD_USE_SCHEDULED_ASM.toList
  initMemory := [(0x80, 5), (0x81, 15), (0x82, 25)]
  validate := some validateLoadUseScheduled

/-- `BENCHMARKS["factorial"]`. -/
def factorial : Benchmark where
  asm := .text FACTORIAL_ASM.toList
  validate := some validateFactorial

/-- `BENCHMARKS`. -/
def benchmarks : List Benchmark :=
  [fibonacci, arraySumBenchmark, rawHazard, loadUseUnscheduled, loadUseScheduled, factorial]

/-! ## Straight-line programs -/

section Straight

variable {memory : Nat → Word}

/-- The words of `raw_hazard`. -/
def rawHazardWords : List Word :=
  [0x1C400002, 0x04844000, 0x04C84000, 0x050C8000, 0x0550C000, 0x05950000, 0x05D94000, 0x061D8000,
    0x0661C000, 0x06A60000, 0x38000000]

/-- Each sum of the chain needs the two before it. -/
theorem rawHazard_triple :
    ProgramTriple rawHazardWords 10 (40, 0) (fun s => s.pc = 0)
      (fun s => s.pc = 10 ∧ s.regs 10 = 178) := by
  have hcode : CodeAt rawHazardWords 0
      [li 1 2, add 2 1 1, add 3 2 1, add 4 3 2, add 5 4 3, add 6 5 4, add 7 6 5, add 8 7 6,
        add 9 8 7, add 10 9 8] := by
    decide
  apply triple_block hcode (Nat.le_of_ble_eq_true rfl) rfl
  intro s hpc
  refine ⟨hpc, ?_, ?_, ?_, ?_⟩
  · simp [AccessesAlong]
  · simp [blockCharge]
  · simp [hpc]
  · simp

/-- The words of `load_use_unscheduled`. -/
def loadUseUnscheduledWords : List Word :=
  [0x1C400080, 0x24840000, 0x04C88000, 0x25040001, 0x0550C000, 0x25840002, 0x05D94000, 0x38000000]

/-- The sum both programs compute. -/
def loadUseSum (memory : Nat → Word) : Word :=
  memory 0x82 + (memory 0x81 + (memory 0x80 + memory 0x80))

/-- Behind each load the pipeline waits. -/
theorem loadUseUnscheduled_triple :
    ProgramTriple loadUseUnscheduledWords 7 (31, 3) (fun s => s.pc = 0 ∧ s.memory = memory)
      (fun s => s.pc = 7 ∧ s.regs 7 = loadUseSum memory) := by
  have hcode : CodeAt loadUseUnscheduledWords 0
      [li 1 0x80, lw 2 0 1, add 3 2 2, lw 4 1 1, add 5 4 3, lw 6 2 1, add 7 6 5] := by
    decide
  apply triple_block hcode (Nat.le_of_ble_eq_true rfl) rfl
  rintro s ⟨hpc, rfl⟩
  refine ⟨hpc, ?_, ?_, ?_, ?_⟩
  · simp [AccessesAlong]
    decide
  · simp [blockCharge]
  · simp [hpc]
  · simp [loadUseSum]
    rfl

/-- The words of `load_use_scheduled`. -/
def loadUseScheduledWords : List Word :=
  [0x1C400080, 0x24840000, 0x1E000064, 0x04C88000, 0x25040001, 0x06220000, 0x0550C000, 0x25840002,
    0x06220000, 0x05D94000, 0x38000000]

/-- Three more instructions, and no load that is waited for. -/
theorem loadUseScheduled_triple :
    ProgramTriple loadUseScheduledWords 10 (43, 0) (fun s => s.pc = 0 ∧ s.memory = memory)
      (fun s => s.pc = 10 ∧ s.regs 7 = loadUseSum memory ∧ s.regs 8 = 400) := by
  have hcode : CodeAt loadUseScheduledWords 0
      [li 1 0x80, lw 2 0 1, li 8 100, add 3 2 2, lw 4 1 1, add 8 8 8, add 5 4 3, lw 6 2 1,
        add 8 8 8, add 7 6 5] := by
    decide
  apply triple_block hcode (Nat.le_of_ble_eq_true rfl) rfl
  rintro s ⟨hpc, rfl⟩
  refine ⟨hpc, ?_, ?_, ?_, ?_, ?_⟩
  · simp [AccessesAlong]
    decide
  · simp [blockCharge]
  · simp [hpc]
  · simp [loadUseSum]
    rfl
  · simp

end Straight

/-! ## Reports -/

/-- The benchmarks with their words for the single-cycle CPU. -/
def programs : List (Benchmark × List Word) :=
  [(fibonacci, fibonacciWords 7), (arraySumBenchmark, arraySumWords 8),
    (rawHazard, rawHazardWords), (loadUseUnscheduled, loadUseUnscheduledWords),
    (loadUseScheduled, loadUseScheduledWords), (factorial, factorialWords 5)]

/-- Every source assembles to these words on every organisation. -/
theorem programs_assemble : programs.all (fun program =>
    [Organisation.singleCycle, .multiCycle, .pipelined].all fun o =>
      decide (Assembler.assemble program.1.asm o.architecture =
        .ok (program.2.map o.word))) = true := by
  -- the characters of the six sources, before the evaluation
  simp only [programs, fibonacci, arraySumBenchmark, rawHazard, loadUseUnscheduled,
    loadUseScheduled, factorial, FIBONACCI_ASM, ARRAY_SUM_ASM, RAW_HAZARD_ASM,
    LOAD_USE_UNSCHEDULED_ASM, LOAD_USE_SCHEDULED_ASM, FACTORIAL_ASM]
  repeat rw [String.toList_ofList]
  decide +kernel

theorem assemble_program {b : Benchmark} {words : List Word} (i : Nat)
    (h : programs[i]? = some (b, words)) (o : Organisation) :
    Assembler.assemble b.asm o.architecture = .ok (words.map o.word) := by
  have hall := List.all_eq_true.mp
    (List.all_eq_true.mp programs_assemble _ (List.mem_of_getElem? h))
  apply of_decide_eq_true
  apply hall
  cases o <;> decide

/-- A table of cycles. -/
def cycleTable (single multi pipelined : Nat) : Organisation → Nat
  | .singleCycle => single
  | .multiCycle => multi
  | .pipelined => pipelined

theorem rawHazard_program : Program rawHazardWords 10 where
  length := Nat.le_of_ble_eq_true rfl
  portable := by decide
  halt := ⟨[], rfl⟩

theorem loadUseUnscheduled_program : Program loadUseUnscheduledWords 7 where
  length := Nat.le_of_ble_eq_true rfl
  portable := by decide
  halt := ⟨[], rfl⟩

theorem loadUseScheduled_program : Program loadUseScheduledWords 10 where
  length := Nat.le_of_ble_eq_true rfl
  portable := by decide
  halt := ⟨[], rfl⟩

section Reports

variable {regs : Register → Word} {memory : Nat → Word} {maxCycles : Nat}

theorem cycleTable_le {single multi pipelined : Nat}
    (h : max single (max multi pipelined) ≤ maxCycles) (o : Organisation) :
    cycleTable single multi pipelined o ≤ maxCycles := by
  have hmax := max_le_iff.mp h
  cases o with
  | singleCycle => exact hmax.1
  | multiCycle => exact (max_le_iff.mp hmax.2).1
  | pipelined => exact (max_le_iff.mp hmax.2).2

theorem fibonacci_report (hzero : regs 0 = 0) (hmax : 151 ≤ maxCycles) :
    fibonacci.runBenchmark regs memory maxCycles =
      .ok (passed (cycleTable 39 151 55) "r2 = 21 (expected 21)") := by
  apply runBenchmark_of_triple (fibonacci_program (by decide))
    (fibonacci_triple (by decide) (by decide) memory) (fun _ hq => hq.1)
    (assemble_program 0 rfl) rfl
  · rintro out ⟨s, ⟨-, hresult, -⟩, hregs, -⟩
    rw [validateFib, hregs, hresult]
    decide
  · exact ⟨rfl, hzero, rfl⟩
  · intro o
    cases o <;> rfl
  · exact cycleTable_le hmax

/-- The initial memory adds up to 360. -/
theorem arraySum_preload : arraySum (arraySumBenchmark.preload memory) 8 = 360 := by
  have hword : ∀ i < 8, arraySumBenchmark.preload memory (0x80 + i) =
      BitVec.ofNat 32 ((i + 1) * 10) := by
    intro i hi
    interval_cases i <;> rfl
  rw [arraySum, Finset.sum_congr rfl fun i hi => hword i (Finset.mem_range.mp hi)]
  decide

theorem arraySum_report (hzero : regs 0 = 0) (hmax : 182 ≤ maxCycles) :
    arraySumBenchmark.runBenchmark regs memory maxCycles =
      .ok (passed (cycleTable 45 182 71) "r3 = 360, RAM[0x98] = 360 (expected 360)") := by
  have hdone : ProgramTriple (arraySumWords 8) _ _ _
      (ArraySumDone 8 (arraySumBenchmark.preload memory)) :=
    arraySum_triple (by decide) (by decide)
  apply runBenchmark_of_triple (arraySum_program (by decide)) hdone (fun _ hq => hq.1)
    (assemble_program 1 rfl) rfl
  · rintro out ⟨s, ⟨-, hresult, hmemory⟩, hregs, hram⟩
    rw [arraySum_preload] at hresult hmemory
    have hword : out.memory 0x98 = 360 := by
      rw [← hram 0x98 (by decide) (by decide), hmemory]
      rfl
    rw [validateArraySum, hregs, hresult, hword]
    decide
  · exact ⟨rfl, hzero, rfl⟩
  · intro o
    cases o <;> rfl
  · exact cycleTable_le hmax

theorem rawHazard_report (hmax : 42 ≤ maxCycles) :
    rawHazard.runBenchmark regs memory maxCycles =
      .ok (passed (cycleTable 10 42 14) "r10 = 178 (expected 178)") := by
  apply runBenchmark_of_triple rawHazard_program rawHazard_triple (fun _ hq => hq.1)
    (assemble_program 2 rfl) rfl
  · rintro out ⟨s, ⟨-, hresult⟩, hregs, -⟩
    rw [validateRaw, hregs, hresult]
    decide
  · rfl
  · intro o
    cases o <;> rfl
  · exact cycleTable_le hmax

theorem loadUseUnscheduled_report (hmax : 33 ≤ maxCycles) :
    loadUseUnscheduled.runBenchmark regs memory maxCycles =
      .ok (passed (cycleTable 7 33 14) "r7 = 50 (expected 50)") := by
  have hsum : loadUseSum (loadUseUnscheduled.preload memory) = 50 := rfl
  apply runBenchmark_of_triple loadUseUnscheduled_program loadUseUnscheduled_triple
    (fun _ hq => hq.1) (assemble_program 3 rfl) rfl
  · rintro out ⟨s, ⟨-, hresult⟩, hregs, -⟩
    rw [validateLoadUseUnscheduled, hregs, hresult, hsum]
    decide
  · exact ⟨rfl, rfl⟩
  · intro o
    cases o <;> rfl
  · exact cycleTable_le hmax

theorem loadUseScheduled_report (hmax : 45 ≤ maxCycles) :
    loadUseScheduled.runBenchmark regs memory maxCycles =
      .ok (passed (cycleTable 10 45 14) "r7 = 50, r8 = 400 (expected r7=50, r8=400)") := by
  have hsum : loadUseSum (loadUseScheduled.preload memory) = 50 := rfl
  apply runBenchmark_of_triple loadUseScheduled_program loadUseScheduled_triple
    (fun _ hq => hq.1) (assemble_program 4 rfl) rfl
  · rintro out ⟨s, ⟨-, hresult, hresult'⟩, hregs, -⟩
    rw [validateLoadUseScheduled, hregs, hresult, hresult', hsum]
    decide
  · exact ⟨rfl, rfl⟩
  · intro o
    cases o <;> rfl
  · exact cycleTable_le hmax

theorem factorial_report (hzero : regs 0 = 0) (hmax : 372 ≤ maxCycles) :
    factorial.runBenchmark regs memory maxCycles =
      .ok (passed (cycleTable 104 372 160) "r2 = 120 (expected 120)") := by
  apply runBenchmark_of_triple (factorial_program (by decide))
    (factorial_triple (by decide) memory) (fun _ hq => hq.1) (assemble_program 5 rfl) rfl
  · rintro out ⟨s, ⟨-, hresult, -⟩, hregs, -⟩
    rw [validateFactorial, hregs, hresult]
    decide
  · exact ⟨rfl, hzero, rfl⟩
  · intro o
    cases o <;> rfl
  · exact cycleTable_le hmax

end Reports

/-- From all registers with r0 at zero, any memory under the initial words, and every bound that
    leaves room for the longest run, every benchmark of the suite passes on each of the three
    CPUs, with these cycles. -/
theorem suite_reports {regs : Register → Word} (hzero : regs 0 = 0) (memory : Nat → Word)
    {maxCycles : Nat} (hmax : 372 ≤ maxCycles) :
    benchmarks.map (fun b => b.runBenchmark regs memory maxCycles) =
      [.ok (passed (cycleTable 39 151 55) "r2 = 21 (expected 21)"),
        .ok (passed (cycleTable 45 182 71) "r3 = 360, RAM[0x98] = 360 (expected 360)"),
        .ok (passed (cycleTable 10 42 14) "r10 = 178 (expected 178)"),
        .ok (passed (cycleTable 7 33 14) "r7 = 50 (expected 50)"),
        .ok (passed (cycleTable 10 45 14) "r7 = 50, r8 = 400 (expected r7=50, r8=400)"),
        .ok (passed (cycleTable 104 372 160) "r2 = 120 (expected 120)")] := by
  have h := fun n (hn : n ≤ 372) => Nat.le_trans hn hmax
  rw [benchmarks, List.map_cons, List.map_cons, List.map_cons, List.map_cons, List.map_cons,
    List.map_cons, List.map_nil, fibonacci_report hzero (h 151 (by decide)),
    arraySum_report hzero (h 182 (by decide)), rawHazard_report (h 42 (by decide)),
    loadUseUnscheduled_report (h 33 (by decide)), loadUseScheduled_report (h 45 (by decide)),
    factorial_report hzero hmax]

/-- The CPUs of the runner: registers and memory at zero, and 50000 cycles at most. -/
theorem suite_reports_default :
    (benchmarks.map fun b => b.runBenchmark zeroRegisters (fun _ => 0) 50000).all
      (fun report => report.toOption.any fun results => results.all ArchResult.passed) = true := by
  rw [suite_reports (show zeroRegisters 0 = 0 from rfl) (fun _ => 0) (by decide)]
  rfl

end CpuSim.Benchmarks
