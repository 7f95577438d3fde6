/-
  CpuSim.SuperScalar.FetchStream

  The bundles at the decode side of the fetch/decode register, one for each clock edge.
  The front end as a component: a call is one clock edge, with or without a redirect
  requested before it.  It refines a counter that moves on by two instructions, or to the
  target of the redirect.
-/

import CpuSim.Lib.Refinement
import CpuSim.SuperScalar.FrontendStream

namespace CpuSim.SuperScalar

open CpuSim.Lib

variable {cfg : Config} {w : Nat}

/-! ## The front end as a component -/

/-- One clock edge of the front end: the redirect and flush requested before it, fetch,
    the edge, and clearing the one-shot wires. -/
def Frontend.tick (imem : InstructionMemory w) (f : Frontend) (request : Option Word) :
    FetchBundle × Frontend :=
  let f :=
    match request with
    | some target => f.requestRedirect target
    | none => f
  let f := (f.fetchCycle imem).clearRedirect
  (f.decodeBundle, f)

/-- The address counter behind the stream: the bundle shown by the next edge and the
    address fetched after it. -/
def InstructionMemory.stream (imem : InstructionMemory w) (pc : Word) (request : Option Word) :
    FetchBundle × Word :=
  match request with
  | some target => ({}, target)
  | none => (imem.bundleAt pc, pc + 8)

/-- Every clock edge follows the address counter. -/
theorem Frontend.refines_stream (imem : InstructionMemory w) :
    Refines (Frontend.tick imem)
      (fun pc request bundle next => imem.stream pc request = (bundle, next))
      Frontend.AtRest := by
  intro f pc request hrest
  cases request with
  | none =>
      obtain ⟨hnext, hdecode⟩ := Frontend.fetchCycle_sequential hrest imem
      refine ⟨pc + 8, ?_, hnext⟩
      rw [Frontend.tick, hdecode]
      rfl
  | some target =>
      obtain ⟨hnext, hdecode⟩ := Frontend.fetchCycle_redirected hrest imem target
      refine ⟨target, ?_, hnext⟩
      rw [Frontend.tick, hdecode]
      rfl

/-- After a reset the bundles are those of the address counter from 0. -/
theorem Frontend.trace_eq (imem : InstructionMemory w) (f : Frontend)
    (requests : List (Option Word)) :
    (trace (Frontend.tick imem) f.resetSequence requests).1 =
      (trace imem.stream 0 requests).1 := by
  obtain ⟨pc, hallows, -⟩ :=
    (Frontend.refines_stream imem).trace (Frontend.resetSequence_atRest f) requests
  rw [allows_call hallows]

/-! ## Integrity of the stream -/

/-- The bundles shown by a sequence of clock edges: a bubble exactly at a redirect, the
    bundle of a single address otherwise, the addresses in sequence from 0 and from the
    target of each redirect that the next edge does not replace. -/
structure StreamIntegrity (imem : InstructionMemory w) (requests : List (Option Word))
    (bundles : List FetchBundle) : Prop where
  length : bundles.length = requests.length
  bubble : ∀ (k : Nat) (t : Word), requests[k]? = some (some t) → bundles[k]? = some {}
  bundle : ∀ k : Nat, requests[k]? = some none → ∃ p, bundles[k]? = some (imem.bundleAt p)
  first : requests[0]? = some none → bundles[0]? = some (imem.bundleAt 0)
  sequential : ∀ (k : Nat) (p : Word), requests[k]? = some none → requests[k + 1]? = some none →
    bundles[k]? = some (imem.bundleAt p) → bundles[k + 1]? = some (imem.bundleAt (p + 8))
  target : ∀ (k : Nat) (t : Word), requests[k]? = some (some t) → requests[k + 1]? = some none →
    bundles[k + 1]? = some (imem.bundleAt t)

theorem InstructionMemory.bundleAt_inj {imem : InstructionMemory w} {p q : Word}
    (h : imem.bundleAt p = imem.bundleAt q) : p = q :=
  congrArg FetchBundle.pc0 h

/-- The address counter has the integrity of a stream. -/
theorem InstructionMemory.stream_integrity (imem : InstructionMemory w)
    (requests : List (Option Word)) :
    StreamIntegrity imem requests (trace imem.stream 0 requests).1 := by
  -- an edge without a redirect shows the bundle at the counter behind the edges before it
  have hshown (k : Nat) (hk : requests[k]? = some none) :
      (trace imem.stream 0 requests).1[k]? =
        some (imem.bundleAt (trace imem.stream 0 (requests.take k)).2) := by
    rw [trace_getElem?, hk]
    rfl
  refine ⟨length_trace 0 requests, ?_, ?_, ?_, ?_, ?_⟩
  · intro k t hk
    rw [trace_getElem?, hk]
    rfl
  · intro k hk
    exact ⟨_, hshown k hk⟩
  · intro h0
    rw [hshown 0 h0]
    rfl
  · intro k p hk hk' hp
    have hpc : (trace imem.stream 0 (requests.take k)).2 = p := by
      apply imem.bundleAt_inj
      apply Option.some.inj
      rw [← hshown k hk, hp]
    rw [hshown (k + 1) hk', trace_take_succ 0 hk, hpc]
    rfl
  · intro k t hk hk'
    rw [hshown (k + 1) hk', trace_take_succ 0 hk]
    rfl

namespace SuperScalarCPU

/-! ## The stream of a run -/

/-- The steps below `n` that clock the CPU: a halted CPU only counts cycles. -/
def runningSteps (s : SuperScalarCPU cfg) (n : Nat) : List Nat :=
  (List.range n).filter fun k => !(run s k).halted

theorem runningSteps_succ (s : SuperScalarCPU cfg) (n : Nat) :
    runningSteps s (n + 1) = runningSteps s n ++ if (run s n).halted then [] else [n] := by
  rw [runningSteps, List.range_succ, List.filter_append, ← runningSteps]
  cases hh : (run s n).halted <;> simp [hh]

/-- A step that runs is one tick of the front end. -/
theorem Steps.next_tick {s : SuperScalarCPU cfg} (h : Steps s) :
    s.frontend.tick s.imem s.redirectTarget =
      (s.next.frontend.decodeBundle, s.next.frontend) := by
  have hfront : s.next.frontend = (s.frontend.tick s.imem s.redirectTarget).2 := by
    rw [h.next_frontend]
    cases s.redirectTarget <;> rfl
  rw [hfront]
  rfl

/-- The bundles of a run are those of the front end under the redirects of the run. -/
theorem run_trace (cfg : Config) (words : List Word) (data : List (Nat × Word)) (n : Nat) :
    let s0 := boot cfg words data
    let imem : InstructionMemory cfg.romAddressWidth := ⟨words⟩
    let steps := runningSteps s0 n
    trace (Frontend.tick imem) s0.frontend (steps.map fun k => (run s0 k).redirectTarget) =
      (steps.map fun k => (run s0 (k + 1)).frontend.decodeBundle, (run s0 n).frontend) := by
  intro s0 imem
  induction n with
  | zero => rfl
  | succ n ih =>
      intro steps
      rw [show steps = _ from runningSteps_succ s0 n]
      have hnext : run s0 (n + 1) = (run s0 n).next := rfl
      cases hh : (run s0 n).halted with
      | true =>
          rw [if_pos rfl, List.append_nil, ih, hnext, SuperScalarCPU.next, if_pos hh]
      | false =>
          have htick := (run_steps hh).next_tick
          rw [run_imem] at htick
          rw [if_neg Bool.false_ne_true, List.map_append, trace_append, ih, List.map_append]
          simp only [List.map_cons, List.map_nil, trace_cons, trace_nil]
          rw [htick, hnext]

/-- For every pattern of redirects after a reset the bundles form a stream, and the
    clocked steps of every run show such a stream under the redirects of the run. -/
theorem frontend_stream (cfg : Config) (words : List Word) (data : List (Nat × Word)) :
    let imem : InstructionMemory cfg.romAddressWidth := ⟨words⟩
    let s0 := boot cfg words data
    (∀ (f : Frontend) (requests : List (Option Word)),
      StreamIntegrity imem requests (trace (Frontend.tick imem) f.resetSequence requests).1) ∧
    ∀ n, StreamIntegrity imem ((runningSteps s0 n).map fun k => (run s0 k).redirectTarget)
      ((runningSteps s0 n).map fun k => (run s0 (k + 1)).frontend.decodeBundle) := by
  intro imem s0
  have hstream (f : Frontend) (requests : List (Option Word)) :
      StreamIntegrity imem requests
        (trace (Frontend.tick imem) f.resetSequence requests).1 := by
    rw [Frontend.trace_eq]
    exact imem.stream_integrity requests
  refine ⟨hstream, fun n => ?_⟩
  have hreset : s0.frontend = (construct cfg).frontend.resetSequence := by
    show (boot cfg words data).frontend = _
    rw [boot_frame]
    rfl
  have htrace : trace (Frontend.tick imem) s0.frontend _ = _ := run_trace cfg words data n
  rw [hreset] at htrace
  have h := hstream (construct cfg).frontend
    ((runningSteps s0 n).map fun k => (run s0 k).redirectTarget)
  rwa [htrace] at h

/-- `ADDI r1, r1, 1; BNE r1, r0, 8; BEQ r0, r0, 12`: the second branch resolves first. -/
def twoBranches : List Word := [0x20440001, 0x30400008, 0x2C00000C]

/-- The fourth step redirects to 20, but the next step redirects to 12 in turn: two
    bubbles follow and the bundle at 20 is never shown. -/
theorem redirect_replaced :
    let s0 := boot .default twoBranches []
    (run s0 3).redirectTarget = some 20 ∧ (run s0 4).frontend.decodeBundle = {} ∧
      (run s0 5).frontend.decodeBundle = {} ∧
      (run s0 6).frontend.decodeBundle = (⟨twoBranches⟩ : InstructionMemory 8).bundleAt 12 := by
  decide +kernel

end SuperScalarCPU

end CpuSim.SuperScalar
