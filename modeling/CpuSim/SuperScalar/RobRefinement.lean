/-
  CpuSim.SuperScalar.RobRefinement

  The reorder buffer as a bounded FIFO.  The calls of `ReOrderBuffer` are compared with
  a list of at most `Capacity` elements, each of which knows its slot.
-/

import CpuSim.Lib.Refinement
import CpuSim.SuperScalar.RobWindow

namespace CpuSim.SuperScalar

open CpuSim.Lib

/-! ## The calls -/

/-- A call of the buffer. -/
inductive RobCall where
  | allocate (bundle : RenameBundle) (checkpoint : Option Checkpoint)
  | complete (index : Nat) (result : Word)
  | commit
  | squashYoungerThan (branchIndex : Nat)
  | reset

/-- What a call returns: the slot of `allocate`, the entry of `commit`, the entries and
    slots of `squash_younger_than`. -/
inductive RobAnswer where
  | done
  | slot (index : Option Nat)
  | entry (entry : Option ROBEntry)
  | squashed (entries : List ROBEntry) (indices : List Nat)

/-- Run one call. -/
def ReOrderBuffer.call {Capacity : Nat} (rob : ReOrderBuffer Capacity) :
    RobCall → RobAnswer × ReOrderBuffer Capacity
  | .allocate bundle checkpoint =>
    match rob.allocate bundle checkpoint with
    | some (index, rob') => (.slot (some index), rob')
    | none => (.slot none, rob)
  | .complete index result => (.done, rob.complete index result)
  | .commit =>
    match rob.commit with
    | some (e, rob') => (.entry (some e), rob')
    | none => (.entry none, rob)
  | .squashYoungerThan branchIndex =>
    let (rob', entries, indices) := rob.squashYoungerThan branchIndex
    (.squashed entries indices, rob')
  | .reset => (.done, .reset)

/-! ## The bounded FIFO -/

/-- What a list of at most `Capacity` elements does with a call. -/
inductive BoundedFifo (Capacity : Nat) : List ROBEntry → RobCall → RobAnswer → List ROBEntry → Prop
  | append {es : List ROBEntry} {bundle : RenameBundle} {checkpoint : Option Checkpoint} {i : Nat}
      (hv : bundle.valid = true) (hroom : es.length < Capacity) (hi : i < Capacity)
      (hfresh : i ∉ es.map ROBEntry.robIndex) :
      BoundedFifo Capacity es (.allocate bundle checkpoint) (.slot (some i))
        (es ++ [ReOrderBuffer.makeEntry bundle i checkpoint])
  | refuse {es : List ROBEntry} {bundle : RenameBundle} {checkpoint : Option Checkpoint}
      (h : bundle.valid = false ∨ es.length = Capacity) :
      BoundedFifo Capacity es (.allocate bundle checkpoint) (.slot none) es
  | complete {es : List ROBEntry} {i : Nat} {r : Word} :
      BoundedFifo Capacity es (.complete i r) .done (es.map (ReOrderBuffer.finishAt i r))
  | commit {e : ROBEntry} {es : List ROBEntry} (h : e.completed = true) :
      BoundedFifo Capacity (e :: es) .commit (.entry (some e)) es
  | wait {es : List ROBEntry} (h : ∀ e, es.head? = some e → e.completed = false) :
      BoundedFifo Capacity es .commit (.entry none) es
  | truncate {pre post : List ROBEntry} {b : ROBEntry} :
      BoundedFifo Capacity (pre ++ b :: post) (.squashYoungerThan b.robIndex)
        (.squashed post (post.map ROBEntry.robIndex)) (pre ++ [b])
  | absent {es : List ROBEntry} {i : Nat} (h : i ∉ es.map ROBEntry.robIndex) :
      BoundedFifo Capacity es (.squashYoungerThan i) (.squashed [] []) es
  | reset {es : List ROBEntry} : BoundedFifo Capacity es .reset .done []

namespace ReOrderBuffer

variable {Capacity : Nat} {rob : ReOrderBuffer Capacity}

/-- A refused allocation. -/
theorem allocate_none {bundle : RenameBundle} {checkpoint : Option Checkpoint}
    (ha : rob.allocate bundle checkpoint = none) :
    bundle.valid = false ∨ rob.window.length = Capacity := by
  have hsome := allocate_isSome rob bundle checkpoint
  rw [ha, Option.isSome_none, eq_comm, Bool.and_eq_false_iff] at hsome
  rw [length_window]
  rcases hsome with hv | hfull
  · exact Or.inl hv
  · right
    rw [Bool.not_eq_false'] at hfull
    exact beq_iff_eq.mp hfull

/-- `commit` refuses when the oldest entry is not completed. -/
theorem WF.commit_none (h : rob.WF) (hc : rob.commit = none) :
    ∀ e, rob.window.head? = some e → e.completed = false := by
  intro e he
  obtain ⟨rest, hw⟩ := List.head?_eq_some_iff.mp he
  by_contra hdone
  obtain ⟨rob', hsome⟩ := h.commit_isSome hw (eq_true_of_ne_false hdone)
  rw [hc] at hsome
  cases hsome

/-- Each call does to the window what it does to the list. -/
theorem refines_boundedFifo (hcap : 0 < Capacity) :
    Refines (@ReOrderBuffer.call Capacity) (BoundedFifo Capacity)
      fun rob es => rob.WF ∧ rob.window = es := by
  rintro rob es c ⟨h, rfl⟩
  -- one case per call; each answers as the queue does on the window
  cases c with
  | allocate bundle checkpoint =>
      cases ha : rob.allocate bundle checkpoint with
      | none =>
          refine ⟨rob.window, ?_, ?_⟩
          · simp only [call, ha]
            exact .refuse (allocate_none ha)
          · simp only [call, ha]
            exact ⟨h, trivial⟩
      | some out =>
          obtain ⟨i, rob'⟩ := out
          obtain ⟨hwf, hwin, hroom, rfl, hfresh⟩ := h.allocate ha
          have hvalid : bundle.valid = true := by
            have hsome := allocate_isSome rob bundle checkpoint
            rw [ha, Option.isSome_some, eq_comm, Bool.and_eq_true] at hsome
            exact hsome.1
          -- the tail is the free slot the queue hands out
          refine ⟨rob.window ++ [makeEntry bundle rob.tail checkpoint], ?_, ?_⟩
          · simp only [call, ha]
            apply BoundedFifo.append hvalid
            · rw [length_window]
              exact hroom
            · rw [h.tail_eq]
              exact Ring.slot_lt hcap
            · rw [h.map_robIndex]
              exact hfresh
          · simp only [call, ha]
            exact ⟨hwf, hwin⟩
  | complete i r => exact ⟨_, .complete, h.complete i r⟩
  | commit =>
      cases hc : rob.commit with
      | none =>
          refine ⟨rob.window, ?_, ?_⟩
          · simp only [call, hc]
            exact .wait (h.commit_none hc)
          · simp only [call, hc]
            exact ⟨h, trivial⟩
      | some out =>
          obtain ⟨e, rob'⟩ := out
          obtain ⟨hwf, hwin, hdone⟩ := h.commit hc
          refine ⟨rob'.window, ?_, ?_⟩
          · simp only [call, hc]
            rw [hwin]
            exact .commit hdone
          · simp only [call, hc]
            exact ⟨hwf, trivial⟩
  | squashYoungerThan i =>
      -- a tag in the window cuts behind its entry, any other tag changes nothing
      by_cases hi : i ∈ rob.window.map ROBEntry.robIndex
      · obtain ⟨b, hb, rfl⟩ := List.mem_map.mp hi
        obtain ⟨pre, post, hw⟩ := List.append_of_mem hb
        obtain ⟨rob', hsq, hwf, hwin⟩ := h.squashYoungerThan hw
        refine ⟨pre ++ [b], ?_, ?_⟩
        · simp only [call, hsq]
          rw [hw]
          exact .truncate
        · simp only [call, hsq]
          exact ⟨hwf, hwin⟩
      · have hnone := hi
        rw [h.map_robIndex] at hnone
        refine ⟨rob.window, ?_, ?_⟩
        · simp only [call, squashYoungerThan_of_not_live hnone h]
          exact .absent hi
        · simp only [call, squashYoungerThan_of_not_live hnone h]
          exact ⟨h, trivial⟩
  | reset => exact ⟨[], .reset, wf_reset hcap, window_reset⟩

/-- For every sequence of calls from `reset`, the answers are those of a bounded FIFO that
    ends with the contents of the buffer, read from the head with wraparound, and no two
    of its elements have the same slot. -/
theorem trace_bounded_fifo (hcap : 0 < Capacity) (calls : List RobCall) :
    let out := trace ReOrderBuffer.call (.reset : ReOrderBuffer Capacity) calls
    let contents :=
      (List.range out.2.count).map fun k => out.2.entries ((out.2.head + k) % Capacity)
    Allows (BoundedFifo Capacity) [] calls out.1 contents ∧
      (contents.map ROBEntry.robIndex).Nodup := by
  intro out contents
  obtain ⟨es, hallows, hwf, rfl⟩ := (refines_boundedFifo hcap).trace
    (s := (.reset : ReOrderBuffer Capacity)) ⟨wf_reset hcap, window_reset⟩ calls
  have hcontents : contents = out.2.window := by
    show _ = (Ring.slots Capacity out.2.head out.2.count).map out.2.entries
    rw [Ring.slots, List.map_map]
    rfl
  rw [hcontents]
  exact ⟨hallows, hwf.nodup_robIndex⟩

/-- A buffer of one slot: the second allocation is refused, and after the commit of the
    completed first entry the slot is used again. -/
theorem trace_bounded_fifo_one_slot :
    let out := trace ReOrderBuffer.call (.reset : ReOrderBuffer 1)
      [.allocate { valid := true } none, .allocate { valid := true } none, .complete 0 5, .commit,
        .allocate { valid := true } none]
    let contents := (List.range out.2.count).map fun k => out.2.entries ((out.2.head + k) % 1)
    Allows (BoundedFifo 1) [] [.allocate { valid := true } none, .allocate { valid := true } none,
        .complete 0 5, .commit, .allocate { valid := true } none] out.1 contents ∧
      (contents.map ROBEntry.robIndex).Nodup :=
  trace_bounded_fifo (by decide) _

/-- A bundle that is not valid is refused by an empty buffer. -/
theorem invalid_bundle_refused :
    (ReOrderBuffer.call (.reset : ReOrderBuffer 16) (.allocate { valid := false } none)).1 =
        .slot none ∧
      (.reset : ReOrderBuffer 16).window.length < 16 := by
  constructor
  · rfl
  · rw [window_reset]
    decide

end ReOrderBuffer

end CpuSim.SuperScalar
