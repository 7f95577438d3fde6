/-
  CpuSim.SuperScalar.RenameFlow

  Rename, reorder buffer and commit unit without a pipeline around them.  A
  `RenameBench` is driven by two-wide renames, completions and commits in any
  order; the instructions it is given and the renamed ones are kept in two histories,
  the second is the first with physical registers, and the data flow of the physical
  registers is exactly the data flow of that history.
-/

import CpuSim.SuperScalar.RenameMap

namespace CpuSim.SuperScalar

open CpuSim.Lib CpuSim.Lib.Renaming

/-! ## The bench -/

/-- The structures a commit unit works on, with every instruction that was to be renamed
    so far and what became of it. -/
structure RenameBench (cfg : Config) where
  unit : CommitUnit cfg
  decoded : List DecodeBundle := []
  renamed : List RenameBundle := []

namespace RenameBench

variable {cfg : Config} {b b' : RenameBench cfg}

/-- Everything as constructed: the identity mapping, and a free list that holds the
    physical registers from 16 on. -/
def start (cfg : Config) (commitWidth : Nat) : RenameBench cfg :=
  { unit :=
      { commitWidth := commitWidth, rob := .reset, prf := .reset, arf := .reset,
        freeList := .reset cfg.prfCount 16, rat := .init cfg.prfCount, storeBuffer := none } }

/-- The rename unit of the bench. -/
def renameUnit (b : RenameBench cfg) : RenameUnit cfg.prfCount :=
  { rat := b.unit.rat, freeList := b.unit.freeList, prf := b.unit.prf }

/-- A decoded instruction as it is put in the history: bubbles are not instructions. -/
def presented (input : DecodeBundle) : List DecodeBundle := if input.valid then [input] else []

/-- A renamed instruction as it is put in the history. -/
def kept (out : RenameBundle) : List RenameBundle := if out.valid then [out] else []

/-- Put a valid output in the reorder buffer, with a checkpoint or without. -/
def enter {n : Nat} (rob : ReOrderBuffer n) (out : RenameBundle) (cp : Option Checkpoint) :
    Option (ReOrderBuffer n) :=
  if out.valid then (rob.allocate out cp).map Prod.snd else some rob

/-- Both outputs, in lane order; `none` when there is no slot. -/
def enterBoth {n : Nat} (rob : ReOrderBuffer n) (out0 out1 : RenameBundle)
    (cp0 cp1 : Option Checkpoint) : Option (ReOrderBuffer n) :=
  (enter rob out0 cp0).bind fun rob => enter rob out1 cp1

/-- The bench after a rename whose outputs went into `rob`. -/
def afterRename (b : RenameBench cfg) (input0 input1 : DecodeBundle)
    (rob : ReOrderBuffer cfg.robCapacity) : RenameBench cfg :=
  let (out0, out1, u) := b.renameUnit.rename input0 input1
  { unit := { b.unit with rat := u.rat, freeList := u.freeList, prf := u.prf, rob := rob },
    decoded := b.decoded ++ presented input0 ++ presented input1,
    renamed := b.renamed ++ kept out0 ++ kept out1 }

/-- One action of the environment. -/
inductive Step (b : RenameBench cfg) : RenameBench cfg → Prop
  /-- `can_rename`, then `rename`, then the outputs enter the reorder buffer. -/
  | rename (input0 input1 : DecodeBundle) (cp0 cp1 : Option Checkpoint)
      (rob : ReOrderBuffer cfg.robCapacity)
      (hcan : RenameUnit.canRename b.unit.freeList input0 input1 = true)
      (hrob : enterBoth b.unit.rob (b.renameUnit.rename input0 input1).1
        (b.renameUnit.rename input0 input1).2.1 cp0 cp1 = some rob) :
      Step b (b.afterRename input0 input1 rob)
  /-- Any slot completes with any result; the register file may change with it. -/
  | complete (index : Nat) (result : Word) (prf : PhysicalRegisterFile cfg.prfCount) :
      Step b { b with unit := { b.unit with rob := b.unit.rob.complete index result, prf := prf } }
  /-- `CommitUnit::step`. -/
  | commit : Step b { b with unit := b.unit.step.1 }

/-- The states a run from `start` can reach. -/
def Reachable (commitWidth : Nat) (b : RenameBench cfg) : Prop :=
  Relation.ReflTransGen Step (start cfg commitWidth) b

/-- `out` is the instruction `input`, every field as decoded; it has a destination register
    if it writes one. -/
structure RenamedFrom (input : DecodeBundle) (out : RenameBundle) : Prop where
  valid : out.valid = true
  pc : out.pc = input.pc
  instruction : out.instruction = input.instruction
  opcode : out.opcode = input.opcode
  format : out.format = input.format
  rd : out.rd = input.rd
  rs1 : out.rs1 = input.rs1
  rs2 : out.rs2 = input.rs2
  immediate : out.immediate = input.immediate
  aluOperation : out.aluOperation = input.aluOperation
  operandA : out.operandA = input.operandA
  operandB : out.operandB = input.operandB
  registerWrite : out.registerWrite = input.registerWrite
  memoryRead : out.memoryRead = input.memoryRead
  memoryWrite : out.memoryWrite = input.memoryWrite
  controlFlow : out.controlFlow = input.controlFlow
  prediction : out.prediction = input.prediction
  halt : out.halt = input.halt
  physicalRd : out.physicalRd ≠ INVALID_REGISTER ↔ input.registerWrite = true

/-- What `rename` answers: an instruction for an instruction, a bubble for a bubble. -/
def Answers (input : DecodeBundle) (out : RenameBundle) : Prop :=
  if input.valid then RenamedFrom input out else out.valid = false

/-- The renamed instructions that have not retired. -/
def live (b : RenameBench cfg) : List RenameBundle :=
  b.renamed.drop b.unit.committedInstructionCount

end RenameBench

/-! ## Tables and free lists that are exact -/

/-- The register numbers a bench starts with. -/
def startPool (prfCount : Nat) : Multiset PhysicalRegister :=
  image RegisterAliasTable.resetTable +
    ((PhysicalRegisterFreeList.reset prfCount 16).freeRegisters : Multiset PhysicalRegister)

/-- The map after a history of renamed instructions. -/
abbrev historyMap (os : List RenameBundle) : Register → PhysicalRegister :=
  mapping RenameBundle.dst RegisterAliasTable.resetTable os

theorem historyMap_append (xs ys : List RenameBundle) :
    historyMap (xs ++ ys) = mapping RenameBundle.dst (historyMap xs) ys := mapping_append

/-- Alias table and free list are those of the history `done ++ live`, of which `done` has
    retired. -/
structure Exact (prfCount : Nat) (rat : RegisterAliasTable) (freeList : PhysicalRegisterFreeList)
    (done live : List RenameBundle) : Prop where
  count : rat.physicalRegCount = prfCount
  table : rat.table = historyMap (done ++ live)
  records : Records RenameBundle.dst RenameBundle.oldPhysicalRd RegisterAliasTable.resetTable
    (done ++ live)
  sources : Chain (advance RenameBundle.dst)
    (fun m o => o.physicalRs1 = m o.rs1 ∧ o.physicalRs2 = m o.rs2)
    RegisterAliasTable.resetTable (done ++ live)
  total : image (historyMap done) + (names RenameBundle.dst live : Multiset PhysicalRegister) +
    (freeList.freeRegisters : Multiset PhysicalRegister) = startPool prfCount

theorem bounds_of_mem_range {k q : Nat} (hq : q ∈ List.range' 16 (k - 16)) : 16 ≤ q ∧ q < k := by
  obtain ⟨h16, hend⟩ := List.mem_range'_1.mp hq
  omega

theorem mem_startPool {prfCount : Nat} {p : PhysicalRegister} (hle : prfCount ≤ 255)
    (hp : p ∈ startPool prfCount) : p < 16 ∨ p < prfCount := by
  rw [startPool, Multiset.mem_add] at hp
  rcases hp with hp | hp
  · obtain ⟨r, -, rfl⟩ := Multiset.mem_map.mp hp
    exact Or.inl r.isLt
  · obtain ⟨q, hq, rfl⟩ := List.mem_map.mp (Multiset.mem_coe.mp hp)
    right
    have hlt := (bounds_of_mem_range hq).2
    show q % 256 < prfCount
    rwa [Nat.mod_eq_of_lt (Nat.lt_of_lt_of_le hlt (Nat.le_succ_of_le hle))]

theorem nodup_startPool {prfCount : Nat} (hle : prfCount ≤ 255) : (startPool prfCount).Nodup := by
  have hfree : (PhysicalRegisterFreeList.reset prfCount 16).freeRegisters =
      List.range' 16 (prfCount - 16) := by
    refine (List.map_congr_left fun q hq => ?_).trans (List.map_id _)
    have hlt := (bounds_of_mem_range hq).2
    exact Nat.mod_eq_of_lt (Nat.lt_of_lt_of_le hlt (Nat.le_succ_of_le hle))
  rw [startPool, hfree, Multiset.nodup_add]
  refine ⟨by decide, List.nodup_range', Multiset.disjoint_left.mpr ?_⟩
  intro p hp hq
  obtain ⟨r, -, rfl⟩ := Multiset.mem_map.mp hp
  have hr : 16 ≤ r.val := (List.mem_range'_1.mp (Multiset.mem_coe.mp hq)).1
  exact absurd r.isLt (Nat.not_lt.mpr hr)

namespace Exact

variable {prfCount : Nat} {rat : RegisterAliasTable} {freeList : PhysicalRegisterFreeList}
  {done live : List RenameBundle} {p : PhysicalRegister}

/-- Registers that move are in range: with 16 registers or fewer none ever moves. -/
theorem lt_of_moves (h : Exact prfCount rat freeList done live) (hle : prfCount ≤ 255)
    (hp : p ∈ image (historyMap done) + (names RenameBundle.dst live : Multiset PhysicalRegister) +
      (freeList.freeRegisters : Multiset PhysicalRegister))
    (hmoves : names RenameBundle.dst live ≠ [] ∨ freeList.freeRegisters ≠ []) : p < prfCount := by
  have hcard := congrArg Multiset.card h.total
  rw [startPool, Multiset.card_add, Multiset.card_add, Multiset.card_add, image, image,
    Multiset.card_map, Multiset.card_map, Multiset.coe_card, Multiset.coe_card, Multiset.coe_card,
    PhysicalRegisterFreeList.reset, List.length_map, List.length_range'] at hcard
  have hpos : 0 < (names RenameBundle.dst live).length + freeList.freeRegisters.length := by
    rcases hmoves with hne | hne
    · have := List.length_pos_iff.mpr hne
      omega
    · have := List.length_pos_iff.mpr hne
      omega
  rw [h.total] at hp
  rcases mem_startPool hle hp with hlt | hlt
  · have h16 : 16 < prfCount := by omega
    exact Nat.lt_trans hlt h16
  · exact hlt

theorem free_lt (h : Exact prfCount rat freeList done live) (hle : prfCount ≤ 255)
    (hp : p ∈ freeList.freeRegisters) : p < prfCount :=
  h.lt_of_moves hle (Multiset.mem_add.mpr (Or.inr (Multiset.mem_coe.mpr hp)))
    (Or.inr (List.ne_nil_of_mem hp))

theorem invalid_not_free (h : Exact prfCount rat freeList done live) (hle : prfCount ≤ 255) :
    INVALID_REGISTER ∉ freeList.freeRegisters := fun hmem => by
  have hlt : 255 < prfCount := h.free_lt hle hmem
  omega

theorem nodup (h : Exact prfCount rat freeList done live) (hle : prfCount ≤ 255) :
    (image (historyMap done) + (names RenameBundle.dst live : Multiset PhysicalRegister) +
      (freeList.freeRegisters : Multiset PhysicalRegister)).Nodup := by
  rw [h.total]
  exact nodup_startPool hle

/-- A name that was current when a live instruction was renamed is not free. -/
theorem not_free (h : Exact prfCount rat freeList done live) (hle : prfCount ≤ 255)
    {pre post : List RenameBundle} (hsplit : live = pre ++ post) (r : Register) :
    historyMap (done ++ pre) r ∉ freeList.freeRegisters := by
  intro hmem
  have hnodup := h.nodup hle
  rw [historyMap_append] at hmem
  have hclaimed : mapping RenameBundle.dst (historyMap done) pre r ∈
      image (historyMap done) + (names RenameBundle.dst live : Multiset PhysicalRegister) := by
    rw [Multiset.mem_add, hsplit, names_append]
    rcases mapping_mem RenameBundle.dst (historyMap done) pre r with heq | hin
    · exact Or.inl (heq ▸ mem_image _ r)
    · exact Or.inr (Multiset.mem_coe.mpr (List.mem_append_left _ hin))
  exact Multiset.disjoint_left.mp (Multiset.nodup_add.mp hnodup).2.2 hclaimed
    (Multiset.mem_coe.mpr hmem)

/-- The name a live instruction replaced is in range as well. -/
theorem old_lt (h : Exact prfCount rat freeList done live) (hle : prfCount ≤ 255)
    {pre post : List RenameBundle} {o : RenameBundle} (hsplit : live = pre ++ o :: post)
    {r : Register} (hd : o.dst = some (r, p)) : o.oldPhysicalRd < prfCount := by
  have hsplit' : done ++ live = (done ++ pre) ++ o :: post := by
    rw [hsplit, List.append_assoc]
  have hold : o.oldPhysicalRd = historyMap (done ++ pre) r :=
    Chain.at_split h.records hsplit' r p hd
  have hne : names RenameBundle.dst live ≠ [] :=
    List.ne_nil_of_mem (mem_names.mpr ⟨o, by rw [hsplit]; simp, r, hd⟩)
  refine h.lt_of_moves hle ?_ (Or.inl hne)
  rw [hold, historyMap_append, Multiset.mem_add, Multiset.mem_add, hsplit, names_append]
  rcases mapping_mem RenameBundle.dst (historyMap done) pre r with heq | hin
  · exact Or.inl (Or.inl (heq ▸ mem_image _ r))
  · exact Or.inl (Or.inr (Multiset.mem_coe.mpr (List.mem_append_left _ hin)))

/-- One lane of rename. -/
theorem lane {u u' : RenameUnit prfCount} (h : Exact prfCount u.rat u.freeList done live)
    (hle : prfCount ≤ 255) {input : DecodeBundle} {out : RenameBundle}
    (hr : RenameUnit.Renames u input out u') :
    Exact prfCount u'.rat u'.freeList done (live ++ RenameBench.kept out) := by
  cases hv : out.valid with
  | false =>
      have hu : u' = u := by
        cases hr with
        | bubble _ _ hu => exact hu
        | reader _ _ ho _ => rw [ho] at hv; cases hv
        | writer _ _ _ _ _ ho _ => rw [ho] at hv; cases hv
      rw [RenameBench.kept, hv, if_neg (by decide), List.append_nil, hu]
      exact h
  | true =>
      -- the map, the recorded registers, the sources and the pool, in this order
      have hin : input.valid = true := hr.valid.symm.trans hv
      have hfree := hr.freeList_eq
      obtain ⟨hold, hsrc⟩ := hr.lookups
      obtain ⟨htable, hcount⟩ := hr.table_eq fun p hp => by
        rw [h.count]
        exact h.free_lt hle (by rw [hfree]; exact List.mem_append_left _ hp)
      rw [RenameBench.kept, hv, if_pos rfl]
      refine ⟨hcount.trans h.count, ?_, ?_, ?_, ?_⟩
      · rw [htable, h.table, ← List.append_assoc]
        exact mapping_concat.symm
      · rw [← List.append_assoc]
        refine Records.concat_iff.mpr ⟨h.records, fun r p hd => ?_⟩
        rw [hold r p hd, h.table]
      · rw [← List.append_assoc]
        refine Chain.concat_iff.mpr ⟨h.sources, ?_⟩
        obtain ⟨hs1, hs2⟩ := hsrc hin
        obtain ⟨old, p, hout⟩ := hr.out_eq hin
        rw [h.table] at hs1 hs2
        have hrs1 : out.rs1 = input.rs1 := by rw [hout]; rfl
        have hrs2 : out.rs2 = input.rs2 := by rw [hout]; rfl
        rw [hrs1, hrs2]
        exact ⟨hs1, hs2⟩
      · rw [← h.total, names_append, hfree, ← Multiset.coe_add, ← Multiset.coe_add]
        abel

/-- Retirement of the oldest live instructions. -/
theorem retire {rat' : RegisterAliasTable} {freeList' : PhysicalRegisterFreeList}
    {l1 l2 : List RenameBundle} (h : Exact prfCount rat freeList done (l1 ++ l2))
    (htable : rat'.table = rat.table) (hcount : rat'.physicalRegCount = rat.physicalRegCount)
    (hfree : freeList'.freeRegisters =
      freeList.freeRegisters ++ olds RenameBundle.dst RenameBundle.oldPhysicalRd l1) :
    Exact prfCount rat' freeList' (done ++ l1) l2 := by
  refine ⟨hcount.trans h.count, ?_, ?_, ?_, ?_⟩
  · rw [htable, h.table, List.append_assoc]
  · rw [List.append_assoc]
    exact h.records
  · rw [List.append_assoc]
    exact h.sources
  · -- what the retired writers replaced moves from the map to the free list
    have hrec := (Records.append_iff.mp (Records.append_iff.mp h.records).2).1
    rw [← h.total, hfree, names_append, ← Multiset.coe_add, ← Multiset.coe_add,
      historyMap_append, ← add_assoc (image (historyMap done)), ← image_mapping_add_olds hrec]
    abel

/-- The registers a lane takes are nobody's source and nobody's current name. -/
theorem fresh {u u' : RenameUnit prfCount} (h : Exact prfCount u.rat u.freeList done live)
    (hle : prfCount ≤ 255) {input : DecodeBundle} {out : RenameBundle}
    (hr : RenameUnit.Renames u input out u') {r : Register} (hd : out.dst = some (r, p)) :
    (∀ o ∈ live ++ [out], o.physicalRs1 ≠ p ∧ o.physicalRs2 ≠ p) ∧ ∀ r, u.rat.table r ≠ p := by
  have hmem : p ∈ u.freeList.freeRegisters := by
    rw [hr.freeList_eq, names_cons_some hd]
    exact List.mem_append_left _ List.mem_cons_self
  have hcurrent : ∀ r, u.rat.table r ≠ p := by
    rintro r rfl
    rw [h.table] at hmem
    exact h.not_free hle (List.append_nil live).symm r hmem
  refine ⟨fun o ho => ?_, hcurrent⟩
  rcases List.mem_append.mp ho with ho | ho
  · -- an older live instruction: its sources were current names when it was renamed
    obtain ⟨pre, post, hsplit⟩ := List.append_of_mem ho
    have hsplit' : done ++ live = (done ++ pre) ++ o :: post := by
      rw [hsplit, List.append_assoc]
    obtain ⟨h1, h2⟩ := Chain.at_split h.sources hsplit'
    have hnot := fun r => h.not_free hle hsplit r
    constructor
    · rintro rfl
      rw [h1] at hmem
      exact hnot _ hmem
    · rintro rfl
      rw [h2] at hmem
      exact hnot _ hmem
  · -- the instruction itself: its sources are current names
    rw [List.mem_singleton.mp ho]
    have hv : input.valid = true := by
      have hsome := hr.dst_isSome
      rw [hd] at hsome
      exact (Bool.and_eq_true_iff.mp hsome.symm).1
    obtain ⟨h1, h2⟩ := hr.lookups.2 hv
    rw [h1, h2]
    exact ⟨hcurrent _, hcurrent _⟩

end Exact

/-! ## The bench is exact -/

/-- What an entry says about renaming. -/
def ROBEntry.key (e : ROBEntry) : Option (Register × PhysicalRegister) × PhysicalRegister :=
  (e.dst, e.oldPhysicalRd)

def RenameBundle.key (o : RenameBundle) : Option (Register × PhysicalRegister) × PhysicalRegister :=
  (o.dst, o.oldPhysicalRd)

theorem ROBEntry.key_makeEntry {o : RenameBundle} (hv : o.valid = true) (i : Nat)
    (cp : Option Checkpoint) : (ReOrderBuffer.makeEntry o i cp).key = o.key := by
  rw [ROBEntry.key, RenameBundle.key, RenameBundle.dst, hv, Bool.true_and]
  cases cp with
  | none => rfl
  | some c =>
      simp only [ReOrderBuffer.makeEntry]
      split <;> rfl

theorem olds_of_key {es : List ROBEntry} {os : List RenameBundle}
    (h : es.map ROBEntry.key = os.map RenameBundle.key) :
    olds ROBEntry.dst ROBEntry.oldPhysicalRd es =
      olds RenameBundle.dst RenameBundle.oldPhysicalRd os := by
  induction es generalizing os with
  | nil =>
      rw [List.map_nil, eq_comm, List.map_eq_nil_iff] at h
      rw [h]
      rfl
  | cons e es ih =>
      cases os with
      | nil => cases h
      | cons o os =>
          obtain ⟨hkey, htail⟩ := List.cons.inj h
          have hd : e.dst = o.dst := congrArg Prod.fst hkey
          have ho : e.oldPhysicalRd = o.oldPhysicalRd := congrArg Prod.snd hkey
          rw [olds, olds, List.filterMap_cons, List.filterMap_cons, hd, ho]
          have hrest := ih htail
          rw [olds, olds] at hrest
          rw [hrest]

namespace RenameBench

variable {cfg : Config} {b b' : RenameBench cfg} {done live : List RenameBundle}

/-- The reorder buffer holds the live part of the history, and tables and free list are
    exact. -/
structure Faithful (b : RenameBench cfg) (done live : List RenameBundle) : Prop where
  wf : b.unit.rob.WF
  split : b.renamed = done ++ live
  keeps : List.Forall₂ RenamedFrom b.decoded b.renamed
  retired : b.unit.committedInstructionCount = done.length
  link : b.unit.rob.window.map ROBEntry.key = live.map RenameBundle.key
  exact : Exact cfg.prfCount b.unit.rat b.unit.freeList done live

theorem Faithful.live_eq (h : Faithful b done live) : b.live = live := by
  rw [RenameBench.live, h.split, h.retired, List.drop_left]

theorem Faithful.start (cfg : Config) (commitWidth : Nat) :
    Faithful (start cfg commitWidth) [] [] := by
  have hwin : (RenameBench.start cfg commitWidth).unit.rob.window = [] :=
    ReOrderBuffer.window_reset
  refine ⟨ReOrderBuffer.wf_reset cfg.robCapacity_pos, rfl, .nil, rfl, by rw [hwin]; rfl,
    rfl, rfl, trivial, trivial, ?_⟩
  rw [names_nil, Multiset.coe_nil, add_zero]
  rfl

theorem enter_spec {n : Nat} {rob rob' : ReOrderBuffer n} {out : RenameBundle}
    {cp : Option Checkpoint} (hwf : rob.WF) (h : enter rob out cp = some rob') :
    rob'.WF ∧ rob'.window.map ROBEntry.key =
      rob.window.map ROBEntry.key ++ (kept out).map RenameBundle.key := by
  rw [enter] at h
  split at h
  · rename_i hv
    obtain ⟨⟨i, rob1⟩, ha, rfl⟩ := Option.map_eq_some_iff.mp h
    obtain ⟨hwf', hwin, -⟩ := hwf.allocate ha
    refine ⟨hwf', ?_⟩
    rw [hwin, List.map_append, kept, hv, if_pos rfl]
    show _ ++ [(ReOrderBuffer.makeEntry out i cp).key] = _
    rw [ROBEntry.key_makeEntry hv]
    rfl
  · rename_i hv
    cases h
    rw [kept, if_neg hv]
    exact ⟨hwf, (List.append_nil _).symm⟩

/-- The fields `rename` preserves are those of the input, whatever the registers are. -/
theorem renamedFrom_preserve {rat : RegisterAliasTable} {input : DecodeBundle}
    {old p : PhysicalRegister} (hp : p ≠ INVALID_REGISTER ↔ input.registerWrite = true) :
    RenamedFrom input
      { RenameUnit.preserve rat input with oldPhysicalRd := old, physicalRd := p } :=
  ⟨rfl, rfl, rfl, rfl, rfl, rfl, rfl, rfl, rfl, rfl, rfl, rfl, rfl, rfl, rfl, rfl, rfl, rfl, hp⟩

/-- A lane answers its input. -/
theorem answers_of_renames {n : Nat} {u u' : RenameUnit n} {input : DecodeBundle}
    {out : RenameBundle} (hr : RenameUnit.Renames u input out u')
    (hfree : INVALID_REGISTER ∉ u.freeList.freeRegisters) : Answers input out := by
  rw [Answers]
  cases hr with
  | bubble hv ho _ =>
      rw [hv, ho]
      rfl
  | reader hv hw ho _ =>
      rw [if_pos hv, ho]
      exact renamedFrom_preserve (by simp [hw])
  | writer p rest hv hw hf ho _ =>
      -- the register handed out is one of the free list
      have hp : p ≠ INVALID_REGISTER := by
        rintro rfl
        exact hfree (hf ▸ List.mem_cons_self)
      rw [if_pos hv, ho]
      exact renamedFrom_preserve (by simp [hp, hw])

/-- What is put in the two histories is one instruction and its renamed form, or nothing. -/
theorem Answers.keeps {input : DecodeBundle} {out : RenameBundle} (h : Answers input out) :
    List.Forall₂ RenamedFrom (presented input) (kept out) := by
  rw [Answers] at h
  rw [presented, kept]
  split at h
  · next hv =>
      rw [if_pos hv, if_pos h.valid]
      exact .cons h .nil
  · next hv =>
      rw [if_neg hv, h, if_neg Bool.false_ne_true]
      exact .nil

theorem afterRename_decoded (b : RenameBench cfg) (input0 input1 : DecodeBundle)
    (rob : ReOrderBuffer cfg.robCapacity) :
    (b.afterRename input0 input1 rob).decoded =
      b.decoded ++ presented input0 ++ presented input1 := rfl

theorem afterRename_renamed (b : RenameBench cfg) (input0 input1 : DecodeBundle)
    (rob : ReOrderBuffer cfg.robCapacity) :
    (b.afterRename input0 input1 rob).renamed =
      b.renamed ++ kept (b.renameUnit.rename input0 input1).1 ++
        kept (b.renameUnit.rename input0 input1).2.1 := rfl

/-- The renamed instruction behind an entry that writes a register. -/
theorem exists_of_key {outs : List RenameBundle} {es : List ROBEntry} {e : ROBEntry}
    (h : outs.map RenameBundle.key = es.map ROBEntry.key) (he : e ∈ es)
    (hw : e.registerWrite = true) :
    ∃ o ∈ outs, o.dst = some (e.architecturalRd, e.physicalRd) ∧
      o.oldPhysicalRd = e.oldPhysicalRd := by
  have hmem : e.key ∈ outs.map RenameBundle.key := by
    rw [h]
    exact List.mem_map_of_mem he
  obtain ⟨o, ho, hkey⟩ := List.mem_map.mp hmem
  have hfst : o.dst = e.dst := congrArg Prod.fst hkey
  refine ⟨o, ho, ?_, congrArg Prod.snd hkey⟩
  rw [hfst, ROBEntry.dst, if_pos hw]

/-- Both lanes answer. -/
theorem Faithful.answers (h : Faithful b done live) {input0 input1 : DecodeBundle}
    (hcan : RenameUnit.canRename b.unit.freeList input0 input1 = true) :
    Answers input0 (b.renameUnit.rename input0 input1).1 ∧
      Answers input1 (b.renameUnit.rename input0 input1).2.1 := by
  have hfree := h.exact.invalid_not_free cfg.prfCount_le
  obtain ⟨u0, h0, h1⟩ := RenameUnit.rename_renames (u := b.renameUnit) hcan hfree
  refine ⟨answers_of_renames h0 hfree, answers_of_renames h1 fun hmem => hfree ?_⟩
  -- lane 1 takes from what lane 0 has left
  have hlist : b.unit.freeList.freeRegisters = _ := h0.freeList_eq
  rw [hlist]
  exact List.mem_append_right _ hmem

/-- A two-wide rename, lane 0 first. -/
theorem Faithful.rename (h : Faithful b done live) {input0 input1 : DecodeBundle}
    {cp0 cp1 : Option Checkpoint} {rob : ReOrderBuffer cfg.robCapacity}
    (hcan : RenameUnit.canRename b.unit.freeList input0 input1 = true)
    (hrob : enterBoth b.unit.rob (b.renameUnit.rename input0 input1).1
      (b.renameUnit.rename input0 input1).2.1 cp0 cp1 = some rob) :
    Faithful (b.afterRename input0 input1 rob) done
      (live ++ kept (b.renameUnit.rename input0 input1).1 ++
        kept (b.renameUnit.rename input0 input1).2.1) := by
  obtain ⟨u0, h0, h1⟩ := RenameUnit.rename_renames (u := b.renameUnit) hcan
    (h.exact.invalid_not_free cfg.prfCount_le)
  obtain ⟨rob0, hrob0, hrob1⟩ := Option.bind_eq_some_iff.mp hrob
  obtain ⟨hwf0, hlink0⟩ := enter_spec h.wf hrob0
  obtain ⟨hwf1, hlink1⟩ := enter_spec hwf0 hrob1
  have hlane0 : Exact cfg.prfCount u0.rat u0.freeList done
      (live ++ kept (b.renameUnit.rename input0 input1).1) :=
    Exact.lane (u := { b.renameUnit with stalled := false }) h.exact cfg.prfCount_le h0
  obtain ⟨hans0, hans1⟩ := h.answers hcan
  refine ⟨hwf1, ?_, ?_, h.retired, ?_, hlane0.lane cfg.prfCount_le h1⟩
  · rw [afterRename_renamed, h.split, List.append_assoc done, List.append_assoc done]
  · rw [afterRename_decoded, afterRename_renamed]
    exact List.rel_append (List.rel_append h.keeps hans0.keeps) hans1.keeps
  · show rob.window.map ROBEntry.key = _
    rw [hlink1, hlink0, h.link, List.map_append, List.map_append]

theorem Faithful.complete (h : Faithful b done live) (index : Nat) (result : Word)
    (prf : PhysicalRegisterFile cfg.prfCount) :
    Faithful { b with unit := { b.unit with rob := b.unit.rob.complete index result, prf := prf } }
      done live := by
  obtain ⟨hwf, hwin⟩ := h.wf.complete index result
  refine ⟨hwf, h.split, h.keeps, h.retired, ?_, h.exact⟩
  show (b.unit.rob.complete index result).window.map ROBEntry.key = _
  rw [hwin, List.map_map, ← h.link]
  refine List.map_congr_left fun e _ => ?_
  rw [Function.comp, ReOrderBuffer.finishAt]
  split <;> rfl

theorem retireAll_committedInstructionCount (u : CommitUnit cfg) (es : List ROBEntry) :
    (u.retireAll es).committedInstructionCount = u.committedInstructionCount + es.length := by
  induction es generalizing u with
  | nil => rfl
  | cons e es ih =>
      have hone : (u.retire e).committedInstructionCount = u.committedInstructionCount + 1 := by
        simp only [CommitUnit.retire]
        split <;> split <;> split <;> split <;> rfl
      rw [CommitUnit.retireAll_cons, ih, hone, List.length_cons]
      omega

/-- Retirement moves a prefix of the live instructions to the retired ones. -/
theorem Faithful.commit (h : Faithful b done live) :
    ∃ l1 l2, live = l1 ++ l2 ∧ Faithful { b with unit := b.unit.step.1 } (done ++ l1) l2 := by
  obtain ⟨es, hwin, heq, -, hwf, -⟩ := CommitUnit.stepLoop_spec b.unit.commitWidth h.wf
  have hlink := h.link
  rw [hwin, List.map_append] at hlink
  obtain ⟨l1, l2, rfl, hl1, hl2⟩ := List.map_eq_append_iff.mp hlink.symm
  have hnum : ∀ e ∈ es, e.registerWrite = true → e.oldPhysicalRd ≠ INVALID_REGISTER := by
    intro e he hw heq
    -- the renamed instruction behind the entry recorded an existing register
    obtain ⟨o, ho, hdst, hsnd⟩ := exists_of_key hl1 he hw
    obtain ⟨pre, post, rfl⟩ := List.append_of_mem ho
    have hsplit : (pre ++ o :: post) ++ l2 = pre ++ o :: (post ++ l2) := by
      rw [List.append_assoc]
      rfl
    have hlt := h.exact.old_lt cfg.prfCount_le hsplit hdst
    rw [hsnd, heq] at hlt
    exact absurd cfg.prfCount_le (Nat.not_le.mpr hlt)
  have hlen : es.length = l1.length := by
    rw [← List.length_map ROBEntry.key, ← hl1, List.length_map]
  refine ⟨l1, l2, rfl, hwf, ?_, h.keeps, ?_, hl2.symm, ?_⟩
  · rw [List.append_assoc]
    exact h.split
  · show (b.unit.stepLoop b.unit.commitWidth).1.committedInstructionCount = _
    rw [heq, List.length_append, ← h.retired, ← hlen]
    exact retireAll_committedInstructionCount b.unit es
  · show Exact cfg.prfCount (b.unit.stepLoop b.unit.commitWidth).1.rat
      (b.unit.stepLoop b.unit.commitWidth).1.freeList _ _
    rw [heq]
    refine h.exact.retire (CommitUnit.retireAll_rat_table _ _)
      (CommitUnit.retireAll_rat_physicalRegCount _ _) ?_
    rw [← olds_of_key hl1.symm]
    exact SuperScalarCPU.Renaming.retireAll_freeList hnum

theorem Faithful.step (h : Faithful b done live) (hs : Step b b') :
    ∃ done' live', Faithful b' done' live' := by
  cases hs with
  | rename input0 input1 cp0 cp1 rob hcan hrob => exact ⟨done, _, h.rename hcan hrob⟩
  | complete index result prf => exact ⟨done, live, h.complete index result prf⟩
  | commit =>
      obtain ⟨l1, l2, -, hF⟩ := h.commit
      exact ⟨done ++ l1, l2, hF⟩

theorem Reachable.faithful {commitWidth : Nat} (h : Reachable commitWidth b) :
    ∃ done live, Faithful b done live := by
  induction h with
  | refl => exact ⟨[], [], Faithful.start cfg commitWidth⟩
  | tail _ hs ih =>
      obtain ⟨done, live, hF⟩ := ih
      exact hF.step hs

/-! ## Data flow -/

/-- Sources name the most recent older writer. -/
theorem Faithful.source (h : Faithful b done live) {pre post : List RenameBundle}
    {o : RenameBundle} (hsplit : b.renamed = pre ++ o :: post) :
    o.physicalRs1 =
        (lastName RenameBundle.dst o.rs1 pre).getD (RegisterAliasTable.resetTable o.rs1) ∧
      o.physicalRs2 =
        (lastName RenameBundle.dst o.rs2 pre).getD (RegisterAliasTable.resetTable o.rs2) := by
  have hat := Chain.at_split h.exact.sources (h.split.symm.trans hsplit)
  rw [← mapping_eq_lastName, ← mapping_eq_lastName]
  exact hat

theorem Faithful.names_window (h : Faithful b done live) :
    names ROBEntry.dst b.unit.rob.window = names RenameBundle.dst live := by
  apply names_of_map_eq
  have hfst := congrArg (List.map Prod.fst) h.link
  rw [List.map_map, List.map_map] at hfst
  exact hfst

/-- A register with a live writer is mapped, if at all, for the register it was written
    for. -/
theorem Faithful.consistent (h : Faithful b done live) {e : ROBEntry}
    (he : e ∈ b.unit.rob.window) (hw : e.registerWrite = true) {r : Register}
    (hr : b.unit.rat.table r = e.physicalRd) : e.architecturalRd = r := by
  have hnodup := h.exact.nodup cfg.prfCount_le
  have hlive := (Multiset.nodup_add.mp hnodup).1
  obtain ⟨o, ho, hdst, -⟩ := exists_of_key h.link.symm he hw
  have hname : e.physicalRd ∈ names RenameBundle.dst live :=
    mem_names.mpr ⟨o, ho, _, hdst⟩
  rw [h.exact.table, historyMap_append, mapping_eq_lastName] at hr
  cases hlast : lastName RenameBundle.dst r live with
  | none =>
      -- the name would be in the map of the retired instructions as well
      rw [hlast] at hr
      have himage : e.physicalRd ∈ image (historyMap done) := hr ▸ mem_image (historyMap done) r
      exact absurd (Multiset.mem_coe.mpr hname)
        (Multiset.disjoint_left.mp (Multiset.nodup_add.mp hlive).2.2 himage)
  | some q =>
      rw [hlast] at hr
      obtain ⟨o', ho', hdst'⟩ := lastName_mem hlast
      rw [show q = e.physicalRd from hr] at hdst'
      have hsame := eq_of_nodup_names (Multiset.nodup_add.mp hlive).2.1 ho ho' hdst hdst'
      rw [hsame, hdst'] at hdst
      exact congrArg Prod.fst (Option.some.inj hdst.symm)

/-- What a rename hands out, lane by lane. -/
theorem Faithful.fresh (h : Faithful b done live) {input0 input1 : DecodeBundle}
    (hcan : RenameUnit.canRename b.unit.freeList input0 input1 = true) :
    let out0 := (b.renameUnit.rename input0 input1).1
    let out1 := (b.renameUnit.rename input0 input1).2.1
    (∀ r p, out0.dst = some (r, p) →
      (∀ o ∈ live ++ [out0], o.physicalRs1 ≠ p ∧ o.physicalRs2 ≠ p) ∧
        ∀ r', b.unit.rat.table r' ≠ p) ∧
    (∀ r p, out1.dst = some (r, p) →
      (∀ o ∈ live ++ kept out0 ++ [out1], o.physicalRs1 ≠ p ∧ o.physicalRs2 ≠ p) ∧
        (∀ r', b.unit.rat.table r' ≠ p) ∧ ∀ r' p', out0.dst = some (r', p') → p' ≠ p) := by
  obtain ⟨u0, h0, h1⟩ := RenameUnit.rename_renames (u := b.renameUnit) hcan
    (h.exact.invalid_not_free cfg.prfCount_le)
  have hb : Exact cfg.prfCount b.renameUnit.rat b.renameUnit.freeList done live := h.exact
  have hlane0 : Exact cfg.prfCount u0.rat u0.freeList done
      (live ++ kept (b.renameUnit.rename input0 input1).1) :=
    Exact.lane (u := { b.renameUnit with stalled := false }) hb cfg.prfCount_le h0
  refine ⟨fun r p hd => Exact.fresh (u := { b.renameUnit with stalled := false }) hb
    cfg.prfCount_le h0 hd, fun r p hd => ?_⟩
  obtain ⟨hsrc, -⟩ := hlane0.fresh cfg.prfCount_le h1 hd
  have hfree0 : b.unit.freeList.freeRegisters = _ := h0.freeList_eq
  have hfree1 := h1.freeList_eq
  rw [names_cons_some hd] at hfree1
  have hmem : p ∈ u0.freeList.freeRegisters := by
    rw [hfree1]
    exact List.mem_append_left _ List.mem_cons_self
  refine ⟨hsrc, fun r' heq => ?_, fun r' p' hd0 heq => ?_⟩
  · apply h.exact.not_free cfg.prfCount_le (List.append_nil live).symm r'
    rw [← h.exact.table, heq, hfree0]
    exact List.mem_append_right _ hmem
  · -- the free list of the bench holds no register twice
    have hnodup : b.unit.freeList.freeRegisters.Nodup :=
      Multiset.coe_nodup.mp (Multiset.nodup_add.mp (h.exact.nodup cfg.prfCount_le)).2.1
    rw [hfree0, names_cons_some hd0, heq] at hnodup
    exact (List.nodup_cons.mp hnodup).1 (List.mem_append_right _ hmem)

/-- The alias table names the most recent writer of every register. -/
theorem Faithful.current (h : Faithful b done live) (r : Register) :
    b.unit.rat.table r =
      (lastName RenameBundle.dst r b.renamed).getD (RegisterAliasTable.resetTable r) := by
  rw [h.exact.table, h.split, historyMap, mapping_eq_lastName]

/-- Renaming is data-flow exact, in every state a run of renames, completions and commits
    reaches. -/
theorem renaming_data_flow_exact (cfg : Config) (commitWidth : Nat) (b : RenameBench cfg)
    (h : Reachable commitWidth b) :
    -- the renamed instructions are the decoded ones, in lane-then-call order
    List.Forall₂ RenamedFrom b.decoded b.renamed ∧
    -- every source is the name given by the most recent older writer
    (∀ pre o post, b.renamed = pre ++ o :: post →
      o.physicalRs1 =
          (lastName RenameBundle.dst o.rs1 pre).getD (RegisterAliasTable.resetTable o.rs1) ∧
        o.physicalRs2 =
          (lastName RenameBundle.dst o.rs2 pre).getD (RegisterAliasTable.resetTable o.rs2)) ∧
    -- and so is every mapping of the alias table
    (∀ r, b.unit.rat.table r =
      (lastName RenameBundle.dst r b.renamed).getD (RegisterAliasTable.resetTable r)) ∧
    -- the reorder buffer holds the renamed instructions that have not retired
    b.unit.rob.window.map ROBEntry.dst = b.live.map RenameBundle.dst ∧
    -- live writers and alias table are consistent
    (names ROBEntry.dst b.unit.rob.window).Nodup ∧ Function.Injective b.unit.rat.table ∧
    (∀ e ∈ b.unit.rob.window, e.registerWrite = true →
      ∀ r, b.unit.rat.table r = e.physicalRd → e.architecturalRd = r) ∧
    -- both lanes answer, and no register is handed out while it is in use
    ∀ input0 input1, RenameUnit.canRename b.unit.freeList input0 input1 = true →
      let out0 := (b.renameUnit.rename input0 input1).1
      let out1 := (b.renameUnit.rename input0 input1).2.1
      (Answers input0 out0 ∧ Answers input1 out1) ∧
      (∀ r p, out0.dst = some (r, p) →
        (∀ o ∈ b.live ++ [out0], o.physicalRs1 ≠ p ∧ o.physicalRs2 ≠ p) ∧
          ∀ r', b.unit.rat.table r' ≠ p) ∧
      (∀ r p, out1.dst = some (r, p) →
        (∀ o ∈ b.live ++ kept out0 ++ [out1], o.physicalRs1 ≠ p ∧ o.physicalRs2 ≠ p) ∧
          (∀ r', b.unit.rat.table r' ≠ p) ∧ ∀ r' p', out0.dst = some (r', p') → p' ≠ p) := by
  obtain ⟨done, live, hF⟩ := h.faithful
  have hnodup := hF.exact.nodup cfg.prfCount_le
  have hnames := (Multiset.nodup_add.mp (Multiset.nodup_add.mp hnodup).1).2.1
  refine ⟨hF.keeps, fun pre o post hsplit => hF.source hsplit, hF.current, ?_, ?_, ?_,
    fun e he hw r hr => hF.consistent he hw hr, fun input0 input1 hcan => ?_⟩
  · have hfst := congrArg (List.map Prod.fst) hF.link
    rw [List.map_map, List.map_map] at hfst
    rw [hF.live_eq]
    exact hfst
  · rw [hF.names_window]
    exact hnames
  · rw [hF.exact.table, historyMap_append]
    have hpool := (Multiset.nodup_add.mp hnodup).1
    rw [← List.append_nil live] at hpool
    have hmap := nodup_image_mapping (Records.append_iff.mp hF.exact.records).2 hpool
    exact injective_of_nodup_image (Multiset.nodup_add.mp hmap).1
  · rw [hF.live_eq]
    exact ⟨hF.answers hcan, hF.fresh hcan⟩

/-- `ADD r1, r1, r2` and `SUB r1, r1, r1` renamed as one pair: lane 1 reads the register
    lane 0 was given. -/
theorem renaming_data_flow_exact_pair :
    ∃ (b : RenameBench .default) (out0 out1 : RenameBundle), Reachable 2 b ∧
      b.decoded = [decodeWord 0 0x04448000, decodeWord 4 0x08444000] ∧
      b.renamed = [out0, out1] ∧ out0.physicalRd = 16 ∧
      out1.physicalRs1 = 16 ∧ out1.physicalRs2 = 16 ∧ b.unit.rat.table 1 = out1.physicalRd := by
  have hrun : Reachable 2 _ := .single (.rename (b := start .default 2)
    (decodeWord 0 0x04448000) (decodeWord 4 0x08444000) none none _ (by decide) rfl)
  obtain ⟨-, hflow, hmap, -⟩ := renaming_data_flow_exact .default 2 _ hrun
  obtain ⟨hrs1, hrs2⟩ := hflow [_] _ [] rfl
  exact ⟨_, _, _, hrun, rfl, rfl, rfl, hrs1, hrs2, hmap 1⟩

end RenameBench

end CpuSim.SuperScalar
