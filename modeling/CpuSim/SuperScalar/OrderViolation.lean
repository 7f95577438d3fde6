/-
  CpuSim.SuperScalar.OrderViolation

  Order violations over runs of the memory unit.  A load executes only behind stores whose
  addresses are known, or behind the store it takes its data from; so a store that executes
  after a younger load finds that the load was forwarded from a store between the two.
  `check_order_violation` reports it all the same when the addresses are equal.
-/

import CpuSim.SuperScalar.LoadValue

namespace CpuSim.SuperScalar

open CpuSim.Lib

variable {cfg : Config}

/-! ## Runs -/

/-- Where a load obtained its data. -/
inductive LoadSource where
  | memory
  | store (robIndex : Nat)
  deriving DecidableEq, Repr

/-- The source of a load from `a` behind the entries `older`: the youngest store known to go
    to that byte address, else memory. -/
def sourceIn (a : Word) (older : List LSQEntry) : LoadSource :=
  match older.reverse.find? (LSQEntry.storesAt a) with
  | some s => .store s.robIndex
  | none => .memory

/-- An entry as `allocate` makes it. -/
def LSQEntry.Fresh (l : LSQEntry) : Prop :=
  l.valid = true ∧ l.addressValid = false ∧ l.executed = false

instance LSQEntry.decidableFresh (l : LSQEntry) : Decidable l.Fresh :=
  inferInstanceAs (Decidable (_ ∧ _ ∧ _))

/-- What may happen to the queue between two calls: commits remove entries in front,
    recoveries remove entries at the back, and dispatch appends. -/
def LoadStoreQueue.Between {n : Nat} (q q' : LoadStoreQueue n) : Prop :=
  ∃ front kept back new, q.entries = front ++ kept ++ back ∧ q'.entries = kept ++ new ∧
    (∀ l ∈ new, l.Fresh) ∧ q'.slots.Nodup

namespace MemoryExecutionUnit

/-- What is promised about the ready operations can be checked slot by slot. -/
instance decidableOffers (u : MemoryExecutionUnit cfg) : Decidable u.Offers :=
  decidable_of_iff
    (∀ i < cfg.iqCapacity, readyForMemoryExecution (u.issueQueue.entries i) = true →
      ∀ l ∈ u.lsq.entries, l.robIndex = (u.issueQueue.entries i).robIndex →
        l.type = (if (u.issueQueue.entries i).memoryRead then .LOAD else .STORE) ∧
          l.executed = false)
    ⟨fun h => ⟨fun i hi hr l hl hs => by simpa [hr] using h i hi.1 hi.2 l hl hs,
        fun i hi hr l hl hs => by simpa [hr] using h i hi.1 hi.2 l hl hs⟩,
      fun h i hi hready l hl hs => by
        cases hr : (u.issueQueue.entries i).memoryRead with
        | true => simpa using h.load i ⟨hi, hready⟩ hr l hl hs
        | false => simpa using h.store i ⟨hi, hready⟩ hr l hl hs⟩

/-- The sources recorded so far, with that of the load a call executes. -/
def sourcesAfter (u : MemoryExecutionUnit cfg) (sources : Nat → LoadSource) : Nat → LoadSource :=
  u.execute.1.foldl
    (fun sources r =>
      if r.isLoad then
        Function.update sources r.robIndex
          (sourceIn r.address (u.lsq.entries.takeWhile fun l => l.robIndex != r.robIndex))
      else sources)
    sources

/-- Runs of the unit from an empty queue.  Between two calls everything but the queue may
    change at will, so the operations become ready in any order. -/
inductive MemoryRun : MemoryExecutionUnit cfg → (Nat → LoadSource) → Prop
  | start {u : MemoryExecutionUnit cfg} {sources : Nat → LoadSource} (h : u.lsq.entries = []) :
      MemoryRun u sources
  | between {u u' : MemoryExecutionUnit cfg} {sources : Nat → LoadSource}
      (h : MemoryRun u sources) (hq : u.lsq.Between u'.lsq) : MemoryRun u' sources
  | execute {u : MemoryExecutionUnit cfg} {sources : Nat → LoadSource} (h : MemoryRun u sources)
      (ho : u.Offers) : MemoryRun u.execute.2 (u.sourcesAfter sources)

end MemoryExecutionUnit

/-! ## What a call does to the queue -/

/-- What a call may do to an entry: record the address of a waiting load, or execute the
    operation `r` at the address `a`. -/
inductive LSQEntry.Becomes (r : Nat) (a : Word) (l l' : LSQEntry) : Prop
  | waits (h : l.Awaits l')
  | executes (hr : l.robIndex = r) (hbefore : l.executed = false)
      (hsame : l'.valid = l.valid ∧ l'.type = l.type ∧ l'.robIndex = l.robIndex)
      (hafter : l'.executed = true) (hav : l'.addressValid = true) (ha : l'.address = a)

namespace LSQEntry.Becomes

variable {r : Nat} {a : Word} {l l' : LSQEntry}

theorem fields (h : l.Becomes r a l') :
    l'.valid = l.valid ∧ l'.type = l.type ∧ l'.robIndex = l.robIndex := by
  cases h with
  | waits h => exact ⟨h.fields.1, h.fields.2.1, h.fields.2.2.1⟩
  | executes _ _ hsame _ _ _ => exact hsame

/-- An executed entry does not change. -/
theorem executed_eq (h : l.Becomes r a l') (he : l.executed = true) : l' = l := by
  cases h with
  | waits h => exact h.executed_eq he
  | executes _ hbefore _ _ _ _ =>
      rw [hbefore] at he
      cases he

/-- A store that has not executed has not changed. -/
theorem store_eq (h : l.Becomes r a l') (ht : l'.type = .STORE) (he : l'.executed = false) :
    l' = l := by
  cases h with
  | waits h => exact h.store_eq (h.fields.2.1 ▸ ht)
  | executes _ _ _ hafter _ _ =>
      rw [hafter] at he
      cases he

end LSQEntry.Becomes

theorem LoadStoreQueue.becomes_tags {n r : Nat} {a : Word} {q q' : LoadStoreQueue n}
    (h : List.Forall₂ (LSQEntry.Becomes r a) q.entries q'.entries) : q'.tags = q.tags :=
  tags_of_forall₂ h fun hxy => hxy.fields

namespace MemoryExecutionUnit

variable {u : MemoryExecutionUnit cfg} {q : LoadStoreQueue cfg.lsqCapacity} {i : Nat}

/-- Executing the operation `r` at `a` on a queue some loads wait in. -/
theorem Waits.becomes (hq : Waits u q) (h : u.Offers) {r : Nat} {a : Word}
    {f : LSQEntry → LSQEntry} {q' : LoadStoreQueue cfg.lsqCapacity}
    (hbefore : ∀ l ∈ u.lsq.entries, l.robIndex = r → l.executed = false)
    (hf : ∀ l, ((f l).valid = l.valid ∧ (f l).type = l.type ∧ (f l).robIndex = l.robIndex) ∧
      (f l).executed = true ∧ (f l).addressValid = true ∧ (f l).address = a)
    (hq' : q'.entries = updateFirst (LoadStoreQueue.matchesRob r) f q.entries) :
    List.Forall₂ (LSQEntry.Becomes r a) u.lsq.entries q'.entries := by
  rw [hq']
  apply forall₂_updateFirst ((hq.awaits h).imp fun _ _ hab => .waits hab)
  intro l hl l' hrel hmatch
  obtain ⟨hvalid, htype, hindex⟩ := hrel.fields
  rw [LoadStoreQueue.matchesRob, Bool.and_eq_true, beq_iff_eq] at hmatch
  have hslot : l.robIndex = r := hindex.symm.trans hmatch.2
  obtain ⟨⟨hv, ht, hr⟩, hx, hav, ha⟩ := hf l'
  exact .executes hslot (hbefore l hl hslot) ⟨hv.trans hvalid, ht.trans htype, hr.trans hindex⟩
    hx hav ha

theorem Offers.loaded_becomes (h : u.Offers) (hq : Waits u q) (hi : u.Ready i)
    (hr : (u.issueQueue.entries i).memoryRead = true) :
    List.Forall₂ (LSQEntry.Becomes (u.issueQueue.entries i).robIndex
        (calculateAddress (u.issueQueue.entries i)))
      u.lsq.entries (u.loaded q i).2.lsq.entries := by
  refine hq.becomes h (fun l hl hslot => (h.load i hi hr l hl hslot).2) ?_
    (f := fun l =>
      let l := { l with
        address := calculateAddress (u.issueQueue.entries i), addressValid := true }
      let l := if l.type ≠ .LOAD then l
        else { l with data := (u.loaded q i).1.data, dataValid := true, completed := true }
      { l with executed := true }) ?_
  · intro l
    dsimp only
    split <;> exact ⟨⟨rfl, rfl, rfl⟩, rfl, rfl, rfl⟩
  · rw [loaded_lsq]
    show updateFirst _ _ (updateFirst _ _ (updateFirst _ _ q.entries)) = _
    rw [updateFirst_updateFirst, updateFirst_updateFirst]
    · intro l _ hl
      exact hl
    · intro l _ hl
      split <;> exact hl

theorem Offers.stored_becomes (h : u.Offers) (hq : Waits u q) (hi : u.Ready i)
    (hr : (u.issueQueue.entries i).memoryRead = false) :
    List.Forall₂ (LSQEntry.Becomes (u.issueQueue.entries i).robIndex
        (calculateAddress (u.issueQueue.entries i)))
      u.lsq.entries (u.stored q i).2.lsq.entries := by
  refine hq.becomes h (fun l hl hslot => (h.store i hi hr l hl hslot).2) ?_
    (f := fun l =>
      let l := { l with
        address := calculateAddress (u.issueQueue.entries i), addressValid := true }
      let l := if l.type ≠ .STORE then l
        else { l with data := (u.issueQueue.entries i).rs2Value, dataValid := true }
      { l with executed := true }) ?_
  · intro l
    dsimp only
    split <;> exact ⟨⟨rfl, rfl, rfl⟩, rfl, rfl, rfl⟩
  · rw [stored_lsq]
    show updateFirst _ _ (updateFirst _ _ (updateFirst _ _ q.entries)) = _
    rw [updateFirst_updateFirst, updateFirst_updateFirst]
    · intro l _ hl
      exact hl
    · intro l _ hl
      split <;> exact hl

end MemoryExecutionUnit

/-! ## The invariant of the runs -/

/-- Only executed stores have an address, and behind a store that has not executed, an
    executed load was forwarded from a store between the two. -/
structure LoadStoreQueue.Ordered {n : Nat} (q : LoadStoreQueue n) (sources : Nat → LoadSource) :
    Prop where
  valid : q.AllValid
  nodup : q.slots.Nodup
  stores : ∀ s ∈ q.entries, s.type = .STORE → s.addressValid = true → s.executed = true
  loads : ∀ l ∈ q.entries, l.executed = true → l.addressValid = true
  forwarded : ∀ older l younger, q.entries = older ++ l :: younger → l.type = .LOAD →
    l.executed = true → ∀ before s mid, older = before ++ s :: mid → s.type = .STORE →
      s.executed = false →
        ∃ b ∈ mid, b.type = .STORE ∧ b.executed = true ∧ b.address = l.address ∧
          sources l.robIndex = .store b.robIndex

namespace LoadStoreQueue

variable {n : Nat} {q q' : LoadStoreQueue n} {sources sources' : Nat → LoadSource} {a : Word}

/-- What commit, recovery and dispatch do keeps the invariant. -/
theorem Ordered.between (h : q.Ordered sources) (hq : q.Between q') : q'.Ordered sources := by
  obtain ⟨front, kept, back, new, hold, hnew, hfresh, hnodup⟩ := hq
  have hkept : ∀ l ∈ kept, l ∈ q.entries := by
    intro l hl
    rw [hold]
    exact List.mem_append_left _ (List.mem_append_right _ hl)
  constructor
  · intro l hl
    rw [hnew] at hl
    rcases List.mem_append.mp hl with hl | hl
    · exact h.valid l (hkept l hl)
    · exact (hfresh l hl).1
  · exact hnodup
  · intro s hs ht hav
    rw [hnew] at hs
    rcases List.mem_append.mp hs with hs | hs
    · exact h.stores s (hkept s hs) ht hav
    · rw [(hfresh s hs).2.1] at hav
      cases hav
  · intro l hl hx
    rw [hnew] at hl
    rcases List.mem_append.mp hl with hl | hl
    · exact h.loads l (hkept l hl) hx
    · rw [(hfresh l hl).2.2] at hx
      cases hx
  · intro older l younger hsplit ht hx before s mid hbefore
    rw [hnew] at hsplit
    rcases split_append hsplit with ⟨rest, hk, -⟩ | ⟨rest, hn, -⟩
    · -- the load was there before, behind the same entries and those now gone
      apply h.forwarded (front ++ older) l (rest ++ back) _ ht hx (front ++ before) s mid
      · rw [hbefore, List.append_assoc]
      · rw [hold, hk]
        simp
    · have hl : l ∈ new := by
        rw [hn]
        simp
      rw [(hfresh l hl).2.2] at hx
      cases hx

/-- In front of a store without an address, a load that need not wait has met the store it
    takes its data from. -/
theorem find_before_unresolved {zs rest : List LSQEntry} {s : LSQEntry}
    (hv : ∀ x ∈ zs ++ s :: rest, x.valid = true) (ht : s.type = .STORE)
    (hav : s.addressValid = false) (hwait : (scanOlder a (zs ++ s :: rest)).mustWait = false) :
    ∃ b, zs.find? (LSQEntry.storesAt a) = some b := by
  induction zs with
  | nil =>
      -- the scan would have to wait for `s`
      have hs := addressValid_of_scan (hv s (by simp)) ht hwait
      rw [hav] at hs
      cases hs
  | cons z zs ih =>
      have hrest := ih fun x hx => hv x (List.mem_cons_of_mem _ hx)
      have hvz := hv z (by simp)
      rw [List.cons_append] at hwait
      rw [List.find?_cons]
      by_cases htz : z.type = .STORE
      · have havz := addressValid_of_scan hvz htz hwait
        by_cases hat : z.address = a
        · have hfind : LSQEntry.storesAt a z = true := by simp [LSQEntry.storesAt, htz, havz, hat]
          rw [hfind]
          exact ⟨z, rfl⟩
        · -- a store to another address is passed by; the answer lies behind it
          rw [scan_of_other hvz htz havz hat] at hwait
          split
          · exact ⟨z, rfl⟩
          · exact hrest hwait
      · rw [scanOlder_load htz] at hwait
        split
        · exact ⟨z, rfl⟩
        · exact hrest hwait

/-- A call keeps the invariant, when the load it executes, if any, is recorded with its
    source. -/
theorem Ordered.becomes (h : q.Ordered sources) {r : Nat}
    (hq : List.Forall₂ (LSQEntry.Becomes r a) q.entries q'.entries)
    (hsources : ∀ l ∈ q.entries, l.executed = true → sources' l.robIndex = sources l.robIndex)
    (hload : ∀ older l younger, q.entries = older ++ l :: younger → l.robIndex = r →
      l.type = .LOAD → l.executed = false ∧ (scanOlder a older.reverse).mustWait = false ∧
        sources' r = sourceIn a older) : q'.Ordered sources' := by
  have htags := becomes_tags hq
  constructor
  · exact h.valid.of_tags htags
  · exact nodup_of_tags h.nodup htags
  · intro s' hs' ht hav
    by_contra hx
    obtain ⟨s, hs, hrel⟩ := forall₂_mem_right hq hs'
    obtain rfl := hrel.store_eq ht (eq_false_of_ne_true hx)
    exact hx (h.stores s' hs ht hav)
  · intro l' hl' hx
    obtain ⟨l, hl, hrel⟩ := forall₂_mem_right hq hl'
    cases hrel with
    | waits hw =>
        have hxl : l.executed = true := hw.fields.2.2.2 ▸ hx
        rw [hw.executed_eq hxl]
        exact h.loads l hl hxl
    | executes _ _ _ _ hav _ => exact hav
  · intro older' l' younger' hsplit' ht hx before' s' mid' hbefore' hts hxs
    rw [hsplit'] at hq
    obtain ⟨older, l, younger, hsplit, holder, hl, -⟩ := forall₂_split_right hq
    rw [hbefore'] at holder
    obtain ⟨before, s, mid, hbefore, -, hs, hmid⟩ := forall₂_split_right holder
    obtain rfl := hs.store_eq hts hxs
    have hmem : ∀ x ∈ older, x ∈ q.entries := by
      intro x hx
      rw [hsplit]
      exact List.mem_append_left _ hx
    -- an executed store of the old queue is still there
    have hstill : ∀ b ∈ mid, b.executed = true → b ∈ mid' := by
      intro b hb hbx
      obtain ⟨b', hb', hrel⟩ := forall₂_mem_right hmid.flip hb
      have heq : b' = b := LSQEntry.Becomes.executed_eq hrel hbx
      exact heq ▸ hb'
    have hlmem : l ∈ q.entries := by
      rw [hsplit]
      simp
    cases hl with
    | waits hw =>
        have hxl : l.executed = true := hw.fields.2.2.2 ▸ hx
        obtain rfl := hw.executed_eq hxl
        obtain ⟨b, hb, htb, hbx, hba, hsrc⟩ :=
          h.forwarded older l' younger hsplit ht hxl before s' mid hbefore hts hxs
        refine ⟨b, hstill b hb hbx, htb, hbx, hba, ?_⟩
        rw [hsources l' hlmem hxl, hsrc]
    | executes hr _ hsame _ _ ha =>
        -- the load executes now: its scan passed no unresolved store before it hit
        obtain ⟨-, hwait, hsrc⟩ := hload older l younger hsplit hr (hsame.2.1 ▸ ht)
        have hrev : older.reverse = mid.reverse ++ s' :: before.reverse := by
          rw [hbefore]
          simp
        have hvold : ∀ x ∈ mid.reverse ++ s' :: before.reverse, x.valid = true := by
          intro x hx
          rw [← hrev, List.mem_reverse] at hx
          exact h.valid x (hmem x hx)
        have hsmem : s' ∈ q.entries := by
          apply hmem
          rw [hbefore]
          simp
        have hsav : s'.addressValid = false := by
          by_contra hav
          have := h.stores s' hsmem hts (eq_true_of_ne_false hav)
          rw [hxs] at this
          cases this
        rw [hrev] at hwait
        obtain ⟨b, hb⟩ := find_before_unresolved hvold hts hsav hwait
        have hbmem : b ∈ mid := List.mem_reverse.mp (List.mem_of_find?_eq_some hb)
        have hat := List.find?_some hb
        rw [LSQEntry.storesAt, Bool.and_eq_true, Bool.and_eq_true, beq_iff_eq, beq_iff_eq] at hat
        obtain ⟨⟨htb, havb⟩, hab⟩ := hat
        have hbold : b ∈ q.entries := by
          apply hmem
          rw [hbefore]
          simp [hbmem]
        have hbx := h.stores b hbold htb havb
        refine ⟨b, hstill b hbmem hbx, htb, hbx, hab.trans ha.symm, ?_⟩
        rw [hsame.2.2, hr, hsrc, sourceIn, hrev, List.find?_append, hb]
        rfl

end LoadStoreQueue

/-! ## Runs keep it -/

namespace LoadStoreQueue

variable {n : Nat} {q : LoadStoreQueue n}

/-- The entries in front of slot `r`. -/
theorem takeWhile_split (hn : q.slots.Nodup) {older younger : List LSQEntry} {l : LSQEntry}
    (hsplit : q.entries = older ++ l :: younger) :
    (q.entries.takeWhile fun x => x.robIndex != l.robIndex) = older := by
  have hne : ∀ x ∈ older, (x.robIndex != l.robIndex) = true := by
    intro x hx
    rw [bne_iff_ne]
    intro heq
    rw [slots, hsplit, List.map_append, List.nodup_append] at hn
    exact hn.2.2 _ (List.mem_map_of_mem hx) l.robIndex (by simp) heq
  rw [hsplit, List.takeWhile_append_of_pos hne, List.takeWhile_cons]
  simp

end LoadStoreQueue

namespace MemoryExecutionUnit

variable {u : MemoryExecutionUnit cfg} {sources : Nat → LoadSource}

/-- One call keeps the invariant. -/
theorem Offers.ordered (ho : u.Offers) (h : u.lsq.Ordered sources) :
    u.execute.2.lsq.Ordered (u.sourcesAfter sources) := by
  have hcases := u.execute_executes
  rw [sourcesAfter]
  generalize u.execute = out at hcases ⊢
  cases hcases with
  | idle q hq =>
      -- no operation has the index `r`
      obtain ⟨r, hr⟩ := Infinite.exists_notMem_finset u.lsq.slots.toFinset
      rw [List.mem_toFinset] at hr
      apply h.becomes (r := r) (a := 0) ((hq.awaits ho).imp fun _ _ hab => .waits hab)
      · intro _ _ _
        rfl
      · rintro older l younger hsplit rfl
        apply absurd _ hr
        rw [LoadStoreQueue.slots, hsplit]
        simp
  | load q i hq hi hread hwait =>
      apply h.becomes (ho.loaded_becomes hq hi hread)
      · intro l hl hx
        apply Function.update_of_ne
        intro heq
        rw [(ho.load i hi hread l hl heq).2] at hx
        cases hx
      · intro older l younger hsplit hslot _
        have hl : l ∈ u.lsq.entries := by
          rw [hsplit]
          simp
        rw [ho.answer_eq h.valid h.nodup hq hi hread hsplit hslot] at hwait
        refine ⟨(ho.load i hi hread l hl hslot).2, hwait, ?_⟩
        have hfront := LoadStoreQueue.takeWhile_split h.nodup hsplit
        rw [hslot] at hfront
        show Function.update sources (u.issueQueue.entries i).robIndex _ _ = _
        rw [Function.update_self]
        show sourceIn _ (u.lsq.entries.takeWhile fun x =>
          x.robIndex != (u.issueQueue.entries i).robIndex) = _
        rw [hfront]
        rfl
  | store q i hq hi hread =>
      apply h.becomes (ho.stored_becomes hq hi hread)
      · intro _ _ _
        rfl
      · intro older l younger hsplit hslot ht
        have hl : l ∈ u.lsq.entries := by
          rw [hsplit]
          simp
        rw [(ho.store i hi hread l hl hslot).1] at ht
        cases ht

theorem MemoryRun.ordered (h : MemoryRun u sources) : u.lsq.Ordered sources := by
  induction h with
  | start h =>
      constructor <;> simp [LoadStoreQueue.AllValid, LoadStoreQueue.slots, h]
  | between _ hq ih => exact ih.between hq
  | execute _ ho ih => exact ho.ordered ih

/-! ## What a store reports -/

end MemoryExecutionUnit

namespace LoadStoreQueue

variable {n : Nat} {q : LoadStoreQueue n}

/-- `check_order_violation` looks at what is behind the store. -/
theorem checkOrderViolation_split {older younger : List LSQEntry} {s : LSQEntry}
    (hv : q.AllValid) (hn : q.slots.Nodup) (hq : q.entries = older ++ s :: younger)
    (ha : s.addressValid = true) :
    (q.checkOrderViolation s.robIndex).violation = younger.any (violates s.address) := by
  have hpos := (hv.findIdx?_split hn hq).2
  have hget : q.entries[older.length]? = some s := by
    rw [hq]
    simp
  have hdrop : q.entries.drop (older.length + 1) = younger := by
    rw [hq]
    simp
  rw [checkOrderViolation, hpos]
  simp only [hget, ha, hdrop, Bool.not_true, Bool.false_eq_true, if_false]
  rw [← List.isSome_find?]
  cases younger.find? (violates s.address) <;> rfl

end LoadStoreQueue

namespace MemoryExecutionUnit

variable {u : MemoryExecutionUnit cfg} {sources : Nat → LoadSource}

/-- A store reports a violation when an executed load behind it has its address. -/
theorem Offers.stored_violation (ho : u.Offers) (h : u.lsq.Ordered sources)
    {q : LoadStoreQueue cfg.lsqCapacity} (hq : Waits u q) {i : Nat}
    {older younger : List LSQEntry} {s : LSQEntry} (hsplit : u.lsq.entries = older ++ s :: younger)
    (hslot : s.robIndex = (u.issueQueue.entries i).robIndex) :
    (u.stored q i).1.orderViolation = true ↔
      ∃ l ∈ younger, l.type = .LOAD ∧ l.executed = true ∧
        l.address = calculateAddress (u.issueQueue.entries i) := by
  have hwaits := hq.awaits ho
  have hqtags := LoadStoreQueue.awaits_tags hwaits
  have hqv := h.valid.of_tags hqtags
  have hqn := LoadStoreQueue.nodup_of_tags h.nodup hqtags
  rw [hsplit] at hwaits
  obtain ⟨older', s', younger', hsplit', -, hs', hyounger⟩ := forall₂_split hwaits
  have hslot' : s'.robIndex = (u.issueQueue.entries i).robIndex := hs'.fields.2.2.1.trans hslot
  -- the store's own entry gets address and data, the others stay
  have hqmem : ∀ x ∈ older' ++ s' :: younger', x.valid = true := by
    rw [← hsplit']
    exact hqv
  have hskip : ∀ x ∈ older',
      LoadStoreQueue.matchesRob (u.issueQueue.entries i).robIndex x = false := by
    intro x hx
    have hxm : x ∈ q.entries := by
      rw [hsplit']
      exact List.mem_append_left _ hx
    rw [hqv.matches_eq hxm, decide_eq_false_iff_not]
    intro heq
    rw [LoadStoreQueue.slots, hsplit', List.map_append, List.nodup_append] at hqn
    exact hqn.2.2 _ (List.mem_map_of_mem hx) s'.robIndex (by simp) (heq.trans hslot'.symm)
  have hself : LoadStoreQueue.matchesRob (u.issueQueue.entries i).robIndex s' = true := by
    rw [LoadStoreQueue.matchesRob, hqmem s' (by simp), hslot', beq_self_eq_true]
    rfl
  have hentries : ∃ s'' : LSQEntry, s''.robIndex = s'.robIndex ∧ s''.addressValid = true ∧
      s''.address = calculateAddress (u.issueQueue.entries i) ∧
      ((u.addressed q i).setStoreData (u.issueQueue.entries i).robIndex
        (u.issueQueue.entries i).rs2Value).entries = older' ++ s'' :: younger' := by
    -- `set_address`, then `set_store_data`
    let addressed : LSQEntry :=
      { s' with address := calculateAddress (u.issueQueue.entries i), addressValid := true }
    let resolved : LSQEntry :=
      if addressed.type ≠ .STORE then addressed
      else { addressed with data := (u.issueQueue.entries i).rs2Value, dataValid := true }
    have hfields : resolved.robIndex = s'.robIndex ∧ resolved.addressValid = true ∧
        resolved.address = calculateAddress (u.issueQueue.entries i) := by
      simp only [resolved]
      split <;> exact ⟨rfl, rfl, rfl⟩
    refine ⟨resolved, hfields.1, hfields.2.1, hfields.2.2, ?_⟩
    show updateFirst _ _ (updateFirst _ _ q.entries) = _
    rw [hsplit', updateFirst_split hskip hself]
    exact updateFirst_split hskip hself
  obtain ⟨s'', hindex, hav, haddr, hentries⟩ := hentries
  have htags : ((u.addressed q i).setStoreData (u.issueQueue.entries i).robIndex
      (u.issueQueue.entries i).rs2Value).tags = u.lsq.tags := by
    rw [LoadStoreQueue.tags_setStoreData, MemoryExecutionUnit.addressed,
      LoadStoreQueue.tags_setAddress, hqtags]
  have hviolation := LoadStoreQueue.checkOrderViolation_split (h.valid.of_tags htags)
    (LoadStoreQueue.nodup_of_tags h.nodup htags) hentries hav
  rw [hindex, hslot', haddr] at hviolation
  have hresult : (u.stored q i).1.orderViolation =
      younger'.any (LoadStoreQueue.violates (calculateAddress (u.issueQueue.entries i))) :=
    hviolation
  rw [hresult, List.any_eq_true]
  constructor
  · rintro ⟨l', hl', hviol⟩
    obtain ⟨l, hl, hrel⟩ := forall₂_mem_right hyounger hl'
    simp only [LoadStoreQueue.violates, Bool.and_eq_true, beq_iff_eq] at hviol
    obtain ⟨⟨⟨⟨-, ht⟩, hx⟩, -⟩, ha⟩ := hviol
    obtain rfl := hrel.executed_eq (hrel.fields.2.2.2 ▸ hx)
    exact ⟨l', hl, ht, hx, ha⟩
  · rintro ⟨l, hl, ht, hx, ha⟩
    obtain ⟨l', hl', hrel⟩ := forall₂_mem_right hyounger.flip hl
    have heq : l' = l := LSQEntry.Awaits.executed_eq hrel hx
    have hmem : l ∈ u.lsq.entries := by
      rw [hsplit]
      simp [hl]
    refine ⟨l, heq ▸ hl', ?_⟩
    simp only [LoadStoreQueue.violates, Bool.and_eq_true, beq_iff_eq]
    exact ⟨⟨⟨⟨h.valid l hmem, ht⟩, hx⟩, h.loads l hmem hx⟩, ha⟩

/-- In every run, a store that executes reports a violation exactly when a younger load with
    its address has executed; and every younger load that has executed was forwarded from a
    store between the two. -/
theorem violation_reported_iff_younger_load {u : MemoryExecutionUnit cfg}
    {sources : Nat → LoadSource} (hrun : MemoryRun u sources) (ho : u.Offers) {r : MemoryResult}
    (hr : r ∈ u.execute.1) (hstore : r.isStore = true) {older younger : List LSQEntry}
    {s : LSQEntry} (hsplit : u.lsq.entries = older ++ s :: younger)
    (hslot : s.robIndex = r.robIndex) :
    (r.orderViolation = true ↔
        ∃ l ∈ younger, l.type = .LOAD ∧ l.executed = true ∧ l.address = r.address) ∧
      ∀ mid l rest, younger = mid ++ l :: rest → l.type = .LOAD → l.executed = true →
        ∃ b ∈ mid, b.type = .STORE ∧ b.executed = true ∧ b.address = l.address ∧
          sources l.robIndex = .store b.robIndex := by
  have h := hrun.ordered
  have hcases := u.execute_executes
  generalize u.execute = out at hcases hr
  cases hcases with
  | idle q hq => cases hr
  | load q i hq hi hread hwait =>
      obtain rfl := List.mem_singleton.mp hr
      cases hstore
  | store q i hq hi hread =>
      obtain rfl := List.mem_singleton.mp hr
      have hs : s ∈ u.lsq.entries := by
        rw [hsplit]
        simp
      obtain ⟨hts, hxs⟩ := ho.store i hi hread s hs hslot
      refine ⟨ho.stored_violation h hq hsplit hslot, ?_⟩
      intro mid l rest hyounger ht hx
      -- seen from the load, the store that executes now is one still to execute
      apply h.forwarded (older ++ s :: mid) l rest _ ht hx older s mid rfl hts hxs
      rw [hsplit, hyounger]
      simp

/-- Stores 0 and 1 and load 2, of which store 1 and the load are ready with the address 4;
    store 0 waits for its address. -/
def twoStoresAndLoad : MemoryExecutionUnit .default where
  rob := { entries := fun i => if i < 3 then { valid := true, robIndex := i } else {},
           tail := 3, count := 3 }
  issueQueue :=
    { entries := fun i =>
        if i = 0 then
          { valid := true, opcode := .SW, robIndex := 1, rs1Ready := true, rs2Ready := true,
            rs1Value := 4, rs2Value := 9, memoryWrite := true }
        else if i = 1 then
          { valid := true, opcode := .LW, robIndex := 2, physicalRd := 16, rs1Ready := true,
            rs2Ready := true, rs1Value := 4, memoryRead := true, registerWrite := true }
        else if i = 2 then
          { valid := true, opcode := .SW, robIndex := 0, physicalRs1 := 20, rs2Ready := true,
            rs2Value := 5, memoryWrite := true }
        else {},
      count := 3 }
  prf := .reset
  lsq :=
    ⟨[{ valid := true, type := .STORE, robIndex := 0 },
      { valid := true, type := .STORE, robIndex := 1 },
      { valid := true, type := .LOAD, robIndex := 2, physicalRd := 16 }]⟩
  storeBuffer := .reset
  dataMemory := .reset

/-- Store 1 and the load have executed, and the address of store 0 has arrived. -/
def lastStoreReady : MemoryExecutionUnit .default :=
  let u := twoStoresAndLoad.execute.2.execute.2
  { u with issueQueue := u.issueQueue.wakeup 20 4 }

/-- The sources recorded by then. -/
def lastStoreSources : Nat → LoadSource :=
  twoStoresAndLoad.execute.2.sourcesAfter (twoStoresAndLoad.sourcesAfter fun _ => .memory)

theorem lastStoreReady_run : MemoryRun lastStoreReady lastStoreSources := by
  have hstart : MemoryRun twoStoresAndLoad fun _ => .memory := by
    apply MemoryRun.between (.start (u := { twoStoresAndLoad with lsq := .reset }) rfl)
    refine ⟨[], [], [], twoStoresAndLoad.lsq.entries, rfl, rfl, ?_, by decide⟩
    decide
  have hrun := (hstart.execute (by decide)).execute (by decide)
  apply hrun.between
  refine ⟨[], lastStoreReady.lsq.entries, [], [], by decide, by decide, by simp, by decide⟩

/-- Store 0 reports the load, which store 1 forwarded to. -/
theorem violation_reported_forwarded :
    let r : MemoryResult :=
      { valid := true, isStore := true, robIndex := 0, address := 4, data := 5,
        orderViolation := true, violatingLoadRobIndex := 2 }
    let younger := lastStoreReady.lsq.entries.tail
    (r.orderViolation = true ↔
        ∃ l ∈ younger, l.type = .LOAD ∧ l.executed = true ∧ l.address = r.address) ∧
      ∀ mid l rest, younger = mid ++ l :: rest → l.type = .LOAD → l.executed = true →
        ∃ b ∈ mid, b.type = .STORE ∧ b.executed = true ∧ b.address = l.address ∧
          lastStoreSources l.robIndex = .store b.robIndex := by
  intro r younger
  have hsplit : lastStoreReady.lsq.entries =
      [] ++ { valid := true, type := .STORE, robIndex := 0 } :: younger := by decide
  exact violation_reported_iff_younger_load lastStoreReady_run (by decide) (r := r) (by decide) rfl
    hsplit rfl

/-- It has not obtained its data from memory, nor from a store in front of store 0. -/
theorem forwarded_load_reported :
    let r : MemoryResult :=
      { valid := true, isStore := true, robIndex := 0, address := 4, data := 5,
        orderViolation := true, violatingLoadRobIndex := 2 }
    let older : List LSQEntry := []
    let store : LSQEntry := { valid := true, type := .STORE, robIndex := 0 }
    let younger := lastStoreReady.lsq.entries.tail
    MemoryRun lastStoreReady lastStoreSources ∧ lastStoreReady.Offers ∧
      lastStoreReady.lsq.entries = older ++ store :: younger ∧ r ∈ lastStoreReady.execute.1 ∧
      ¬(r.orderViolation = true ↔
        ∃ l ∈ younger, l.type = .LOAD ∧ l.executed = true ∧ l.address = r.address ∧
          (lastStoreSources l.robIndex = .memory ∨
            ∃ b ∈ older, b.type = .STORE ∧ lastStoreSources l.robIndex = .store b.robIndex)) := by
  intro r older store younger
  refine ⟨lastStoreReady_run, by decide, by decide, by decide, ?_⟩
  intro hiff
  obtain ⟨l, hl, ht, -, -, hsrc⟩ := hiff.mp rfl
  have hbetween : ∀ l ∈ younger, l.type = .LOAD → lastStoreSources l.robIndex = .store 1 := by
    decide
  rw [hbetween l hl ht] at hsrc
  rcases hsrc with hmemory | ⟨b, hb, -⟩
  · cases hmemory
  · exact absurd hb List.not_mem_nil

end MemoryExecutionUnit

end CpuSim.SuperScalar
