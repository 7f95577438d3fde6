/-
  CpuSim.SuperScalar.LoadValue

  The value of an executed load.  `execute_load` looks for a store to the load's byte
  address, while the data memory is written and read by words and ignores what is out of
  range.  The load is right exactly when the two agree on the stores in front of it.
-/

import CpuSim.SuperScalar.MemoryExecution
import CpuSim.SuperScalar.StoreFlow

namespace CpuSim.SuperScalar

open CpuSim.Lib

variable {cfg : Config}

/-! ## Memory behind a list of writes -/

/-- The youngest write to the word of `a` decides what is read there. -/
theorem DataMemory.read_writeAll {words : Nat} (m : DataMemory words) (ws : List (Word × Word))
    (a : Word) :
    (m.writeAll ws).read a =
      if wordIndex a < words then
        some (((ws.reverse.find? fun w => wordIndex w.1 == wordIndex a).map Prod.snd).getD
          (m.memory (wordIndex a)))
      else none := by
  -- from the last write, which is the one a read finds first
  induction ws using List.reverseRecOn with
  | nil =>
      rw [writeAll, List.foldl_nil, read]
      by_cases ha : wordIndex a < words
      · rw [if_pos ha, if_neg (Nat.not_le.mpr ha)]
        rfl
      · rw [if_neg ha, if_pos (Nat.not_lt.mp ha)]
  | append_singleton ws w ih =>
      have hlast : m.writeAll (ws ++ [w]) = (m.writeAll ws).write w.1 w.2 := by
        rw [writeAll, List.foldl_append]
        rfl
      rw [hlast, read_write, ih, List.reverse_append, List.reverse_singleton,
        List.singleton_append, List.find?_cons]
      by_cases hw : wordIndex w.1 = wordIndex a
      · rw [hw, beq_self_eq_true]
        by_cases ha : wordIndex a < words
        · rw [if_pos ⟨rfl, ha⟩, if_pos ha]
          rfl
        · rw [if_neg (fun h => ha h.2), if_neg ha, if_neg ha]
      · rw [if_neg (fun h => hw h.1), beq_false_of_ne hw]

/-! ## What the scan finds and what memory would hold -/

namespace LSQEntry

/-- A store known to go to the byte address `a`. -/
def storesAt (a : Word) (s : LSQEntry) : Bool :=
  s.type == .STORE && s.addressValid && s.address == a

/-- A store known to go to the word of `a`. -/
def storesWord (a : Word) (s : LSQEntry) : Bool :=
  s.type == .STORE && s.addressValid && DataMemory.wordIndex s.address == DataMemory.wordIndex a

/-- `own` gives the address and data that the store has, once it has executed. -/
def Resolves (own : Nat → Word × Word) (s : LSQEntry) : Prop :=
  s.type = .STORE →
    s.addressValid = s.dataValid ∧
      (s.addressValid = true → own s.robIndex = (s.address, s.data))

end LSQEntry

/-- The writes of the stores among `older`, in program order. -/
def olderWrites (own : Nat → Word × Word) (older : List LSQEntry) : List (Word × Word) :=
  (older.filter fun s => s.type == .STORE).map fun s => own s.robIndex

/-- The data of the youngest store known to go to the byte address `a`. -/
def byteMatch (a : Word) (older : List LSQEntry) : Option Word :=
  (older.reverse.find? (LSQEntry.storesAt a)).map LSQEntry.data

/-- The data of the youngest store known to go to the word of `a`. -/
def wordMatch (a : Word) (older : List LSQEntry) : Option Word :=
  (older.reverse.find? (LSQEntry.storesWord a)).map LSQEntry.data

/-- Byte addresses and words do not come apart in front of a load from `a`: in range, the
    youngest store to the word holds what the youngest store to the byte address holds, or
    what memory holds when there is none of these; out of range, no store to the byte
    address holds anything but 0. -/
def ForwardsExactly {words : Nat} (m : DataMemory words) (a : Word) (older : List LSQEntry) :
    Prop :=
  if DataMemory.wordIndex a < words then
    wordMatch a older = byteMatch a older ∨
      (byteMatch a older = none ∧ wordMatch a older = some (m.memory (DataMemory.wordIndex a)))
  else byteMatch a older = none ∨ byteMatch a older = some 0

namespace LoadStoreQueue

variable {a : Word} {ys : List LSQEntry}

/-- At a store the scan goes on only behind a known address. -/
theorem addressValid_of_scan {s : LSQEntry} (hv : s.valid = true) (ht : s.type = .STORE)
    (hwait : (scanOlder a (s :: ys)).mustWait = false) : s.addressValid = true := by
  by_contra hno
  rw [scanOlder, hv, ht, eq_false_of_ne_true hno] at hwait
  cases hwait

theorem scan_of_other {s : LSQEntry} (hv : s.valid = true) (ht : s.type = .STORE)
    (ha : s.addressValid = true) (hne : s.address ≠ a) :
    scanOlder a (s :: ys) = scanOlder a ys := by
  rw [scanOlder, hv, ht, ha, beq_false_of_ne hne]
  rfl

/-- The scan hits the youngest store to the byte address. -/
theorem scanOlder_byteMatch (hv : ∀ s ∈ ys, s.valid = true)
    (hwait : (scanOlder a ys).mustWait = false) :
    (if (scanOlder a ys).hit then some (scanOlder a ys).data else none) =
      (ys.find? (LSQEntry.storesAt a)).map LSQEntry.data := by
  induction ys with
  | nil => rfl
  | cons s ys ih =>
      have hvs := hv s List.mem_cons_self
      have hrest := ih fun x hx => hv x (List.mem_cons_of_mem _ hx)
      by_cases ht : s.type = .STORE
      · have hav := addressValid_of_scan hvs ht hwait
        by_cases hat : s.address = a
        · -- the match, whose data is there
          have hscan : scanOlder a (s :: ys) =
              if s.dataValid then { hit := true, data := s.data } else { mustWait := true } := by
            rw [scanOlder, hvs, ht, hav, hat, beq_self_eq_true]
            rfl
          have hfind : LSQEntry.storesAt a s = true := by
            simp [LSQEntry.storesAt, ht, hav, hat]
          rw [hscan] at hwait ⊢
          rw [List.find?_cons, hfind]
          cases hd : s.dataValid with
          | false =>
              rw [hd] at hwait
              cases hwait
          | true => rfl
        · have hfind : LSQEntry.storesAt a s = false := by
            rw [LSQEntry.storesAt, beq_false_of_ne hat, Bool.and_false]
          rw [scan_of_other hvs ht hav hat] at hwait ⊢
          rw [List.find?_cons, hfind]
          exact hrest hwait
      · have hfind : LSQEntry.storesAt a s = false := by
          rw [LSQEntry.storesAt, beq_false_of_ne ht, Bool.false_and, Bool.false_and]
        rw [scanOlder_load ht] at hwait ⊢
        rw [List.find?_cons, hfind]
        exact hrest hwait

/-- The youngest write to the word is that of a store the scan has seen. -/
theorem writes_wordMatch {own : Nat → Word × Word} (hv : ∀ s ∈ ys, s.valid = true)
    (hown : ∀ s ∈ ys, s.Resolves own) (hwait : (scanOlder a ys).mustWait = false) :
    (((ys.filter fun s => s.type == .STORE).map fun s => own s.robIndex).find? fun w =>
        DataMemory.wordIndex w.1 == DataMemory.wordIndex a).map Prod.snd =
      (ys.find? (LSQEntry.storesWord a)).map LSQEntry.data := by
  -- the scan goes from the youngest older store back
  induction ys with
  | nil => rfl
  | cons s ys ih =>
      have hvs := hv s List.mem_cons_self
      have hrest := ih (fun x hx => hv x (List.mem_cons_of_mem _ hx))
        fun x hx => hown x (List.mem_cons_of_mem _ hx)
      by_cases ht : s.type = .STORE
      · have hav := addressValid_of_scan hvs ht hwait
        have hs := (hown s List.mem_cons_self ht).2 hav
        have htrue : (s.type == OpType.STORE) = true := by rw [ht, beq_self_eq_true]
        rw [List.filter_cons, htrue, if_pos rfl, List.map_cons, List.find?_cons, hs,
          List.find?_cons, LSQEntry.storesWord, htrue, hav, Bool.true_and, Bool.true_and]
        by_cases hword : DataMemory.wordIndex s.address = DataMemory.wordIndex a
        · rw [hword, beq_self_eq_true]
          rfl
        · -- a store to the word at another address would have made the load wait
          have hat : s.address ≠ a := fun heq => hword (heq ▸ rfl)
          rw [scan_of_other hvs ht hav hat] at hwait
          rw [beq_false_of_ne hword]
          exact hrest hwait
      · have hfalse : (s.type == OpType.STORE) = false := beq_false_of_ne ht
        rw [scanOlder_load ht] at hwait
        rw [List.filter_cons, hfalse, if_neg Bool.false_ne_true, List.find?_cons,
          LSQEntry.storesWord, hfalse, Bool.false_and, Bool.false_and]
        exact hrest hwait

/-- A store to the byte address is a store to the word. -/
theorem wordMatch_isSome {older : List LSQEntry} {v : Word} (h : byteMatch a older = some v) :
    (wordMatch a older).isSome = true := by
  obtain ⟨s, hs, -⟩ := Option.map_eq_some_iff.mp h
  have hat := List.find?_some hs
  rw [LSQEntry.storesAt, Bool.and_eq_true, beq_iff_eq] at hat
  rw [wordMatch, Option.isSome_map, List.find?_isSome]
  refine ⟨s, List.mem_of_find?_eq_some hs, ?_⟩
  rw [LSQEntry.storesWord, hat.1, hat.2, beq_self_eq_true]
  rfl

/-- The two lookups give one value exactly when byte addresses and words do not come
    apart. -/
theorem lookups_agree_iff {words : Nat} (m : DataMemory words) (older : List LSQEntry) :
    (byteMatch a older).getD ((m.read a).getD 0) =
        (if DataMemory.wordIndex a < words then
          (wordMatch a older).getD (m.memory (DataMemory.wordIndex a)) else 0) ↔
      ForwardsExactly m a older := by
  rw [ForwardsExactly, DataMemory.read]
  by_cases ha : DataMemory.wordIndex a < words
  · rw [if_neg (Nat.not_le.mpr ha), if_pos ha, if_pos ha, Option.getD_some]
    cases hb : byteMatch a older with
    | none =>
        cases hw : wordMatch a older with
        | none => simp
        | some y => simp [eq_comm]
    | some x =>
        obtain ⟨y, hy⟩ := Option.isSome_iff_exists.mp (wordMatch_isSome hb)
        rw [hy]
        simp [eq_comm]
  · rw [if_pos (Nat.not_lt.mp ha), if_neg ha, if_neg ha, Option.getD_none]
    cases byteMatch a older <;> simp

end LoadStoreQueue

namespace MemoryExecutionUnit

variable {u : MemoryExecutionUnit cfg}

/-! ## An executed load -/

/-- The entry of a load holds the address just recorded. -/
theorem addressed_entry {q : LoadStoreQueue cfg.lsqCapacity} (hv : q.AllValid)
    (hn : q.slots.Nodup) {i : Nat} {l : LSQEntry} (hl : l ∈ (u.addressed q i).entries)
    (hslot : l.robIndex = (u.issueQueue.entries i).robIndex) :
    l.addressValid = true ∧ l.address = calculateAddress (u.issueQueue.entries i) := by
  have hmap : (u.addressed q i).entries = _ := updateFirst_eq_map hn fun x hx => hv.matches_eq hx
  rw [hmap] at hl
  obtain ⟨l0, -, rfl⟩ := List.mem_map.mp hl
  split at hslot
  · rename_i hit
    rw [if_pos hit]
    exact ⟨rfl, rfl⟩
  · rename_i hno
    exact absurd hslot hno

/-- The answer of the queue is that of the scan over the entries in front of the load. -/
theorem Offers.answer_eq (h : u.Offers) (hv : u.lsq.AllValid) (hn : u.lsq.slots.Nodup)
    {q : LoadStoreQueue cfg.lsqCapacity} (hq : Waits u q) {i : Nat} (hi : u.Ready i)
    (hr : (u.issueQueue.entries i).memoryRead = true) {older younger : List LSQEntry}
    {l : LSQEntry} (hsplit : u.lsq.entries = older ++ l :: younger)
    (hslot : l.robIndex = (u.issueQueue.entries i).robIndex) :
    u.answer q i =
      LoadStoreQueue.scanOlder (calculateAddress (u.issueQueue.entries i)) older.reverse := by
  -- the loads scanned before and the address written keep the entries in place
  have hwaits := hq.awaits h
  have hqtags := LoadStoreQueue.awaits_tags hwaits
  have haddr := h.addressed hwaits hi hr
  have htags := LoadStoreQueue.awaits_tags haddr
  rw [hsplit] at haddr
  obtain ⟨older', l', younger', hsplit', holder, hl', -⟩ := forall₂_split haddr
  have hslot' : l'.robIndex = (u.issueQueue.entries i).robIndex := hl'.fields.2.2.1.trans hslot
  have hmem : l' ∈ (u.addressed q i).entries := by
    rw [hsplit']
    simp
  obtain ⟨hav, ha⟩ := addressed_entry (hv.of_tags hqtags)
    (LoadStoreQueue.nodup_of_tags hn hqtags) hmem hslot'
  have hscan := (LoadStoreQueue.executeLoad_split (hv.of_tags htags)
    (LoadStoreQueue.nodup_of_tags hn htags) hsplit' hav).1
  rw [answer, ← hslot', hscan, ha]
  -- the scan reads only what the older entries kept
  exact LoadStoreQueue.scanOlder_congr (List.rel_reverse holder)

/-- An executed load writes its value back, and the value is the one memory would hold
    behind the stores in front of it exactly when byte addresses and words do not come apart
    there. -/
theorem load_value_exact_iff (u : MemoryExecutionUnit cfg) (hv : u.lsq.AllValid)
    (hn : u.lsq.slots.Nodup) (ho : u.Offers) {r : MemoryResult} (hr : r ∈ u.execute.1)
    (hload : r.isLoad = true) {older younger : List LSQEntry} {l : LSQEntry}
    (hsplit : u.lsq.entries = older ++ l :: younger) (hslot : l.robIndex = r.robIndex)
    (own : Nat → Word × Word) (hown : ∀ s ∈ older, s.Resolves own) :
    (∀ e, u.rob.entry r.robIndex = some e → e.valid = true →
      u.execute.2.prf = u.prf.write r.physicalRd r.data ∧
        u.execute.2.rob = u.rob.complete r.robIndex r.data) ∧
      (r.data = ((u.dataMemory.writeAll (olderWrites own older)).read r.address).getD 0 ↔
        ForwardsExactly u.dataMemory r.address older) := by
  have hcases := u.execute_executes
  generalize u.execute = out at hcases hr ⊢
  cases hcases with
  | idle q hq => cases hr
  | store q i hq hi hread =>
      obtain rfl := List.mem_singleton.mp hr
      cases hload
  | load q i hq hi hread hwait =>
      obtain rfl := List.mem_singleton.mp hr
      have hans := ho.answer_eq hv hn hq hi hread hsplit hslot
      constructor
      · intro e he hvalid
        have he' : u.rob.entry (u.issueQueue.entries i).robIndex = some e := he
        simp only [loaded, finishLoad, writeBack, he', hvalid]
        exact ⟨rfl, rfl⟩
      · have holder : ∀ s ∈ older.reverse, s.valid = true := by
          intro s hs
          apply hv
          rw [hsplit]
          exact List.mem_append_left _ (List.mem_reverse.mp hs)
        rw [hans] at hwait
        -- the scan answers with the byte address, sequential memory with the word
        have hbyte := LoadStoreQueue.scanOlder_byteMatch holder hwait
        have hword := LoadStoreQueue.writes_wordMatch holder
          (fun s hs => hown s (List.mem_reverse.mp hs)) hwait
        have hdata : (u.loaded q i).1.data =
            (byteMatch (u.loaded q i).1.address older).getD
              ((u.dataMemory.read (u.loaded q i).1.address).getD 0) := by
          show (if (u.answer q i).hit then (u.answer q i).data else _) = _
          rw [hans, byteMatch]
          show _ = (Option.map LSQEntry.data (List.find?
            (LSQEntry.storesAt (calculateAddress (u.issueQueue.entries i))) older.reverse)).getD _
          rw [← hbyte]
          split <;> rfl
        rw [hdata, DataMemory.read_writeAll, ← LoadStoreQueue.lookups_agree_iff, wordMatch]
        have hwrites : (olderWrites own older).reverse =
            (older.reverse.filter fun s => s.type == .STORE).map fun s => own s.robIndex := by
          rw [olderWrites, ← List.map_reverse, List.filter_reverse]
        rw [hwrites]
        show _ ↔ _ = if _ then (Option.map LSQEntry.data (List.find?
          (LSQEntry.storesWord (calculateAddress (u.issueQueue.entries i))) older.reverse)).getD _
          else 0
        rw [← hword]
        -- outside data memory both sides are 0
        split <;> rfl

/-- A store of 7 to the byte address 4 that has executed. -/
def executedStore : LSQEntry :=
  { valid := true, type := .STORE, robIndex := 0, addressValid := true, address := 4,
    dataValid := true, data := 7, executed := true }

/-- A load behind it. -/
def queuedLoad : LSQEntry := { valid := true, type := .LOAD, robIndex := 1, physicalRd := 16 }

/-- The two in the queue, and the load ready with the byte address `address`. -/
def storeThenLoad (address : Word) : MemoryExecutionUnit .default where
  rob := { entries := fun i => if i < 2 then { valid := true, robIndex := i } else {},
           tail := 2, count := 2 }
  issueQueue :=
    { entries := fun i =>
        if i = 0 then
          { valid := true, opcode := .LW, robIndex := 1, physicalRd := 16, rs1Ready := true,
            rs2Ready := true, rs1Value := address, memoryRead := true, registerWrite := true }
        else {},
      count := 1 }
  prf := .reset
  lsq := ⟨[executedStore, queuedLoad]⟩
  storeBuffer := .reset
  dataMemory := .reset

theorem storeThenLoad_ready {address : Word} {i : Nat} (hi : (storeThenLoad address).Ready i) :
    i = 0 := by
  obtain ⟨-, hready⟩ := hi
  by_contra hne
  simp [storeThenLoad, hne, readyForMemoryExecution] at hready

theorem storeThenLoad_promises (address : Word) :
    (storeThenLoad address).lsq.AllValid ∧ (storeThenLoad address).lsq.slots.Nodup ∧
      (storeThenLoad address).Offers ∧
      ∀ s ∈ [executedStore], s.Resolves fun _ => (4, 7) := by
  have hmem : ∀ l ∈ (storeThenLoad address).lsq.entries, l = executedStore ∨ l = queuedLoad := by
    intro l hl
    simpa [storeThenLoad] using hl
  refine ⟨?_, ?_, ⟨?_, ?_⟩, ?_⟩
  · intro l hl
    rcases hmem l hl with rfl | rfl <;> rfl
  · show [0, 1].Nodup
    decide
  · intro i hi _ l hl hslot
    obtain rfl := storeThenLoad_ready hi
    rcases hmem l hl with rfl | rfl
    · cases hslot
    · exact ⟨rfl, rfl⟩
  · intro i hi hread
    obtain rfl := storeThenLoad_ready hi
    cases hread
  · intro s hs _
    obtain rfl := List.mem_singleton.mp hs
    exact ⟨rfl, fun _ => rfl⟩

/-- The load from the address of the store takes its 7. -/
theorem load_value_exact_same_address :
    let u := storeThenLoad 4
    let r : MemoryResult :=
      { valid := true, isLoad := true, robIndex := 1, physicalRd := 16, address := 4, data := 7 }
    (∀ e, u.rob.entry r.robIndex = some e → e.valid = true →
      u.execute.2.prf = u.prf.write r.physicalRd r.data ∧
        u.execute.2.rob = u.rob.complete r.robIndex r.data) ∧
      (r.data = ((u.dataMemory.writeAll (olderWrites (fun _ => (4, 7)) [executedStore])).read
          r.address).getD 0 ↔
        ForwardsExactly u.dataMemory r.address [executedStore]) := by
  intro u r
  obtain ⟨hv, hn, ho, hown⟩ := storeThenLoad_promises 4
  exact load_value_exact_iff u hv hn ho (r := r) (by decide) rfl (l := queuedLoad)
    (show u.lsq.entries = [executedStore] ++ queuedLoad :: [] from rfl) rfl (fun _ => (4, 7)) hown

/-- The load from the byte address 5 reads memory, which the store has not reached, and gets
    0; its word is to become 7. -/
theorem unaligned_load_misses_store :
    let u := storeThenLoad 5
    let r : MemoryResult :=
      { valid := true, isLoad := true, robIndex := 1, physicalRd := 16, address := 5, data := 0 }
    (u.lsq.AllValid ∧ u.lsq.slots.Nodup ∧ u.Offers ∧
        ∀ s ∈ [executedStore], s.Resolves fun _ => (4, 7)) ∧
      u.lsq.entries = [executedStore] ++ queuedLoad :: [] ∧ r ∈ u.execute.1 ∧
      r.data ≠ ((u.dataMemory.writeAll (olderWrites (fun _ => (4, 7)) [executedStore])).read
          r.address).getD 0 := by
  intro u r
  exact ⟨storeThenLoad_promises 5, rfl, by decide, by decide⟩

end MemoryExecutionUnit

end CpuSim.SuperScalar
