/-
  CpuSim.SuperScalar.Forwarding

  Loads.  The load/store queue holds the stores in front of a load with their own
  addresses and data, so the scan of `execute_load` finds the value the interpreter
  reads, as long as comparing byte addresses means the same as comparing the words of
  data memory.
-/

import CpuSim.SuperScalar.Results
import CpuSim.SuperScalar.MemoryConsistency

namespace CpuSim.SuperScalar

open CpuSim.Lib CpuSim.Lib.Renaming

variable {cfg : Config}

/-! ## Words and byte addresses -/

theorem DataMemory.read_write {words : Nat} (m : DataMemory words) (a b v : Word) :
    (m.write a v).read b =
      if wordIndex a = wordIndex b ∧ wordIndex b < words then some v else m.read b := by
  rw [write]
  by_cases ha : wordIndex a ≥ words
  · rw [if_pos ha, if_neg]
    rintro ⟨hab, hb⟩
    omega
  · rw [if_neg ha, read, read]
    by_cases hb : wordIndex b ≥ words
    · rw [if_pos hb, if_pos hb, if_neg]
      rintro ⟨-, hlt⟩
      omega
    · rw [if_neg hb, if_neg hb]
      by_cases hab : wordIndex a = wordIndex b
      · rw [if_pos ⟨hab, Nat.lt_of_not_le hb⟩, hab]
        exact congrArg some (Function.update_self _ _ _)
      · rw [if_neg fun h => hab h.1]
        exact congrArg some (Function.update_of_ne (Ne.symm hab) _ _)

/-- The address of a store. -/
def LSQEntry.storeAddress (l : LSQEntry) : Option Word :=
  if l.type = .STORE then some l.address else none

namespace LoadStoreQueue

variable {n : Nat}

/-- The addresses of the stores in front of slot `r`, youngest first. -/
def olderStores (q : LoadStoreQueue n) (r : Nat) : List Word :=
  ((q.entries.takeWhile fun l => l.robIndex != r).filterMap LSQEntry.storeAddress).reverse

/-- Looking for `address` among the stores in front, youngest first, finds the store that
    last wrote its word, if any: a match is within memory, and no store passed over
    wrote the same word. -/
def exactScan (words : Nat) (address : Word) : List Word → Bool
  | [] => true
  | older :: rest =>
    if older = address then decide (DataMemory.wordIndex address < words)
    else if DataMemory.wordIndex older = DataMemory.wordIndex address ∧
        DataMemory.wordIndex address < words then false
    else exactScan words address rest

end LoadStoreQueue

/-! ## The scan -/

/-- A queue entry carries the operation of the instruction `e`: a store has its own address
    and data once they are valid. -/
structure LSQEntry.Carries {words : Nat} (l : LSQEntry) (d : Machine words) (e : ROBEntry) :
    Prop where
  type : l.type = .STORE ↔ e.memoryWrite = true
  address : e.memoryWrite = true → l.addressValid = true → l.address = d.address e.decoded
  data : e.memoryWrite = true → l.dataValid = true → l.data = d.regs e.decoded.rs2

theorem memSlots_concat (es : List ROBEntry) (e : ROBEntry) :
    memSlots (es ++ [e]) = memSlots es ++ if e.memory then [e.robIndex] else [] := by
  rw [memSlots_append, memSlots, memSlots, List.filter_cons]
  split <;> rfl

namespace LoadStoreQueue

variable {words n : Nat} {a : Word} {d : Machine words} {l : LSQEntry} {rest : List LSQEntry}
  {addresses : List Word}

theorem scanOlder_load (ht : l.type ≠ .STORE) : scanOlder a (l :: rest) = scanOlder a rest := by
  rw [scanOlder, decide_eq_true ht, Bool.or_true, if_pos rfl]

/-- What the scan does at a store, if the load need not wait: it is the match, with a word of
    memory, or it wrote another word. -/
theorem scanOlder_store (hv : l.valid = true) (ht : l.type = .STORE)
    (hwait : (scanOlder a (l :: rest)).mustWait = false)
    (hexact : exactScan words a (l.address :: addresses) = true) :
    l.addressValid = true ∧
      ((l.address = a ∧ DataMemory.wordIndex a < words ∧ l.dataValid = true ∧
          scanOlder a (l :: rest) = { hit := true, data := l.data }) ∨
        (¬(DataMemory.wordIndex l.address = DataMemory.wordIndex a ∧
            DataMemory.wordIndex a < words) ∧
          scanOlder a (l :: rest) = scanOlder a rest ∧ exactScan words a addresses = true)) := by
  have hscan : scanOlder a (l :: rest) =
      if !l.addressValid then { mustWait := true }
      else if l.address == a then
        if l.dataValid then { hit := true, data := l.data } else { mustWait := true }
      else scanOlder a rest := by
    rw [scanOlder, hv, ht]
    rfl
  rw [hscan] at hwait ⊢
  rw [exactScan] at hexact
  -- a store without its address or its data would make the load wait
  cases hav : l.addressValid with
  | false =>
      rw [hav] at hwait
      cases hwait
  | true =>
      refine ⟨rfl, ?_⟩
      rw [hav, Bool.not_true, if_neg Bool.false_ne_true] at hwait
      rw [Bool.not_true, if_neg Bool.false_ne_true]
      by_cases hhit : l.address = a
      · left
        rw [hhit, beq_self_eq_true, if_pos rfl] at hwait
        rw [if_pos hhit, decide_eq_true_iff] at hexact
        rw [hhit, beq_self_eq_true, if_pos rfl]
        cases hdv : l.dataValid with
        | false =>
            rw [hdv] at hwait
            cases hwait
        | true => exact ⟨rfl, hexact, rfl, rfl⟩
      · right
        rw [if_neg hhit] at hexact
        rw [beq_false_of_ne hhit, if_neg Bool.false_ne_true]
        split at hexact
        · cases hexact
        · rename_i hother
          exact ⟨hother, rfl, hexact⟩

/-- The scan over the operations of `pre`, youngest first, finds the value memory has
    after `pre`. -/
theorem scanOlder_right {older : List LSQEntry} {pre : List ROBEntry}
    (hslots : older.map LSQEntry.robIndex = memSlots pre)
    (hvalid : ∀ l ∈ older, l.valid = true) (hdec : ∀ e ∈ pre, e.FromDecode)
    (hcarries : ∀ l ∈ older, ∀ front e back, pre = front ++ e :: back →
      e.robIndex = l.robIndex → l.Carries (d.after front) e)
    (hwait : (scanOlder a older.reverse).mustWait = false)
    (hexact : exactScan words a (older.filterMap LSQEntry.storeAddress).reverse = true) :
    (if (scanOlder a older.reverse).hit then (scanOlder a older.reverse).data
      else (d.mem.read a).getD 0) = ((d.after pre).mem.read a).getD 0 := by
  induction pre using List.reverseRecOn generalizing older with
  | nil =>
      have hnil : older = [] := List.map_eq_nil_iff.mp hslots
      rw [hnil]
      rfl
  | append_singleton pre e ih =>
      have hmem := (hdec e (by simp)).exec_mem (d.after pre)
      rw [Machine.after_append, Machine.after_cons, Machine.after_nil, hmem]
      rw [memSlots_concat] at hslots
      have hdec' : ∀ x ∈ pre, x.FromDecode := fun x hx => hdec x (List.mem_append_left _ hx)
      have hcarries' : ∀ l ∈ older, ∀ front x back, pre = front ++ x :: back →
          x.robIndex = l.robIndex → l.Carries (d.after front) x := by
        intro l hl front x back hsplit
        apply hcarries l hl front x (back ++ [e])
        rw [hsplit, List.append_assoc]
        rfl
      by_cases hop : e.memory = true
      · -- the youngest operation is that of `e`
        rw [if_pos hop] at hslots
        obtain ⟨older, last, rfl, holder, hlast⟩ := List.map_eq_append_iff.mp hslots
        obtain ⟨l, tl, rfl, hl, htl⟩ := List.map_eq_cons_iff.mp hlast
        obtain rfl : tl = [] := List.map_eq_nil_iff.mp htl
        have hmeml : l ∈ older ++ [l] := by simp
        have hcarry : l.Carries (d.after pre) e := hcarries l hmeml pre e [] rfl hl.symm
        have hih := ih holder (fun x hx => hvalid x (List.mem_append_left _ hx)) hdec'
          fun x hx => hcarries' x (List.mem_append_left _ hx)
        rw [List.reverse_append, List.reverse_singleton, List.singleton_append] at hwait ⊢
        rw [List.filterMap_append, List.reverse_append] at hexact
        cases hw : e.memoryWrite with
        | false =>
            have hload : l.type ≠ .STORE := fun htype =>
              Bool.false_ne_true (hw.symm.trans (hcarry.type.mp htype))
            have hnone : [l].filterMap LSQEntry.storeAddress = [] := by
              rw [List.filterMap_cons, show l.storeAddress = none from if_neg hload]
              rfl
            rw [hnone] at hexact
            rw [scanOlder_load hload] at hwait ⊢
            exact hih hwait hexact
        | true =>
            have hstore : l.type = .STORE := hcarry.type.mpr hw
            have hsome : [l].filterMap LSQEntry.storeAddress = [l.address] := by
              rw [List.filterMap_cons, show l.storeAddress = some l.address from if_pos hstore]
              rfl
            rw [hsome] at hexact
            obtain ⟨hav, hcase⟩ := scanOlder_store (hvalid l hmeml) hstore hwait hexact
            rw [if_pos rfl, DataMemory.read_write, ← hcarry.address hw hav]
            rcases hcase with ⟨hhit, hlt, hdv, hscan⟩ | ⟨hother, hscan, hexact⟩
            · rw [hscan, if_pos rfl, hhit, if_pos ⟨rfl, hlt⟩, ← hcarry.data hw hdv]
              rfl
            · rw [if_neg hother]
              rw [hscan] at hwait ⊢
              exact hih hwait hexact
      · rw [if_neg hop, List.append_nil] at hslots
        have hw : e.memoryWrite = false := eq_false_of_ne_true fun hw => hop (by
          rw [ROBEntry.memory, hw, Bool.or_true])
        rw [hw]
        exact ih hslots hvalid hdec' hcarries' hwait hexact

theorem olderStores_eq (q : LoadStoreQueue n) (r : Nat) :
    q.olderStores r =
      (((q.entries.map fun l => (l.robIndex, l.storeAddress)).takeWhile
        fun v => v.1 != r).filterMap Prod.snd).reverse := by
  rw [olderStores, List.takeWhile_map, List.filterMap_map]
  rfl

/-- `execute_load` scans what is in front of the load. -/
theorem executeLoad_split {q : LoadStoreQueue n} {older younger : List LSQEntry} (hv : q.AllValid)
    (hn : q.slots.Nodup) (hq : q.entries = older ++ l :: younger) (ha : l.addressValid = true) :
    q.executeLoad l.robIndex = scanOlder l.address older.reverse ∧
      q.olderStores l.robIndex = (older.filterMap LSQEntry.storeAddress).reverse := by
  obtain ⟨hne, hpos⟩ := hv.findIdx?_split hn hq
  constructor
  · have hget : q.entries[older.length]? = some l := by rw [hq]; simp
    rw [executeLoad, hpos]
    simp only [hget, ha, Bool.not_true, Bool.false_eq_true, if_false]
    rw [hq, List.take_left]
  · rw [olderStores, hq, List.takeWhile_append_of_pos fun x hx => bne_iff_ne.mpr (hne x hx),
      List.takeWhile_cons]
    simp

end LoadStoreQueue

theorem LSQEntry.Carries.of_load {words : Nat} {l l' : LSQEntry} {d : Machine words}
    {e : ROBEntry} (h : l.Carries d e) (hw : e.memoryWrite = false) (ht : l'.type = l.type) :
    l'.Carries d e := by
  refine ⟨by rw [ht]; exact h.type, fun hno => ?_, fun hno => ?_⟩
  · rw [hw] at hno
    cases hno
  · rw [hw] at hno
    cases hno

theorem Machine.after_finishAt {words : Nat} (d : Machine words) (i : Nat) (r : Word)
    (es : List ROBEntry) : d.after (es.map (ReOrderBuffer.finishAt i r)) = d.after es := by
  refine foldl_map_eq (fun d e _ => ?_) d
  rw [Machine.execEntry, Machine.execEntry, ReOrderBuffer.finishAt]
  split <;> rfl

theorem LSQEntry.Carries.finishAt {words : Nat} {l : LSQEntry} {d : Machine words} {e : ROBEntry}
    (h : l.Carries d e) (i : Nat) (r : Word) : l.Carries d (ReOrderBuffer.finishAt i r e) := by
  rw [ReOrderBuffer.finishAt]
  split
  · exact ⟨h.type, h.address, h.data⟩
  · exact h

namespace SuperScalarCPU

variable {s t : SuperScalarCPU cfg} {d : Machine cfg.dataMemoryWords}

/-! ## The load/store queue and the interpreter -/

/-- Every queue entry carries the operation of the instruction in its slot. -/
def Forwards (d : Machine cfg.dataMemoryWords) (s : SuperScalarCPU cfg) : Prop :=
  ∀ l ∈ s.lsq.entries, ∀ pre e post, s.rob.window = pre ++ e :: post →
    e.robIndex = l.robIndex → l.Carries (d.after pre) e

namespace Forwards

/-- Losing entries at the end of the window. -/
theorem of_truncated (h : Forwards d s) (hlsq : t.lsq = s.lsq) (post : List ROBEntry)
    (hw : s.rob.window = t.rob.window ++ post) : Forwards d t := by
  intro l hl pre e rest hsplit hslot
  rw [hlsq] at hl
  apply h l hl pre e (rest ++ post) _ hslot
  rw [hw, hsplit, List.append_assoc]
  rfl

theorem congr (h : Forwards d s) (hlsq : t.lsq = s.lsq) (hrob : t.rob = s.rob) : Forwards d t :=
  h.of_truncated hlsq [] (by rw [hrob, List.append_nil])

theorem commit (h : Forwards d s) {es : List ROBEntry} (hc : Commits s t es) :
    Forwards (d.after es) t := by
  have hsub : ∀ (es : List ROBEntry) (q : LoadStoreQueue cfg.lsqCapacity),
      (es.foldl (fun q e => q.remove e.robIndex) q).entries.Sublist q.entries := by
    intro es
    induction es with
    | nil => exact fun q => List.Sublist.refl _
    | cons e es ih => exact fun q => (ih _).trans List.eraseP_sublist
  intro l hl pre e post hsplit hslot
  rw [hc.lsq] at hl
  rw [← Machine.after_append]
  apply h l ((hsub es s.lsq).subset hl) (es ++ pre) e post _ hslot
  rw [hc.window, hsplit, List.append_assoc]

/-- Changing the queue entry of one slot. -/
theorem update (h : Forwards d s) (hT : LsqTracks (· = ·) s) {r : Nat} {f : LSQEntry → LSQEntry}
    (htag : ∀ l, (f l).tag = l.tag)
    (hlsq : t.lsq.entries = updateFirst (LoadStoreQueue.matchesRob r) f s.lsq.entries)
    (hrob : t.rob = s.rob)
    (hf : ∀ l pre e post, s.rob.window = pre ++ e :: post → e.robIndex = r →
      l.Carries (d.after pre) e → (f l).Carries (d.after pre) e) : Forwards d t := by
  intro l hl pre e post hsplit hslot
  rw [hrob] at hsplit
  rw [hlsq] at hl
  rcases mem_updateFirst hl with hl | ⟨l, hold, hmatch, rfl⟩
  · exact h l hl pre e post hsplit hslot
  · have hkey : (f l).robIndex = l.robIndex := congrArg (fun t => t.2.1) (htag l)
    rw [hT.valid.matches_eq hold, decide_eq_true_iff] at hmatch
    rw [hkey] at hslot
    exact hf l pre e post hsplit (hslot.trans hmatch) (h l hold pre e post hsplit hslot)

/-- Finishing a queued instruction. -/
theorem finish (h : Forwards d s) (hs : Sound s) (i : Nat) (r : Word) :
    Forwards d (s.finish i r) := by
  intro l hl pre e post hsplit hslot
  obtain ⟨pre0, e0, post0, hw, rfl, rfl, rfl⟩ := Renaming.split_finish hs hsplit
  rw [Machine.after_finishAt]
  apply LSQEntry.Carries.finishAt
  apply h l hl pre0 e0 post0 hw
  rw [← hslot, ReOrderBuffer.finishAt]
  split <;> rfl

theorem branch (h : Forwards d s) (hs : Sound s) (hc : BranchCase s t) : Forwards d t := by
  cases hc with
  | none _ ht => rw [ht]; exact h
  | correct i hi _ ht =>
      rw [ht, hs.resolveBranch_eq hi]
      exact (h.finish hs i _).congr rfl rfl
  | mispredicted i _ _ pre b post hm _ hr =>
      have hlsq : t.lsq = s.lsq := by rw [hr.frame]
      have hwin := (window_complete_split hs.inFlight.rob_wf hr.split
        (s.branchResult i).targetPc).2
      rw [← hm.robIndex] at hwin
      refine (h.finish hs i (s.branchResult i).targetPc).of_truncated hlsq post ?_
      rw [hr.window, List.append_assoc]
      exact hwin

theorem executeAlu (h : Forwards d s) (hs : Sound s) (i : Nat) : Forwards d (s.executeAlu i) := by
  rw [executeAlu_eq]
  exact h.finish hs i _

/-- A lane that enters has neither address nor data yet. -/
theorem dispatchLane (h : Forwards d s) (hT : LsqTracks (· = ·) s) (hs : Sound s)
    {ren : RenameBundle} (hb : Sound.Renamed ren) : Forwards d (s.dispatchLane ren) := by
  have hentries := (dispatchLane_queues hs hb).1
  have hwin := dispatchLane_window hs hb
  intro l hl pre e post hsplit hslot
  cases hd : s.laneDispatched ren with
  | false =>
      rw [hentries, lsqEntered, hd, Bool.false_and, Bool.false_and, if_neg Bool.false_ne_true,
        List.append_nil] at hl
      rw [hwin, hd, if_neg Bool.false_ne_true, List.append_nil] at hsplit
      exact h l hl pre e post hsplit hslot
  | true =>
      obtain ⟨hv, hroom, -⟩ := (laneDispatched_iff hs.inFlight).mp hd
      have htail : ∀ x ∈ s.rob.window, x.robIndex ≠ s.rob.tail := fun x hx heq =>
        hs.inFlight.rob_wf.tail_not_live hroom (heq ▸ hs.inFlight.rob_wf.mem_liveSlots hx)
      have hlane : (s.laneEntry ren).robIndex = s.rob.tail := by rw [laneEntry_eq]
      rw [hwin, hd, if_pos rfl] at hsplit
      rw [hentries] at hl
      rcases split_append hsplit with ⟨mid, hsplit, -⟩ | ⟨mid, hmid, rfl⟩
      · -- an older instruction, and so an older entry
        rcases List.mem_append.mp hl with hl | hl
        · exact h l hl pre e mid hsplit hslot
        · have hx := htail e (by rw [hsplit]; simp)
          rw [lsqEntered] at hl
          split at hl
          · rw [hslot, List.mem_singleton.mp hl] at hx
            exact absurd rfl hx
          · cases hl
      · obtain ⟨rfl, rfl, -⟩ := split_singleton hmid
        rw [hlane] at hslot
        rcases List.mem_append.mp hl with hl | hl
        · -- an older entry has an older slot
          have hmem : l.robIndex ∈ memSlots s.rob.window := by
            rw [← hT.slots]
            exact List.mem_map_of_mem hl
          obtain ⟨x, hx, -, hxl⟩ := mem_memSlots.mp hmem
          exact absurd (hxl.trans hslot.symm) (htail x hx)
        · rw [lsqEntered] at hl
          split at hl
          · rename_i hop
            rw [Bool.and_eq_true, Bool.and_eq_true, Bool.or_eq_true] at hop
            have htype : (if ren.memoryRead then OpType.LOAD else .STORE) = .STORE ↔
                ren.memoryWrite = true := by
              cases hr : ren.memoryRead with
              | true => simp [((hb hv).1.classes.1 hr).1]
              | false => simp [hop.1.2.resolve_left (by rw [hr]; decide)]
            rw [List.mem_singleton.mp hl, laneEntry_eq]
            refine ⟨htype, fun _ hno => ?_, fun _ hno => ?_⟩ <;> cases hno
          · cases hl

end Forwards

/-! ## Executing a memory operation -/

/-- A queued load is not a store. -/
theorem MemReady.not_store (hs : Sound s) {i : Nat} (hi : s.MemReady i)
    (hr : (s.iq.entries i).memoryRead = true) {e : ROBEntry} (he : e ∈ s.rob.window)
    (hslot : e.robIndex = (s.iq.entries i).robIndex) : e.memoryWrite = false := by
  obtain ⟨-, hm⟩ := hs.inFlight.backed_by hi.live he hslot.symm
  obtain ⟨-, -, -, -, -, hread, -, -⟩ := (hs.inFlight.queueDecoded _ hi.live).fields
  rw [hread, beq_iff_eq, hm.decoded] at hr
  rw [(hs.inFlight.entryDecoded e he).memoryWrite_eq, hr]
  rfl

/-- The queue while loads that must wait record their addresses. -/
structure Waiting (d : Machine cfg.dataMemoryWords) (s : SuperScalarCPU cfg)
    (q : LoadStoreQueue cfg.lsqCapacity) : Prop where
  forwards : Forwards d { s with lsq := q }
  tracks : LsqTracks (· = ·) { s with lsq := q }
  stores : q.entries.map (fun l => (l.robIndex, l.storeAddress)) =
    s.lsq.entries.map fun l => (l.robIndex, l.storeAddress)

theorem Waiting.olderStores {q : LoadStoreQueue cfg.lsqCapacity} (h : Waiting d s q) (r : Nat) :
    q.olderStores r = s.lsq.olderStores r := by
  rw [LoadStoreQueue.olderStores_eq, h.stores, ← LoadStoreQueue.olderStores_eq]

/-- An entry of the queue belongs to an instruction of the window. -/
theorem Waiting.entry {q : LoadStoreQueue cfg.lsqCapacity} (h : Waiting d s q) {l : LSQEntry}
    (hl : l ∈ q.entries) :
    ∃ pre e post, s.rob.window = pre ++ e :: post ∧ e.robIndex = l.robIndex ∧
      l.Carries (d.after pre) e := by
  have hmem : l.robIndex ∈ memSlots s.rob.window := by
    rw [← h.tracks.slots]
    exact List.mem_map_of_mem hl
  obtain ⟨e, he, -, hslot⟩ := mem_memSlots.mp hmem
  obtain ⟨pre, post, hw⟩ := List.append_of_mem he
  exact ⟨pre, e, post, hw, hslot, h.forwards l hl pre e post hw hslot⟩

theorem Waiting.addressed {q : LoadStoreQueue cfg.lsqCapacity} (h : Waiting d s q) (hs : Sound s)
    {i : Nat} (hi : s.MemReady i) (hr : (s.iq.entries i).memoryRead = true) :
    Waiting d s (s.addressed q i) := by
  have htags : (s.addressed q i).tags = q.tags := LoadStoreQueue.tags_setAddress _ _ _
  refine ⟨?_, h.tracks.of_tags htags rfl, ?_⟩
  · refine h.forwards.update h.tracks (f := fun l => { l with
      address := MemoryExecutionUnit.calculateAddress (s.iq.entries i), addressValid := true })
      (fun _ => rfl) rfl rfl fun l pre e post hw hslot hcarry => ?_
    refine hcarry.of_load (hi.not_store hs hr ?_ hslot) rfl
    rw [show s.rob.window = pre ++ e :: post from hw]
    simp
  · have hnodup : q.slots.Nodup := h.tracks.nodup slotOrder_eq (hs.congr rfl rfl rfl rfl)
    have hentries : (s.addressed q i).entries = _ :=
      updateFirst_eq_map hnodup fun l hl => h.tracks.valid.matches_eq hl
    rw [← h.stores, hentries, List.map_map]
    refine List.map_congr_left fun l hl => ?_
    rw [Function.comp]
    split
    · rename_i hslot
      -- the entry of a load is not a store
      obtain ⟨pre, e, post, hw, he, hcarry⟩ := h.entry hl
      have hnot := hi.not_store hs hr (by rw [hw]; simp) (he.trans hslot)
      have htype : l.type ≠ .STORE := fun ht => by
        rw [hcarry.type.mp ht] at hnot
        cases hnot
      rw [LSQEntry.storeAddress, LSQEntry.storeAddress, if_neg htype, if_neg htype]
    · rfl

theorem Waits.waiting {q : LoadStoreQueue cfg.lsqCapacity} (hq : Waits s q) (h : Forwards d s)
    (hT : LsqTracks (· = ·) s) (hs : Sound s) : Waiting d s q := by
  induction hq with
  | start => exact ⟨h, hT, rfl⟩
  | wait _ hi hr _ ih => exact ih.addressed hs hi hr

/-- A load gets the value memory has in front of it. -/
theorem Waiting.loadData {q : LoadStoreQueue cfg.lsqCapacity} (h : Waiting d s q) (hs : Sound s)
    (hmem : s.dataMemory = d.mem) {i : Nat} (hi : s.MemReady i)
    (hr : (s.iq.entries i).memoryRead = true) {pre post : List ROBEntry} {b : ROBEntry}
    (hw : s.rob.window = pre ++ b :: post) (hm : (s.iq.entries i).Matches b)
    (hwait : ((s.addressed q i).executeLoad (s.iq.entries i).robIndex).mustWait = false)
    (hexact : LoadStoreQueue.exactScan cfg.dataMemoryWords
      (MemoryExecutionUnit.calculateAddress (s.iq.entries i))
      (s.lsq.olderStores (s.iq.entries i).robIndex) = true) :
    s.loadData q i =
      ((d.after pre).mem.read (MemoryExecutionUnit.calculateAddress (s.iq.entries i))).getD 0 := by
  have hnext := h.addressed hs hi hr
  have hb : b ∈ s.rob.window := by rw [hw]; simp
  have hmemory : b.memory = true := by
    rw [ROBEntry.memory, (hs.inFlight.entryDecoded b hb).memoryRead, ← hm.pc, ← hm.instruction,
      ← (hs.inFlight.queueDecoded _ hi.live).memoryRead, hr]
    rfl
  have hnodup : (s.addressed q i).slots.Nodup :=
    hnext.tracks.nodup slotOrder_eq (hs.congr rfl rfl rfl rfl)
  -- the queue splits where the window does
  have hslots : (s.addressed q i).entries.map LSQEntry.robIndex =
      memSlots pre ++ (s.iq.entries i).robIndex :: memSlots post := by
    have heq : (s.addressed q i).entries.map LSQEntry.robIndex = memSlots s.rob.window :=
      hnext.tracks.slots
    rw [heq, hw, show pre ++ b :: post = pre ++ ([b] ++ post) from rfl, memSlots_append,
      memSlots_append, memSlots, memSlots, memSlots, List.filter_cons, hmemory, hm.robIndex]
    rfl
  obtain ⟨older, rest, hentries, holder, hrest⟩ := List.map_eq_append_iff.mp hslots
  obtain ⟨l, younger, rfl, hl, -⟩ := List.map_eq_cons_iff.mp hrest
  have hload : l.address = MemoryExecutionUnit.calculateAddress (s.iq.entries i) ∧
      l.addressValid = true := by
    have hold : q.slots.Nodup := h.tracks.nodup slotOrder_eq (hs.congr rfl rfl rfl rfl)
    have hmap : (s.addressed q i).entries = _ :=
      updateFirst_eq_map hold fun l hl => h.tracks.valid.matches_eq hl
    have hmeml : l ∈ (s.addressed q i).entries := by rw [hentries]; simp
    rw [hmap] at hmeml
    obtain ⟨l0, -, rfl⟩ := List.mem_map.mp hmeml
    split at hl
    · rename_i hslot
      rw [if_pos hslot]
      exact ⟨rfl, rfl⟩
    · rename_i hslot
      exact absurd hl hslot
  have hvalid : (s.addressed q i).AllValid := hnext.tracks.valid
  obtain ⟨hexec, hstores⟩ :=
    LoadStoreQueue.executeLoad_split hvalid hnodup hentries hload.2
  rw [hl, hload.1] at hexec
  rw [hl, hnext.olderStores] at hstores
  rw [hexec] at hwait
  rw [hstores] at hexact
  rw [SuperScalarCPU.loadData, hexec, hmem]
  refine LoadStoreQueue.scanOlder_right holder (fun x hx => ?_) (fun e he => ?_)
    (fun x hx front e back hsplit hslot => ?_) hwait hexact
  · apply hvalid
    rw [hentries]
    exact List.mem_append_left _ hx
  · apply hs.inFlight.entryDecoded
    rw [hw]
    exact List.mem_append_left _ he
  · have hx' : x ∈ (s.addressed q i).entries := by
      rw [hentries]
      exact List.mem_append_left _ hx
    apply hnext.forwards x hx' front e (back ++ b :: post) _ hslot
    show s.rob.window = _
    rw [hw, hsplit, List.append_assoc]
    rfl

/-- An executed store puts its own address and data into the queue. -/
theorem Waiting.stored {q : LoadStoreQueue cfg.lsqCapacity} (h : Waiting d s q) (hs : Sound s)
    {i : Nat} {pre post : List ROBEntry} {b : ROBEntry} (hw : s.rob.window = pre ++ b :: post)
    (hm : (s.iq.entries i).Matches b) {v : Word}
    (haddress : MemoryExecutionUnit.calculateAddress (s.iq.entries i) =
      (d.after pre).address b.decoded) (hdata : v = (d.after pre).regs b.decoded.rs2) :
    Forwards d { s with
      lsq := ((s.addressed q i).setStoreData (s.iq.entries i).robIndex v).markExecuted
        (s.iq.entries i).robIndex } := by
  -- only the store itself stands in this slot
  have hplace : ∀ front e back, s.rob.window = front ++ e :: back →
      e.robIndex = (s.iq.entries i).robIndex → front = pre ∧ e = b := by
    intro front e back hsplit hslot
    obtain ⟨h1, h2, -⟩ := split_unique hs.inFlight.rob_wf.nodup_robIndex hsplit hw
      (hslot.trans hm.robIndex)
    exact ⟨h1, h2⟩
  have htags : (s.addressed q i).tags = q.tags := LoadStoreQueue.tags_setAddress _ _ _
  have hT1 : LsqTracks (· = ·) { s with lsq := s.addressed q i } := h.tracks.of_tags htags rfl
  -- the address goes in first, then the data, then the mark
  have h1 : Forwards d { s with lsq := s.addressed q i } := by
    refine h.forwards.update h.tracks (f := fun l => { l with
      address := MemoryExecutionUnit.calculateAddress (s.iq.entries i), addressValid := true })
      (fun _ => rfl) rfl rfl fun l front e back hsplit hslot hcarry => ?_
    obtain ⟨rfl, rfl⟩ := hplace front e back hsplit hslot
    exact ⟨hcarry.type, fun _ _ => haddress, hcarry.data⟩
  have h2 : Forwards d
      { s with lsq := (s.addressed q i).setStoreData (s.iq.entries i).robIndex v } := by
    refine h1.update hT1 (f := fun l => if l.type ≠ .STORE then l else
      { l with data := v, dataValid := true }) (fun l => by split <;> rfl) rfl rfl
      fun l front e back hsplit hslot hcarry => ?_
    obtain ⟨rfl, rfl⟩ := hplace front e back hsplit hslot
    split
    · exact hcarry
    · exact ⟨hcarry.type, hcarry.address, fun _ _ => hdata⟩
  have hT2 : LsqTracks (· = ·)
      { s with lsq := (s.addressed q i).setStoreData (s.iq.entries i).robIndex v } :=
    hT1.of_tags (LoadStoreQueue.tags_setStoreData _ _ _) rfl
  refine h2.update hT2 (f := fun l => { l with executed := true }) (fun _ => rfl) rfl rfl
    fun l _ _ _ _ _ hcarry => ⟨hcarry.type, hcarry.address, hcarry.data⟩

/-- A load that finishes keeps what the stores of the queue carry. -/
theorem Waiting.loaded {q : LoadStoreQueue cfg.lsqCapacity} (h : Waiting d s q) (hs : Sound s)
    {i : Nat} (hi : s.MemReady i) (hr : (s.iq.entries i).memoryRead = true) (v : Word) :
    Forwards d { s with
      lsq := ((s.addressed q i).completeLoad (s.iq.entries i).robIndex v).markExecuted
        (s.iq.entries i).robIndex } := by
  have hnext := h.addressed hs hi hr
  -- the slot belongs to a load, and `Forwards` speaks of stores
  have hquiet : ∀ pre e post, s.rob.window = pre ++ e :: post →
      e.robIndex = (s.iq.entries i).robIndex → e.memoryWrite = false := by
    intro pre e post hw hslot
    apply hi.not_store hs hr _ hslot
    rw [hw]
    simp
  have h2 : Forwards d
      { s with lsq := (s.addressed q i).completeLoad (s.iq.entries i).robIndex v } := by
    refine hnext.forwards.update hnext.tracks (f := fun l => if l.type ≠ .LOAD then l else
      { l with data := v, dataValid := true, completed := true }) (fun l => by split <;> rfl)
      rfl rfl fun l pre e post hw hslot hcarry => ?_
    exact hcarry.of_load (hquiet pre e post hw hslot) (by split <;> rfl)
  have hT2 : LsqTracks (· = ·)
      { s with lsq := (s.addressed q i).completeLoad (s.iq.entries i).robIndex v } :=
    hnext.tracks.of_tags (LoadStoreQueue.tags_completeLoad _ _ _) rfl
  refine h2.update hT2 (f := fun l => { l with executed := true }) (fun _ => rfl) rfl rfl
    fun l _ _ _ _ _ hcarry => ⟨hcarry.type, hcarry.address, hcarry.data⟩

/-! ## The memory stage -/

section MemoryStage

variable {m : Register → PhysicalRegister} {own : Nat → Word × Word} {i : Nat}

theorem MemReady.operands_ready (hi : s.MemReady i) :
    (s.iq.entries i).rs1Ready = true ∧ (s.iq.entries i).rs2Ready = true := by
  have hready := hi.2
  simp only [MemoryExecutionUnit.readyForMemoryExecution, Bool.and_eq_true] at hready
  exact ⟨hready.1.1.2, hready.1.2⟩

/-- The results of stores that execute now leave the completed stores of the window alone. -/
theorem Computes.storesAfter (h : Computes own d s) (hs : Sound s) (hi : s.MemReady i)
    {r : MemoryResult} (hslot : r.robIndex = (s.iq.entries i).robIndex) :
    Computes (storesAfter [r] own) d s := by
  refine h.congr_own fun e he _ hdone => if_neg ?_
  rintro ⟨-, heq⟩
  -- the entry about to execute is not completed yet
  have hopen := (hs.inFlight.backed_by hi.live he (hslot.symm.trans heq)).1
  rw [hdone] at hopen
  cases hopen

/-- A load that executes has the value memory has in front of it. -/
theorem Computes.loaded (h : Computes own d s) (hF : Forwards d s) (hT : LsqTracks (· = ·) s)
    (hR : Renaming m s) (hD : Delivery m s) (hs : Sound s)
    {q : LoadStoreQueue cfg.lsqCapacity} (hq : Waits s q) (hi : s.MemReady i)
    (hr : (s.iq.entries i).memoryRead = true)
    (hwait : ((s.addressed q i).executeLoad (s.iq.entries i).robIndex).mustWait = false)
    (hexact : LoadStoreQueue.exactScan cfg.dataMemoryWords
      (MemoryExecutionUnit.calculateAddress (s.iq.entries i))
      (s.lsq.olderStores (s.iq.entries i).robIndex) = true) :
    Computes own d (s.loaded q i) ∧ Forwards d (s.loaded q i) := by
  have hwaiting := hq.waiting hF hT hs
  obtain ⟨h1, h2⟩ := hi.operands_ready
  obtain ⟨pre, b, post, hw, hm, hop⟩ := h.operands hR hD hs hi.live h1 h2
  have hdec := hs.inFlight.queueDecoded _ hi.live
  -- what the load gets is what the older stores leave in memory
  have hvalue := hwaiting.loadData hs h.mem hi hr hw hm hwait hexact
  have hcode : b.decoded.opcode = .LW := by
    obtain ⟨-, -, -, -, -, hread, -, -⟩ := hdec.fields
    rw [hread, hm.decoded, beq_iff_eq] at hr
    exact hr
  have hb : b ∈ s.rob.window := by rw [hw]; simp
  constructor
  · refine (h.finish hs (s.loadData q i) hw hm fun _ => ⟨fun _ => ?_, fun hstore => ?_⟩).congr
      rfl rfl rfl
    · rw [hvalue, hop.address hdec (Or.inl hr), hm.decoded]
      show Machine.result _ b.decoded = _
      rw [Machine.result, hcode]
      rfl
    · have hno := hi.not_store hs hr hb hm.robIndex.symm
      rw [show (b.finish (s.loadData q i)).memoryWrite = b.memoryWrite from rfl, hno] at hstore
      cases hstore
  · have hs' : Sound { s with lsq := ((s.addressed q i).completeLoad (s.iq.entries i).robIndex
        (s.loadData q i)).markExecuted (s.iq.entries i).robIndex } := hs.congr rfl rfl rfl rfl
    exact ((hwaiting.loaded hs hi hr (s.loadData q i)).finish hs' i (s.loadData q i)).congr
      rfl rfl

/-- A store that executes has its own address and data. -/
theorem Computes.stored (h : Computes own d s) (hF : Forwards d s) (hT : LsqTracks (· = ·) s)
    (hR : Renaming m s) (hD : Delivery m s) (hs : Sound s)
    {q : LoadStoreQueue cfg.lsqCapacity} (hq : Waits s q) (hi : s.MemReady i)
    (hw : (s.iq.entries i).memoryWrite = true) :
    Computes (SuperScalarCPU.storesAfter [s.storeResult q i] own) d (s.stored q i) ∧
      Forwards d (s.stored q i) := by
  have hwaiting := hq.waiting hF hT hs
  obtain ⟨h1, h2⟩ := hi.operands_ready
  obtain ⟨pre, b, post, hsplit, hm, hop⟩ := h.operands hR hD hs hi.live h1 h2
  have hdec := hs.inFlight.queueDecoded _ hi.live
  have haddress : MemoryExecutionUnit.calculateAddress (s.iq.entries i) =
      (d.after pre).address b.decoded := by
    rw [hop.address hdec (Or.inr hw), hm.decoded]
  have hdata : (s.iq.entries i).rs2Value = (d.after pre).regs b.decoded.rs2 := by
    rw [hop.rs2 (Or.inr hw), hm.decoded]
  have hb : b ∈ s.rob.window := by rw [hsplit]; simp
  have hcode : b.decoded.opcode = .SW := by
    obtain ⟨-, -, -, -, -, -, hwrite, -⟩ := hdec.fields
    rw [hwrite, hm.decoded, beq_iff_eq] at hw
    exact hw
  constructor
  · have hown := h.storesAfter hs hi (r := s.storeResult q i) rfl
    refine (hown.finish hs (s.iq.entries i).rs2Value hsplit hm fun _ =>
      ⟨fun hwrite => ?_, fun _ => ?_⟩).congr rfl rfl rfl
    · -- a store has no destination register
      have hnone := (hs.inFlight.entryDecoded b hb).result_isSome (d.after pre)
      rw [show (b.finish (s.iq.entries i).rs2Value).registerWrite = b.registerWrite from rfl,
        ← hnone, Machine.result, hcode] at hwrite
      cases hwrite
    · show SuperScalarCPU.storesAfter [s.storeResult q i] own b.robIndex = _
      rw [← hm.robIndex]
      refine (if_pos ⟨rfl, rfl⟩).trans ?_
      exact Prod.ext haddress hdata
  · have hs' : Sound { s with lsq := ((s.addressed q i).setStoreData (s.iq.entries i).robIndex
        (s.iq.entries i).rs2Value).markExecuted (s.iq.entries i).robIndex } :=
      hs.congr rfl rfl rfl rfl
    exact ((hwaiting.stored hs hsplit hm haddress hdata).finish hs' i
      (s.iq.entries i).rs2Value).congr rfl rfl

/-- Memory execution computes what the interpreter computes, as long as the load it
    executes, if any, scans exactly. -/
theorem Computes.memory (h : Computes own d s) (hF : Forwards d s) (hT : LsqTracks (· = ·) s)
    (hR : Renaming m s) (hD : Delivery m s) (hs : Sound s) {rs : List MemoryResult}
    (hc : MemoryCase s t rs)
    (hexact : ∀ r ∈ rs, r.isLoad = true → LoadStoreQueue.exactScan cfg.dataMemoryWords r.address
      (s.lsq.olderStores r.robIndex) = true) :
    Computes (SuperScalarCPU.storesAfter rs own) d t ∧ Forwards d t := by
  cases hc with
  | idle q hq ht =>
      rw [ht]
      exact ⟨h.congr rfl rfl rfl, (hq.waiting hF hT hs).forwards⟩
  | load q i hq hi hr hw ht =>
      rw [ht]
      obtain ⟨hcomputes, hforwards⟩ := h.loaded hF hT hR hD hs hq hi hr hw
        (hexact _ List.mem_cons_self rfl)
      exact ⟨hcomputes.congr_own fun _ _ _ _ => rfl, hforwards⟩
  | store q i hq hi _ hw ht =>
      rw [ht]
      exact h.stored hF hT hR hD hs hq hi hw

end MemoryStage

/-! ## A step -/

/-- The load executed in a step, if any, scans exactly. -/
def LoadsExact (s : SuperScalarCPU cfg) : Prop :=
  ∀ r ∈ s.memoryResults, r.isLoad = true → LoadStoreQueue.exactScan cfg.dataMemoryWords r.address
    (s.committed.lsq.olderStores r.robIndex) = true

instance (s : SuperScalarCPU cfg) : Decidable s.LoadsExact :=
  inferInstanceAs (Decidable (∀ r ∈ s.memoryResults, r.isLoad = true → _ = true))

/-- The values of the machine are those of `d`, and the load/store queue carries the stores
    of the window. -/
structure Agrees (own : Nat → Word × Word) (d : Machine cfg.dataMemoryWords)
    (s : SuperScalarCPU cfg) : Prop where
  computes : Computes own d s
  forwards : Forwards d s

namespace Agrees

variable {m : Register → PhysicalRegister} {own : Nat → Word × Word}

theorem congr (h : Agrees own d s) (hrob : t.rob = s.rob) (harf : t.arf = s.arf)
    (hmem : t.dataMemory = s.dataMemory) (hlsq : t.lsq = s.lsq) : Agrees own d t :=
  ⟨h.computes.congr hrob harf hmem, h.forwards.congr hlsq hrob⟩

/-- Commit and memory execution: what retires moves on `d`. -/
theorem memoryDone (h : Agrees own d s) (hQ : QueuesTrack own s) (hR : Renaming m s)
    (hD : Delivery m s) (harf : 16 ≤ cfg.arfCount) (hs : Steps s) (hexact : LoadsExact s)
    {es : List ROBEntry} (hes : Commits s s.committed es) :
    Renaming (mapAfter m es) s.memoryDone ∧ Delivery (mapAfter m es) s.memoryDone ∧
      Agrees (storesAfter s.committed.memUnit.execute.1 own) (d.after es) s.memoryDone := by
  have hRc := hR.commit hs.sound hes
  have hDc := hD.commit harf hes
  have hcommit := h.computes.commit hD hQ.stores hs.sound harf hes
  rw [LoadsExact, memoryResults, hs.running] at hexact
  obtain ⟨hcm, hfm⟩ := hcommit.memory (h.forwards.commit hes)
    (hQ.lsq.commit slotOrder_eq hs.sound hes) hRc hDc hs.sound_committed hs.memoryCase hexact
  exact ⟨hRc.memory hs.sound_committed hs.memoryCase,
    hDc.memory hRc hs.sound_committed hs.memoryCase, hcm, hfm⟩

/-- The rest of the backend adds right results. -/
theorem executed (h : Agrees own d s.memoryDone) (hR : Renaming m s.memoryDone)
    (hD : Delivery m s.memoryDone) (hs : Steps s) (hclean : RecoveryClean s) :
    Agrees own d s.executed := by
  have hbranch : Agrees own d s.memoryDone.branchStage :=
    ⟨h.computes.branch hs.sound_memoryDone hs.branchCase,
      h.forwards.branch hs.sound_memoryDone hs.branchCase⟩
  have hRb := hR.branch hs.sound_memoryDone hs.branchCase hclean
  have hDb := hD.branch hR hs.sound_memoryDone hs.branchCase
  -- the invariant of the two integer lanes
  have hall : Sound s.executed ∧ Renaming m s.executed ∧ Delivery m s.executed ∧
      Agrees own d s.executed :=
    aluStage_induction
      (P := fun t => Sound t ∧ Renaming m t ∧ Delivery m t ∧ Agrees own d t)
      ⟨hs.sound_branchDone, hRb, hDb, hbranch⟩ fun t i ⟨hst, hRt, hDt, hAt⟩ hi =>
        ⟨hst.executeAlu hi, hRt.executeAlu hst hi, hDt.executeAlu hRt hst hi,
          hAt.computes.executeAlu hRt hDt hst hi, hAt.forwards.executeAlu hst i⟩
  exact hall.2.2.2

/-- Rename and dispatch. -/
theorem next (h : Agrees own d s.executed) (hQ : QueuesTrack own s.executed) (hs : Steps s)
    (hfit : QueuesFit s.next) : Agrees own d s.next := by
  have hboth : QueuesTrack own s.next ∧ Agrees own d s.next := by
    refine hs.next_lanes (P := fun t => QueuesTrack own t ∧ Agrees own d t)
      (fun t f ht => ⟨⟨⟨ht.1.lsq.valid, ht.1.lsq.slots⟩, ht.1.stores.of_stores rfl rfl
        fun e he _ => he⟩, ht.2.congr rfl rfl rfl rfl⟩) ⟨hQ, h⟩ (fun _ => ?_)
      (fun hr ht => ?_) fun hr hflag ht => ?_
    · exact ⟨⟨⟨hQ.lsq.valid, hQ.lsq.slots⟩, hQ.stores.of_stores rfl rfl fun e he _ => he⟩,
        h.congr rfl rfl rfl rfl⟩
    · obtain ⟨hs0, -, hr0, -⟩ := hs.sound_lanes hr
      obtain ⟨⟨post, hpost⟩, -⟩ := hs.lane_windows hr
      exact ⟨ht.1.dispatchLane hs0 hr0 (hfit.of_window hpost),
        ht.2.computes.dispatchLane hs0 hr0, ht.2.forwards.dispatchLane ht.1.lsq hs0 hr0⟩
    · obtain ⟨-, hs1, -, hr1⟩ := hs.sound_lanes hr
      obtain ⟨-, hlane⟩ := hs.lane_windows hr
      exact ⟨ht.1.dispatchLane hs1 hr1
          (hfit.of_window ((hlane hflag).symm.trans (List.append_nil _).symm)),
        ht.2.computes.dispatchLane hs1 hr1, ht.2.forwards.dispatchLane ht.1.lsq hs1 hr1⟩
  exact hboth.2

end Agrees

end SuperScalarCPU

end CpuSim.SuperScalar
