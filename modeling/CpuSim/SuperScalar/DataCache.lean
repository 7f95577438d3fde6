/-
  CpuSim.SuperScalar.DataCache

  `DataCache`, the write-back, write-allocate cache in front of `SuperScalarDataMemory`,
  and its transparency.  The words a reader sees are those of the line that holds the
  address, else those of the backing memory; no call changes them except a write, at its
  own address.  Sizes are natural numbers: a cache of 2^64 bytes cannot be built.
-/

import CpuSim.Lib.LineAddress
import CpuSim.Lib.Refinement
import CpuSim.SuperScalar.Memory

namespace CpuSim.SuperScalar

open CpuSim.Lib CpuSim.Lib.LineAddress

/-! ## The cache -/

/-- `DataCache::Line`. -/
structure DataCacheLine where
  valid : Bool := false
  dirty : Bool := false
  tag : Word := 0
  words : Nat → Word := fun _ => 0

/-- `DataCache::Stats`. -/
structure DataCacheStats where
  reads : Nat := 0
  readHits : Nat := 0
  readMisses : Nat := 0
  writes : Nat := 0
  writeHits : Nat := 0
  writeMisses : Nat := 0
  evictions : Nat := 0
  writebacks : Nat := 0
  deriving DecidableEq, Repr

/-- `DataCache<NumLines, WordsPerLine, DataMemoryWords>` with its backing memory. -/
structure DataCache (NumLines WordsPerLine DataMemoryWords : Nat) where
  memory : DataMemory DataMemoryWords
  lines : Nat → DataCacheLine := fun _ => {}
  stats : DataCacheStats := {}

namespace DataCache

variable {NumLines WordsPerLine DataMemoryWords : Nat}

/-- `reset()`. -/
def reset (c : DataCache NumLines WordsPerLine DataMemoryWords) :
    DataCache NumLines WordsPerLine DataMemoryWords :=
  { memory := c.memory }

/-- `word_addr % WordsPerLine`. -/
def lineOffset (_ : DataCache NumLines WordsPerLine DataMemoryWords) (wordAddr : Nat) : Nat :=
  wordAddr % WordsPerLine

/-- `(word_addr / WordsPerLine) % NumLines`. -/
def lineIndex (_ : DataCache NumLines WordsPerLine DataMemoryWords) (wordAddr : Nat) : Nat :=
  wordAddr / WordsPerLine % NumLines

/-- `static_cast<std::uint32_t>(word_addr / (WordsPerLine * NumLines))`. -/
def lineTag (_ : DataCache NumLines WordsPerLine DataMemoryWords) (wordAddr : Nat) : Word :=
  BitVec.ofNat 32 (wordAddr / (WordsPerLine * NumLines))

/-- A change of the counters only. -/
def count (c : DataCache NumLines WordsPerLine DataMemoryWords)
    (f : DataCacheStats → DataCacheStats) : DataCache NumLines WordsPerLine DataMemoryWords :=
  { c with stats := f c.stats }

/-- `writeback_line(line_index)`. -/
def writebackLine (c : DataCache NumLines WordsPerLine DataMemoryWords) (lineIndex : Nat) :
    DataCache NumLines WordsPerLine DataMemoryWords :=
  let line := c.lines lineIndex
  let baseWord := (line.tag.toNat * NumLines + lineIndex) * WordsPerLine
  { memory :=
      (List.range WordsPerLine).foldl
        (fun m w =>
          if baseWord + w < DataMemoryWords then m.writeWord (baseWord + w) (line.words w) else m)
        c.memory
    lines := Function.update c.lines lineIndex { line with dirty := false }
    stats := { c.stats with writebacks := c.stats.writebacks + 1 } }

/-- The eviction `refill_line` starts with. -/
def evict (c : DataCache NumLines WordsPerLine DataMemoryWords) (lineIndex : Nat) :
    DataCache NumLines WordsPerLine DataMemoryWords :=
  if (c.lines lineIndex).valid then
    let c := c.count fun st => { st with evictions := st.evictions + 1 }
    if (c.lines lineIndex).dirty then c.writebackLine lineIndex else c
  else c

/-- `refill_line(line_index, word_addr, new_tag)`. -/
def refillLine (c : DataCache NumLines WordsPerLine DataMemoryWords) (lineIndex wordAddr : Nat)
    (newTag : Word) : DataCache NumLines WordsPerLine DataMemoryWords :=
  let c := c.evict lineIndex
  let baseWord := wordAddr / WordsPerLine * WordsPerLine
  { c with
    lines :=
      Function.update c.lines lineIndex
        { valid := true, dirty := false, tag := newTag,
          words := fun w =>
            if baseWord + w < DataMemoryWords then c.memory.readWord (baseWord + w) else 0 } }

/-- `line.valid && line.tag == tag`. -/
def hit (c : DataCache NumLines WordsPerLine DataMemoryWords) (wordAddr : Nat) : Bool :=
  (c.lines (c.lineIndex wordAddr)).valid &&
    (c.lines (c.lineIndex wordAddr)).tag == c.lineTag wordAddr

/-- The lookup that `read` and `write` share: a hit is counted, a miss is counted and
    refills the line. -/
def lookup (c : DataCache NumLines WordsPerLine DataMemoryWords) (wordAddr : Nat)
    (hits misses : DataCacheStats → DataCacheStats) :
    DataCache NumLines WordsPerLine DataMemoryWords :=
  if c.hit wordAddr then c.count hits
  else (c.count misses).refillLine (c.lineIndex wordAddr) wordAddr (c.lineTag wordAddr)

/-- `read(byte_address)`. -/
def read (c : DataCache NumLines WordsPerLine DataMemoryWords) (byteAddress : Word) :
    Option Word × DataCache NumLines WordsPerLine DataMemoryWords :=
  let wordAddr := DataMemory.wordIndex byteAddress
  if wordAddr ≥ DataMemoryWords then (none, c)
  else
    let c := c.count fun st => { st with reads := st.reads + 1 }
    let c := c.lookup wordAddr (fun st => { st with readHits := st.readHits + 1 })
      (fun st => { st with readMisses := st.readMisses + 1 })
    (some ((c.lines (c.lineIndex wordAddr)).words (c.lineOffset wordAddr)), c)

/-- `line.words[line_offset] = data; line.dirty = true`. -/
def store (c : DataCache NumLines WordsPerLine DataMemoryWords) (wordAddr : Nat) (data : Word) :
    DataCache NumLines WordsPerLine DataMemoryWords :=
  let line := c.lines (c.lineIndex wordAddr)
  { c with
    lines :=
      Function.update c.lines (c.lineIndex wordAddr)
        { line with
          words := Function.update line.words (c.lineOffset wordAddr) data, dirty := true } }

/-- `write(byte_address, data)`. -/
def write (c : DataCache NumLines WordsPerLine DataMemoryWords) (byteAddress data : Word) :
    Bool × DataCache NumLines WordsPerLine DataMemoryWords :=
  let wordAddr := DataMemory.wordIndex byteAddress
  if wordAddr ≥ DataMemoryWords then (false, c)
  else
    let c := c.count fun st => { st with writes := st.writes + 1 }
    let c := c.lookup wordAddr (fun st => { st with writeHits := st.writeHits + 1 })
      (fun st => { st with writeMisses := st.writeMisses + 1 })
    (true, c.store wordAddr data)

/-- The body of the loop of `flush()`. -/
def flushLine (c : DataCache NumLines WordsPerLine DataMemoryWords) (lineIndex : Nat) :
    DataCache NumLines WordsPerLine DataMemoryWords :=
  if (c.lines lineIndex).valid && (c.lines lineIndex).dirty then c.writebackLine lineIndex else c

/-- `flush()`. -/
def flush (c : DataCache NumLines WordsPerLine DataMemoryWords) :
    DataCache NumLines WordsPerLine DataMemoryWords :=
  (List.range NumLines).foldl flushLine c

end DataCache

/-! ## Calls -/

/-- A call of `DataCache` or of `SuperScalarDataMemory`; a plain memory has nothing to
    flush. -/
inductive MemoryCall where
  | read (byteAddress : Word)
  | write (byteAddress data : Word)
  | flush

/-- What a call returns. -/
inductive MemoryAnswer where
  | word (w : Option Word)
  | accepted (b : Bool)
  | flushed
  deriving DecidableEq, Repr

def DataCache.call {NumLines WordsPerLine DataMemoryWords : Nat}
    (c : DataCache NumLines WordsPerLine DataMemoryWords) :
    MemoryCall → MemoryAnswer × DataCache NumLines WordsPerLine DataMemoryWords
  | .read a => (.word (c.read a).1, (c.read a).2)
  | .write a d => (.accepted (c.write a d).1, (c.write a d).2)
  | .flush => (.flushed, c.flush)

/-- The calls on the memory itself; `write` returns false for an out-of-range address. -/
def DataMemory.call {SizeWords : Nat} (m : DataMemory SizeWords) :
    MemoryCall → MemoryAnswer × DataMemory SizeWords
  | .read a => (.word (m.read a), m)
  | .write a d =>
    (.accepted (if DataMemory.wordIndex a ≥ SizeWords then false else true), m.write a d)
  | .flush => (.flushed, m)

namespace DataCache

variable {NumLines WordsPerLine DataMemoryWords : Nat}
  {c : DataCache NumLines WordsPerLine DataMemoryWords} {i a b : Nat}

/-! ## What the cache shows -/

/-- Word `a` is held by its line. -/
def Holds (c : DataCache NumLines WordsPerLine DataMemoryWords) (a : Nat) : Prop :=
  (c.lines (index WordsPerLine NumLines a)).valid = true ∧
    (c.lines (index WordsPerLine NumLines a)).tag.toNat = tag WordsPerLine NumLines a

instance (c : DataCache NumLines WordsPerLine DataMemoryWords) (a : Nat) :
    Decidable (c.Holds a) := by
  unfold Holds
  infer_instance

/-- Word `a` as a reader sees it. -/
def view (c : DataCache NumLines WordsPerLine DataMemoryWords) (a : Nat) : Word :=
  if c.Holds a then (c.lines (index WordsPerLine NumLines a)).words (offset WordsPerLine a)
  else c.memory.memory a

/-- The lines that are not dirty agree with the backing memory. -/
def Coherent (c : DataCache NumLines WordsPerLine DataMemoryWords) : Prop :=
  ∀ a < DataMemoryWords, c.Holds a → (c.lines (index WordsPerLine NumLines a)).dirty = false →
    (c.lines (index WordsPerLine NumLines a)).words (offset WordsPerLine a) = c.memory.memory a

theorem view_of_holds (h : c.Holds a) :
    c.view a = (c.lines (index WordsPerLine NumLines a)).words (offset WordsPerLine a) := if_pos h

theorem view_of_not_holds (h : ¬ c.Holds a) : c.view a = c.memory.memory a := if_neg h

theorem view_congr {c' : DataCache NumLines WordsPerLine DataMemoryWords}
    (hline : c'.lines (index WordsPerLine NumLines a) = c.lines (index WordsPerLine NumLines a))
    (hmemory : c'.memory = c.memory) : c'.view a = c.view a := by
  unfold view Holds
  simp only [hline, hmemory]

theorem count_view (c : DataCache NumLines WordsPerLine DataMemoryWords)
    (f : DataCacheStats → DataCacheStats) (a : Nat) : (c.count f).view a = c.view a := rfl

/-! ## Writing a line back -/

theorem foldl_writeWord (m : DataMemory DataMemoryWords) (words : Nat → Word) (first k a : Nat) :
    ((List.range k).foldl
        (fun m w => if first + w < DataMemoryWords then m.writeWord (first + w) (words w) else m)
        m).memory a =
      if (first ≤ a ∧ a < first + k) ∧ a < DataMemoryWords then words (a - first)
      else m.memory a := by
  induction k with
  | zero =>
      rw [List.range_zero, List.foldl_nil, if_neg]
      omega
  | succ k ih =>
      rw [List.range_succ, List.foldl_append, List.foldl_cons, List.foldl_nil]
      by_cases hroom : first + k < DataMemoryWords
      · rw [if_pos hroom, DataMemory.writeWord, if_pos hroom]
        dsimp only
        by_cases ha : a = first + k
        · rw [ha, Function.update_self, if_pos (by omega), Nat.add_sub_cancel_left]
        · rw [Function.update_of_ne ha, ih]
          congr 1
          rw [eq_iff_iff]
          omega
      · rw [if_neg hroom, ih]
        congr 1
        rw [eq_iff_iff]
        omega

/-- What a writeback leaves in the backing memory. -/
theorem writebackLine_memory (hW : 0 < WordsPerLine) (hi : i < NumLines) (a : Nat) :
    (c.writebackLine i).memory.memory a =
      if (index WordsPerLine NumLines a = i ∧
          tag WordsPerLine NumLines a = (c.lines i).tag.toNat) ∧ a < DataMemoryWords then
        (c.lines i).words (offset WordsPerLine a)
      else c.memory.memory a := by
  have hline := mem_line_iff hW hi (c.lines i).tag.toNat a
  rw [writebackLine]
  dsimp only
  rw [foldl_writeWord, ← base]
  -- inside the line the distance to its first word is the offset
  by_cases hin : (index WordsPerLine NumLines a = i ∧
      tag WordsPerLine NumLines a = (c.lines i).tag.toNat) ∧ a < DataMemoryWords
  · rw [if_pos hin, if_pos ⟨hline.mpr hin.1, hin.2⟩]
    have hsplit := base_add_offset WordsPerLine NumLines a
    rw [hin.1.1, hin.1.2] at hsplit
    congr 1
    omega
  · rw [if_neg hin, if_neg fun hmem => hin ⟨hline.mp hmem.1, hmem.2⟩]

theorem writebackLine_line (c : DataCache NumLines WordsPerLine DataMemoryWords) (i j : Nat) :
    (c.writebackLine i).lines j =
      { c.lines j with dirty := if j = i then false else (c.lines j).dirty } := by
  rw [writebackLine]
  dsimp only
  by_cases hj : j = i
  · rw [hj, Function.update_self, if_pos rfl]
  · rw [Function.update_of_ne hj, if_neg hj]

theorem writebackLine_holds : (c.writebackLine i).Holds a ↔ c.Holds a := by
  rw [Holds, writebackLine_line, Holds]

/-- A writeback of a valid line changes nothing a reader sees. -/
theorem writebackLine_view (hW : 0 < WordsPerLine) (hi : i < NumLines)
    (hv : (c.lines i).valid = true) (a : Nat) :
    (c.writebackLine i).view a = c.view a := by
  by_cases hh : c.Holds a
  · rw [view_of_holds hh, view_of_holds (writebackLine_holds.mpr hh), writebackLine_line]
  · rw [view_of_not_holds hh, view_of_not_holds (mt writebackLine_holds.mp hh),
      writebackLine_memory hW hi, if_neg]
    -- a word with the tag of the line would be held by it
    rintro ⟨⟨hindex, htag⟩, -⟩
    apply hh
    rw [Holds, hindex, htag]
    exact ⟨hv, rfl⟩

theorem Coherent.writebackLine (h : c.Coherent) (hW : 0 < WordsPerLine) (hi : i < NumLines) :
    (c.writebackLine i).Coherent := by
  intro a ha hh hclean
  have hold := writebackLine_holds.mp hh
  rw [writebackLine_line] at hclean ⊢
  rw [writebackLine_memory hW hi]
  dsimp only at hclean ⊢
  by_cases hindex : index WordsPerLine NumLines a = i
  · have htag : tag WordsPerLine NumLines a = (c.lines i).tag.toNat := by
      rw [← hindex]
      exact hold.2.symm
    rw [if_pos ⟨⟨hindex, htag⟩, ha⟩, hindex]
  · rw [if_neg hindex] at hclean
    rw [if_neg fun hin => hindex hin.1.1]
    exact h a ha hold hclean

/-- After the writeback of a valid line the backing memory has its words. -/
theorem writebackLine_settled (h : c.Coherent) (hW : 0 < WordsPerLine) (hi : i < NumLines)
    (hv : (c.lines i).valid = true) (ha : a < DataMemoryWords)
    (hindex : index WordsPerLine NumLines a = i) :
    (c.writebackLine i).memory.memory a = c.view a := by
  rw [← writebackLine_view hW hi hv a]
  by_cases hh : (c.writebackLine i).Holds a
  · rw [view_of_holds hh]
    refine (h.writebackLine hW hi a ha hh ?_).symm
    rw [writebackLine_line, hindex, if_pos rfl]
  · rw [view_of_not_holds hh]

/-! ## Refilling a line -/

/-- A state from which line `i` can be replaced: nothing a reader sees has changed, and
    the backing memory has the words that fall into the line. -/
structure Evicted (c c' : DataCache NumLines WordsPerLine DataMemoryWords) (i : Nat) : Prop where
  coherent : c'.Coherent
  view : ∀ a < DataMemoryWords, c'.view a = c.view a
  settled : ∀ a < DataMemoryWords, index WordsPerLine NumLines a = i →
    c'.memory.memory a = c.view a

theorem Coherent.evict (h : c.Coherent) (hW : 0 < WordsPerLine) (hi : i < NumLines) :
    Evicted c (c.evict i) i := by
  rw [DataCache.evict]
  cases hv : (c.lines i).valid with
  | false =>
      rw [if_neg Bool.false_ne_true]
      refine ⟨h, fun a _ => rfl, fun a _ hindex => ?_⟩
      rw [view_of_not_holds]
      rw [Holds, hindex, hv]
      rintro ⟨hvalid, -⟩
      cases hvalid
  | true =>
      rw [if_pos rfl]
      show Evicted c (if (c.lines i).dirty then (c.count _).writebackLine i else c.count _) i
      cases hd : (c.lines i).dirty with
      | false =>
          rw [if_neg Bool.false_ne_true]
          refine ⟨h, fun a _ => rfl, fun a ha hindex => ?_⟩
          by_cases hh : c.Holds a
          · rw [view_of_holds hh]
            exact (h a ha hh (hindex ▸ hd)).symm
          · rw [view_of_not_holds hh]
            rfl
      | true =>
          rw [if_pos rfl]
          -- the counter of evictions is not read by a writeback
          have hcount : (c.count fun st => { st with evictions := st.evictions + 1 }).Coherent := h
          refine ⟨hcount.writebackLine hW hi, fun a _ => ?_, fun a ha hindex => ?_⟩
          · exact writebackLine_view hW hi hv a
          · exact writebackLine_settled hcount hW hi hv ha hindex

/-- The address of a word is below 2^30, so its tag is stored whole. -/
theorem lineTag_toNat (c : DataCache NumLines WordsPerLine DataMemoryWords) (address : Word) :
    (c.lineTag (DataMemory.wordIndex address)).toNat =
      tag WordsPerLine NumLines (DataMemory.wordIndex address) := by
  have hlt : DataMemory.wordIndex address < 2 ^ 32 := by
    have := address.isLt
    rw [DataMemory.wordIndex]
    omega
  have hle := tag_le WordsPerLine NumLines (DataMemory.wordIndex address)
  rw [lineTag, BitVec.toNat_ofNat, ← tag, Nat.mod_eq_of_lt (by omega)]

theorem hit_iff (address : Word) :
    c.hit (DataMemory.wordIndex address) = true ↔ c.Holds (DataMemory.wordIndex address) := by
  rw [hit, Bool.and_eq_true, beq_iff_eq, ← BitVec.toNat_inj, lineTag_toNat]
  rfl

/-- A state in which word `b` is held and nothing a reader sees has changed. -/
structure Loaded (c c' : DataCache NumLines WordsPerLine DataMemoryWords) (b : Nat) : Prop where
  coherent : c'.Coherent
  view : ∀ a < DataMemoryWords, c'.view a = c.view a
  holds : c'.Holds b

theorem Coherent.refillLine (h : c.Coherent) (hW : 0 < WordsPerLine) (hL : 0 < NumLines)
    (address : Word) :
    Loaded c
      (c.refillLine (c.lineIndex (DataMemory.wordIndex address)) (DataMemory.wordIndex address)
        (c.lineTag (DataMemory.wordIndex address)))
      (DataMemory.wordIndex address) := by
  generalize hb : DataMemory.wordIndex address = b
  have htag : (c.lineTag b).toNat = tag WordsPerLine NumLines b := by
    rw [← hb]
    exact c.lineTag_toNat address
  have hi : c.lineIndex b < NumLines := index_lt hL b
  obtain ⟨hcoherent, hview, hsettled⟩ := h.evict hW hi
  generalize hc : c.refillLine (c.lineIndex b) b (c.lineTag b) = c'
  have hmemory : c'.memory = (c.evict (c.lineIndex b)).memory := by
    rw [← hc]
    rfl
  have hother (j : Nat) (hj : j ≠ c.lineIndex b) :
      c'.lines j = (c.evict (c.lineIndex b)).lines j := by
    rw [← hc]
    exact Function.update_of_ne hj _ _
  -- the refilled line holds the words with the new tag, as a reader saw them
  have hself : (c'.lines (c.lineIndex b)).valid = true ∧
      (c'.lines (c.lineIndex b)).tag.toNat = tag WordsPerLine NumLines b := by
    rw [← hc, DataCache.refillLine]
    dsimp only
    rw [Function.update_self]
    exact ⟨rfl, htag⟩
  have hwords (a : Nat) (ha : a < DataMemoryWords)
      (hia : index WordsPerLine NumLines a = c.lineIndex b)
      (hta : tag WordsPerLine NumLines a = tag WordsPerLine NumLines b) :
      (c'.lines (c.lineIndex b)).words (offset WordsPerLine a) = c.view a := by
    have hline : b / WordsPerLine * WordsPerLine + offset WordsPerLine a = a := by
      rw [← base_eq WordsPerLine NumLines b, ← hta,
        show index WordsPerLine NumLines b = index WordsPerLine NumLines a from hia.symm]
      exact base_add_offset WordsPerLine NumLines a
    rw [← hc, DataCache.refillLine]
    dsimp only
    rw [Function.update_self]
    dsimp only
    rw [hline, if_pos ha, DataMemory.readWord, if_neg (Nat.not_le.mpr ha), hsettled a ha hia]
  refine ⟨fun a ha hh hclean => ?_, fun a ha => ?_, hself⟩
  · by_cases hia : index WordsPerLine NumLines a = c.lineIndex b
    · have hta := hh.2
      rw [hia, hself.2] at hta
      rw [hia, hwords a ha hia hta.symm, hmemory, hsettled a ha hia]
    · rw [Holds, hother _ hia] at hh
      rw [hother _ hia] at hclean ⊢
      rw [hmemory]
      exact hcoherent a ha hh hclean
  · by_cases hia : index WordsPerLine NumLines a = c.lineIndex b
    · by_cases hta : tag WordsPerLine NumLines a = tag WordsPerLine NumLines b
      · have hh : c'.Holds a := by
          rw [Holds, hia, hta]
          exact hself
        rw [view_of_holds hh, hia, hwords a ha hia hta]
      · have hh : ¬ c'.Holds a := by
          rw [Holds, hia, hself.2]
          rintro ⟨-, heq⟩
          exact hta heq.symm
        rw [view_of_not_holds hh, hmemory, hsettled a ha hia]
    · rw [← hview a ha]
      exact view_congr (hother _ hia) hmemory

/-- After a lookup the word is held, and a reader sees what he saw before. -/
theorem Coherent.lookup (h : c.Coherent) (hW : 0 < WordsPerLine) (hL : 0 < NumLines)
    (address : Word) (hits misses : DataCacheStats → DataCacheStats) :
    Loaded c (c.lookup (DataMemory.wordIndex address) hits misses)
      (DataMemory.wordIndex address) := by
  rw [DataCache.lookup]
  by_cases hh : c.hit (DataMemory.wordIndex address) = true
  · rw [if_pos hh]
    exact ⟨h, fun _ _ => rfl, (hit_iff address).mp hh⟩
  · rw [if_neg hh]
    have hcount : (c.count misses).Coherent := h
    obtain ⟨hcoherent, hview, hholds⟩ := hcount.refillLine hW hL address
    exact ⟨hcoherent, hview, hholds⟩

/-! ## Writing a word -/

/-- A store into a held word is seen at that word and nowhere else. -/
theorem Coherent.store (h : c.Coherent) (hb : c.Holds b) (data : Word) :
    (c.store b data).Coherent ∧
      ∀ a, (c.store b data).view a = if a = b then data else c.view a := by
  have hother (j : Nat) (hj : j ≠ index WordsPerLine NumLines b) :
      (c.store b data).lines j = c.lines j := Function.update_of_ne hj _ _
  have hself : (c.store b data).lines (index WordsPerLine NumLines b) =
      { c.lines (index WordsPerLine NumLines b) with
        words := Function.update (c.lines (index WordsPerLine NumLines b)).words
          (offset WordsPerLine b) data
        dirty := true } := Function.update_self _ _ _
  have hholds (a : Nat) : (c.store b data).Holds a ↔ c.Holds a := by
    rw [Holds, Holds]
    by_cases hia : index WordsPerLine NumLines a = index WordsPerLine NumLines b
    · rw [hia, hself]
    · rw [hother _ hia]
  constructor
  · intro a ha hh hclean
    by_cases hia : index WordsPerLine NumLines a = index WordsPerLine NumLines b
    · rw [hia, hself] at hclean
      cases hclean
    · rw [hother _ hia] at hclean ⊢
      exact h a ha ((hholds a).mp hh) hclean
  · intro a
    by_cases hh : c.Holds a
    · rw [view_of_holds ((hholds a).mpr hh), view_of_holds hh]
      by_cases hia : index WordsPerLine NumLines a = index WordsPerLine NumLines b
      · -- one line holds both words, so they differ in their offsets only
        have htag : tag WordsPerLine NumLines a = tag WordsPerLine NumLines b := by
          rw [← hh.2, ← hb.2, hia]
        have ha := base_add_offset WordsPerLine NumLines a
        have hb' := base_add_offset WordsPerLine NumLines b
        rw [hia, htag] at ha
        rw [hia, hself]
        dsimp only
        by_cases hab : a = b
        · rw [if_pos hab, hab, Function.update_self]
        · rw [if_neg hab, Function.update_of_ne]
          omega
      · rw [hother _ hia, if_neg]
        rintro rfl
        exact hia rfl
    · rw [view_of_not_holds (mt (hholds a).mp hh), view_of_not_holds hh, if_neg]
      · rfl
      · rintro rfl
        exact hh hb

/-! ## Flushing -/

/-- After the first `k` lines of a flush those are clean, and a reader sees what he saw. -/
theorem Coherent.flush_aux (h : c.Coherent) (hW : 0 < WordsPerLine) (k : Nat)
    (hk : k ≤ NumLines) :
    let c' := (List.range k).foldl flushLine c
    c'.Coherent ∧ (∀ a < DataMemoryWords, c'.view a = c.view a) ∧
      ∀ i < k, (c'.lines i).valid = true → (c'.lines i).dirty = false := by
  induction k with
  | zero => exact ⟨h, fun _ _ => rfl, fun i hi => absurd hi (Nat.not_lt_zero i)⟩
  | succ k ih =>
      obtain ⟨hcoherent, hview, hclean⟩ := ih (Nat.le_of_succ_le hk)
      rw [List.range_succ, List.foldl_append, List.foldl_cons, List.foldl_nil]
      generalize (List.range k).foldl flushLine c = c' at hcoherent hview hclean ⊢
      intro c''
      have hc'' : c'' = c'.flushLine k := rfl
      by_cases hd : (c'.lines k).valid = true ∧ (c'.lines k).dirty = true
      · rw [flushLine, if_pos (Bool.and_eq_true_iff.mpr hd)] at hc''
        rw [hc'']
        refine ⟨hcoherent.writebackLine hW hk, fun a ha => ?_, fun i hi hv => ?_⟩
        · rw [writebackLine_view hW hk hd.1 a, hview a ha]
        · rw [writebackLine_line] at hv ⊢
          by_cases hik : i = k
          · rw [if_pos hik]
          · rw [if_neg hik]
            exact hclean i (by omega) hv
      · rw [flushLine, if_neg (mt Bool.and_eq_true_iff.mp hd)] at hc''
        rw [hc'']
        refine ⟨hcoherent, hview, fun i hi hv => ?_⟩
        by_cases hik : i = k
        · rw [hik] at hv ⊢
          exact eq_false_of_ne_true fun hdirty => hd ⟨hv, hdirty⟩
        · exact hclean i (by omega) hv

/-- After a flush the backing memory has the words a reader saw. -/
theorem Coherent.flush (h : c.Coherent) (hW : 0 < WordsPerLine) (hL : 0 < NumLines) :
    c.flush.Coherent ∧ (∀ a < DataMemoryWords, c.flush.view a = c.view a) ∧
      ∀ a < DataMemoryWords, c.flush.memory.memory a = c.view a := by
  obtain ⟨hcoherent, hview, hclean⟩ := h.flush_aux hW NumLines le_rfl
  refine ⟨hcoherent, hview, fun a ha => ?_⟩
  rw [← hview a ha]
  by_cases hh : c.flush.Holds a
  · rw [← DataCache.flush, view_of_holds hh]
    exact (hcoherent a ha hh (hclean _ (index_lt hL a) hh.1)).symm
  · rw [← DataCache.flush, view_of_not_holds hh]

/-! ## Transparency -/

/-- The cache is coherent and a reader sees the plain memory. -/
structure Shows (c : DataCache NumLines WordsPerLine DataMemoryWords)
    (m : DataMemory DataMemoryWords) : Prop where
  coherent : c.Coherent
  words : ∀ a < DataMemoryWords, c.view a = m.memory a

theorem reset_shows (c : DataCache NumLines WordsPerLine DataMemoryWords) :
    c.reset.Shows c.memory := by
  have hnone (a : Nat) : ¬ c.reset.Holds a := by
    rintro ⟨hv, -⟩
    cases hv
  refine ⟨fun a _ hh => absurd hh (hnone a), fun a _ => ?_⟩
  rw [view_of_not_holds (hnone a)]
  rfl

theorem Shows.read {m : DataMemory DataMemoryWords} (h : c.Shows m) (hW : 0 < WordsPerLine)
    (hL : 0 < NumLines) (address : Word) :
    (c.read address).1 = m.read address ∧ (c.read address).2.Shows m := by
  rw [DataCache.read, DataMemory.read]
  dsimp only
  by_cases hroom : DataMemory.wordIndex address ≥ DataMemoryWords
  · rw [if_pos hroom, if_pos hroom]
    exact ⟨rfl, h⟩
  · rw [if_neg hroom, if_neg hroom]
    have hcount : (c.count fun st => { st with reads := st.reads + 1 }).Coherent := h.coherent
    have hloaded := hcount.lookup hW hL address
      (fun st => { st with readHits := st.readHits + 1 })
      (fun st => { st with readMisses := st.readMisses + 1 })
    have hb := Nat.not_le.mp hroom
    refine ⟨?_, hloaded.coherent, fun a ha => (hloaded.view a ha).trans (h.words a ha)⟩
    have hview := hloaded.view _ hb
    rw [view_of_holds hloaded.holds, count_view, h.words _ hb] at hview
    exact congrArg some hview

theorem Shows.write {m : DataMemory DataMemoryWords} (h : c.Shows m) (hW : 0 < WordsPerLine)
    (hL : 0 < NumLines) (address data : Word) :
    (c.write address data).1 =
        (if DataMemory.wordIndex address ≥ DataMemoryWords then false else true) ∧
      (c.write address data).2.Shows (m.write address data) := by
  rw [DataCache.write, DataMemory.write]
  dsimp only
  by_cases hroom : DataMemory.wordIndex address ≥ DataMemoryWords
  · rw [if_pos hroom, if_pos hroom, if_pos hroom]
    exact ⟨rfl, h⟩
  · rw [if_neg hroom, if_neg hroom, if_neg hroom]
    have hcount : (c.count fun st => { st with writes := st.writes + 1 }).Coherent := h.coherent
    have hloaded := hcount.lookup hW hL address
      (fun st => { st with writeHits := st.writeHits + 1 })
      (fun st => { st with writeMisses := st.writeMisses + 1 })
    obtain ⟨hcoherent, hview⟩ := hloaded.coherent.store hloaded.holds data
    refine ⟨rfl, hcoherent, fun a ha => ?_⟩
    rw [hview a, hloaded.view a ha, count_view, h.words a ha]
    exact (Function.update_apply _ _ _ _).symm

theorem Shows.flush {m : DataMemory DataMemoryWords} (h : c.Shows m) (hW : 0 < WordsPerLine)
    (hL : 0 < NumLines) : c.flush.Shows m := by
  obtain ⟨hcoherent, hview, -⟩ := h.coherent.flush hW hL
  exact ⟨hcoherent, fun a ha => (hview a ha).trans (h.words a ha)⟩

/-- Every call answers as the plain memory does. -/
theorem refines_dataMemory (hW : 0 < WordsPerLine) (hL : 0 < NumLines) :
    Refines (@call NumLines WordsPerLine DataMemoryWords)
      (fun m call answer m' => DataMemory.call m call = (answer, m')) Shows := by
  intro c m call hshows
  cases call with
  | read address =>
      obtain ⟨hanswer, hnext⟩ := hshows.read hW hL address
      exact ⟨m, by simp only [DataMemory.call, DataCache.call, hanswer], hnext⟩
  | write address data =>
      obtain ⟨hanswer, hnext⟩ := hshows.write hW hL address data
      exact ⟨m.write address data, by simp only [DataMemory.call, DataCache.call, hanswer], hnext⟩
  | flush => exact ⟨m, rfl, hshows.flush hW hL⟩

/-- The cache is transparent: after `reset` every sequence of calls is answered as by the
    plain memory, and a flush makes the backing memory equal to it. -/
theorem data_cache_transparent (hL : 0 < NumLines) (hW : 0 < WordsPerLine)
    (c : DataCache NumLines WordsPerLine DataMemoryWords) (calls : List MemoryCall) :
    (trace call c.reset calls).1 = (trace DataMemory.call c.memory calls).1 ∧
      ∀ k, (trace call c.reset calls).2.flush.memory.readWord k =
        (trace DataMemory.call c.memory calls).2.readWord k := by
  obtain ⟨m, hallows, hshows⟩ := (refines_dataMemory hW hL).trace (reset_shows c) calls
  rw [allows_call hallows]
  refine ⟨rfl, fun k => ?_⟩
  rw [DataMemory.readWord, DataMemory.readWord]
  by_cases hk : k ≥ DataMemoryWords
  · rw [if_pos hk, if_pos hk]
  · have hlt := Nat.not_le.mp hk
    rw [if_neg hk, if_neg hk, (hshows.coherent.flush hW hL).2.2 k hlt, hshows.words k hlt]

/-- One line of one word in front of two words: the second write evicts the first. -/
theorem data_cache_transparent_conflict :
    let c : DataCache 1 1 2 := { memory := {} }
    let calls := [.write 0 7, .write 4 9, .read 0, .write 8 1]
    (trace call c.reset calls).1 = (trace DataMemory.call c.memory calls).1 ∧
      ∀ k, (trace call c.reset calls).2.flush.memory.readWord k =
        (trace DataMemory.call c.memory calls).2.readWord k :=
  data_cache_transparent (by decide) (by decide) _ _

end DataCache

end CpuSim.SuperScalar
