/-
  CpuSim.Assembler.Program

  A source as the sequence of its labels and statements, without addresses, and what the two
  passes make of it: which address each label and each statement gets, and where the word of
  a statement ends up.
-/

import CpuSim.Assembler.Assembler

namespace CpuSim.Assembler

open CpuSim.Lib (Text)

/-! ## The items of a source -/

/-- A label or a statement of a source. -/
inductive Item where
  | label (lineNum : Nat) (labelName : Text)
  | statement (lineNum : Nat) (stmt : Text)
  deriving DecidableEq, Repr

/-- The labels at the start of a line, and what follows them. -/
def labelsOf : Nat → Text → List Text × Text
  | 0, cleaned => ([], cleaned)
  | fuel + 1, cleaned =>
    if ':' ∈ cleaned then
      match matchLabel cleaned with
      | none => ([], cleaned)
      | some (labelName, rest) =>
        (labelName :: (labelsOf fuel rest.strip).1, (labelsOf fuel rest.strip).2)
    else ([], cleaned)

/-- The items of a line. -/
def lineItems (line : Text × Nat) : List Item :=
  let cleaned := stripComments line.1
  let rest := (labelsOf cleaned.length cleaned).2
  (labelsOf cleaned.length cleaned).1.map (Item.label line.2) ++
    if rest = [] then [] else [Item.statement line.2 rest]

/-- The items of a source. -/
def items (rawLines : List Text) : List Item := (rawLines.zipIdx 1).flatMap lineItems

/-- Pass 1, one item at a time. -/
def scanItem (step : Nat) (p : Pass1) : Item → Except String Pass1
  | .label lineNum labelName =>
    if (p.symbols.lookup labelName).isSome then
      .error ("Duplicate label definition '" ++ String.ofList labelName ++ "' at line " ++
        toString lineNum)
    else .ok { p with symbols := (labelName, p.currentPc) :: p.symbols }
  | .statement lineNum stmt =>
    .ok { p with
      instructions := p.instructions ++ [⟨p.currentPc, lineNum, stmt⟩]
      currentPc := p.currentPc + step }

theorem bind_ok {α β : Type} {m : Except String α} {k : α → Except String β} {b : β}
    (h : m >>= k = .ok b) : ∃ a, m = .ok a ∧ k a = .ok b := by
  cases m with
  | error e => cases h
  | ok a => exact ⟨a, rfl, h⟩

/-- The label loop of a line. -/
theorem takeLabels_eq (step lineNum fuel : Nat) (cleaned : Text) (p : Pass1) :
    takeLabels lineNum fuel cleaned p =
      (((labelsOf fuel cleaned).1.map (Item.label lineNum)).foldlM (scanItem step) p).map
        fun p => ((labelsOf fuel cleaned).2, p) := by
  induction fuel generalizing cleaned p with
  | zero => rfl
  | succ fuel ih =>
      rw [takeLabels, labelsOf]
      split
      · cases hmatch : matchLabel cleaned with
        | none => rfl
        | some found =>
            obtain ⟨labelName, rest⟩ := found
            dsimp only
            rw [List.map_cons, List.foldlM_cons, scanItem]
            split
            · rfl
            · rw [ih]
              rfl
      · rfl

/-- The body of the loop over the lines. -/
theorem scanLine_eq (step : Nat) (p : Pass1) (line : Text × Nat) :
    scanLine step p line = (lineItems line).foldlM (scanItem step) p := by
  rw [scanLine, lineItems]
  by_cases hempty : stripComments line.1 = []
  · rw [if_pos hempty, hempty]
    rfl
  · rw [if_neg hempty, takeLabels_eq step, List.foldlM_append]
    cases (((labelsOf (stripComments line.1).length (stripComments line.1)).1.map
      (Item.label line.2)).foldlM (scanItem step) p) with
    | error e => rfl
    | ok p' =>
        show (if _ then _ else _) = List.foldlM _ p' (if _ then _ else _)
        split <;> rfl

theorem pass1_eq (rawLines : List Text) (step : Nat) :
    pass1 rawLines step = (items rawLines).foldlM (scanItem step) {} := by
  rw [pass1, items]
  generalize ({} : Pass1) = p
  generalize rawLines.zipIdx 1 = lines
  induction lines generalizing p with
  | nil => rfl
  | cons line lines ih =>
      rw [List.foldlM_cons, List.flatMap_cons, List.foldlM_append, scanLine_eq]
      congr 1
      funext p'
      exact ih p'

/-! ## Addresses -/

def Item.isStatement : Item → Bool
  | .label .. => false
  | .statement .. => true

/-- A statement that is only a comment: it gets an address, but no word. -/
def Item.isBlank : Item → Bool
  | .label .. => false
  | .statement _ stmt => stripComments stmt = []

/-- A statement that gets a word. -/
def Item.isEmitted : Item → Bool
  | .label .. => false
  | .statement _ stmt => stripComments stmt ≠ []

/-- How many statements there are. -/
def statementCount (l : List Item) : Nat := l.countP Item.isStatement

/-- How many of them are only comments. -/
def blankCount (l : List Item) : Nat := l.countP Item.isBlank

/-- How many words they give. -/
def emittedCount (l : List Item) : Nat := l.countP Item.isEmitted

@[simp] theorem statementCount_append (l l' : List Item) :
    statementCount (l ++ l') = statementCount l + statementCount l' := List.countP_append

@[simp] theorem statementCount_label (n : Nat) (name : Text) (l : List Item) :
    statementCount (.label n name :: l) = statementCount l :=
  List.countP_cons_of_neg (by simp [Item.isStatement])

@[simp] theorem statementCount_statement (n : Nat) (stmt : Text) (l : List Item) :
    statementCount (.statement n stmt :: l) = statementCount l + 1 :=
  List.countP_cons_of_pos rfl

@[simp] theorem emittedCount_label (n : Nat) (name : Text) (l : List Item) :
    emittedCount (.label n name :: l) = emittedCount l :=
  List.countP_cons_of_neg (by simp [Item.isEmitted])

theorem emittedCount_statement (n : Nat) (stmt : Text) (l : List Item) :
    emittedCount (.statement n stmt :: l) =
      emittedCount l + if stripComments stmt = [] then 0 else 1 := by
  rw [emittedCount, List.countP_cons]
  by_cases hblank : stripComments stmt = [] <;> simp [Item.isEmitted, hblank, emittedCount]

theorem blankCount_statement (n : Nat) (stmt : Text) (l : List Item) :
    blankCount (.statement n stmt :: l) =
      blankCount l + if stripComments stmt = [] then 1 else 0 := by
  rw [blankCount, List.countP_cons]
  by_cases hblank : stripComments stmt = [] <;> simp [Item.isBlank, hblank, blankCount]

theorem emittedCount_add_blankCount (l : List Item) :
    emittedCount l + blankCount l = statementCount l := by
  induction l with
  | nil => rfl
  | cons item l ih =>
      cases item with
      | label n name =>
          have hblank : blankCount (.label n name :: l) = blankCount l :=
            List.countP_cons_of_neg (by simp [Item.isBlank])
          rw [emittedCount_label, statementCount_label, hblank, ih]
      | statement n stmt =>
          rw [emittedCount_statement, blankCount_statement, statementCount_statement, ← ih]
          split <;> omega

/-- The statements with their addresses. -/
def statementsFrom (step : Nat) : Nat → List Item → List Statement
  | _, [] => []
  | pc, .label .. :: l => statementsFrom step pc l
  | pc, .statement lineNum stmt :: l => ⟨pc, lineNum, stmt⟩ :: statementsFrom step (pc + step) l

theorem statementsFrom_append (step pc : Nat) (l l' : List Item) :
    statementsFrom step pc (l ++ l') =
      statementsFrom step pc l ++ statementsFrom step (pc + step * statementCount l) l' := by
  induction l generalizing pc with
  | nil => rfl
  | cons item l ih =>
      cases item with
      | label n name => exact ih pc
      | statement n stmt =>
          have hcount : pc + step + step * statementCount l =
              pc + step * statementCount (.statement n stmt :: l) := by
            rw [statementCount_statement, Nat.mul_succ]
            omega
          rw [List.cons_append, statementsFrom, ih, hcount]
          rfl

/-- What pass 1 has collected after some items. -/
structure Scanned (step : Nat) (l : List Item) (p : Pass1) : Prop where
  instructions : p.instructions = statementsFrom step 0 l
  currentPc : p.currentPc = step * statementCount l
  symbols : ∀ name a, p.symbols.lookup name = some a ↔
    ∃ before n after, l = before ++ .label n name :: after ∧ a = step * statementCount before

/-- A label list ends in a label, or has it further in front. -/
theorem eq_append_label_iff {l before after : List Item} {item : Item} {n : Nat} {name : Text} :
    l ++ [item] = before ++ .label n name :: after ↔
      (l = before ∧ item = .label n name ∧ after = []) ∨
        ∃ rest, after = rest ++ [item] ∧ l = before ++ .label n name :: rest := by
  constructor
  · intro h
    rcases List.eq_nil_or_concat after with hnil | ⟨rest, last, hlast⟩
    · rw [hnil] at h
      obtain ⟨hl, hitem⟩ := List.append_inj' h rfl
      exact Or.inl ⟨hl, List.head_eq_of_cons_eq hitem, hnil⟩
    · rw [hlast, List.concat_eq_append] at h
      have h' : l ++ [item] = (before ++ .label n name :: rest) ++ [last] := by
        rw [h, List.append_assoc, List.cons_append]
      obtain ⟨hl, hitem⟩ := List.append_inj' h' rfl
      have heq : item = last := List.head_eq_of_cons_eq hitem
      exact Or.inr ⟨rest, by rw [hlast, List.concat_eq_append, heq], hl⟩
  · rintro (⟨rfl, rfl, rfl⟩ | ⟨rest, rfl, rfl⟩)
    · rfl
    · rw [List.append_assoc, List.cons_append]

/-- One item. -/
theorem Scanned.item {step : Nat} {l : List Item} {p p' : Pass1} (h : Scanned step l p)
    {item : Item} (hitem : scanItem step p item = .ok p') : Scanned step (l ++ [item]) p' := by
  cases item with
  | label n name =>
      rw [scanItem] at hitem
      split at hitem
      · cases hitem
      · next hnew =>
          have hnone : p.symbols.lookup name = none := by
            rw [Bool.not_eq_true, Option.isSome_eq_false_iff, Option.isNone_iff_eq_none] at hnew
            exact hnew
          cases hitem
          constructor
          · rw [statementsFrom_append]
            simpa [statementsFrom] using h.instructions
          · rw [statementCount_append, statementCount_label]
            exact h.currentPc
          · intro other a
            rw [List.lookup_cons]
            by_cases hother : other = name
            · rw [hother, beq_self_eq_true]
              constructor
              · intro ha
                refine ⟨l, n, [], rfl, ?_⟩
                rw [← h.currentPc]
                exact (Option.some.inj ha).symm
              · rintro ⟨before, m, after, heq, rfl⟩
                rcases eq_append_label_iff.mp heq with ⟨rfl, -, -⟩ | ⟨rest, -, hl⟩
                · exact congrArg some h.currentPc
                · -- the label was not there before
                  have hsome := (h.symbols name _).mpr ⟨before, m, rest, hl, rfl⟩
                  rw [hnone] at hsome
                  cases hsome
            · rw [beq_false_of_ne hother]
              refine (h.symbols other a).trans ?_
              constructor
              · rintro ⟨before, m, after, rfl, ha⟩
                exact ⟨before, m, after ++ [.label n name], by simp, ha⟩
              · rintro ⟨before, m, after, heq, ha⟩
                rcases eq_append_label_iff.mp heq with ⟨-, hitem, -⟩ | ⟨rest, -, hl⟩
                · cases hitem
                  exact absurd rfl hother
                · exact ⟨before, m, rest, hl, ha⟩
  | statement n stmt =>
      cases hitem
      have hcount : statementCount (l ++ [.statement n stmt]) = statementCount l + 1 := by
        rw [statementCount_append, statementCount_statement]
        rfl
      constructor
      · rw [statementsFrom_append, Nat.zero_add, ← h.currentPc, h.instructions]
        rfl
      · rw [hcount, Nat.mul_succ, ← h.currentPc]
      · intro name a
        refine (h.symbols name a).trans ?_
        constructor
        · rintro ⟨before, m, after, rfl, ha⟩
          exact ⟨before, m, after ++ [.statement n stmt], by simp, ha⟩
        · rintro ⟨before, m, after, heq, ha⟩
          rcases eq_append_label_iff.mp heq with ⟨-, hitem, -⟩ | ⟨rest, -, hl⟩
          · cases hitem
          · exact ⟨before, m, rest, hl, ha⟩

/-- All items, by induction over the source from its start. -/
theorem scanned_of_foldlM {step : Nat} {l : List Item} {p : Pass1}
    (h : l.foldlM (scanItem step) {} = .ok p) : Scanned step l p := by
  induction l using List.reverseRecOn generalizing p with
  | nil =>
      cases h
      refine ⟨rfl, by simp [statementCount], ?_⟩
      intro name a
      constructor
      · exact nofun
      · rintro ⟨before, n, after, heq, -⟩
        simp at heq
  | append_singleton l item ih =>
      rw [List.foldlM_append] at h
      obtain ⟨p0, hp0, hitem⟩ := bind_ok h
      rw [List.foldlM_cons] at hitem
      obtain ⟨p1, hp1, hdone⟩ := bind_ok hitem
      cases hdone
      exact (ih hp0).item hp1

/-- Pass 1 of a source. -/
theorem pass1_scanned {rawLines : List Text} {step : Nat} {p : Pass1}
    (h : pass1 rawLines step = .ok p) : Scanned step (items rawLines) p := by
  rw [pass1_eq] at h
  exact scanned_of_foldlM h

/-! ## Words -/

/-- Only a line without a statement has no word. -/
theorem assembleInstruction_eq_none {line : Text} {pc : Nat} {symbols : Symbols}
    {architecture : Architecture}
    (h : assembleInstruction line pc symbols architecture = .ok none) :
    stripComments line = [] := by
  by_contra hne
  rw [assembleInstruction, if_neg hne] at h
  split at h
  · next mnemonic _ =>
      cases hword : assembleMnemonic mnemonic (statementArgs (stripComments line))
        (stripComments line) pc symbols architecture with
      | error e =>
          rw [hword] at h
          cases h
      | ok w =>
          rw [hword] at h
          cases h
  · cases h

theorem assembleInstruction_of_blank {line : Text} (h : stripComments line = []) (pc : Nat)
    (symbols : Symbols) (architecture : Architecture) :
    assembleInstruction line pc symbols architecture = .ok none := if_pos h

theorem assembleStatement_ok {symbols : Symbols} {architecture : Architecture} {s : Statement}
    {o : Option Word} (h : assembleStatement symbols architecture s = .ok o) :
    assembleInstruction s.stmt s.pc symbols architecture = .ok o := by
  rw [assembleStatement] at h
  split at h
  · next o' hword =>
      cases h
      exact hword
  · cases h

/-- Pass 2, one statement. -/
theorem mapM_cons_ok {symbols : Symbols} {architecture : Architecture} {s : Statement}
    {l : List Statement} {ws : List (Option Word)}
    (h : (s :: l).mapM (assembleStatement symbols architecture) = .ok ws) :
    ∃ o os, ws = o :: os ∧ assembleInstruction s.stmt s.pc symbols architecture = .ok o ∧
      l.mapM (assembleStatement symbols architecture) = .ok os := by
  rw [List.mapM_cons] at h
  obtain ⟨o, ho, hrest⟩ := bind_ok h
  obtain ⟨os, hos, hcons⟩ := bind_ok hrest
  cases hcons
  exact ⟨o, os, rfl, assembleStatement_ok ho, hos⟩

/-- The word of a statement stands behind the words of the statements in front of it. -/
theorem words_getElem {symbols : Symbols} {architecture : Architecture} {step pc n : Nat}
    {pre post : List Item} {stmt : Text} {ws : List (Option Word)}
    (h : (statementsFrom step pc (pre ++ .statement n stmt :: post)).mapM
      (assembleStatement symbols architecture) = .ok ws) :
    ∃ o, assembleInstruction stmt (pc + step * statementCount pre) symbols architecture = .ok o ∧
      ∀ w, o = some w → (ws.filterMap id)[emittedCount pre]? = some w := by
  induction pre generalizing pc ws with
  | nil =>
      obtain ⟨o, os, rfl, ho, -⟩ := mapM_cons_ok h
      refine ⟨o, ho, ?_⟩
      rintro w rfl
      rfl
  | cons item pre ih =>
      cases item with
      | label m name =>
          rw [statementCount_label, emittedCount_label]
          exact ih h
      | statement m first =>
          obtain ⟨o, os, rfl, ho, hos⟩ := mapM_cons_ok h
          obtain ⟨o', ho', hword⟩ := ih hos
          have hpc : pc + step + step * statementCount pre =
              pc + step * statementCount (.statement m first :: pre) := by
            rw [statementCount_statement, Nat.mul_succ]
            omega
          rw [hpc] at ho'
          refine ⟨o', ho', ?_⟩
          intro w hw
          rw [emittedCount_statement]
          cases o with
          | none =>
              -- a comment in front leaves no word
              rw [if_pos (assembleInstruction_eq_none ho)]
              exact hword w hw
          | some w0 =>
              have hne : stripComments first ≠ [] := by
                intro hblank
                rw [assembleInstruction_of_blank hblank] at ho
                cases ho
              rw [if_neg hne]
              exact hword w hw

/-- What an accepted source gives: pass 1 with the addresses of its items, and the words of the
    statements. -/
theorem assembleLines_ok {rawLines : List Text} {architecture : Architecture} {words : List Word}
    (h : assembleLines rawLines architecture = .ok words) :
    ∃ p ws, pass1 rawLines (pcStep architecture) = .ok p ∧
      Scanned (pcStep architecture) (items rawLines) p ∧
      (statementsFrom (pcStep architecture) 0 (items rawLines)).mapM
        (assembleStatement p.symbols architecture) = .ok ws ∧ words = ws.filterMap id := by
  obtain ⟨p, hp, hrest⟩ := bind_ok h
  obtain ⟨ws, hws, hdone⟩ := bind_ok hrest
  cases hdone
  have hscan := pass1_scanned hp
  rw [hscan.instructions] at hws
  exact ⟨p, ws, hp, hscan, hws, rfl⟩

/-! ## Comments -/

/-- A line feed stands only at the end. -/
def OneLine (line : Text) : Prop := '\n' ∉ line.dropLast

/-- No character starts a comment. -/
def CommentFree (line : Text) : Prop := ∀ c ∈ line, ¬(c = ';' ∨ c = '#')

/-- Behind the first line feed of one line there is nothing. -/
theorem OneLine.dropWhile {line : Text} (h : OneLine line) :
    line.dropWhile (· ≠ '\n') = [] ∨ line.dropWhile (· ≠ '\n') = ['\n'] := by
  induction line with
  | nil => exact Or.inl rfl
  | cons c line ih =>
      cases line with
      | nil =>
          by_cases hc : c = '\n'
          · rw [hc]
            exact Or.inr rfl
          · exact Or.inl (by simp [hc])
      | cons d line =>
          rw [OneLine, List.dropLast_cons_cons, List.mem_cons, not_or] at h
          have hc : decide (c ≠ '\n') = true := decide_eq_true (Ne.symm h.1)
          rw [List.dropWhile_cons, if_pos hc]
          exact ih h.2

theorem OneLine.tail {c : Char} {line : Text} (h : OneLine (c :: line)) : OneLine line := by
  cases line with
  | nil => exact List.not_mem_nil
  | cons d line =>
      rw [OneLine, List.dropLast_cons_cons, List.mem_cons, not_or] at h
      exact h.2

/-- In one line every comment ends at the end. -/
theorem OneLine.commentFree {line : Text} (h : OneLine line) : CommentFree (subComments line) := by
  induction line with
  | nil => exact nofun
  | cons c line ih =>
      have hrest := h.tail.dropWhile
      rw [subComments]
      split
      · intro d hd
        rcases hrest with hnil | hfeed
        · rw [hnil] at hd
          cases hd
        · rw [hfeed, List.mem_singleton] at hd
          rw [hd]
          decide
      · next hkeep =>
          intro d hd
          rcases List.mem_cons.mp hd with rfl | hd
          · exact fun hc => hkeep ⟨hc, hrest⟩
          · exact ih h.tail d hd

/-- Without a comment there is nothing to remove. -/
theorem CommentFree.subComments {line : Text} (h : CommentFree line) : subComments line = line := by
  induction line with
  | nil => rfl
  | cons c line ih =>
      have hc : ¬(c = ';' ∨ c = '#') := h c List.mem_cons_self
      rw [Assembler.subComments, if_neg (fun hcut => hc hcut.1)]
      rw [ih fun d hd => h d (List.mem_cons_of_mem _ hd)]

theorem matchLabel_subset {cleaned labelName rest : Text}
    (h : matchLabel cleaned = some (labelName, rest)) : rest ⊆ cleaned := by
  rw [matchLabel] at h
  split at h
  · split at h
    · next after hafter =>
        dsimp only at h
        split at h
        · cases h
        · cases h
          intro c hc
          have hc' : c ∈ after := (List.dropWhile_suffix Text.isSpace).subset hc
          have hmem : c ∈ (cleaned.dropWhile isNameChar).dropWhile Text.isSpace := by
            rw [hafter]
            exact List.mem_cons_of_mem _ hc'
          exact (List.dropWhile_suffix _).subset ((List.dropWhile_suffix _).subset hmem)
    · cases h
  · cases h

/-- What follows the labels of a line is stripped and part of the line. -/
theorem labelsOf_rest (fuel : Nat) {cleaned : Text} (hstrip : cleaned.strip = cleaned) :
    (labelsOf fuel cleaned).2.strip = (labelsOf fuel cleaned).2 ∧
      (labelsOf fuel cleaned).2 ⊆ cleaned := by
  induction fuel generalizing cleaned with
  | zero => exact ⟨hstrip, fun _ hc => hc⟩
  | succ fuel ih =>
      rw [labelsOf]
      split
      · cases hmatch : matchLabel cleaned with
        | none => exact ⟨hstrip, fun _ hc => hc⟩
        | some found =>
            obtain ⟨labelName, rest⟩ := found
            obtain ⟨hfix, hsub⟩ := ih (Text.strip_strip rest)
            refine ⟨hfix, ?_⟩
            intro c hc
            exact matchLabel_subset hmatch (Text.mem_of_mem_strip (hsub hc))
      · exact ⟨hstrip, fun _ hc => hc⟩

/-- When every line is one line, no statement is only a comment. -/
theorem items_not_blank {rawLines : List Text} (h : ∀ line ∈ rawLines, OneLine line) {item : Item}
    (hitem : item ∈ items rawLines) : item.isBlank = false := by
  obtain ⟨line, hline, hmem⟩ := List.mem_flatMap.mp hitem
  have hone : OneLine line.1 := h line.1 (List.fst_mem_of_mem_zipIdx hline)
  have hfree : CommentFree (stripComments line.1) := fun c hc =>
    hone.commentFree c (Text.mem_of_mem_strip hc)
  have hstrip : (stripComments line.1).strip = stripComments line.1 := Text.strip_strip _
  obtain ⟨hfix, hsub⟩ := labelsOf_rest (stripComments line.1).length hstrip
  rw [lineItems] at hmem
  rcases List.mem_append.mp hmem with hlabel | hstatement
  · obtain ⟨labelName, -, rfl⟩ := List.mem_map.mp hlabel
    rfl
  · split at hstatement
    · cases hstatement
    · next hne =>
        rw [List.mem_singleton] at hstatement
        rw [hstatement]
        refine decide_eq_false ?_
        rw [stripComments, CommentFree.subComments fun c hc => hfree c (hsub hc)]
        rw [hfix]
        exact hne

/-- The lines of a text hold no line feed. -/
theorem Source.text_oneLine (s : Text) : ∀ line ∈ (Source.text s).rawLines, OneLine line := by
  intro line hline hfeed
  have hboundary := Text.isLineBoundary_of_mem_splitlines hline (List.mem_of_mem_dropLast hfeed)
  revert hboundary
  decide

end CpuSim.Assembler
