/-
  CpuSim.Lib.PythonText

  Python's `str` as a list of code points: `strip`, `splitlines`, `lower` and `upper`, and
  the literals `int` takes.
-/

import Mathlib.Data.List.DropRight

namespace CpuSim.Lib

/-- A `str`. -/
abbrev Text := List Char

namespace Text

/-! ## Whitespace and lines -/

/-- `str.isspace` of one code point; `\s` matches the same ones. -/
def isSpace (c : Char) : Bool :=
  let n := c.toNat
  (0x09 ≤ n && n ≤ 0x0D) || (0x1C ≤ n && n ≤ 0x20) || n == 0x85 || n == 0xA0 || n == 0x1680 ||
    (0x2000 ≤ n && n ≤ 0x200A) || n == 0x2028 || n == 0x2029 || n == 0x202F || n == 0x205F ||
    n == 0x3000

/-- `strip()`. -/
def strip (s : Text) : Text := (s.dropWhile isSpace).rdropWhile isSpace

/-- The code points at which `splitlines` ends a line. -/
def isLineBoundary (c : Char) : Bool :=
  let n := c.toNat
  (0x0A ≤ n && n ≤ 0x0D) || (0x1C ≤ n && n ≤ 0x1E) || n == 0x85 || n == 0x2028 || n == 0x2029

/-- Put a character in front of the first line. -/
def prependChar (c : Char) : List Text → List Text
  | [] => [[c]]
  | line :: lines => (c :: line) :: lines

/-- `splitlines()`; a carriage return before a line feed is part of one boundary. -/
def splitlines : Text → List Text
  | [] => []
  | c :: s =>
    if c = '\r' ∧ s.head? = some '\n' then splitlines s
    else if isLineBoundary c then [] :: splitlines s
    else prependChar c (splitlines s)

/-- Stripping leaves no whitespace at either end. -/
theorem strip_strip (s : Text) : strip (strip s) = strip s := by
  have hhead : (strip s).dropWhile isSpace = strip s := by
    rw [List.dropWhile_eq_self_iff]
    intro hlen
    have hpre : strip s <+: s.dropWhile isSpace := List.rdropWhile_prefix isSpace _
    have hlen' : 0 < (s.dropWhile isSpace).length := Nat.lt_of_lt_of_le hlen hpre.length_le
    have hfirst : (strip s)[0] = (s.dropWhile isSpace)[0] := hpre.getElem hlen
    rw [hfirst]
    exact List.dropWhile_get_zero_not isSpace s hlen'
  show ((strip s).dropWhile isSpace).rdropWhile isSpace = strip s
  rw [hhead]
  exact List.rdropWhile_idempotent isSpace _

/-- What is stripped consists of characters of the text. -/
theorem mem_of_mem_strip {s : Text} {c : Char} (h : c ∈ strip s) : c ∈ s := by
  have hpre : strip s <+: s.dropWhile isSpace := List.rdropWhile_prefix isSpace _
  exact (List.dropWhile_suffix isSpace).subset (hpre.subset h)

theorem mem_prependChar {c : Char} {lines : List Text} {line : Text}
    (h : line ∈ prependChar c lines) :
    line ∈ lines ∨ ∃ rest, line = c :: rest ∧ (rest = [] ∨ rest ∈ lines) := by
  cases lines with
  | nil => exact Or.inr ⟨[], by simpa [prependChar] using h, Or.inl rfl⟩
  | cons first rest =>
      rcases List.mem_cons.mp h with heq | hmem
      · exact Or.inr ⟨first, heq, Or.inr (by simp)⟩
      · exact Or.inl (List.mem_cons_of_mem _ hmem)

/-- No line holds a line boundary. -/
theorem isLineBoundary_of_mem_splitlines {s line : Text} {c : Char} (hline : line ∈ splitlines s)
    (hc : c ∈ line) : isLineBoundary c = false := by
  induction s generalizing line with
  | nil => cases hline
  | cons d s ih =>
      rw [splitlines] at hline
      split at hline
      · exact ih hline hc
      · split at hline
        · rcases List.mem_cons.mp hline with heq | hmem
          · rw [heq] at hc
            cases hc
          · exact ih hmem hc
        · next hboundary =>
            rcases mem_prependChar hline with hmem | ⟨rest, heq, hrest⟩
            · exact ih hmem hc
            · rw [heq] at hc
              rcases List.mem_cons.mp hc with hd | hc'
              · rw [hd]
                exact Bool.not_eq_true _ ▸ hboundary
              · rcases hrest with hnil | hmem
                · rw [hnil] at hc'
                  cases hc'
                · exact ih hmem hc'

/-! ## Case -/

/-- `lower()` of the letters of ASCII. -/
def lowerChar (c : Char) : Char :=
  if 'A' ≤ c ∧ c ≤ 'Z' then Char.ofNat (c.toNat + 32) else c

/-- `lower()`, as far as it gives a letter of ASCII (the Kelvin sign apart). -/
def lower (s : Text) : Text := s.map lowerChar

/-- `upper()` of one code point, as far as it gives a single letter of ASCII: the dotless i
    and the long s have one too. -/
def upperChar (c : Char) : Char :=
  if 'a' ≤ c ∧ c ≤ 'z' then Char.ofNat (c.toNat - 32)
  else if c.toNat = 0x131 then 'I'
  else if c.toNat = 0x17F then 'S'
  else c

/-- `upper()`, as far as it gives letters of ASCII. -/
def upper (s : Text) : Text := s.map upperChar

/-! ## Integer literals -/

/-- The code points of the digits zero: the decimal digits of every script follow them. -/
def zeroDigits : List Nat :=
  [0x30, 0x660, 0x6F0, 0x7C0, 0x966, 0x9E6, 0xA66, 0xAE6, 0xB66, 0xBE6, 0xC66, 0xCE6, 0xD66,
   0xDE6, 0xE50, 0xED0, 0xF20, 0x1040, 0x1090, 0x17E0, 0x1810, 0x1946, 0x19D0, 0x1A80, 0x1A90,
   0x1B50, 0x1BB0, 0x1C40, 0x1C50, 0xA620, 0xA8D0, 0xA900, 0xA9D0, 0xA9F0, 0xAA50, 0xABF0,
   0xFF10, 0x104A0, 0x10D30, 0x11066, 0x110F0, 0x11136, 0x111D0, 0x112F0, 0x11450, 0x114D0,
   0x11650, 0x116C0, 0x11730, 0x118E0, 0x11950, 0x11C50, 0x11D50, 0x11DA0, 0x16A60, 0x16AC0,
   0x16B50, 0x1D7CE, 0x1D7D8, 0x1D7E2, 0x1D7EC, 0x1D7F6, 0x1E140, 0x1E2F0, 0x1E950, 0x1FBF0]

/-- The value of a decimal digit. -/
def decimalValue (c : Char) : Option Nat :=
  (zeroDigits.find? fun z => z ≤ c.toNat ∧ c.toNat < z + 10).map (c.toNat - ·)

/-- The value of a digit in a base of at most sixteen. -/
def digitValue (base : Nat) (c : Char) : Option Nat :=
  let value :=
    match decimalValue c with
    | some v => some v
    | none =>
      if 'a' ≤ c ∧ c ≤ 'f' then some (c.toNat - 'a'.toNat + 10)
      else if 'A' ≤ c ∧ c ≤ 'F' then some (c.toNat - 'A'.toNat + 10)
      else none
  value.filter (· < base)

/-- The digits after the first one; single underscores may stand between them. -/
def moreDigits (base acc : Nat) : Text → Option Nat
  | [] => some acc
  | '_' :: c :: s => (digitValue base c).bind fun v => moreDigits base (acc * base + v) s
  | c :: s => (digitValue base c).bind fun v => moreDigits base (acc * base + v) s

/-- A number without sign or prefix. -/
def digits (base : Nat) : Text → Option Nat
  | [] => none
  | c :: s => (digitValue base c).bind fun v => moreDigits base v s

/-- `int(s)` of a text without whitespace, in an interpreter that does not limit the number of
    digits (`int_max_str_digits` absent or 0). -/
def int10 : Text → Option Int
  | '-' :: s => (digits 10 s).map fun n => -(n : Int)
  | '+' :: s => (digits 10 s).map fun n => (n : Int)
  | s => (digits 10 s).map fun n => (n : Int)

/-- `int(s, base)` of a text that starts with the two characters of the prefix of the base;
    one underscore may follow them. -/
def intPrefixed (base : Nat) (s : Text) : Option Int :=
  match s.drop 2 with
  | '_' :: rest => (digits base rest).map fun n => (n : Int)
  | rest => (digits base rest).map fun n => (n : Int)

end Text

end CpuSim.Lib
