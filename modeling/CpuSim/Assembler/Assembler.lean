/-
  CpuSim.Assembler.Assembler

  The two-pass assembler of `assembler.py`.  A `ValueError` or `IndexError` is its message.
-/

import CpuSim.Assembler.Encoding
import CpuSim.Lib.PythonText

namespace CpuSim.Assembler

open CpuSim.Lib (Text)

/-- `architecture`, once it is normalised. -/
inductive Architecture where
  | singleCycle | multiCycle | pipelined | superscalar
  deriving DecidableEq, Repr

/-- `symbols`: the address of every label. -/
abbrev Symbols := List (Text × Nat)

/-! ## Tokens -/

/-- The suffixes of the register names. -/
def registerNumbers : List String :=
  ["0", "1", "2", "3", "4", "5", "6", "7", "8", "9", "10", "11", "12", "13", "14", "15"]

/-- `_REG_MAP`. -/
def regMap : List (Text × Register) :=
  ("zero".toList, 0) ::
    registerNumbers.zipIdx.flatMap fun (suffix, i) =>
      [("r".toList ++ suffix.toList, Fin.ofNat 16 i), ("x".toList ++ suffix.toList, Fin.ofNat 16 i)]

/-- `_parse_reg(token)`. -/
def parseReg (token : Text) : Except String Register :=
  let token := token.strip.lower
  match regMap.lookup token with
  | some r => .ok r
  | none =>
    -- a plain index
    match if token.all fun c => (Text.decimalValue c).isSome then Text.digits 10 token
      else none with
    | some idx =>
      if h : idx < 16 then .ok ⟨idx, h⟩
      else .error ("Unknown register name: '" ++ String.ofList token ++
        "'. Valid registers: r0-r15 / x0-x15 / zero")
    | none =>
      .error ("Unknown register name: '" ++ String.ofList token ++
        "'. Valid registers: r0-r15 / x0-x15 / zero")

/-- The `ValueError` of `int`. -/
def invalidLiteral (base : Nat) (token : Text) : String :=
  "invalid literal for int() with base " ++ toString base ++ ": '" ++ String.ofList token ++ "'"

/-- `_parse_int(token)`; a decimal literal may have any number of digits. -/
def parseInt (token : Text) : Except String Int :=
  let token := token.strip
  if "0x".toList.isPrefixOf token ∨ "0X".toList.isPrefixOf token then
    (token.intPrefixed 16).elim (.error (invalidLiteral 16 token)) .ok
  else if "0b".toList.isPrefixOf token ∨ "0B".toList.isPrefixOf token then
    (token.intPrefixed 2).elim (.error (invalidLiteral 2 token)) .ok
  else token.int10.elim (.error (invalidLiteral 10 token)) .ok

/-- `re.sub(r"[;#].*$", "", line)`: the rest of the line goes, unless a line feed other than a
    final one is in the way of the dot. -/
def subComments : Text → Text
  | [] => []
  | c :: line =>
    let rest := line.dropWhile (· ≠ '\n')
    if (c = ';' ∨ c = '#') ∧ (rest = [] ∨ rest = ['\n']) then rest
    else c :: subComments line

/-- `_strip_comments(line)`. -/
def stripComments (line : Text) : Text := (subComments line).strip

/-- The separators of the operands. -/
def isSeparator (c : Char) : Bool := Text.isSpace c || c == ','

/-- `re.split(r"[\s,]+", line)`. -/
def splitParts : Text → List Text
  | [] => [[]]
  | c :: line =>
    if isSeparator c then
      if line.head?.any isSeparator then splitParts line else [] :: splitParts line
    else Text.prependChar c (splitParts line)

/-- `args[i]`. -/
def operand (args : List Text) (i : Nat) : Except String Text :=
  (args[i]?).elim (.error "list index out of range") .ok

/-! ## Operands -/

/-- `_calc_branch_offset(target_token, current_pc, symbols, architecture)`. -/
def calcBranchOffset (targetToken : Text) (currentPc : Nat) (symbols : Symbols)
    (architecture : Architecture) : Except String Int :=
  match symbols.lookup targetToken with
  | some targetPc =>
    if architecture = .singleCycle ∨ architecture = .superscalar then
      .ok ((targetPc : Int) - currentPc)
    else .ok ((targetPc : Int) - (currentPc + 1))
  | none => parseInt targetToken

/-- `imm & 0x3FFFF`, as the encoders receive it. -/
def maskImmediate (imm : Int) : Word := BitVec.ofInt 32 (imm % 2 ^ 18)

/-- The letters, digits and the underscore of ASCII. -/
def isNameChar (c : Char) : Bool := c.isAlphanum || c == '_'

/-- `\w`, as far as an integer literal can hold it. -/
def isWordChar (c : Char) : Bool := isNameChar c || (Text.decimalValue c).isSome

/-- The groups of `re.match(r"(-?\w+)\(([A-Za-z0-9_]+)\)", arg)`. -/
def matchMemoryOperand (arg : Text) : Option (Text × Text) :=
  let sign := arg.takeWhile (· = '-') |>.take 1
  let body := arg.drop sign.length
  let word := body.takeWhile isWordChar
  match body.dropWhile isWordChar with
  | '(' :: inner =>
    let name := inner.takeWhile isNameChar
    if word ≠ [] ∧ name ≠ [] ∧ (inner.dropWhile isNameChar).head? = some ')' then
      some (sign ++ word, name)
    else none
  | _ => none

/-- The immediate and the base register of a load or a store. -/
def memoryOperand (args : List Text) : Except String (Int × Register) := do
  let arg ← operand args 1
  if '(' ∈ arg then
    match matchMemoryOperand arg with
    | some (offset, name) =>
      let imm ← parseInt offset
      let rs1 ← parseReg name
      return (imm, rs1)
    | none => throw ("Malformed memory operand: " ++ String.ofList arg)
  else
    let rs1 ← parseReg arg
    let imm ← if args.length > 2 then operand args 2 >>= parseInt else pure 0
    return (imm, rs1)

/-! ## Statements -/

/-- The error of a pseudo-instruction with a wrong number of operands. -/
def operandCount (expected : String) (args : List Text) (line : Text) : String :=
  expected ++ ", got " ++ toString args.length ++ ": '" ++ String.ofList line ++ "'"

/-- `mv rd, rs`. -/
def assembleMv (args : List Text) (line : Text) : Except String Word := do
  if args.length ≠ 2 then throw (operandCount "mv expects 2 operands (rd, rs)" args line)
  let rd ← operand args 0 >>= parseReg
  let rs ← operand args 1 >>= parseReg
  return encodeR .ADD rd rs 0

/-- `beqz rs, target` and `bnez rs, target`. -/
def assembleBranchZero (opcode : Opcode) (expected : String) (args : List Text) (line : Text)
    (currentPc : Nat) (symbols : Symbols) (architecture : Architecture) : Except String Word := do
  if args.length ≠ 2 then throw (operandCount expected args line)
  let rs ← operand args 0 >>= parseReg
  let target ← operand args 1
  let imm ← calcBranchOffset target currentPc symbols architecture
  return encodeB opcode rs 0 (maskImmediate imm)

/-- `b target`. -/
def assembleB (args : List Text) (line : Text) (currentPc : Nat) (symbols : Symbols)
    (architecture : Architecture) : Except String Word := do
  if args.length ≠ 1 then throw (operandCount "b expects 1 operand (target)" args line)
  let target ← operand args 0
  let imm ← calcBranchOffset target currentPc symbols architecture
  return encodeB .BEQ 0 0 (maskImmediate imm)

/-- `add rd, rs1, rs2` and the other three-register instructions. -/
def assembleRegisters (opcode : Opcode) (args : List Text) : Except String Word := do
  let rd ← operand args 0 >>= parseReg
  let rs1 ← operand args 1 >>= parseReg
  let rs2 ← operand args 2 >>= parseReg
  return encodeR opcode rd rs1 rs2

/-- `not rd, rs1`. -/
def assembleNot (args : List Text) : Except String Word := do
  let rd ← operand args 0 >>= parseReg
  let rs1 ← operand args 1 >>= parseReg
  return encodeR .NOT rd rs1 0

/-- `addi rd, rs1, imm`. -/
def assembleAddi (args : List Text) : Except String Word := do
  let rd ← operand args 0 >>= parseReg
  let rs1 ← operand args 1 >>= parseReg
  let imm ← operand args 2 >>= parseInt
  return encodeI .ADDI rd rs1 (maskImmediate imm)

/-- `li rd, imm`. -/
def assembleLi (args : List Text) : Except String Word := do
  let rd ← operand args 0 >>= parseReg
  let imm ← operand args 1 >>= parseInt
  return encodeI .LI rd 0 (maskImmediate imm)

/-- `lw rd, imm(rs1)` or `lw rd, rs1, imm`. -/
def assembleLw (args : List Text) : Except String Word := do
  let rd ← operand args 0 >>= parseReg
  let (imm, rs1) ← memoryOperand args
  return encodeI .LW rd rs1 (maskImmediate imm)

/-- `sw rs2, imm(rs1)` or `sw rs2, rs1, imm`. -/
def assembleSw (args : List Text) : Except String Word := do
  let rs2 ← operand args 0 >>= parseReg
  let (imm, rs1) ← memoryOperand args
  return encodeS .SW rs2 rs1 (maskImmediate imm)

/-- `beq rs1, rs2, target` and `bne rs1, rs2, target`. -/
def assembleBranch (opcode : Opcode) (args : List Text) (currentPc : Nat) (symbols : Symbols)
    (architecture : Architecture) : Except String Word := do
  let rs1 ← operand args 0 >>= parseReg
  let rs2 ← operand args 1 >>= parseReg
  let target ← operand args 2
  let imm ← calcBranchOffset target currentPc symbols architecture
  return encodeB opcode rs1 rs2 (maskImmediate imm)

/-- `j target`. -/
def assembleJ (args : List Text) (symbols : Symbols) : Except String Word := do
  let target ← operand args 0
  let imm ←
    match symbols.lookup target with
    | some targetPc => pure (targetPc : Int)
    | none => parseInt target
  return encodeJ .J (BitVec.ofInt 32 (imm % 2 ^ 26))

/-- The mnemonics. -/
inductive Mnemonic where
  | mv | beqz | bnez | b | nop | halt | add | sub | and | or | xor | not | addi | li | lw | sw
  | beq | bne | j
  deriving DecidableEq, Repr

/-- The text `op` is compared with. -/
def Mnemonic.text : Mnemonic → Text
  | .mv => "MV".toList
  | .beqz => "BEQZ".toList
  | .bnez => "BNEZ".toList
  | .b => "B".toList
  | .nop => "NOP".toList
  | .halt => "HALT".toList
  | .add => "ADD".toList
  | .sub => "SUB".toList
  | .and => "AND".toList
  | .or => "OR".toList
  | .xor => "XOR".toList
  | .not => "NOT".toList
  | .addi => "ADDI".toList
  | .li => "LI".toList
  | .lw => "LW".toList
  | .sw => "SW".toList
  | .beq => "BEQ".toList
  | .bne => "BNE".toList
  | .j => "J".toList

/-- In the order of the comparisons. -/
def Mnemonic.all : List Mnemonic :=
  [.mv, .beqz, .bnez, .b, .nop, .halt, .add, .sub, .and, .or, .xor, .not, .addi, .li, .lw, .sw,
   .beq, .bne, .j]

/-- The operation a text names. -/
def Mnemonic.ofText (op : Text) : Option Mnemonic := Mnemonic.all.find? fun m => m.text = op

/-- The opcode of the words of a mnemonic; a pseudo-instruction has that of its expansion. -/
def Mnemonic.opcode : Mnemonic → Opcode
  | .mv | .add => .ADD
  | .beqz | .b | .beq => .BEQ
  | .bnez | .bne => .BNE
  | .nop => .NOP
  | .halt => .HALT
  | .sub => .SUB
  | .and => .AND
  | .or => .OR
  | .xor => .XOR
  | .not => .NOT
  | .addi => .ADDI
  | .li => .LI
  | .lw => .LW
  | .sw => .SW
  | .j => .J

/-- The branches of `assemble_instruction`. -/
def assembleMnemonic (mnemonic : Mnemonic) (args : List Text) (line : Text) (currentPc : Nat)
    (symbols : Symbols) (architecture : Architecture) : Except String Word :=
  match mnemonic with
  | .mv => assembleMv args line
  | .beqz =>
    assembleBranchZero .BEQ "beqz expects 2 operands (rs, target)" args line currentPc symbols
      architecture
  | .bnez =>
    assembleBranchZero .BNE "bnez expects 2 operands (rs, target)" args line currentPc symbols
      architecture
  | .b => assembleB args line currentPc symbols architecture
  | .nop => .ok (encodeR .NOP 0 0 0)
  | .halt => .ok (encodeR .HALT 0 0 0)
  | .add => assembleRegisters .ADD args
  | .sub => assembleRegisters .SUB args
  | .and => assembleRegisters .AND args
  | .or => assembleRegisters .OR args
  | .xor => assembleRegisters .XOR args
  | .not => assembleNot args
  | .addi => assembleAddi args
  | .li => assembleLi args
  | .lw => assembleLw args
  | .sw => assembleSw args
  | .beq => assembleBranch .BEQ args currentPc symbols architecture
  | .bne => assembleBranch .BNE args currentPc symbols architecture
  | .j => assembleJ args symbols

/-- `parts[0].upper()`. -/
def statementOp (line : Text) : Text := (splitParts line).headI.upper

/-- `parts[1:]`. -/
def statementArgs (line : Text) : List Text := (splitParts line).tail

/-- `assemble_instruction(line, current_pc, symbols, architecture)`; nothing for a line without
    a statement. -/
def assembleInstruction (line : Text) (currentPc : Nat) (symbols : Symbols)
    (architecture : Architecture) : Except String (Option Word) :=
  let line := stripComments line
  if line = [] then .ok none
  else
    match Mnemonic.ofText (statementOp line) with
    | some mnemonic =>
      some <$>
        assembleMnemonic mnemonic (statementArgs line) line currentPc symbols architecture
    | none =>
      .error ("Unknown instruction opcode: '" ++ String.ofList (statementOp line) ++ "' in '" ++
        String.ofList line ++ "'")

/-! ## Pass 1 -/

/-- A line of `instructions`. -/
structure Statement where
  pc : Nat
  lineNum : Nat
  stmt : Text
  deriving DecidableEq, Repr

/-- What pass 1 collects. -/
structure Pass1 where
  symbols : Symbols := []
  instructions : List Statement := []
  currentPc : Nat := 0

/-- `pc_step`. -/
def pcStep (architecture : Architecture) : Nat := if architecture = .superscalar then 4 else 1

/-- The first character of a label. -/
def isNameStart (c : Char) : Bool := c.isAlpha || c == '_'

/-- `re.match(r"^([A-Za-z_][A-Za-z0-9_]*)\s*:\s*(.*)$", cleaned)`: the label and what follows
    it, which the dot wants without a line feed. -/
def matchLabel (cleaned : Text) : Option (Text × Text) :=
  if cleaned.head?.any isNameStart then
    match (cleaned.dropWhile isNameChar).dropWhile Text.isSpace with
    | ':' :: rest =>
      let rest := rest.dropWhile Text.isSpace
      if '\n' ∈ rest then none else some (cleaned.takeWhile isNameChar, rest)
    | _ => none
  else none

/-- `while ":" in cleaned`, at most `fuel` times: the labels of a line are taken off. -/
def takeLabels (lineNum : Nat) : Nat → Text → Pass1 → Except String (Text × Pass1)
  | 0, cleaned, p => .ok (cleaned, p)
  | fuel + 1, cleaned, p =>
    if ':' ∈ cleaned then
      match matchLabel cleaned with
      | none => .ok (cleaned, p)
      | some (labelName, rest) =>
        if (p.symbols.lookup labelName).isSome then
          .error ("Duplicate label definition '" ++ String.ofList labelName ++ "' at line " ++
            toString lineNum)
        else
          takeLabels lineNum fuel rest.strip
            { p with symbols := (labelName, p.currentPc) :: p.symbols }
    else .ok (cleaned, p)

/-- The body of the loop over the lines.  Every label takes at least its colon off the line, so
    the length of the line is enough fuel. -/
def scanLine (step : Nat) (p : Pass1) (line : Text × Nat) : Except String Pass1 :=
  let cleaned := stripComments line.1
  if cleaned = [] then .ok p
  else do
    let (cleaned, p) ← takeLabels line.2 cleaned.length cleaned p
    if cleaned = [] then return p
    else
      return { p with
        instructions := p.instructions ++ [⟨p.currentPc, line.2, cleaned⟩]
        currentPc := p.currentPc + step }

/-- Pass 1; lines are numbered from 1. -/
def pass1 (rawLines : List Text) (step : Nat) : Except String Pass1 :=
  (rawLines.zipIdx 1).foldlM (scanLine step) {}

/-! ## Pass 2 -/

/-- The `try` block of pass 2. -/
def assembleStatement (symbols : Symbols) (architecture : Architecture) (s : Statement) :
    Except String (Option Word) :=
  match assembleInstruction s.stmt s.pc symbols architecture with
  | .ok word => .ok word
  | .error e =>
    .error ("Assembly error at line " ++ toString s.lineNum ++ " ('" ++ String.ofList s.stmt ++
      "'): " ++ e)

/-- `assemble(asm_text, architecture)` of a list of lines. -/
def assembleLines (rawLines : List Text) (architecture : Architecture) :
    Except String (List Word) := do
  let p ← pass1 rawLines (pcStep architecture)
  let words ← p.instructions.mapM (assembleStatement p.symbols architecture)
  -- a statement without a word leaves no gap
  return words.filterMap id

/-- `asm_text`. -/
inductive Source where
  | text (s : Text)
  | lines (l : List Text)

/-- `raw_lines`. -/
def Source.rawLines : Source → List Text
  | .text s => s.strip.splitlines
  | .lines l => l

/-- `assemble(asm_text, architecture)`. -/
def assemble (source : Source) (architecture : Architecture) : Except String (List Word) :=
  assembleLines source.rawLines architecture

end CpuSim.Assembler
