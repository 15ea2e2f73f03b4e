import SynapsorRunner.KeyedMap
import SynapsorRunner.NumberText
import SynapsorRunner.Patterns

/-!
The lines of a DSL source: comments are cut off, blank lines are dropped, and the lines
between CREATE and END are the body of a block. The pass that cuts comments knows no
quotes.
-/
namespace SynapsorRunner.Dsl
open SynapsorRunner.NumberText SynapsorRunner.Patterns SynapsorRunner.Patterns.Pattern

/-! ### Units -/

/-- `\s`, and what `trim()` removes. -/
def isSpace (u : CodeUnit) : Bool :=
  decide (u.val ∈ [9, 10, 11, 12, 13, 32, 160, 5760, 8232, 8233, 8239, 8287, 12288, 65279]) ||
    decide (8192 ≤ u.val ∧ u.val ≤ 8202)

/-- `.`, which matches no line terminator. -/
def isInLine (u : CodeUnit) : Bool := decide (u.val ∉ [10, 13, 8232, 8233])

def isUpperLetter (u : CodeUnit) : Bool := decide (65 ≤ u.val ∧ u.val ≤ 90)

def isLetter (u : CodeUnit) : Bool := isUpperLetter u || decide (97 ≤ u.val ∧ u.val ≤ 122)

def lowerLetter (u : CodeUnit) : CodeUnit := if isUpperLetter u then codeUnit (u.val + 32) else u

/-- `[A-Za-z_]`. -/
def startsName (u : CodeUnit) : Bool := isLetter u || decide (u = unit '_')

/-- `[A-Za-z0-9_]`. -/
def inName (u : CodeUnit) : Bool := startsName u || isDigit u

def trim (t : Text) : Text := ((t.dropWhile isSpace).reverse.dropWhile isSpace).reverse

/-! ### Patterns -/

abbrev TextPattern := Pattern CodeUnit

/-- A word in letters of either case. -/
def word (s : String) : TextPattern :=
  all (s.toList.map fun c => one fun u => decide (lowerLetter u = lowerLetter (unit c)))

/-- A text as it is written. -/
def exactly (s : String) : TextPattern := all (s.toList.map fun c => one fun u => decide (u = unit c))

/-- `\s+`. -/
def spaces : TextPattern := longest isSpace 1

/-- `\s*`. -/
def maybeSpaces : TextPattern := longest isSpace 0

/-- Words with `\s+` between them. -/
def phrase (words : List String) : TextPattern := all ((words.map word).intersperse spaces)

/-- `[A-Za-z_][A-Za-z0-9_]*`. -/
def name : TextPattern := seq (one startsName) (longest inName 0)

/-- `\d+`. -/
def digits : TextPattern := longest isDigit 1

/-- `-?\d+(?:\.\d+)?`. -/
def decimal : TextPattern := all [optional (exactly "-"), digits, optional (seq (exactly ".") digits)]

/-- `.+`. -/
def someText : TextPattern := longest isInLine 1

/-- `.*`. -/
def anyText : TextPattern := longest isInLine 0

/-! ### Lines and blocks -/

structure DslError where
  line : ℕ
  column : ℕ
  code : String
  message : Text
  deriving DecidableEq

def dslError {α : Type} (line column : ℕ) (code : String) (message : Text) : Except DslError α :=
  .error ⟨line, column, code, message⟩

inductive BlockKind where
  | context
  | capability
  | workflow
  deriving DecidableEq

structure Item where
  text : Text
  line : ℕ
  deriving DecidableEq

structure Block where
  kind : BlockKind
  name : Text
  line : ℕ
  body : List Item
  deriving DecidableEq

/-- The lines of a text, each without the `\r` before its `\n`. -/
def splitLines (source : Text) : List Text :=
  match (source.splitOn (unit '\n')).reverse with
  | [] => []
  | last :: ended =>
    ended.reverse.map (fun line => if line.getLast? = some (unit '\r') then line.dropLast else line) ++ [last]

/-- What stands before two dashes that nothing ends but the line itself. -/
def stripComment : Text → Text
  | [] => []
  | u :: rest =>
    if u = unit '-' ∧ rest.head? = some (unit '-') ∧ rest.all isInLine then [] else u :: stripComment rest

def prepared (rawLine : Text) : Text := trim (stripComment rawLine)

/-- Without a semicolon at the end. -/
def stripSemicolon (t : Text) : Text := if t.getLast? = some (unit ';') then t.dropLast else t

/-- `[A-Za-z_][A-Za-z0-9_]*\.[A-Za-z_][A-Za-z0-9_]*`. -/
def dottedName : TextPattern := all [name, exactly ".", name]

def contextLine : TextPattern :=
  all [phrase ["CREATE", "AGENT", "CONTEXT"], spaces,
    group 1 (seq (one startsName) (longest (fun u => inName u || decide (u = unit '.')) 0))]

def capabilityLine : TextPattern :=
  all [word "CREATE", spaces, optional (seq (word "AGENT") spaces), word "CAPABILITY", spaces, group 1 dottedName]

def workflowLine : TextPattern := all [phrase ["CREATE", "AGENT", "WORKFLOW"], spaces, group 1 dottedName]

def endLine : TextPattern := seq (word "END") (optional (exactly ";"))

/-- The block that a line opens. -/
def opensBlock (stripped : Text) : Option (BlockKind × Text) :=
  let opened (kind : BlockKind) (p : TextPattern) := (p.matchWhole stripped).bind fun g => (g.get 1).map fun n => (kind, n)
  (opened .context contextLine).or ((opened .capability capabilityLine).or (opened .workflow workflowLine))

/-- The blocks that are closed, and the one that is open. -/
structure Blocks where
  closed : List Block
  open? : Option Block

def parseLine (state : Blocks) (rawLine : Text) (line : ℕ) : Except DslError Blocks :=
  let stripped := prepared rawLine
  if stripped = [] then .ok state
  else match opensBlock stripped with
    | some (kind, name) =>
      if state.open?.isSome then
        dslError line 1 "BLOCK_NOT_CLOSED" (ascii "previous CREATE block must end with END before starting another block")
      else .ok { state with open? := some ⟨kind, name, line, []⟩ }
    | none =>
      match state.open? with
      | none =>
        if (endLine.matchWhole stripped).isSome then
          dslError line 1 "END_WITHOUT_BLOCK" (ascii "END appeared without an open CREATE block")
        else dslError line 1 "EXPECTED_CREATE"
          (ascii "expected CREATE AGENT CONTEXT, CREATE CAPABILITY, or CREATE AGENT WORKFLOW")
      | some block =>
        if (endLine.matchWhole stripped).isSome then .ok ⟨state.closed ++ [block], none⟩
        else .ok { state with open? := some { block with body := block.body ++ [⟨stripSemicolon stripped, line⟩] } }

def parseBlocks (source : Text) : Except DslError (List Block) := do
  let lines := (splitLines source).zipIdx
  let state ← lines.foldlM (fun state (rawLine, index) => parseLine state rawLine (index + 1)) ⟨[], none⟩
  match state.open? with
  | some block => dslError block.line 1 "BLOCK_NOT_CLOSED" (block.name ++ ascii " must end with END")
  | none => pure state.closed

end SynapsorRunner.Dsl
