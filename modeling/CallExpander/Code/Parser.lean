import CallExpander.Code.Parser.Markup
import CallExpander.Code.Parser.Modules

/-!
Reading program text: the rules of the grammar tied together, and the two texts that can be read, a
module and a single expression.
-/

namespace CallExpander.Code

/-- The rule for each goal, given the rules for what is inside it. -/
def rule (self : Rules) : Goal → P Node
  | .expression => expression self
  | .assignment => assignment self
  | .binary => binary self
  | .unary => unary self
  | .tight => tight self
  | .pattern => pattern self
  | .type => type self
  | .statement => statement self false
  | .declaration => statement self true
  | .item => item self
  | .markup => markup self

/-- The rules, down to a depth. -/
def rules : Nat → Rules
  | 0 => fun _ => failHere .tooDeep
  | depth + 1 => rule (rules depth)

/-- A depth that no text of the length reaches. -/
def depthFor (text : List Char) : Nat := 12 * text.length + 64

/-- What was read from a text. -/
structure Module where
  items : List Node
  /-- The first line, if it names an interpreter. -/
  interpreter : Option String := none
  span : Span
  comments : Comments := {}
  deriving Inhabited

/-- Where a text starts, behind its blanks and comments, and the items of a module up to its end. -/
def items (self : Rules) : P (Nat × List Node) := do
  let first ← lexeme
  let found ← statements (self .item) false true
  return (first.here.pos, found)

def interpreterLine (p : Point) : Option String × Point :=
  if p.startsWith "#!" then
    let (line, q) := (p.move 2).takeWhile fun c => !isLineEnd c
    (some (String.ofList line), q)
  else (none, p)

/-- The outcome of a parser: what stopped it, or else the first fault it noted. -/
def outcome {α : Type} (result : EStateM.Result Fault PState α) : Except Fault (α × PState) :=
  match result with
  | .error fault _ => .error fault
  | .ok a s =>
    match s.faults with
    | fault :: _ => .error fault
    | [] => .ok (a, s)

/-- Reads a module, whose code is strict. -/
def parseModule (dialect : Dialect) (text : List Char) : Except Fault Module := do
  let (interpreter, p) := interpreterLine ⟨text, 0⟩
  let context := { isModule := true, isStrict := true, includesIn := false }
  let ((lo, found), s) ← outcome (items (rules (depthFor text)) (startState dialect context p))
  return ⟨found, interpreter, ⟨lo, s.last.hi⟩, s.comments⟩

/-- Reads one expression from the start of a text; what follows it is not read. -/
def parseExpression (dialect : Dialect) (text : List Char) : Except Fault Node := do
  let start := startState dialect { includesIn := false } ⟨text, 0⟩
  let (found, _) ← outcome (rules (depthFor text) .expression start)
  return found

end CallExpander.Code
