import CallExpander.Code.Layout
import CallExpander.Code.Literal

/-!
Parts of a node that are laid out already, and the ways to join them. The comments behind a part are
not in its layout: whether they are printed depends on where the part stands.
-/

namespace CallExpander.Code

abbrev Pieces := List Piece

/-- A node and how it is laid out. -/
structure Part where
  node : Node
  pieces : Pieces
  deriving Inhabited

def txt (s : String) : Pieces := [.text s]

def txtIf (condition : Bool) (s : String) : Pieces :=
  if condition then txt s else []

/-- The part at a place; a missing part if there is none. -/
def nth (parts : List Part) (i : Nat) : Part :=
  parts.getD i ⟨Node.missing, []⟩

/-- The end of a node in its file. -/
def endOf (origin : Origin) : Option Nat := origin.span?.map (·.hi)

def commentsBefore (origin : Origin) : Pieces :=
  match origin.span? with
  | some span => [.before span.lo]
  | none => []

def commentsBehind (origin : Origin) : Pieces :=
  match endOf origin with
  | some hi => [.behind hi]
  | none => []

/-- Where an expression starts, and where what it starts with does: after a change of the tree these
can be different places. -/
def startsOf : Node → List Nat
  | .mk form origin parts =>
    let here := (origin.span?.map (·.lo)).toList
    match form, parts with
    | .call, first :: _ | .member, first :: _ | .index, first :: _ | .optMember _, first :: _
    | .optIndex _, first :: _ | .optCall _, first :: _ | .binary _, first :: _
    | .conditional, first :: _ | .assign _, first :: _ | .sequence, first :: _ =>
      here ++ startsOf first
    | _, _ => here

namespace Part

def isAbsent (part : Part) : Bool := part.node.isAbsent

/-- A part with the comments behind it, as an expression or a pattern has them. -/
def full (part : Part) : Pieces :=
  part.pieces ++ commentsBehind part.node.origin

/-- A part with a text before it; nothing if the part is missing. -/
def after (part : Part) (lead : String) : Pieces :=
  if part.isAbsent then [] else .text lead :: part.pieces

/-- An expression with a text before it; nothing if the part is missing. -/
def fullAfter (part : Part) (lead : String) : Pieces :=
  if part.isAbsent then [] else .text lead :: part.full

/-- An expression behind a word that has to stand on its line. Comments in which the line would end
are kept in parentheses. Nothing if the part is missing. -/
def shielded (part : Part) (opening : String) : Pieces :=
  if part.isAbsent then []
  else .shield (startsOf part.node) opening " " :: part.full ++ [.unshield]

end Part

def joined (separator : Pieces) : List Pieces → Pieces
  | [] => []
  | [p] => p
  | p :: rest => p ++ separator ++ joined separator rest

/-- What remains of the comments behind an item of a list. An item that ends with the whole list
leaves them to it. -/
def leftovers (parent origin : Origin) : Pieces :=
  match endOf origin with
  | some hi => if endOf parent == some hi then [] else [.leftover hi]
  | none => []

/-- An item of a list and what remains of the comments behind it. -/
def listed (parent : Origin) (item : Part → Pieces) (part : Part) : Pieces :=
  item part ++ leftovers parent part.node.origin

/-- Parts on one line with commas between them. -/
def inLine (parent : Origin) (item : Part → Pieces) (parts : List Part) : Pieces :=
  joined (txt ", ") (parts.map (listed parent item))

/-- Layouts on lines of their own, one level deeper. -/
def indented (lines : List Pieces) : Pieces :=
  .line :: .indent :: lines.flatMap (fun p => p ++ [.line]) ++ [.dedent]

/-- Parts on lines of their own with commas between them, one level deeper. -/
def indentedList (parent : Origin) (item : Part → Pieces) (parts : List Part) : Pieces :=
  .line :: .indent :: joined [.text ",", .line] (parts.map (listed parent item)) ++ [.line, .dedent]

def beforeBrace (origin : Origin) (piece : Nat → Piece) : Pieces :=
  match origin.span? with
  | some span => [piece (span.hi - 1)]
  | none => []

/-- Statements in braces; the braces touch if there is nothing between them. -/
def braced (origin : Origin) (statements : List Pieces) : Pieces :=
  if statements.isEmpty then txt "\x7b" ++ beforeBrace origin .inside ++ txt "\x7d"
  else txt "\x7b" ++ indented statements ++ beforeBrace origin .before ++ txt "\x7d"

/-- Members in braces, which stand on lines of their own. -/
def bracedLines (lines : List Pieces) : Pieces :=
  txt "\x7b" ++ indented lines ++ txt "\x7d"

def layouts (parts : List Part) : List Pieces := parts.map (·.pieces)

end CallExpander.Code
