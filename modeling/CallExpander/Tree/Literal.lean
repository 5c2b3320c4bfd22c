import CallExpander.Json.Value
import CallExpander.Text.Letter
import CallExpander.Tree.Basic

/-!
Literals: nodes built from values, and the values that nodes stand for.
-/

namespace CallExpander

open CallExpander.Number
open CallExpander.Text

namespace Node

/-! ## Builders -/

def string (value : String) : Node := build (.str ⟨value, none⟩)

def number (value : Binary64) : Node := build (.num value none)

def boolean (value : Bool) : Node := build (.bool value)

def nil : Node := build .null

/-- `void 0`, which no declaration can shadow. -/
def undefined : Node := build (.unary "void") [number (Binary64.zero false)]

def identifier (name : String) : Node := build (.ident name false)

def memberOf (object : Node) (name : String) : Node :=
  build .member [object, build (.name name)]

def callOf (callee : Node) (args : List Node) : Node :=
  build .call [callee, build .group args, missing]

def arrayOf (elements : List Node) : Node := build .array elements

/-- What a removed call leaves behind. -/
def removedMarker : Node := build .removed

/-- The key of an object property: a name where it can be one, else a string. -/
def keyOf (key : String) : Node :=
  if isIdentifier key then build (.name key) else string key

mutual

def ofJson : Json → Node
  | .null => nil
  | .bool b => boolean b
  | .num n => number n.toBinary64
  | .str s => string s
  | .arr items => arrayOf (ofJsonItems items)
  | .obj entries => build .object (ofJsonEntries entries)

def ofJsonItems : List Json → List Node
  | [] => []
  | v :: rest => ofJson v :: ofJsonItems rest

def ofJsonEntries : List (String × Json) → List Node
  | [] => []
  | (key, v) :: rest => build .property [keyOf key, ofJson v] :: ofJsonEntries rest

end

/-! ## Values -/

/-- The value of a string, or of a template without holes. -/
def stringValue? : Node → Option String
  | .mk (.str literal) _ _ => some literal.value
  | .mk (.template quasis) _ [] => quasis.head?.bind (·.cooked)
  | .mk .paren _ [inner] => stringValue? inner
  | _ => none

/-- A number as a value: an integer where it has no fraction and fits in 64 bits with its sign, else
a double; none if it is not finite. -/
def numberValue? (x : Binary64) : Option Json :=
  match x.toInt? with
  | some n => if n.natAbs < Nat.pow 2 63 then some (.num (.int n)) else some (.num (.float x))
  | none => match x with
    | .finite .. => some (.num (.float x))
    | _ => none

/-- The text of a property key that is no expression. -/
def keyText? (key : Node) : Option String :=
  match key.form with
  | .name text => some text
  | .str literal => some literal.value
  | .num value _ => some value.keyText
  | _ => none

mutual

/-- The value of a literal: a string, a number, a truth value, null, or an array or plain object of
those. -/
def literal? : Node → Option Json
  | .mk .null _ _ => some .null
  | .mk (.bool b) _ _ => some (.bool b)
  | .mk (.num x _) _ _ => numberValue? x
  | .mk (.unary "-") _ [.mk (.num x _) _ _] => numberValue? x.negate
  | .mk .paren _ [inner] => literal? inner
  | .mk .array _ elements => (literals? elements).map .arr
  | .mk .object _ properties => (entries? properties []).map .obj
  | n => (stringValue? n).map .str

/-- The values of the elements of an array; none if one of them has none. -/
def literals? : List Node → Option (List Json)
  | [] => some []
  | n :: rest =>
    match literal? n with
    | none => none
    | some v => (literals? rest).map (v :: ·)

/-- The entries of a plain object, put into those before them. -/
def entries? : List Node → List (String × Json) → Option (List (String × Json))
  | [], entries => some entries
  | .mk .property _ [key, value] :: rest, entries =>
    match keyText? key, literal? value with
    | some text, some v => entries? rest (Table.insert text v entries)
    | _, _ => none
  | _ :: _, _ => none

end

end Node

end CallExpander
