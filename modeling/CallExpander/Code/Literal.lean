import CallExpander.Number.Render
import CallExpander.Tree.Basic
import CallExpander.Text.Quoted

/-!
How literals are written that were not read from text.
-/

namespace CallExpander.Code

open CallExpander.Text
open CallExpander.Number

/-- The quote for a text: double, unless the text holds more double quotes than single ones. -/
def quoteFor (chars : List Char) : Char :=
  if chars.count '\'' < chars.count '"' then '\'' else '"'

def hexPair (n : Nat) : List Char :=
  [Nat.digitChar (n / 16), Nat.digitChar (n % 16)]

/-- One character of a string literal, given the character behind it. -/
def escapedChar (quote c : Char) (next : Option Char) : List Char :=
  if c = quote then ['\\', c]
  else match c with
    | '\\' => ['\\', '\\']
    | '\n' => ['\\', 'n']
    | '\r' => ['\\', 'r']
    | '\x08' => ['\\', 'b']
    | '\x0c' => ['\\', 'f']
    | '\x0b' => ['\\', 'v']
    | '\t' => ['\t']
    | '\x00' => if next.any Char.isDigit then ['\\', 'x', '0', '0'] else ['\\', '0']
    | '\u2028' => ['\\', 'u', '2', '0', '2', '8']
    | '\u2029' => ['\\', 'u', '2', '0', '2', '9']
    | '\uFEFF' => ['\\', 'u', 'F', 'E', 'F', 'F']
    | c => if c.toNat < 32 then '\\' :: 'x' :: hexPair c.toNat else [c]

def escapedText (quote : Char) : List Char → List Char
  | [] => []
  | c :: rest => escapedChar quote c rest.head? ++ escapedText quote rest

def stringText (value : String) : String :=
  let chars := value.toList
  let quote := quoteFor chars
  String.ofList (quote :: escapedText quote chars ++ [quote])

def literalText (literal : StringLiteral) : String :=
  literal.raw.getD (stringText literal.value)

def numberText (value : Binary64) (raw : Option String) : String :=
  raw.getD value.positional

/-- Whether digits are a decimal integer, and no octal one. -/
def isDecimalInteger (chars : List Char) : Bool :=
  chars.all Char.isDigit && !(chars.head? == some '0' && 1 < chars.length)

/-- Whether a point behind a number would be taken for its decimal point. -/
def needsTwoPoints (value : Binary64) : Option String → Bool
  | some raw => isDecimalInteger (raw.toList.filter (· != '_'))
  | none =>
    match value with
    | .infinite _ => false
    | _ => !value.positional.toList.contains '.'

end CallExpander.Code
