import CallExpander.Number.Reading
import CallExpander.Yaml.Token

/-!
Values of lines of text: what a value that is written without quotes stands for, and how values of
the expected types are taken from it.
-/

namespace CallExpander.Yaml

open CallExpander.Number
open CallExpander.Text

/-- A text with how it is written and the tag it has. -/
structure Scalar where
  text : String := ""
  style : Style := .plain
  tag : Option String := none
  deriving Repr, DecidableEq, Inhabited

/-- A value, as far as it matters here: of a list or a nested record, that it is one. -/
inductive Value where
  | scalar (scalar : Scalar)
  | sequence
  | map
  deriving Repr, DecidableEq, Inhabited

/-- Why a value is refused; most reasons are reported where the value stands, others where the record
starts. -/
structure Refusal where
  cause : Json.Cause
  isPlaced : Bool := true
  deriving Repr, Inhabited

/-! ## What plain texts stand for -/

def isNull (text : String) : Bool :=
  ["null", "Null", "NULL", "~"].contains text

def boolOf? (text : String) : Option Bool :=
  if ["true", "True", "TRUE"].contains text then some true
  else if ["false", "False", "FALSE"].contains text then some false
  else none

/-- Whether a text has digits only, but starts with a needless zero, so that it is no number. -/
def isPadded (chars : List Char) : Bool :=
  let digits := match chars with
    | '-' :: rest | '+' :: rest => rest
    | chars => chars
  1 < digits.length && digits.head? == some '0' && digits.all Char.isDigit

def natOf? (text : String) : Option Nat :=
  let chars := text.toList
  let unsigned := match chars with
    | '+' :: rest => rest
    | chars => chars
  match unsigned with
  | '0' :: 'x' :: digits => natOfDigits? 16 digits
  | '0' :: 'o' :: digits => natOfDigits? 8 digits
  | '0' :: 'b' :: digits => natOfDigits? 2 digits
  | _ => if isPadded chars then none else natOfDigits? 10 unsigned

/-- The natural number behind the sign of a negative one. -/
def negativeOf? (text : String) : Option Nat :=
  match text.toList with
  | '-' :: rest => if rest.head? == some '+' then none else natOf? (String.ofList rest)
  | _ => none

def floatOf? (text : String) : Option Binary64 :=
  let unsigned := match text.toList with
    | '+' :: rest => String.ofList rest
    | _ => text
  if [".inf", ".Inf", ".INF"].contains unsigned then some (.infinite false)
  else if ["-.inf", "-.Inf", "-.INF"].contains text then some (.infinite true)
  else if [".nan", ".NaN", ".NAN"].contains text then some .nan
  else if unsigned != text && (unsigned.startsWith "+" || unsigned.startsWith "-") then none
  else
    match Binary64.ofText? unsigned with
    | some (.finite neg m e) => some (.finite neg m e)
    | _ => none

def describeInteger? (text : String) : Option String :=
  match natOf? text, negativeOf? text with
  | some n, _ =>
    if n < Nat.pow 2 64 then some ("integer `" ++ toString n ++ "`")
    else if n < Nat.pow 2 128 then some ("integer `" ++ toString n ++ "` as u128")
    else none
  | none, some n =>
    if n ≤ Nat.pow 2 63 then some ("integer `" ++ toString (-(n : Int)) ++ "`")
    else if n ≤ Nat.pow 2 127 then some ("integer `" ++ toString (-(n : Int)) ++ "` as i128")
    else none
  | none, none => none

def describeFloat? (text : String) : Option String :=
  (floatOf? text).map fun x => "floating point `" ++ x.positionalWithFraction ++ "`"

def describeBool? (text : String) : Option String :=
  (boolOf? text).map fun b => Json.describe (.bool b)

def describeText (text : String) : String := "string " ++ quoted text

/-- A plain text as a fault names it. -/
def describePlain (text : String) : String :=
  if text = "" || isNull text then "unit value"
  else
    let float? := if isPadded text.toList then none else describeFloat? text
    ((describeBool? text).or ((describeInteger? text).or float?)).getD (describeText text)

/-! ## Values of the expected types -/

def typeTag (name : String) : String := "tag:yaml.org,2002:" ++ name

/-- Why a text is refused where something else is expected. A text whose tag promises a type has to
be of that type. -/
def Scalar.misfit (scalar : Scalar) (expected : String) : Json.Cause :=
  let text := scalar.text
  let promised (found : Option String) (type : String) : Json.Cause :=
    match found with
    | some description => .invalidType description expected
    | none => .invalidValue (describeText text) type
  match scalar.tag with
  | some tag =>
    if tag == typeTag "bool" then promised (describeBool? text) "a boolean"
    else if tag == typeTag "int" then promised (describeInteger? text) "an integer"
    else if tag == typeTag "float" then promised (describeFloat? text) "a float"
    else if tag == typeTag "null" then
      promised (if isNull text then some "unit value" else none) "null"
    else .invalidType (describeText text) expected
  | none =>
    .invalidType (if scalar.style == .plain then describePlain text else describeText text) expected

/-- Why a value is refused where something else is expected. -/
def Value.misfit (value : Value) (expected : String) : Json.Cause :=
  match value with
  | .scalar text => text.misfit expected
  | .sequence => .invalidType "sequence" expected
  | .map => .invalidType "map" expected

/-- The text of a value that can be a number or a truth value: a plain one, or a literal one whose
tag says so. -/
def Value.literal? (value : Value) (type : String) : Option String :=
  match value with
  | .scalar s =>
    if s.style == .plain || (s.style == .literal && s.tag == some (typeTag type)) then some s.text
    else none
  | _ => none

def flag (value : Value) : Except Json.Cause Bool :=
  match (value.literal? "bool").bind boolOf? with
  | some b => .ok b
  | none => .error (value.misfit "a boolean")

/-- A natural number of machine size. A number with a minus sign is of another type, zero too. -/
def count (value : Value) : Except Json.Cause Nat :=
  match ((value.literal? "int").bind natOf?).filter (· < Nat.pow 2 64) with
  | some n => .ok n
  | none => .error (value.misfit "usize")

def path (value : Value) : Except Json.Cause String :=
  match value with
  | .scalar scalar => .ok scalar.text
  | _ => .error (value.misfit "path string")

/-- Whether a plain text says that there is no value. One whose tag promises that has to do so. -/
def Scalar.isMissing (scalar : Scalar) : Except Refusal Bool :=
  match scalar.style, scalar.tag with
  | .plain, some tag =>
    if tag == typeTag "null" then
      if isNull scalar.text then .ok true
      else .error { cause := .invalidValue (describeText scalar.text) "null", isPlaced := false }
    else .ok false
  | .plain, none => .ok (scalar.text == "" || isNull scalar.text)
  | _, _ => .ok false

def optional {α : Type} (reader : Value → Except Json.Cause α) (value : Value) :
    Except Refusal (Option α) := do
  let isMissing ← match value with
    | .scalar scalar => scalar.isMissing
    | _ => .ok false
  if isMissing then return none
  else
    match reader value with
    | .ok a => return some a
    | .error cause => throw { cause }

/-- A field of a record of type `σ`: its name, and how its value changes the record. -/
abbrev Field (σ : Type) := String × (Value → Except Refusal (σ → σ))

end CallExpander.Yaml
