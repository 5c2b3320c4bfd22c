import CallExpander.Json.Value
import CallExpander.Text.Blank
import CallExpander.Text.Quoted

/-!
Reading data text. A reader moves a cursor over the characters and stops at the first fault; a
fault says what was found and where, the column counting the bytes taken on the line. Records are
read field by field, so that a fault in a record is noticed as early as its place in the text.
-/

namespace CallExpander.Json

open CallExpander.Text
open CallExpander.Number

inductive Cause where
  | endOfValue
  | endOfObject
  | endOfList
  | endOfString
  | expectedColon
  | expectedListComma
  | expectedObjectComma
  | expectedWord
  | expectedValue
  | invalidEscape
  | invalidNumber
  | numberOutOfRange
  | controlCharacter
  | keyMustBeText
  | loneSurrogate
  | endOfEscape
  | trailingComma
  | trailingCharacters
  | invalidType (found expected : String)
  | invalidValue (found expected : String)
  | unknownField (name : String) (known : List String)
  | duplicateField (name : String)
  deriving Repr, DecidableEq, Inhabited

def oneOf (names : List String) : String :=
  ", ".intercalate (names.map fun n => "`" ++ n ++ "`")

def Cause.message : Cause → String
  | .endOfValue => "EOF while parsing a value"
  | .endOfObject => "EOF while parsing an object"
  | .endOfList => "EOF while parsing a list"
  | .endOfString => "EOF while parsing a string"
  | .expectedColon => "expected `:`"
  | .expectedListComma => "expected `,` or `]`"
  | .expectedObjectComma => "expected `,` or `\x7d`"
  | .expectedWord => "expected ident"
  | .expectedValue => "expected value"
  | .invalidEscape => "invalid escape"
  | .invalidNumber => "invalid number"
  | .numberOutOfRange => "number out of range"
  | .controlCharacter => "control character (\\u0000-\\u001F) found while parsing a string"
  | .keyMustBeText => "key must be a string"
  | .loneSurrogate => "lone leading surrogate in hex escape"
  | .endOfEscape => "unexpected end of hex escape"
  | .trailingComma => "trailing comma"
  | .trailingCharacters => "trailing characters"
  | .invalidType found expected => "invalid type: " ++ found ++ ", expected " ++ expected
  | .invalidValue found expected => "invalid value: " ++ found ++ ", expected " ++ expected
  | .unknownField name known => "unknown field `" ++ name ++ "`, expected one of " ++ oneOf known
  | .duplicateField name => "duplicate field `" ++ name ++ "`"

/-- Where reading stands: what is left, the line, and the bytes taken on that line. -/
structure Cursor where
  rest : List Char
  line : Nat := 1
  column : Nat := 0
  deriving Repr, Inhabited

/-- A fault and its place; a fault of a record has no place until the record is left. -/
structure Fault where
  cause : Cause
  place : Option (Nat × Nat)
  deriving Repr, Inhabited

def Fault.message (fault : Fault) : String :=
  match fault.place with
  | none => fault.cause.message
  | some (line, column) =>
    fault.cause.message ++ " at line " ++ toString line ++ " column " ++ toString column

abbrev Reader := EStateM Fault Cursor

def Cursor.advance (cursor : Cursor) : Cursor :=
  match cursor.rest with
  | [] => cursor
  | c :: rest =>
    if c = '\n' then ⟨rest, cursor.line + 1, 0⟩
    else ⟨rest, cursor.line, cursor.column + c.utf8Size⟩

/-- Takes the next character. -/
def skip : Reader Unit := modify Cursor.advance

/-- The next character, not taken. -/
def peek : Reader (Option Char) := do return (← get).rest.head?

def failHere {α : Type} (cause : Cause) : Reader α := do
  let cursor ← get
  throw ⟨cause, some (cursor.line, cursor.column)⟩

/-- The line and the column so many bytes further on, which may be inside a character. -/
def placeAfter : Nat → List Char → Nat × Nat → Nat × Nat
  | _, [], place => place
  | bytes, c :: rest, (line, column) =>
    if bytes < c.utf8Size then (line, column + bytes)
    else
      placeAfter (bytes - c.utf8Size) rest
        (if c = '\n' then (line + 1, 0) else (line, column + c.utf8Size))

/-- Fails so many bytes behind the cursor. -/
def failAfter {α : Type} (bytes : Nat) (cause : Cause) : Reader α := do
  let cursor ← get
  throw ⟨cause, some (placeAfter bytes cursor.rest (cursor.line, cursor.column))⟩

/-- Fails behind the first byte of the next character. -/
def failAtNext {α : Type} (cause : Cause) : Reader α := failAfter 1 cause

def isSpace (c : Char) : Bool :=
  c == ' ' || c == '\n' || c == '\t' || c == '\r'

/-- Takes the characters that pass the test, at most `fuel` of them. -/
def takeWhile (p : Char → Bool) : Nat → Reader (List Char)
  | 0 => return []
  | fuel + 1 => do
    match ← peek with
    | some c =>
      if p c then
        skip
        return c :: (← takeWhile p fuel)
      else return []
    | none => return []

def remaining : Reader Nat := do return (← get).rest.length

/-- Skips white space and looks at the next character. -/
def peekToken : Reader (Option Char) := do
  let _ ← takeWhile isSpace (← remaining)
  peek

def word : List Char → Reader Unit
  | [] => return ()
  | c :: rest => do
    match ← peek with
    | none => failHere .endOfValue
    | some d =>
      skip
      if c = d then word rest else failHere .expectedWord

def hexValue? (c : Char) : Option Nat :=
  if '0' ≤ c && c ≤ '9' then some (c.toNat - 48)
  else if 'a' ≤ c && c ≤ 'f' then some (c.toNat - 87)
  else if 'A' ≤ c && c ≤ 'F' then some (c.toNat - 55)
  else none

def fourDigits : Reader Nat := do
  let rest := (← get).rest
  let size := byteLength rest
  if size < 4 then failAfter size .endOfString
  else
    match (rest.take 4).mapM hexValue? with
    | some values =>
      for _ in values do skip
      return values.foldl (fun n digit => n * 16 + digit) 0
    | none => failAfter 4 .invalidEscape

/-- Takes a character that has to follow the first half of a pair. -/
def pairMark (mark : Char) : Reader Unit := do
  match ← peek with
  | none => failHere .endOfString
  | some c => if c = mark then skip else failAtNext .endOfEscape

/-- The character of an escape by number; two halves of a pair make one character. -/
def escapedUnit : Reader Char := do
  let first ← fourDigits
  if 0xDC00 ≤ first && first ≤ 0xDFFF then failHere .loneSurrogate
  else if 0xD800 ≤ first && first ≤ 0xDBFF then
    pairMark '\\'
    pairMark 'u'
    let second ← fourDigits
    if 0xDC00 ≤ second && second ≤ 0xDFFF then
      return Char.ofNat ((first - 0xD800) * 0x400 + (second - 0xDC00) + 0x10000)
    else failHere .loneSurrogate
  else return Char.ofNat first

def escapeSequence : Reader Char := do
  match ← peek with
  | none => failHere .endOfString
  | some c =>
    skip
    match c with
    | '"' => return '"'
    | '\\' => return '\\'
    | '/' => return '/'
    | 'b' => return '\x08'
    | 'f' => return '\x0c'
    | 'n' => return '\n'
    | 'r' => return '\r'
    | 't' => return '\t'
    | 'u' => escapedUnit
    | _ => failHere .invalidEscape

/-- The rest of a text value, up to and with its closing quote. -/
def textRest : Nat → List Char → Reader String
  | 0, _ => failHere .endOfString
  | fuel + 1, taken => do
    match ← peek with
    | none => failHere .endOfString
    | some '"' =>
      skip
      return String.ofList taken.reverse
    | some '\\' =>
      skip
      textRest fuel ((← escapeSequence) :: taken)
    | some c =>
      skip
      if c.toNat < 32 then failHere .controlCharacter else textRest fuel (c :: taken)

/-- A text value whose opening quote is next. -/
def text : Reader String := do
  skip
  textRest ((← remaining) + 1) []

def digits : Reader (List Char) := do takeWhile Char.isDigit (← remaining)

def someDigits : Reader (List Char) := do
  let ds ← digits
  if ds.isEmpty then
    match ← peek with
    | none => failHere .endOfValue
    | some _ => failAtNext .invalidNumber
  else return ds

/-- Takes the digits of a whole number, which has no needless zero in front. -/
def wholeDigits : Reader (List Char) := do
  match (← get).rest with
  | '0' :: rest =>
    skip
    if rest.head?.any Char.isDigit then failAtNext .invalidNumber
    return ['0']
  | _ => someDigits

def digitsValue (ds : List Char) : Nat :=
  ds.foldl (fun n c => n * 10 + (c.toNat - 48)) 0

def exponentPart : Reader (Option Int) := do
  match ← peek with
  | some c =>
    if c = 'e' || c = 'E' then
      skip
      let sign ← peek
      if sign == some '+' || sign == some '-' then skip
      let ds ← someDigits
      let n : Int := digitsValue ds
      return some (if sign == some '-' then -n else n)
    else return none
  | none => return none

/-- A number. Integers that fit in 64 bits are exact, all else is a double. -/
def number : Reader JsonNumber := do
  let neg := (← peek) == some '-'
  if neg then skip
  let whole ← wholeDigits
  let fraction ← (do
    match ← peek with
    | some '.' =>
      skip
      return some (← someDigits)
    | _ => return none)
  let exponent ← exponentPart
  let n := digitsValue whole
  match fraction, exponent with
  | none, none =>
    if neg then
      if n = 0 then return .float (Binary64.zero true)
      else if n ≤ Nat.pow 2 63 then return .int (-(n : Int))
      else return .float (Binary64.ofRatio true n 1)
    else if n < Nat.pow 2 64 then return .int n
    else return .float (Binary64.ofRatio false n 1)
  | _, _ =>
    let fraction := fraction.getD []
    let value := Binary64.ofDecimal neg (digitsValue (whole ++ fraction))
      (exponent.getD 0 - (fraction.length : Int))
    match value with
    | .infinite _ => failHere .numberOutOfRange
    | x => return .float x

/-- Moves on to the next item of a list; false at its end. -/
def nextItem (first : Bool) : Reader Bool := do
  match ← peekToken with
  | none => failAtNext .endOfList
  | some ']' => return false
  | some c =>
    if first then return true
    else if c = ',' then
      skip
      match ← peekToken with
      | some ']' => failAtNext .trailingComma
      | some _ => return true
      | none => failAtNext .endOfValue
    else failAtNext .expectedListComma

/-- Moves on to the next key of an object and reads it; none at its end. -/
def nextKey (first : Bool) : Reader (Option String) := do
  match ← peekToken with
  | none => failAtNext .endOfObject
  | some '\x7d' => return none
  | some c =>
    let next ← (do
      if first then return some c
      else if c = ',' then
        skip
        peekToken
      else failAtNext .expectedObjectComma)
    match next with
    | some '"' => return some (← text)
    | some '\x7d' => failAtNext .trailingComma
    | some _ => failAtNext .keyMustBeText
    | none => failAtNext .endOfValue

def colon : Reader Unit := do
  match ← peekToken with
  | some ':' => skip
  | some _ => failAtNext .expectedColon
  | none => failAtNext .endOfObject

mutual

/-- A value; the fuel bounds nesting and length. -/
def valueAt : Nat → Reader Json
  | 0 => failHere .endOfValue
  | fuel + 1 => do
    match ← peekToken with
    | none => failAtNext .endOfValue
    | some 'n' => word "null".toList; return .null
    | some 't' => word "true".toList; return .bool true
    | some 'f' => word "false".toList; return .bool false
    | some '"' => return .str (← text)
    | some '[' => skip; return .arr (← itemsAt fuel true)
    | some '\x7b' => skip; return .obj (← entriesAt fuel true [])
    | some c =>
      if c = '-' || c.isDigit then return .num (← number) else failAtNext .expectedValue

def itemsAt : Nat → Bool → Reader (List Json)
  | 0, _ => failHere .endOfList
  | fuel + 1, first => do
    if ← nextItem first then
      let item ← valueAt fuel
      return item :: (← itemsAt fuel false)
    else
      skip
      return []

def entriesAt : Nat → Bool → List (String × Json) → Reader (List (String × Json))
  | 0, _, _ => failHere .endOfObject
  | fuel + 1, first, entries => do
    match ← nextKey first with
    | none =>
      skip
      return entries
    | some key =>
      colon
      let value ← valueAt fuel
      entriesAt fuel false (Table.insert key value entries)

end

def value : Reader Json := do valueAt (2 * (← remaining) + 2)

/-- Nothing but white space may follow. -/
def finish : Reader Unit := do
  match ← peekToken with
  | none => return ()
  | some _ => failAtNext .trailingCharacters

def readAll {α : Type} (reader : Reader α) (source : String) : Except Fault α :=
  match (do let a ← reader; finish; return a : Reader α).run ⟨source.toList, 1, 0⟩ with
  | .ok a _ => .ok a
  | .error fault _ => .error fault

def parse (source : String) : Except Fault Json :=
  readAll value source

/-! ## Records -/

def describeNumber : JsonNumber → String
  | .int n => "integer `" ++ toString n ++ "`"
  | .float x => "floating point `" ++ x.dataText ++ "`"

def describe : Json → String
  | .null => "null"
  | .bool b => "boolean `" ++ (if b then "true" else "false") ++ "`"
  | .num n => describeNumber n
  | .str s => "string " ++ quoted s
  | .arr _ => "sequence"
  | .obj _ => "map"

/-- What is wrong with a value that is no value of the expected type. A negative integer has the
type of a count, but not its range. -/
def typeFault (value : Json) (expected : String) : String :=
  match value, expected with
  | .num (.int n), "usize" => (Cause.invalidValue (describe (.ofInt n)) expected).message
  | _, _ => (Cause.invalidType (describe value) expected).message

/-- Fails because the next value has another type than the expected one. -/
def wrongType {α : Type} (expected : String) : Reader α := do
  match ← peek with
  | some 'n' => word "null".toList; failHere (.invalidType "null" expected)
  | some 't' => word "true".toList; failHere (.invalidType "boolean `true`" expected)
  | some 'f' => word "false".toList; failHere (.invalidType "boolean `false`" expected)
  | some '"' =>
    let s ← text
    failHere (.invalidType ("string " ++ quoted s) expected)
  | some '[' => failHere (.invalidType "sequence" expected)
  | some '\x7b' => failHere (.invalidType "map" expected)
  | some c =>
    if c = '-' || c.isDigit then
      let n ← number
      failHere (.invalidType (describeNumber n) expected)
    else failAtNext .expectedValue
  | none => failAtNext .endOfValue

def flag : Reader Bool := do
  match ← peekToken with
  | some 't' => word "true".toList; return true
  | some 'f' => word "false".toList; return false
  | none => failAtNext .endOfValue
  | _ => wrongType "a boolean"

/-- A natural number of machine size. -/
def count : Reader Nat := do
  match ← peekToken with
  | none => failAtNext .endOfValue
  | some c =>
    if c = '-' || c.isDigit then
      match ← number with
      | .int n =>
        if n < 0 then failHere (.invalidValue ("integer `" ++ toString n ++ "`") "usize")
        else return n.toNat
      | n => failHere (.invalidType (describeNumber n) "usize")
    else wrongType "usize"

def path : Reader String := do
  match ← peekToken with
  | some '"' => text
  | none => failAtNext .endOfValue
  | _ => wrongType "path string"

def optional {α : Type} (reader : Reader α) : Reader (Option α) := do
  match ← peekToken with
  | some 'n' => word "null".toList; return none
  | _ => return some (← reader)

/-- A field of a record of type `σ`: its name, and a reader that says how its value changes the
record. -/
abbrev Field (σ : Type) := String × Reader (σ → σ)

def fieldsByName {σ : Type} (fields : List (Field σ)) : Nat → Bool → List String → σ → Reader σ
  | 0, _, _, _ => failHere .endOfObject
  | fuel + 1, first, seen, record => do
    match ← nextKey first with
    | none => return record
    | some key =>
      match fields.find? fun f => f.1 == key with
      | none => throw ⟨.unknownField key (fields.map (·.1)), none⟩
      | some field =>
        if seen.contains key then throw ⟨.duplicateField key, none⟩
        colon
        let update ← field.2
        fieldsByName fields fuel false (key :: seen) (update record)

/-- The fields of a record written as a list, in order; missing ones keep their default. -/
def fieldsInOrder {σ : Type} : List (Field σ) → Bool → σ → Reader σ
  | [], _, record => return record
  | field :: rest, first, record => do
    if ← nextItem first then
      let update ← field.2
      fieldsInOrder rest false (update record)
    else return record

def endObject : Reader Unit := do
  match ← peekToken with
  | some '\x7d' => skip
  | some ',' => failAtNext .trailingComma
  | some _ => failAtNext .trailingCharacters
  | none => failAtNext .endOfObject

def endList : Reader Unit := do
  match ← peekToken with
  | some ']' => skip
  | some ',' =>
    skip
    match ← peekToken with
    | some ']' => failAtNext .trailingComma
    | _ => failAtNext .trailingCharacters
  | some _ => failAtNext .trailingCharacters
  | none => failAtNext .endOfList

/-- Reads a part and then its end. If the part fails, the end is looked for all the same, and a
fault without a place gets the place where that left the cursor. -/
def closedBy {α : Type} (part : Reader α) (close : Reader Unit) : Reader α := fun cursor =>
  match part cursor with
  | .ok a next =>
    match close next with
    | .ok _ last => .ok a last
    | .error fault last => .error fault last
  | .error fault next =>
    let last := match close next with
      | .ok _ c => c
      | .error _ c => c
    match fault.place with
    | some _ => .error fault last
    | none => .error { fault with place := some (last.line, last.column) } last

/-- A record with the given fields, as an object or as a list. -/
def record {σ : Type} (name : String) (fields : List (Field σ)) (init : σ) : Reader σ := do
  match ← peekToken with
  | none => failAtNext .endOfValue
  | some '\x7b' =>
    skip
    closedBy (do fieldsByName fields ((← remaining) + 1) true [] init) endObject
  | some '[' =>
    skip
    closedBy (fieldsInOrder fields true init) endList
  | _ => wrongType name

end CallExpander.Json
