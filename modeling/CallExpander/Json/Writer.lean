import CallExpander.Json.Value
import CallExpander.Text.Quoted

/-!
Data values as compact text.
-/

namespace CallExpander.Json

open CallExpander.Text

def writeChar (c : Char) : String :=
  if c = '"' then "\\\""
  else if c = '\\' then "\\\\"
  else if c = '\n' then "\\n"
  else if c = '\r' then "\\r"
  else if c = '\t' then "\\t"
  else if c.toNat = 8 then "\\b"
  else if c.toNat = 12 then "\\f"
  else if c.toNat < 32 then "\\u" ++ padZero 4 (hexDigits c.toNat)
  else String.singleton c

def writeText (text : String) : String :=
  "\"" ++ String.join (text.toList.map writeChar) ++ "\""

/-- A number; one that data cannot express is written as null. -/
def writeNumber : JsonNumber → String
  | .int n => toString n
  | .float (.finite neg m e) => (Number.Binary64.finite neg m e).dataText
  | .float _ => "null"

mutual

/-- A value without any blanks. -/
def write : Json → String
  | .null => "null"
  | .bool b => if b then "true" else "false"
  | .num n => writeNumber n
  | .str s => writeText s
  | .arr items => "[" ++ writeItems items ++ "]"
  | .obj entries => "\x7b" ++ writeEntries entries ++ "\x7d"

def writeItems : List Json → String
  | [] => ""
  | [item] => write item
  | item :: rest => write item ++ "," ++ writeItems rest

def writeEntries : List (String × Json) → String
  | [] => ""
  | [(key, value)] => writeText key ++ ":" ++ write value
  | (key, value) :: rest => writeText key ++ ":" ++ write value ++ "," ++ writeEntries rest

end

end CallExpander.Json
