import CallExpander.Number.Binary64

/-!
Reading numbers from text: decimals with an optional fraction and exponent, and the names of the
numbers that no decimal writes.
-/

namespace CallExpander.Number

def digitsValue (base : Nat) (digits : List Nat) : Nat :=
  digits.foldl (fun n d => n * base + d) 0

def digitValue? (c : Char) : Option Nat :=
  if '0' ≤ c ∧ c ≤ '9' then some (c.toNat - '0'.toNat)
  else if 'a' ≤ c ∧ c ≤ 'f' then some (c.toNat - 'a'.toNat + 10)
  else if 'A' ≤ c ∧ c ≤ 'F' then some (c.toNat - 'A'.toNat + 10)
  else none

def natOfDigits? (base : Nat) (chars : List Char) : Option Nat :=
  if chars.isEmpty then none
  else
    match chars.mapM digitValue? with
    | some digits => if digits.all (· < base) then some (digitsValue base digits) else none
    | none => none

/-- An integer with an optional sign. -/
def intOfDigits? : List Char → Option Int
  | '-' :: digits => (natOfDigits? 10 digits).map fun n => -(n : Int)
  | '+' :: digits => (natOfDigits? 10 digits).map fun n => (n : Int)
  | digits => (natOfDigits? 10 digits).map fun n => (n : Int)

/-- The exponent of a decimal: nothing, or a mark and an integer. -/
def exponentOf? : List Char → Option Int
  | [] => some 0
  | c :: rest => if c = 'e' ∨ c = 'E' then intOfDigits? rest else none

namespace Binary64

def ofUnsigned? (neg : Bool) (chars : List Char) : Option Binary64 :=
  let whole := chars.takeWhile Char.isDigit
  let (fraction, rest) := match chars.dropWhile Char.isDigit with
    | '.' :: rest => (rest.takeWhile Char.isDigit, rest.dropWhile Char.isDigit)
    | rest => ([], rest)
  match natOfDigits? 10 (whole ++ fraction), exponentOf? rest with
  | some digits, some exponent => some (ofDecimal neg digits (exponent - fraction.length))
  | _, _ => none

/-- The number that a text without a sign writes, by name or as a decimal. -/
def ofMagnitude? (neg : Bool) (chars : List Char) : Option Binary64 :=
  match String.ofList (chars.map Char.toLower) with
  | "inf" | "infinity" => some (.infinite neg)
  | "nan" => some .nan
  | _ => ofUnsigned? neg chars

def ofText? (text : String) : Option Binary64 :=
  match text.toList with
  | '-' :: rest => ofMagnitude? true rest
  | '+' :: rest => ofMagnitude? false rest
  | chars => ofMagnitude? false chars

end Binary64

end CallExpander.Number
