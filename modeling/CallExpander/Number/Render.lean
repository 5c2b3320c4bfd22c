import CallExpander.Number.Shortest

/-!
Numbers as text. Positional notation never uses an exponent; scientific notation is used by data
formats for numbers that are very large or very small.
-/

namespace CallExpander.Number

def digitsText (n : Nat) : String :=
  String.ofList (Nat.toDigits 10 n)

def zeros (n : Nat) : String :=
  String.ofList (List.replicate n '0')

/-- A positive decimal with all its places written out. -/
def Decimal.positional (d : Decimal) : String :=
  let text := digitsText d.digits
  if 0 ≤ d.exponent then text ++ zeros d.exponent.toNat
  else
    let places := (-d.exponent).toNat
    if text.length ≤ places then "0." ++ zeros (places - text.length) ++ text
    else
      let cut := text.length - places
      String.ofList (text.toList.take cut) ++ "." ++ String.ofList (text.toList.drop cut)

/-- A positive decimal with a point after its first digit and a power of ten. -/
def Decimal.scientific (d : Decimal) : String :=
  let text := (digitsText d.digits).toList
  let power := d.exponent + ((text.length : Int) - 1)
  let mantissa := match text with
    | [] => "0"
    | [c] => String.singleton c
    | c :: rest => String.singleton c ++ "." ++ String.ofList rest
  mantissa ++ "e" ++ toString power

def signed (neg : Bool) (text : String) : String :=
  if neg then "-" ++ text else text

namespace Binary64

/-- The number written out without an exponent, with the given text for infinity. -/
def positionalWith (infinity : String) : Binary64 → String
  | .nan => "NaN"
  | .infinite neg => signed neg infinity
  | .finite neg m e =>
    if m = 0 then signed neg "0" else signed neg (shortest m e).positional

/-- The number as program text writes it when no spelling is given. -/
def positional : Binary64 → String := positionalWith "Infinity"

/-- The number as a property key writes it. -/
def keyText : Binary64 → String := positionalWith "inf"

/-- The number as data formats write it: a fraction is always shown, and an exponent is used
below 10^-5 and from 10^16 on. -/
def dataText : Binary64 → String
  | .nan => "NaN"
  | .infinite neg => signed neg "inf"
  | .finite neg m e =>
    if m = 0 then signed neg "0.0"
    else
      let d := shortest m e
      let point : Int := d.exponent + digitCount d.digits
      if 0 ≤ d.exponent && point ≤ 16 then signed neg (d.positional ++ ".0")
      else if -5 < point && point ≤ 16 then signed neg d.positional
      else signed neg d.scientific

/-- The number written out without an exponent, but with a fraction in any case. -/
def positionalWithFraction : Binary64 → String
  | .nan => "NaN"
  | .infinite neg => signed neg "inf"
  | .finite neg m e =>
    if m = 0 then signed neg "0.0"
    else
      let d := shortest m e
      signed neg (if 0 ≤ d.exponent then d.positional ++ ".0" else d.positional)

end Binary64

end CallExpander.Number
