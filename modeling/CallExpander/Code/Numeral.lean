import CallExpander.Code.Escape
import CallExpander.Code.Token

/-!
Numbers in program text: decimal ones with a fraction and an exponent, ones whose base a letter
marks, and integers of any size, which end with `n`. A leading zero makes a number octal, as long as
all its digits are.
-/

namespace CallExpander.Code

open CallExpander.Text
open CallExpander.Number

/-- What reading a token gives: the token, the place behind it, and what is wrong with it. -/
abbrev Reading := Token × Point × List Fault

/-- Digits with separators. The separators are dropped; one that does not stand between two digits is
noted, from the first digit up to it. -/
def digitsFrom (base : Nat) (start : Point) :
    Nat → Bool → List Char → List Fault → Point → List Char × Point × List Fault
  | 0, _, digits, faults, p => (digits.reverse, p, faults)
  | fuel + 1, afterDigit, digits, faults, p =>
    match p.rest with
    | '_' :: rest =>
      let isFine := afterDigit && rest.head?.any (isDigitOf base)
      let faults := if isFine then faults else faults ++ [⟨.separator, start.spanTo p⟩]
      digitsFrom base start fuel false digits faults (p.move 1)
    | c :: _ =>
      if isDigitOf base c then digitsFrom base start fuel true (c :: digits) faults (p.move 1)
      else (digits.reverse, p, faults)
    | [] => (digits.reverse, p, faults)

def readDigits (base : Nat) (p : Point) : List Char × Point × List Fault :=
  digitsFrom base p (p.rest.length + 1) false [] [] p

/-- A number, unless a name follows it directly. -/
def finishNumber (start : Point) (value : Binary64) (q : Point) (faults : List Fault) : Reading :=
  if q.rest.head?.any isNameStart then (.invalid ⟨.nameAfterNumber, q.spot⟩, q, faults)
  else (.num value (start.textUpTo q), q, faults)

/-- A number whose base a letter behind the zero marks. -/
def basedNumber (start : Point) (base : Nat) : Reading :=
  let first := start.move 2
  let (digits, q, faults) := readDigits base first
  let value := numberInBase base digits
  if digits.isEmpty then (.invalid ⟨.noDigits base, first.spanTo q⟩, q, faults)
  else if q.isAt 'n' then (.bigint value (start.textUpTo (q.move 1)), q.move 1, faults)
  else finishNumber start (Binary64.ofRatio false value 1) q faults

def exponentPart (p : Point) : Except Reading (Int × Point × List Fault) :=
  if p.isAt 'e' || p.isAt 'E' then
    let q := p.move 1
    if q.rest.isEmpty then .error (.invalid ⟨.noExponent, q.spot⟩, q, [])
    else
      let isNegative := q.isAt '-'
      let q := if isNegative || q.isAt '+' then q.move 1 else q
      let (digits, r, faults) := readDigits 10 q
      if digits.isEmpty then .error (.invalid ⟨.noDigits 10, q.spanTo r⟩, r, faults)
      else
        let n : Int := numberInBase 10 digits
        .ok (if isNegative then -n else n, r, faults)
  else .ok (0, p, [])

/-- The fraction and the exponent of a decimal number, behind its whole part. -/
def decimalRest (start : Point) (whole : List Char) (p : Point) (faults : List Fault) : Reading :=
  let (fraction, q, more) :=
    if p.isAt '.' then readDigits 10 (p.move 1) else ([], p, [])
  let faults := faults ++ more
  match exponentPart q with
  | .error (token, r, more) => (token, r, faults ++ more)
  | .ok (exponent, r, more) =>
    let value := Binary64.ofDecimal false (numberInBase 10 (whole ++ fraction))
      (exponent - (fraction.length : Int))
    finishNumber start value r (faults ++ more)

def octalNumber (hasTypes : Bool) (start : Point) (whole : List Char) (p : Point)
    (faults : List Fault) : Reading :=
  let span := start.spanTo p
  match finishNumber start (Binary64.ofRatio false (numberInBase 8 whole) 1) p faults with
  | (.num value raw, q, faults) =>
    let typed := if hasTypes then [⟨.legacyOctalNumber, span⟩] else []
    (.num value raw, q, faults ++ typed ++ [⟨.legacyOctal, span⟩])
  | reading => reading

def decimalNumber (hasTypes : Bool) (start : Point) : Reading :=
  let (whole, p, faults) := readDigits 10 start
  if p.isAt 'n' && !whole.isEmpty then
    (.bigint (numberInBase 10 whole) (start.textUpTo (p.move 1)), p.move 1, faults)
  else if whole.head? == some '0' && 1 < whole.length then
    if whole.all (isDigitOf 8) then octalNumber hasTypes start whole p faults
    else decimalRest start whole p (faults ++ [⟨.legacyDecimal, start.spanTo p⟩])
  else decimalRest start whole p faults

def readNumber (hasTypes : Bool) (p : Point) : Reading :=
  match p.rest with
  | '0' :: c :: _ =>
    if c = 'x' || c = 'X' then basedNumber p 16
    else if c = 'o' || c = 'O' then basedNumber p 8
    else if c = 'b' || c = 'B' then basedNumber p 2
    else decimalNumber hasTypes p
  | _ => decimalNumber hasTypes p

end CallExpander.Code
