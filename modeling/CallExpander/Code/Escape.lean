import CallExpander.Code.Fault

/-!
Escapes: what a backslash and the characters behind it stand for.
-/

namespace CallExpander.Code

/-- The value of a digit in a base up to sixteen. -/
def digitValue? (base : Nat) (c : Char) : Option Nat :=
  let value :=
    if '0' ≤ c && c ≤ '9' then some (c.toNat - 48)
    else if 'a' ≤ c && c ≤ 'f' then some (c.toNat - 87)
    else if 'A' ≤ c && c ≤ 'F' then some (c.toNat - 55)
    else none
  value.filter (· < base)

def isDigitOf (base : Nat) (c : Char) : Bool := (digitValue? base c).isSome

def numberInBase (base : Nat) (digits : List Char) : Nat :=
  digits.foldl (fun n c => n * base + (digitValue? base c).getD 0) 0

/-- The first digits of base sixteen at a place, at most `n` of them, and the place behind them. -/
def hexDigitsUpTo (n : Nat) (p : Point) : List Char × Point :=
  let digits := (p.rest.take n).takeWhile (isDigitOf 16)
  (digits, p.move digits.length)

/-- What was read of an escape that cannot be read, and why not. -/
structure EscapeFault where
  problem : Problem
  /-- Where the reading started that failed. -/
  start : Point
  stop : Point
  deriving Inhabited

/-- Whether a number is half of a pair of units, and so no character. -/
def isHalf (n : Nat) : Bool := 0xD800 ≤ n && n < 0xE000

/-- Up to six characters before a closing brace. -/
def beforeBrace6 (p : Point) : List Char :=
  (p.rest.take 6).takeWhile (· != '\x7d')

/-- The text of digits in braces behind `\u`. Half of a pair keeps its escape. -/
def bracedEscape (p : Point) : Except EscapeFault (List Char × Point) :=
  let start := p.move 1
  let (digits, q) := start.takeWhile (isDigitOf 16)
  let n := numberInBase 16 digits
  if digits.isEmpty || 0x100000000 ≤ n then .error ⟨.badEscape "1-6 hex characters", q, q⟩
  else if 0x110000 ≤ n then
    .error ⟨.badEscape "1-6 hex characters in the range 0 to 10FFFF.", q, q⟩
  else
    let (chars, q) :=
      if isHalf n then
        let kept := beforeBrace6 start
        ('\\' :: 'u' :: '\x7b' :: kept ++ ['\x7d'], start.move kept.length)
      else ([Char.ofNat n], q)
    if q.isAt '\x7d' then .ok (chars, q.move 1) else .error ⟨.badUnicodeEscape, start, q⟩

/-- The text of what stands behind `\u`: four digits, or any digits in braces. Half of a pair keeps
its escape. -/
def unicodeEscape (p : Point) : Except EscapeFault (List Char × Point) :=
  if p.isAt '\x7b' then bracedEscape p
  else
    let (digits, q) := hexDigitsUpTo 4 p
    if digits.length < 4 then .error ⟨.badEscape "4 hex characters", q, q⟩
    else
      let n := numberInBase 16 digits
      .ok (if isHalf n then '\\' :: 'u' :: digits else [Char.ofNat n], q)

/-- What an escape stands for. -/
inductive Escape where
  | text (chars : List Char)
  /-- A number of up to three digits in base eight. -/
  | octal (value : Nat)
  | bad (problem : Problem) (span : Span)
  deriving Repr, Inhabited

/-- A number below 256 in base eight, from its first digit on. -/
def octalEscape (first : Char) (rest : List Char) : Nat × Nat :=
  let value := numberInBase 8 [first]
  match rest with
  | c :: more =>
    if isDigitOf 8 c then
      let value := value * 8 + numberInBase 8 [c]
      match more with
      | d :: _ =>
        let next := value * 8 + numberInBase 8 [d]
        if isDigitOf 8 d && next < 256 then (next, 3) else (value, 2)
      | [] => (value, 2)
    else (value, 1)
  | [] => (value, 1)

def readEscape (start : Point) : Escape × Point :=
  let p := start.move 1
  match p.rest with
  | [] => (.bad .openEscape start.spot, p)
  | c :: rest =>
    let plain (d : Char) : Escape × Point := (.text [d], p.move 1)
    match c with
    | 'n' => plain '\n'
    | 't' => plain '\t'
    | 'r' => plain '\r'
    | 'b' => plain '\x08'
    | 'v' => plain '\x0b'
    | 'f' => plain '\x0c'
    | '\r' => (.text [], (p.move 1).skip '\n')
    | '\n' | '\u2028' | '\u2029' => (.text [], p.move 1)
    | 'x' =>
      let (digits, q) := hexDigitsUpTo 2 (p.move 1)
      if digits.length < 2 then (.bad (.badEscape "2 hex characters") (start.spanTo q), q)
      else (.text [Char.ofNat (numberInBase 16 digits)], q)
    | 'u' =>
      match unicodeEscape (p.move 1) with
      | .ok (chars, q) => (.text chars, q)
      | .error fault => (.bad fault.problem (start.spanTo fault.stop), fault.stop)
    | _ =>
      if isDigitOf 8 c then
        if c = '0' && !(rest.head?.any (isDigitOf 8)) then plain '\x00'
        else
          let (value, n) := octalEscape c rest
          (.octal value, p.move n)
      else plain c

end CallExpander.Code
