import CallExpander.Code.Entity
import CallExpander.Code.Gap
import CallExpander.Code.Numeral

/-!
Reading tokens. Most of them can be told from the text alone; regular expressions, the text of
templates and the text of markup only where the grammar asks for them.
-/

namespace CallExpander.Code

open CallExpander.Text

/-! ## Names -/

structure NameText where
  chars : List Char := []
  hasEscape : Bool := false
  faults : List Fault := []
  deriving Inhabited

def nameEscape (p : Point) : Except (Fault × Point) (List Char × Point) :=
  let q := p.move 1
  if !q.isAt 'u' then .error (⟨.noUnicodeEscape, p.spot⟩, q)
  else
    match unicodeEscape (q.move 1) with
    | .ok found => .ok found
    | .error fault => .error (⟨fault.problem, fault.start.spanTo fault.stop⟩, fault.stop)

/-- The rest of a name, escapes read. A character that an escape stands for has to be one that names
can hold; another one is noted. -/
def nameRest : Nat → NameText → Point → Except (Fault × Point) (NameText × Point)
  | 0, found, p => .ok (found, p)
  | fuel + 1, found, p =>
    match p.rest with
    | [] => .ok (found, p)
    | c :: _ =>
      if isNamePart c then
        nameRest fuel { found with chars := found.chars ++ [c] } (p.move 1)
      else if c = '\\' then
        match nameEscape p with
        | .error fault => .error fault
        | .ok (chars, q) =>
          let faults :=
            if chars.head?.any (!isNamePart ·) then [⟨.characterInName, p.spanTo q⟩] else []
          nameRest fuel ⟨found.chars ++ chars, true, found.faults ++ faults⟩ q
      else .ok (found, p)

/-- A word. One that is reserved cannot be written with escapes. -/
def readWord (reserved : String → Bool) (p : Point) : Reading :=
  match nameRest (p.rest.length + 1) {} p with
  | .error (fault, q) => (.invalid fault, q, [])
  | .ok (found, q) =>
    let word := String.ofList found.chars
    if found.hasEscape && reserved word then
      (.invalid ⟨.escapedWord word, p.spanTo q⟩, q, found.faults)
    else (.word word, q, found.faults)

/-! ## Strings and signs -/

/-- A string in quotes, from behind its opening quote. The value so far is reversed. -/
def stringRest (start : Point) (quote : Char) :
    Nat → List Char → List Fault → Point → Reading
  | 0, _, faults, p => (.eof, p, faults)
  | fuel + 1, value, faults, p =>
    let done (q : Point) (faults : List Fault) : Reading :=
      (.str (String.ofList value.reverse) (start.textUpTo q), q, faults)
    match p.rest with
    | [] => done p (faults ++ [⟨.openString, start.spanTo p⟩])
    | c :: _ =>
      if c = quote then done (p.move 1) faults
      else if c = '\n' || c = '\r' then done p (faults ++ [⟨.openString, start.spanTo p⟩])
      else if c = '\\' then
        match readEscape p with
        | (.text chars, q) => stringRest start quote fuel (chars.reverse ++ value) faults q
        | (.octal n, q) =>
          stringRest start quote fuel (Char.ofNat n :: value)
            (faults ++ [⟨.legacyOctal, p.spanTo (p.move 2)⟩]) q
        | (.bad problem span, q) => (.invalid ⟨problem, span⟩, q, faults)
      else stringRest start quote fuel (c :: value) faults (p.move 1)

/-- Whether a sign can be read at a place. In types an angle bracket stands alone. -/
def signFits (inType : Bool) (p : Point) (sign : String) : Bool :=
  p.startsWith sign &&
    !(inType && sign.length != 1 && (p.isAt '<' || p.isAt '>'))

/-- How tokens are read: whether types can be written, whether the place is inside a type, which words
are reserved, and whether a line ends before the token. -/
structure Reader where
  hasTypes : Bool
  inType : Bool
  reserved : String → Bool
  startsLine : Bool := false

/-- The mark that a merge leaves before the common text. Unlike the other marks it cannot be passed
over, so it is a token that cannot be read, and all of its line belongs to it. -/
def mergeBaseMark (p : Point) : Reading :=
  let fault : Fault := ⟨.conflictMarker, p.spanTo (p.move 7)⟩
  (.invalid fault, (p.takeWhile fun c => !isLineEnd c).2, [fault])

def readToken (reader : Reader) (p : Point) : Reading :=
  match p.rest with
  | [] => (.eof, p, [])
  | c :: rest =>
    if isNameStart c || c = '\\' then readWord reader.reserved p
    else if c.isDigit || (c == '.' && rest.head?.any Char.isDigit) then
      readNumber reader.hasTypes p
    else if c == '"' || c == '\'' then stringRest p c (rest.length + 1) [] [] (p.move 1)
    else if reader.startsLine && p.startsWith "||||||| " then mergeBaseMark p
    else
      match punctuators.find? (signFits reader.inType p) with
      | some sign => (.punct sign, p.move sign.length, [])
      | none => (.invalid ⟨.character c, p.spot⟩, p.move 1, [])

/-! ## Regular expressions -/

/-- The place behind the body of a regular expression, at its closing slash, or where a body that is
not closed ends. -/
def patternBody : Nat → Bool → Bool → Point → Bool × Point
  | 0, _, _, p => (false, p)
  | fuel + 1, isEscaped, inClass, p =>
    match p.rest with
    | [] => (false, p)
    | c :: _ =>
      if isLineEnd c then (false, p)
      else if isEscaped then patternBody fuel false inClass (p.move 1)
      else if c = '/' && !inClass then (true, p)
      else
        patternBody fuel (c == '\\')
          (if c = '[' then true else if c = ']' then false else inClass) (p.move 1)

def readPattern (p : Point) : Reading :=
  let start := p.move 1
  match patternBody (start.rest.length + 1) false false start with
  | (false, q) => (.invalid ⟨.openPattern, p.spanTo q⟩, q, [])
  | (true, q) =>
    let (flags, r) := (q.move 1).takeWhile isNamePart
    (.pattern (start.textUpTo q) (String.ofList flags), r, [])

/-! ## Templates -/

inductive TemplateEnd where
  | closed
  | hole
  deriving Repr, DecidableEq, Inhabited

/-- Template text with one kind of line end. -/
def unifyLines : List Char → List Char
  | [] => []
  | '\r' :: '\n' :: rest => '\n' :: unifyLines rest
  | '\r' :: rest => '\n' :: unifyLines rest
  | c :: rest => c :: unifyLines rest

structure TemplateText where
  quasi : Quasi
  /-- The last escape that means nothing; the text then stands for none. -/
  fault : Option Fault
  stop : TemplateEnd
  deriving Inhabited

/-- A stretch of template text up to a hole or the end; none if the template is not closed. The
value so far is reversed. -/
def templateRest (start : Point) :
    Nat → List Char → Option Fault → Point → Option (TemplateText × Point)
  | 0, _, _, _ => none
  | fuel + 1, value, fault, p =>
    let done (stop : TemplateEnd) : Option (TemplateText × Point) :=
      let raw := String.ofList (unifyLines (start.textUpTo p).toList)
      let cooked := if fault.isSome then none else some (String.ofList value.reverse)
      some (⟨⟨raw, cooked⟩, fault, stop⟩, p.move (if stop == .hole then 2 else 1))
    match p.rest with
    | [] => none
    | '`' :: _ => done .closed
    | '$' :: '\x7b' :: _ => done .hole
    | '\\' :: _ =>
      match readEscape p with
      | (.text chars, q) => templateRest start fuel (chars.reverse ++ value) fault q
      | (.octal _, q) =>
        templateRest start fuel value (some ⟨.legacyOctal, p.spanTo (p.move 2)⟩) q
      | (.bad problem span, q) => templateRest start fuel value (some ⟨problem, span⟩) q
    | '\r' :: '\n' :: _ => templateRest start fuel ('\n' :: value) fault (p.move 2)
    | '\r' :: _ => templateRest start fuel ('\n' :: value) fault (p.move 1)
    | c :: _ => templateRest start fuel (c :: value) fault (p.move 1)

def readTemplate (p : Point) : Option (TemplateText × Point) :=
  templateRest p (p.rest.length + 1) [] none p

/-! ## Markup -/

/-- The text of an attribute, from behind its opening quote. It has references and no escapes. -/
def attributeRest (start : Point) (quote : Char) : Nat → List Char → Point → Reading
  | 0, _, p => (.eof, p, [])
  | fuel + 1, value, p =>
    let done (q : Point) (faults : List Fault) : Reading :=
      (.str (String.ofList value.reverse) (start.textUpTo q), q, faults)
    match p.rest with
    | [] => done p [⟨.openString, start.spanTo p⟩]
    | c :: _ =>
      if c = quote then done (p.move 1) []
      else if c = '&' then
        let (d, q) := readEntity p
        attributeRest start quote fuel (d :: value) q
      else attributeRest start quote fuel (c :: value) (p.move 1)

def readTagToken (reader : Reader) (p : Point) : Reading :=
  match p.rest with
  | [] => (.eof, p, [])
  | c :: rest =>
    if isNameStart c then
      let (name, q) := p.takeWhile fun c => isNamePart c || c == '-'
      (.markupName (String.ofList name), q, [])
    else if c = '>' then (.tagEnd, p.move 1, [])
    else if c = '"' || c = '\'' then attributeRest p c (rest.length + 1) [] (p.move 1)
    else readToken reader p

/-- What is noted about a sign that should not stand in the text of markup. -/
def strayFault? (p : Point) : Option Fault :=
  if p.isAt '>' then some ⟨.strayInMarkup "\x7b'>'\x7d" "&gt;", p.spot⟩
  else if p.isAt '\x7d' then some ⟨.strayInMarkup "\x7b'\x7d'\x7d" "&rbrace;", p.spot⟩
  else none

/-- Text between tags. The value so far is reversed. -/
def markupTextRest (start : Point) : Nat → List Char → List Fault → Point → Reading
  | 0, _, faults, p => (.eof, p, faults)
  | fuel + 1, value, faults, p =>
    match p.rest with
    | [] => (.invalid ⟨.openMarkup, start.spanTo p⟩, p, faults)
    | '<' :: _ | '\x7b' :: _ =>
      (.markupText (String.ofList value.reverse) (start.textUpTo p), p, faults)
    | '&' :: _ =>
      let (c, q) := readEntity p
      markupTextRest start fuel (c :: value) faults q
    | '\r' :: '\n' :: _ => markupTextRest start fuel ('\n' :: value) faults (p.move 2)
    | c :: _ => markupTextRest start fuel (c :: value) (faults ++ (strayFault? p).toList) (p.move 1)

/-- The token at a place between tags: the start of a tag, an opening brace, or text. -/
def readContentToken (p : Point) : Reading :=
  match p.rest with
  | [] => (.eof, p, [])
  | '<' :: _ => (.tagStart, p.move 1, [])
  | '\x7b' :: _ => (.punct "\x7b", p.move 1, [])
  | _ => markupTextRest p (p.rest.length + 1) [] [] p

end CallExpander.Code
