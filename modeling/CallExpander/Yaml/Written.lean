import CallExpander.Number.Reading
import CallExpander.Yaml.Token

/-!
How texts are written: plainly, in quotes, or in lines of their own that are indented.
-/

namespace CallExpander.Yaml

/-! ## Blanks inside a text -/

/-- Blanks and line ends between two words of a text. -/
structure Gap where
  hasBreak : Bool := false
  blanks : List Char := []
  /-- The first line end, and those behind it. -/
  first : List Char := []
  more : List Char := []
  deriving Inhabited

/-- What stands for a gap in a text: a single line end is a blank, and of several ones the first is
dropped. -/
def Gap.text (gap : Gap) : List Char :=
  if !gap.hasBreak then gap.blanks
  else if gap.first == ['\n'] then if gap.more.isEmpty then [' '] else gap.more
  else gap.first ++ gap.more

/-- Takes the blanks and line ends at hand. A tab that indents a line of a plain text by less than
`indent` is refused. -/
def takeGap (start : Mark) (indent : Nat) : Nat → Gap → Scan Gap
  | 0, gap => return gap
  | fuel + 1, gap => do
    match ← peek with
    | none => return gap
    | some c =>
      if isGap c then
        if gap.hasBreak && c == '\t' && (← here).column < indent then
          failIn .tabInPlain .plainText start
        skip 1
        takeGap start indent fuel
          (if gap.hasBreak then gap else { gap with blanks := gap.blanks ++ [c] })
      else if isBreak c then
        let text ← takeBreak
        takeGap start indent fuel
          (if gap.hasBreak then { gap with more := gap.more ++ text }
          else { hasBreak := true, first := text })
      else return gap

/-! ## Plain texts -/

/-- Whether a character has a meaning inside brackets and braces. -/
def isFlowMark (c : Char) : Bool := [',', '[', ']', '\x7b', '\x7d'].contains c

/-- Whether a colon is next that cannot stand inside brackets and braces. -/
def isStrayColon : List Char → Bool
  | ':' :: c :: _ => isFlowMark c || c == '?'
  | _ => false

/-- The characters of a plain text up to a blank or a mark. -/
def plainWord (inFlow : Bool) : List Char → List Char
  | [] => []
  | c :: rest =>
    let isOver := isGap c || isBreak c || (c == ':' && isGapNext rest)
      || (inFlow && (isFlowMark c || isStrayColon (c :: rest)))
    if isOver then [] else c :: plainWord inFlow rest

/-- A plain text, with what has been read of it reversed and the gap behind that. It goes on in
following lines that are indented enough. -/
def plainRest (start : Mark) (indent : Nat) : Nat → List Char → Gap → Scan (List Char × Gap)
  | 0, found, gap => return (found, gap)
  | fuel + 1, found, gap => do
    let s ← get
    let inFlow := 0 < s.depth
    if isDocumentMark s.mark s.rest || s.rest.head? == some '#' then return (found, gap)
    else
      let word := plainWord inFlow s.rest
      skip word.length
      if inFlow && isStrayColon (← left) then failIn .strayColon .plainText start
      let isOver := word.isEmpty || !((← isAtAny isGap) || (← isAtAny isBreak))
      let found := if word.isEmpty then found else word.reverse ++ gap.text.reverse ++ found
      if isOver then return (found, if word.isEmpty then gap else {})
      else
        let gap ← takeGap start indent s.rest.length {}
        if !inFlow && (← here).column < indent then return (found, gap)
        else plainRest start indent fuel found gap

/-- A plain text. Behind its last line a key can start. -/
def plainText : Scan String := do
  let s ← get
  let (found, gap) ← plainRest s.mark (s.indent + 1).toNat (s.rest.length + 1) [] {}
  if gap.hasBreak then modify fun s => { s with allowsKey := true }
  return String.ofList found.reverse

/-! ## Texts in quotes -/

def escapeOf? (c : Char) : Option Char :=
  match c with
  | '0' => some '\x00'
  | 'a' => some '\x07'
  | 'b' => some '\x08'
  | 't' | '\t' => some '\t'
  | 'n' => some '\n'
  | 'v' => some '\x0b'
  | 'f' => some '\x0c'
  | 'r' => some '\r'
  | 'e' => some '\x1b'
  | ' ' => some ' '
  | '"' => some '"'
  | '/' => some '/'
  | '\\' => some '\\'
  | 'N' => some '\u0085'
  | '_' => some '\u00a0'
  | 'L' => some '\u2028'
  | 'P' => some '\u2029'
  | _ => none

def escapeWidth? (c : Char) : Option Nat :=
  match c with
  | 'x' => some 2
  | 'u' => some 4
  | 'U' => some 8
  | _ => none

def numberedChar (start : Mark) (width : Nat) : Scan Char := do
  let digits := (← left).take width
  match Number.natOfDigits? 16 digits with
  | some code =>
    if digits.length < width then failIn .badDigits .escape start
    else if code.isValidChar then
      skip width
      return Char.ofNat code
    else failIn .badCode .escape start
  | none => failIn .badDigits .escape start

/-- A character written with a backslash, from the backslash on. -/
def escapedChar (start : Mark) (letter : Option Char) : Scan Char := do
  match letter.bind escapeOf?, letter.bind escapeWidth? with
  | some c, _ =>
    skip 2
    return c
  | none, some width =>
    skip 2
    numberedChar start width
  | none, none => failIn .unknownEscape .escape start

/-- A text in quotes, from behind the first of them, with what has been read of it reversed. -/
def quotedRest (start : Mark) (quote : Char) : Nat → List Char → Scan String
  | 0, _ => failIn .endOfText .quotedText start
  | fuel + 1, found => do
    let s ← get
    if isDocumentMark s.mark s.rest then failIn .documentMark .quotedText start
    else
      match s.rest with
      | [] => failIn .endOfText .quotedText start
      | c :: rest =>
        if c == quote then
          if quote == '\'' && rest.head? == some quote then
            skip 2
            quotedRest start quote fuel (quote :: found)
          else
            skip 1
            return String.ofList found.reverse
        else if isGap c || isBreak c then
          let gap ← takeGap start 0 s.rest.length {}
          quotedRest start quote fuel (gap.text.reverse ++ found)
        else if c == '\\' && quote == '"' && rest.head?.any isBreak then
          skip 1
          let _ ← takeBreak
          let gap ← takeGap start 0 s.rest.length { hasBreak := true }
          quotedRest start quote fuel (gap.text.reverse ++ found)
        else if c == '\\' && quote == '"' then
          let d ← escapedChar start rest.head?
          quotedRest start quote fuel (d :: found)
        else
          skip 1
          quotedRest start quote fuel (c :: found)

def quotedText (quote : Char) : Scan String := do
  let s ← get
  skip 1
  quotedRest s.mark quote (s.rest.length + 1) []

/-! ## Indented texts -/

/-- What becomes of the line ends behind an indented text. -/
inductive Chomping where
  | strip
  | clip
  | keep
  deriving Repr, DecidableEq, Inhabited

/-- What the sign behind the mark of an indented text says about its last line ends. -/
def chomping? : Scan (Option Chomping) := do
  match ← peek with
  | some '+' =>
    skip 1
    return some .keep
  | some '-' =>
    skip 1
    return some .strip
  | _ => return none

/-- The digit behind the mark of an indented text, by how much it is indented. -/
def indentDigit? (start : Mark) : Scan (Option Nat) := do
  match ← peek with
  | some c =>
    if c == '0' then failIn .zeroIndent .blockText start
    else if c.isDigit then
      skip 1
      return some (c.toNat - '0'.toNat)
    else return none
  | none => return none

/-- What stands behind the mark of an indented text, up to the end of the line. -/
def blockHeader (start : Mark) : Scan (Chomping × Option Nat) := do
  let early ← chomping?
  let digit ← indentDigit? start
  let late ← (do if early.isNone && digit.isSome then chomping? else return none)
  let _ ← takeWhile isGap
  skipComment
  if !(← atLineEnd) then failIn .missingLineEnd .blockText start
  let _ ← takeBreak
  return ((early.or late).getD .clip, digit)

/-- The blank lines of an indented text and the blanks that indent its next line. Where it is not
known by how much the text is indented, the widest of these lines says so. -/
def blockBreaks (start : Mark) (indent : Option Nat) :
    Nat → Nat → List Char → Scan (Nat × List Char)
  | 0, widest, breaks => return (indent.getD widest, breaks)
  | fuel + 1, widest, breaks => do
    let s ← get
    let blanks := (s.rest.takeWhile (· == ' ')).length
    skip (indent.elim blanks fun n => min blanks (n - s.mark.column))
    let column := (← here).column
    let widest := max widest column
    if indent.all (column < ·) && (← isAt '\t') then failIn .tabInBlock .blockText start
    if ← isAtAny isBreak then
      let text ← takeBreak
      blockBreaks start indent fuel widest (breaks ++ text)
    else return (indent.getD (max widest (max 1 (s.indent + 1).toNat)), breaks)

/-- What has been read of an indented text: its lines reversed, the end of the last one, the blank
lines behind it, and whether it starts with a blank. -/
structure BlockLines where
  found : List Char := []
  last : List Char := []
  breaks : List Char := []
  startsBlank : Bool := false
  deriving Inhabited

/-- The lines of an indented text. In a folded one, lines that do not start with a blank are joined.
-/
def blockLines (start : Mark) (isFolded : Bool) (indent : Nat) : Nat → BlockLines → Scan BlockLines
  | 0, lines => return lines
  | fuel + 1, lines => do
    let s ← get
    if s.mark.column != indent || s.rest.isEmpty then return lines
    else
      let startsBlank ← isAtAny isGap
      let joins := isFolded && lines.last == ['\n'] && !lines.startsBlank && !startsBlank
      let joint :=
        (if joins then if lines.breaks.isEmpty then [' '] else [] else lines.last) ++ lines.breaks
      let line ← takeWhile (!isBreak ·)
      let last ← takeBreak
      let (_, breaks) ← blockBreaks start (some indent) (s.rest.length + 1) 0 []
      blockLines start isFolded indent fuel
        { found := line.reverse ++ joint.reverse ++ lines.found, last, breaks, startsBlank }

def blockText (isFolded : Bool) : Scan String := do
  let s ← get
  skip 1
  let (chomping, digit) ← blockHeader s.mark
  let given := digit.map fun n => (max s.indent 0).toNat + n
  let fuel := s.rest.length + 1
  let (indent, breaks) ← blockBreaks s.mark given fuel 0 []
  let lines ← blockLines s.mark isFolded indent fuel { breaks }
  let ending := match chomping with
    | .strip => []
    | .clip => lines.last
    | .keep => lines.last ++ lines.breaks
  return String.ofList (lines.found.reverse ++ ending)

end CallExpander.Yaml
