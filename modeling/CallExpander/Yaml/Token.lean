import CallExpander.Yaml.Fault

/-!
The tokens of a text of settings, the state in which they are read, and the moves of the reader
over single characters.

Whether a text is a key is known only at the colon behind it. So places where a key can start are
remembered, and the marks of a key, and of the record it opens, are put before tokens that have been
read already.
-/

namespace CallExpander.Yaml

inductive Style where
  | plain
  | quoted
  | literal
  | folded
  deriving Repr, DecidableEq, Inhabited

inductive Token where
  | streamEnd
  | version (major minor : Nat)
  | handle (name address : String)
  | documentStart
  | documentEnd
  | blockList
  | blockMap
  | blockEnd
  | flowList
  | flowListEnd
  | flowMap
  | flowMapEnd
  | dash
  | comma
  | key
  | value
  | alias (name : String)
  | anchor (name : String)
  | tag (handle suffix : String)
  | text (content : String) (style : Style)
  deriving Repr, DecidableEq, Inhabited

structure Placed where
  token : Token
  start : Mark
  stop : Mark
  deriving Repr, Inhabited

/-- A place where a key can start, and the number of the token there. Where a key has to start, its
colon has to follow. -/
structure KeyStart where
  isRequired : Bool
  number : Nat
  mark : Mark
  deriving Repr, Inhabited

/-- The state in which tokens are read. -/
structure Scanner where
  rest : List Char
  mark : Mark := {}
  /-- How many brackets and braces are open. -/
  depth : Nat := 0
  /-- Whether a key can start at the next token. -/
  allowsKey : Bool := true
  /-- Where a key can have started, for each open bracket or brace and for the text around them. -/
  keys : List (Option KeyStart) := [none]
  /-- The column of the innermost block; -1 outside of all blocks. -/
  indent : Int := -1
  /-- The columns of the blocks around it. -/
  outer : List Int := []
  /-- Tokens that were read and not taken, and how many were taken. -/
  queue : List Placed := []
  taken : Nat := 0
  deriving Inhabited

abbrev Scan := EStateM Fault Scanner

/-! ## Characters -/

/-- Whether a character ends a line. -/
def isBreak (c : Char) : Bool :=
  c == '\n' || c == '\r' || c == '\u0085' || c == '\u2028' || c == '\u2029'

/-- Whether a character is a blank within a line. -/
def isGap (c : Char) : Bool := c == ' ' || c == '\t'

/-- Whether a character can be part of the name of an anchor. -/
def isNamePart (c : Char) : Bool := c.isAlphanum || c == '_' || c == '-'

/-- Whether the text is at its end, at a blank or at the end of a line. -/
def isGapNext : List Char → Bool
  | [] => true
  | c :: _ => isGap c || isBreak c

/-- Whether a mark that starts or ends a document is next. -/
def isDocumentMark (mark : Mark) (chars : List Char) : Bool :=
  mark.column == 0 && (chars.take 3 == ['-', '-', '-'] || chars.take 3 == ['.', '.', '.'])
    && isGapNext (chars.drop 3)

/-! ## Moves -/

def here : Scan Mark := return (← get).mark

def left : Scan (List Char) := return (← get).rest

def peek : Scan (Option Char) := return (← get).rest.head?

def isAt (c : Char) : Scan Bool := return (← peek) == some c

def isAtAny (p : Char → Bool) : Scan Bool := return (← peek).any p

def atLineEnd : Scan Bool := return (← peek).all isBreak

/-- Goes over characters of a line. -/
def skip (n : Nat) : Scan Unit :=
  modify fun s => { s with
    rest := s.rest.drop n
    mark := { s.mark with index := s.mark.index + n, column := s.mark.column + n } }

/-- Takes the characters that pass a test, which no line end passes. -/
def takeWhile (p : Char → Bool) : Scan (List Char) := do
  let chars := (← left).takeWhile p
  skip chars.length
  return chars

/-- Goes over a comment, if one is next. -/
def skipComment : Scan Unit := do
  if ← isAt '#' then
    let _ ← takeWhile (!isBreak ·)

/-- Takes a line end, and gives what it stands for in a text. -/
def takeBreak : Scan (List Char) := do
  let s ← get
  let move (n : Nat) : Scan Unit :=
    set { s with rest := s.rest.drop n, mark := ⟨s.mark.index + n, s.mark.line + 1, 0⟩ }
  match s.rest with
  | '\r' :: '\n' :: _ =>
    move 2
    return ['\n']
  | c :: _ =>
    move 1
    return [if c == '\u2028' || c == '\u2029' then c else '\n']
  | [] => return []

def fail {α : Type} (problem : Problem) : Scan α := do
  throw (.text problem (← here) none)

def failIn {α : Type} (problem : Problem) (activity : Activity) (start : Mark) : Scan α := do
  throw (.text problem (← here) (some (activity, start)))

end CallExpander.Yaml
