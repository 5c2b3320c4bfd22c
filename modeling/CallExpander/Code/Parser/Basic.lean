import CallExpander.Code.Dialect
import CallExpander.Code.Lexer

/-!
The state of a parser and its basic moves. A token is read when a rule looks at it, and not before,
because what surrounds it decides how it is read. A fault either stops the parser or is noted, and a
text with any fault is refused.

Grammar rules that call each other are functions of the parser for each `Goal`, so that each rule is
an ordinary definition and the recursion between them is tied once, at the end.
-/

namespace CallExpander.Code

/-- How the next token is read: as part of the program, inside a tag, or between tags. -/
inductive Mode where
  | program
  | tag
  | content
  deriving Repr, DecidableEq, Inhabited

/-- What surrounds the text being read. -/
structure Context where
  isModule : Bool := false
  isStrict : Bool := false
  mode : Mode := .program
  /-- Whether faults are dropped, because the reading may be undone. -/
  isQuiet : Bool := false
  inType : Bool := false
  inDeclare : Bool := false
  inFunction : Bool := false
  /-- Whether a function around the text is no arrow function. -/
  inPlainFunction : Bool := false
  inAsync : Bool := false
  inGenerator : Bool := false
  inParameters : Bool := false
  inClass : Bool := false
  inField : Bool := false
  inStaticBlock : Bool := false
  /-- Whether the class around the text extends another. -/
  hasBase : Bool := false
  /-- Whether a member of `super` can be named. -/
  allowsSuper : Bool := false
  allowsBreak : Bool := false
  allowsContinue : Bool := false
  labels : List String := []
  /-- Whether `in` is an operator here. -/
  includesIn : Bool := true
  /-- Whether a conditional expression is open, and whether its colon is still to come. -/
  inConditional : Bool := false
  awaitsColon : Bool := false
  /-- Whether a conditional type may not start here. -/
  noConditionalType : Bool := false
  /-- Where the head of an arrow function can start. -/
  arrowStart : Option Nat := none
  /-- Whether the head of a loop is being read, and whether the loop awaits its values. -/
  inLoopHead : Bool := false
  inAwaitLoopHead : Bool := false
  deriving Repr, Inhabited

def Context.reserves (ctx : Context) (word : String) : Bool :=
  if word == "let" then ctx.isStrict
  else if word == "await" then ctx.inAsync || ctx.inStaticBlock || ctx.isStrict
  else if word == "yield" then ctx.inGenerator || ctx.isStrict
  else if isKeyword word || word == "enum" then true
  else
    ctx.isStrict &&
      ["implements", "package", "protected", "interface", "private", "public"].contains word

structure Lexeme where
  here : Point
  /-- The place behind the token. -/
  next : Point
  token : Token
  /-- Whether a line ends before the token. -/
  lineBreak : Bool
  deriving Inhabited

def Lexeme.span (lexeme : Lexeme) : Span := lexeme.here.spanTo lexeme.next

structure PState where
  /-- The place behind the last token that was read, and that token. -/
  rest : Point
  before : Token := .punct ";"
  isFirst : Bool := true
  /-- The current token, if it was looked at, and the token behind it. -/
  cur : Option Lexeme := none
  ahead : Option Lexeme := none
  /-- Where the token before the current one stands. -/
  last : Span
  /-- Faults noted so far, in order. -/
  faults : List Fault := []
  comments : Comments := {}
  context : Context := {}
  /-- Last commas of arrays and objects, by where these start. -/
  commas : List (Nat × Span) := []
  /-- What keeps all later tokens from being read. -/
  stuck : Option Fault := none
  dialect : Dialect
  deriving Inhabited

/-- Parsers. -/
abbrev P := EStateM Fault PState

/-- What a rule can ask another rule for. -/
inductive Goal where
  | expression
  | assignment
  | binary
  | unary
  | tight
  | pattern
  | type
  | statement
  | declaration
  | item
  | markup
  deriving Repr, DecidableEq, Inhabited

/-- The rules that a rule can call. -/
abbrev Rules := Goal → P Node

namespace PState

def counts (s : PState) (fault : Fault) : Bool :=
  !s.context.isQuiet &&
    (!fault.problem.isStrictOnly || s.context.isStrict || s.context.isModule)

def blame (s : PState) (faults : List Fault) : PState :=
  { s with faults := s.faults ++ faults.filter s.counts }

def reader (s : PState) : Reader :=
  { hasTypes := s.dialect.hasTypes, inType := s.context.inType, reserved := s.context.reserves }

/-- Reads the token behind what has been read. -/
def read (s : PState) : Lexeme × PState :=
  let mode := if s.context.inType then .program else s.context.mode
  match s.stuck, mode with
  | some fault, _ => (⟨s.rest, s.rest, .invalid fault, false⟩, s)
  | none, .content =>
    let (token, r, faults) := readContentToken s.rest
    (⟨s.rest, r, token, token == .eof⟩,
      { s with rest := r, before := token, isFirst := false }.blame faults)
  | none, mode =>
    let p := s.rest
    let (gap, q) := skipGap s.before (p.rest.length + 1) { lineBreak := s.isFirst } p
    let reader := { s.reader with startsLine := gap.lineBreak }
    let (token, r, faults) :=
      if mode == .tag then readTagToken reader q else readToken reader q
    let comments := s.comments.addTrailing p.pos gap.trailing
    let comments :=
      if token == .eof && 0 < p.pos then comments.addTrailing p.pos gap.leading
      else comments.addLeading q.pos gap.leading
    (⟨q, r, token, gap.lineBreak || token == .eof⟩,
      { s with rest := r, before := token, isFirst := false, comments }.blame (gap.faults ++ faults))

/-- Reads the current token, if that has not been done. -/
def load (s : PState) : Lexeme × PState :=
  match s.cur with
  | some lexeme => (lexeme, s)
  | none =>
    let (lexeme, s) := s.read
    (lexeme, { s with cur := some lexeme })

/-- Reads the token behind the current one, if that has not been done. -/
def loadAhead (s : PState) : Lexeme × PState :=
  let (lexeme, s) := s.load
  match s.ahead, lexeme.token with
  | some lexeme, _ => (lexeme, s)
  | none, .eof => (lexeme, s)
  | none, _ =>
    let (lexeme, s) := s.read
    (lexeme, { s with ahead := some lexeme })

/-- Where the current token stands, if it was looked at; else, and at the end of the text, where the
token before stands. -/
def span (s : PState) : Span :=
  match s.cur with
  | some lexeme => if lexeme.token == .eof then s.last else lexeme.span
  | none => s.last

end PState

def startState (dialect : Dialect) (context : Context) (p : Point) : PState :=
  { rest := p, last := p.spot, context, dialect }

/-! ## Tokens -/

def lexeme : P Lexeme := modifyGet PState.load

def current : P Token := return (← lexeme).token

/-- The token behind the current one, and whether a line ends between them. -/
def peekToken : P (Token × Bool) := do
  let lexeme ← modifyGet PState.loadAhead
  return (lexeme.token, lexeme.lineBreak)

def advance : P Unit := do
  let lexeme ← lexeme
  match lexeme.token with
  | .eof => return ()
  | _ => modify fun s => { s with cur := s.ahead, ahead := none, last := lexeme.span }

/-- Where the current token starts; at the end of the text, where the last token ends. -/
def position : P Nat := do
  let lexeme ← lexeme
  if lexeme.token == .eof then return (← get).last.hi else return lexeme.here.pos

def spanHere : P Span := return (← get).span

/-- Where the token before the current one stands. -/
def lastSpan : P Span := return (← get).last

/-- From a position up to the token before the current one. -/
def spanFrom (lo : Nat) : P Span := return ⟨lo, (← get).last.hi⟩

def atEnd : P Bool := return (← current) == .eof

def isSign (text : String) : P Bool := return (← current) == .punct text

def isOneOf (texts : List String) : P Bool := do
  match ← current with
  | .punct text => return texts.contains text
  | _ => return false

def isWord (text : String) : P Bool := return (← current) == .word text

def isOneOfWords (texts : List String) : P Bool := do
  match ← current with
  | .word text => return texts.contains text
  | _ => return false

def wordHere : P Bool := return (← current).isWord

def peekSign (text : String) : P Bool := return (← peekToken).1 == .punct text

def peekWord (text : String) : P Bool := return (← peekToken).1 == .word text

/-- Whether the token behind the current one is a word on the same line. -/
def peekInLine (text : String) : P Bool := return (← peekToken) == (.word text, false)

def afterLineBreak : P Bool := return (← lexeme).lineBreak

def hasTypes : P Bool := return (← get).dialect.hasTypes

def hasMarkup : P Bool := return (← get).dialect.hasMarkup

def context : P Context := return (← get).context

/-! ## Faults -/

/-- Notes a token that cannot be read, and moves on. -/
def noteInvalid : P Unit := do
  match ← current with
  | .invalid fault =>
    modify fun s => s.blame [fault]
    advance
  | _ => return ()

def failAt {α : Type} (span : Span) (problem : Problem) : P α := do
  noteInvalid
  throw ⟨problem, span⟩

def failHere {α : Type} (problem : Problem) : P α := do
  let _ ← lexeme
  failAt (← spanHere) problem

def failAtEnd {α : Type} : P α := do
  let pos := (← get).last.hi
  throw ⟨.unexpectedEnd, ⟨pos, pos⟩⟩

/-- Notes a fault and goes on. A token that cannot be read is noted before it. -/
def note (span : Span) (problem : Problem) : P Unit := do
  if (← context).isQuiet then return ()
  else
    noteInvalid
    modify fun s => s.blame [⟨problem, span⟩]

/-- Notes what is a fault in strict code. -/
def noteStrict (span : Span) (problem : Problem) : P Unit :=
  modify fun s => s.blame [⟨problem, span⟩]

def noteHere (problem : Problem) : P Unit := do
  let _ ← lexeme
  note (← spanHere) problem

def failUnexpected {α : Type} (wanted : String) : P α := do
  failHere (.unexpected (← current).dump wanted)

/-- The current token; a text that ends here, or a token that cannot be read, stops the parser. -/
def required : P Token := do
  match ← current with
  | .invalid fault =>
    advance
    throw fault
  | .eof => failAtEnd
  | token => return token

/-! ## Taking tokens -/

/-- Takes a token if it is next. -/
def eatToken (token : Token) : P Bool := do
  if (← current) == token then
    advance
    return true
  else return false

def eat (text : String) : P Bool := eatToken (.punct text)

def eatWord (text : String) : P Bool := eatToken (.word text)

/-- Takes a token, or stops. -/
def expectToken (token : Token) : P Unit := do
  if ← eatToken token then return ()
  else failHere (.expected token.dump (← current).dump)

def expect (text : String) : P Unit := expectToken (.punct text)

def expectWord (text : String) : P Unit := expectToken (.word text)

def isStatementEnd : P Bool := do
  match ← current with
  | .punct ";" | .punct "\x7d" | .eof => return true
  | _ => afterLineBreak

/-- Ends a statement: at a semicolon, which is taken, before a closing brace, or at a line end. -/
def eatSemicolon : P Bool := do
  if ← eat ";" then return true else isStatementEnd

def expectSemicolon : P Unit := do
  if ← eatSemicolon then return ()
  else failHere (.expected ";" (← current).dump)

/-- Reads an angle bracket at hand again, because it was read as part of a type and is none. -/
def rereadBracket : P Unit := do
  let s ← get
  match s.cur with
  | some lexeme =>
    if !s.context.inType && (lexeme.token == .punct "<" || lexeme.token == .punct ">") then
      let (token, r, _) := readToken s.reader lexeme.here
      set { s with
        cur := some { lexeme with token, next := r }, ahead := none, rest := r, before := token }
    else return ()
  | none => return ()

/-! ## Combining parsers -/

/-- Runs a parser in other surroundings. -/
def within {α : Type} (f : Context → Context) (p : P α) : P α := fun s =>
  match p { s with context := f s.context } with
  | .ok a t => .ok a { t with context := s.context }
  | .error e t => .error e { t with context := s.context }

def typed {α : Type} (p : P α) : P α := within (fun c => { c with inType := true }) p

/-- Runs a parser, and undoes it if it stops or gives nothing. The faults it notes are dropped. -/
def attempt {α : Type} (p : P (Option α)) : P (Option α) := fun s =>
  match within (fun c => { c with isQuiet := true }) p s with
  | .ok (some a) t => .ok (some a) t
  | .ok none _ => .ok none s
  | .error _ _ => .ok none s

/-- What a parser would give; nothing if it would stop. -/
def lookahead {α : Type} (p : P α) : P (Option α) := fun s =>
  match within (fun c => { c with isQuiet := true }) p s with
  | .ok a _ => .ok (some a) s
  | .error _ _ => .ok none s

def foresees (p : P Bool) : P Bool := return (← lookahead p).getD false

/-- Collects what a parser gives until it gives nothing, at most `fuel` times. -/
def gatherUpTo {α : Type} (p : P (Option α)) : Nat → P (List α)
  | 0 => return []
  | fuel + 1 => do
    match ← p with
    | none => return []
    | some a => return a :: (← gatherUpTo p fuel)

/-- How many more tokens there can be. -/
def budget : P Nat := return (← get).rest.rest.length + 4

/-- Collects what a parser gives until it gives nothing. -/
def gather {α : Type} (p : P (Option α)) : P (List α) := do
  gatherUpTo p (← budget)

/-- Applies a parser to what it gave, until it gives nothing, at most `fuel` times. -/
def growUpTo {α : Type} (p : α → P (Option α)) : Nat → α → P α
  | 0, a => return a
  | fuel + 1, a => do
    match ← p a with
    | none => return a
    | some b => growUpTo p fuel b

/-- Applies a parser to what it gave, until it gives nothing. -/
def grow {α : Type} (p : α → P (Option α)) (a : α) : P α := do
  growUpTo p (← budget) a

/-- Items with commas between them, up to a closing sign; a comma may stand last. -/
def commaItems {α : Type} (close : String) (item : P α) : P (List α) :=
  gather do
    if (← atEnd) || (← isSign close) then return none
    else
      let a ← item
      if !(← isSign close) then expect ","
      return some a

/-! ## Nodes -/

/-- A node from a position up to the token before the current one. -/
def node (lo : Nat) (form : Form) (parts : List Node := []) : P Node := do
  return .mk form (.file ⟨lo, (← get).last.hi⟩) parts

/-- A list of nodes as one part. -/
def group (parts : List Node) : Node := Node.build .group parts

/-- What stands where an expression is wrong. -/
def invalidNode (span : Span) : Node := .mk .absent (.file span) []

def orMissing (condition : Bool) (p : P Node) : P Node :=
  if condition then p else return Node.missing

/-- A missing part unless a sign is taken, and else the result of a parser. -/
def behind (sign : String) (p : P Node) : P Node := do
  if ← eat sign then p else return Node.missing

end CallExpander.Code
