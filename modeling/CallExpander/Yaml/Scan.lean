import CallExpander.Yaml.Property
import CallExpander.Yaml.Written

/-!
Reading the next token. Blocks are opened and closed by the columns in which their parts start, and
a key by the colon behind it.
-/

namespace CallExpander.Yaml

/-! ## Blocks and keys -/

def enqueue (token : Token) (start : Mark) : Scan Unit := do
  let stop ← here
  modify fun s => { s with queue := s.queue ++ [⟨token, start, stop⟩] }

/-- The state with a token put before the token of the given number, or behind all others. -/
def Scanner.insert (s : Scanner) (number : Option Nat) (placed : Placed) : Scanner :=
  let place := number.elim s.queue.length (· - s.taken)
  { s with queue := s.queue.take place ++ placed :: s.queue.drop place }

/-- Opens a block in a column that is further right than the block around it. Its token goes before
the token of the given number, or behind all others. -/
def openBlock (column : Nat) (number : Option Nat) (token : Token) (mark : Mark) : Scan Unit :=
  modify fun s =>
    if s.depth == 0 && s.indent < (column : Int) then
      { s.insert number ⟨token, mark, mark⟩ with indent := column, outer := s.indent :: s.outer }
    else s

/-- The state with the blocks closed that start further right than a column. -/
def Scanner.closeBlocks (s : Scanner) (column : Int) : List Int → Scanner
  | [] => s
  | outer :: rest =>
    if s.indent ≤ column then s
    else
      closeBlocks
        { s with indent := outer, outer := rest, queue := s.queue ++ [⟨.blockEnd, s.mark, s.mark⟩] }
        column rest

/-- Closes the blocks that start further right than a column. -/
def closeBlocks (column : Int) : Scan Unit :=
  modify fun s => if s.depth == 0 then s.closeBlocks column s.outer else s

/-- Refuses a key that has to be there and has no colon. -/
def missKey (key : KeyStart) : Scan Unit := do
  if key.isRequired then failIn .missingColon .key key.mark

/-- The length that a key cannot exceed. -/
def keyLimit : Nat := 1024

/-- Forgets the places where a key started on another line, or too far back. -/
def forgetOldKeys : Scan Unit := do
  let s ← get
  let isOld (key : KeyStart) : Bool :=
    key.mark.line < s.mark.line || key.mark.index + keyLimit < s.mark.index
  for key in (s.keys.filterMap id).reverse do
    if isOld key then missKey key
  set { s with keys := s.keys.map (Option.filter (!isOld ·)) }

/-- Forgets where a key can have started last. -/
def forgetKey : Scan Unit := do
  match (← get).keys with
  | some key :: rest =>
    missKey key
    modify fun s => { s with keys := none :: rest }
  | _ => return ()

/-- Remembers that a key can start here. -/
def rememberKey : Scan Unit := do
  let s ← get
  if s.allowsKey then
    forgetKey
    let key : KeyStart :=
      { isRequired := s.depth == 0 && s.indent == s.mark.column
        number := s.taken + s.queue.length, mark := s.mark }
    set { s with keys := some key :: s.keys.tail }

/-- Says whether a key can start at the next token. -/
def allowKey (allows : Bool) : Scan Unit :=
  modify fun s => { s with allowsKey := allows }

/-! ## Tokens -/

/-- A token of so many characters. -/
def mark (token : Token) (length : Nat) : Scan Unit := do
  let start ← here
  skip length
  enqueue token start

/-- The end of the text, which is the start of a line. -/
def fetchEnd : Scan Unit := do
  let s ← get
  if s.mark.column != 0 then
    set { s with mark := { s.mark with line := s.mark.line + 1, column := 0 } }
  closeBlocks (-1)
  forgetKey
  allowKey false
  mark .streamEnd 0

def fetchDirective : Scan Unit := do
  closeBlocks (-1)
  forgetKey
  allowKey false
  let start ← here
  enqueue (← directiveToken) start

def fetchDocumentMark (token : Token) : Scan Unit := do
  closeBlocks (-1)
  forgetKey
  allowKey false
  mark token 3

def fetchOpening (token : Token) : Scan Unit := do
  rememberKey
  modify fun s => { s with depth := s.depth + 1, keys := none :: s.keys }
  allowKey true
  mark token 1

def fetchClosing (token : Token) : Scan Unit := do
  forgetKey
  modify fun s => if s.depth == 0 then s else { s with depth := s.depth - 1, keys := s.keys.tail }
  allowKey false
  mark token 1

def fetchComma : Scan Unit := do
  forgetKey
  allowKey true
  mark .comma 1

/-- Opens a block here, where that is allowed. -/
def openHere (token : Token) (problem : Problem) : Scan Unit := do
  let s ← get
  if s.depth == 0 then
    if !s.allowsKey then fail problem
    openBlock s.mark.column none token s.mark

def fetchDash : Scan Unit := do
  openHere .blockList .dashHere
  forgetKey
  allowKey true
  mark .dash 1

def fetchKey : Scan Unit := do
  openHere .blockMap .keyHere
  forgetKey
  allowKey ((← get).depth == 0)
  mark .key 1

/-- The colon before a value. What started where a key could start was a key. -/
def fetchValue : Scan Unit := do
  let s ← get
  match s.keys with
  | some key :: rest =>
    set { s.insert (some key.number) ⟨.key, key.mark, key.mark⟩ with keys := none :: rest }
    openBlock key.mark.column (some key.number) .blockMap key.mark
    allowKey false
  | _ =>
    openHere .blockMap .valueHere
    allowKey (s.depth == 0)
  mark .value 1

/-- A token that a key can start with. -/
def fetchContent (read : Scan Token) : Scan Unit := do
  rememberKey
  allowKey false
  let start ← here
  enqueue (← read) start

def fetchBlockText (style : Style) : Scan Unit := do
  forgetKey
  allowKey true
  let start ← here
  enqueue (.text (← blockText (style == .folded)) style) start

def startsPlain (inFlow : Bool) : List Char → Bool
  | [] => false
  | c :: rest =>
    let isMark := ['-', '?', ':', ',', '[', ']', '\x7b', '\x7d', '#', '&', '*', '!', '|', '>', '\'',
      '"', '%', '@', '`'].contains c
    !(isGap c || isBreak c || isMark)
      || (c == '-' && !rest.head?.any isGap)
      || (!inFlow && (c == '?' || c == ':') && !isGapNext rest)

/-- Goes over blanks, line ends and comments. A tab is a blank only where no key can start. -/
def skipGaps : Nat → Scan Unit
  | 0 => return ()
  | fuel + 1 => do
    if (← here).column == 0 && (← isAt '\uFEFF') then skip 1
    let s ← get
    let _ ← takeWhile fun c => c == ' ' || (c == '\t' && (0 < s.depth || !s.allowsKey))
    skipComment
    if ← isAtAny isBreak then
      let _ ← takeBreak
      if s.depth == 0 then allowKey true
      skipGaps fuel

def fetchAt (inFlow : Bool) (c : Char) (rest : List Char) : Scan Unit := do
  match c with
  | '[' => fetchOpening .flowList
  | '\x7b' => fetchOpening .flowMap
  | ']' => fetchClosing .flowListEnd
  | '\x7d' => fetchClosing .flowMapEnd
  | ',' => fetchComma
  | '*' => fetchContent do return .alias (← anchorName .alias)
  | '&' => fetchContent do return .anchor (← anchorName .anchor)
  | '!' => fetchContent tagToken
  | '\'' | '"' => fetchContent do return .text (← quotedText c) .quoted
  | _ =>
    if c == '-' && isGapNext rest then fetchDash
    else if c == '?' && (inFlow || isGapNext rest) then fetchKey
    else if c == ':' && (inFlow || isGapNext rest) then fetchValue
    else if c == '|' && !inFlow then fetchBlockText .literal
    else if c == '>' && !inFlow then fetchBlockText .folded
    else if startsPlain inFlow (c :: rest) then fetchContent do return .text (← plainText) .plain
    else failIn .strayCharacter .token (← here)

def fetchToken : Scan Unit := do
  skipGaps ((← left).length + 1)
  forgetOldKeys
  closeBlocks (← here).column
  let s ← get
  match s.rest with
  | [] => fetchEnd
  | c :: rest =>
    if s.mark.column == 0 && c == '%' then fetchDirective
    else if isDocumentMark s.mark s.rest then
      fetchDocumentMark (if c == '-' then .documentStart else .documentEnd)
    else fetchAt (0 < s.depth) c rest

/-- Whether the first token that was not taken is known: a key may still have to be put before it. -/
def Scanner.isReady (s : Scanner) : Bool :=
  !s.queue.isEmpty && !s.keys.any fun key => key.any (·.number == s.taken)

/-- Reads tokens until the first one that was not taken is known. -/
def fetchMore : Nat → Scan Unit
  | 0 => return ()
  | fuel + 1 => do
    if !(← get).queue.isEmpty then forgetOldKeys
    if !(← get).isReady then
      fetchToken
      fetchMore fuel

def peekToken : Scan Placed := do
  fetchMore ((← left).length + 2)
  let s ← get
  return s.queue.headD ⟨.streamEnd, s.mark, s.mark⟩

def takeToken : Scan Unit :=
  modify fun s => { s with queue := s.queue.tail, taken := s.taken + 1 }

end CallExpander.Yaml
