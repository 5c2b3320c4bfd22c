import CallExpander.Text.Blank
import CallExpander.Text.Width
import CallExpander.Tree.Basic

/-!
Places in a text that is being read: the characters that follow, and how many bytes lie before them.
-/

namespace CallExpander.Code

open CallExpander.Text

/-- A place in the text: the characters from there on, and how many bytes are before them. -/
structure Point where
  rest : List Char
  pos : Nat
  deriving Repr, Inhabited

namespace Point

def move (p : Point) (n : Nat) : Point :=
  ⟨p.rest.drop n, p.pos + byteLength (p.rest.take n)⟩

/-- The longest run of characters that pass the test, and the place behind it. -/
def takeWhile (p : Point) (test : Char → Bool) : List Char × Point :=
  let run := p.rest.takeWhile test
  (run, ⟨p.rest.drop run.length, p.pos + byteLength run⟩)

def atEnd (p : Point) : Point := p.move p.rest.length

def startsWith (p : Point) (text : String) : Bool :=
  text.toList.isPrefixOf p.rest

def isAt (p : Point) (c : Char) : Bool := p.rest.head? == some c

/-- The place behind a character, if it is there. -/
def skip (p : Point) (c : Char) : Point := if p.isAt c then p.move 1 else p

def textUpTo (p q : Point) : String :=
  String.ofList (p.rest.take (p.rest.length - q.rest.length))

def spanTo (p q : Point) : Span := ⟨p.pos, q.pos⟩

/-- The empty span at a place. -/
def spot (p : Point) : Span := ⟨p.pos, p.pos⟩

end Point

def isLineEnd (c : Char) : Bool :=
  c == '\n' || c == '\r' || c == '\u2028' || c == '\u2029'

def isInlineBlank (c : Char) : Bool :=
  c == '\uFEFF' || (isBlank c && !isLineEnd c)

end CallExpander.Code
