import CallExpander.Text.Width

/-!
Places in a text. An offset counts bytes; a location is the line and the display column that a
reader sees. Lines end at a line feed, a carriage return, or both together.
-/

namespace CallExpander.Text

/-- A line and a column, both counted from one. -/
structure Location where
  line : Nat
  column : Nat
  deriving Repr, DecidableEq, Inhabited

def Location.render (at_ : Location) : String :=
  toString at_.line ++ ":" ++ toString at_.column

/-- Moves a location over the characters that stand before the offset. -/
def Location.advance : List Char → Nat → Location → Location
  | [], _, here => here
  | _ :: _, 0, here => here
  | '\r' :: '\n' :: rest, offset, here =>
    if offset = 1 then here
    else Location.advance rest (offset - 2) ⟨here.line + 1, 1⟩
  | c :: rest, offset, here =>
    let next : Location :=
      if c = '\n' || c = '\r' then ⟨here.line + 1, 1⟩
      else ⟨here.line, here.column + columns c⟩
    Location.advance rest (offset - c.utf8Size) next

def locate (text : List Char) (offset : Nat) : Location :=
  Location.advance text offset ⟨1, 1⟩

end CallExpander.Text
