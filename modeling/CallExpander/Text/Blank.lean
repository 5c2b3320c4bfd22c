/-!
White space and lines. Blank characters are those with the white-space property; a line ends at a
line feed, and a carriage return right before it belongs to the line end.
-/

namespace CallExpander.Text

/-- A character with the white-space property. -/
def isBlank (c : Char) : Bool :=
  let n := c.toNat
  (9 ≤ n && n ≤ 13) || n == 32 || n == 0x85 || n == 0xa0 || n == 0x1680
    || (0x2000 ≤ n && n ≤ 0x200a) || n == 0x2028 || n == 0x2029 || n == 0x202f
    || n == 0x205f || n == 0x3000

def trimStart (cs : List Char) : List Char :=
  cs.dropWhile isBlank

def dropEndWhile (p : Char → Bool) (cs : List Char) : List Char :=
  (cs.reverse.dropWhile p).reverse

def trimEnd (cs : List Char) : List Char :=
  dropEndWhile isBlank cs

def trim (cs : List Char) : List Char :=
  trimEnd (trimStart cs)

/-- Splits at every line feed; there is always a first piece. -/
def pieces : List Char → List (List Char)
  | [] => [[]]
  | c :: rest =>
    if c = '\n' then [] :: pieces rest
    else match pieces rest with
      | [] => [[c]]
      | line :: more => (c :: line) :: more

def dropReturn (line : List Char) : List Char :=
  match line.getLast? with
  | some '\r' => line.dropLast
  | _ => line

/-- Drops the carriage return of every line that a line feed ended, and the last line if it is
empty: it then only says that the text ends with a line feed. -/
def closeLines : List (List Char) → List (List Char)
  | [] => []
  | [last] => if last.isEmpty then [] else [last]
  | line :: more => dropReturn line :: closeLines more

def lines (text : String) : List String :=
  (closeLines (pieces text.toList)).map String.ofList

def isBlankText (text : String) : Bool :=
  text.toList.all isBlank

/-- Number of bytes that encode a list of characters. -/
def byteLength (cs : List Char) : Nat :=
  cs.foldr (fun c n => c.utf8Size + n) 0

end CallExpander.Text
