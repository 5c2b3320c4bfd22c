import CallExpander.Code.Comment

/-!
Layout. A printed text is a sequence of pieces; writing them out decides where lines are indented
and where comments go.
-/

namespace CallExpander.Code

inductive Piece where
  | text (s : String)
  /-- Ends the line, unless it is empty. -/
  | line
  | indent
  | dedent
  /-- The comments before the token that starts at a position. -/
  | before (pos : Nat)
  /-- The comments behind the token that ends at a position. -/
  | behind (pos : Nat)
  /-- The comments behind an item of a list that have no other place; no blank stands before them. -/
  | leftover (pos : Nat)
  /-- The comments before a closing brace that has nothing else before it. -/
  | inside (pos : Nat)
  /-- Ends the line if there are comments before a position. -/
  | lineBefore (pos : Nat)
  /-- A text that opens a parenthesis if a line would end before one of the positions; else a plain
  text. -/
  | shield (positions : List Nat) (opening plain : String)
  /-- Closes the last parenthesis that a shield stands for, if it was opened. -/
  | unshield
  deriving Repr, DecidableEq, Inhabited

/-- The text written so far. -/
structure Page where
  /-- Written texts, the last one first. -/
  written : List String := []
  atLineStart : Bool := true
  depth : Nat := 0
  /-- Whether each shield that is not closed yet has opened a parenthesis, the last one first. -/
  shields : List Bool := []
  comments : Comments := {}
  deriving Inhabited

namespace Page

/-- Writes a text; the first one of a line is indented by four blanks for each level. -/
def put (page : Page) (s : String) : Page :=
  if s.isEmpty then page
  else if page.atLineStart then
    { page with
      written := s :: String.ofList (List.replicate (4 * page.depth) ' ') :: page.written
      atLineStart := false }
  else { page with written := s :: page.written }

def endLine (page : Page) : Page :=
  if page.atLineStart then page
  else { page with written := "\n" :: page.written, atLineStart := true }

def putLeading (page : Page) (c : Comment) : Page :=
  match c.kind with
  | .line => (page.put ("//" ++ c.text)).endLine
  | .block => page.put ("/*" ++ c.text ++ "*/ ")

def putTrailing (page : Page) (c : Comment) : Page :=
  match c.kind with
  | .line => (page.put (" //" ++ c.text)).endLine
  | .block => page.put (" /*" ++ c.text ++ "*/ ")

def add (page : Page) : Piece → Page
  | .text s => page.put s
  | .line => page.endLine
  | .indent => { page with depth := page.depth + 1 }
  | .dedent => { page with depth := page.depth - 1 }
  | .before pos =>
    let (found, comments) := page.comments.takeLeading pos
    found.foldl putLeading { page with comments }
  | .behind pos =>
    let (found, comments) := page.comments.takeTrailing pos
    found.foldl putTrailing { page with comments }
  | .leftover pos =>
    let (found, comments) := page.comments.takeTrailing pos
    found.foldl putLeading { page with comments }
  | .inside pos =>
    let (found, comments) := page.comments.takeLeading pos
    if found.isEmpty then page
    else found.foldl putLeading { page with comments }.endLine
  | .lineBefore pos => if page.comments.hasLeading pos then page.endLine else page
  | .shield positions opening plain =>
    let isOpened := positions.any page.comments.endsLineBefore
    { page with shields := isOpened :: page.shields }.put (if isOpened then opening else plain)
  | .unshield =>
    { page with shields := page.shields.drop 1 }.put (if page.shields.headD false then ")" else "")

def text (page : Page) : String :=
  String.join page.written.reverse

end Page

def render (comments : Comments) (pieces : List Piece) : String :=
  (pieces.foldl Page.add { comments }).text

end CallExpander.Code
