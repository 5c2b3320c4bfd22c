import CallExpander.Code.Comment
import CallExpander.Code.Token

/-!
What stands between two tokens: blanks, line ends and comments.
-/

namespace CallExpander.Code

/-- What stands between two tokens: whether a line ends there, and the comments for the token before
and the token behind. -/
structure Gap where
  lineBreak : Bool
  trailing : List Comment := []
  leading : List Comment := []
  faults : List Fault := []
  deriving Repr, Inhabited

namespace Gap

/-- Adds a comment, for the next token or for the token before. -/
def add (gap : Gap) (forNext : Bool) (comment : Comment) : Gap :=
  if forNext then { gap with leading := gap.leading ++ [comment] }
  else { gap with trailing := gap.trailing ++ [comment] }

def blame (gap : Gap) (problem : Problem) (span : Span) : Gap :=
  { gap with faults := gap.faults ++ [⟨problem, span⟩] }

end Gap

/-- The text of a block comment and the place behind it; none if it is not closed. -/
def blockComment (start : Point) : Nat → Point → Option (String × Point)
  | 0, _ => none
  | fuel + 1, p =>
    if p.startsWith "*/" then some (start.textUpTo p, p.move 2)
    else if p.rest.isEmpty then none
    else blockComment start fuel (p.move 1)

def skipBlanks (p : Point) : Point :=
  (p.takeWhile fun c => isInlineBlank c || isLineEnd c).2

/-- The signs that open a comment up to the end of the line, with their length. Two of them are known
from other times, and one of these only at the start of a line; marks that a merge left behind
also stand at the start of a line. -/
def lineCommentAt (lineBreak : Bool) (p : Point) : Option (Nat × Option Problem) :=
  if p.startsWith "//" then some (2, none)
  else if p.startsWith "<!--" then some (4, some .legacyComment)
  else if lineBreak && p.startsWith "-->" then some (3, some .legacyComment)
  else if lineBreak
      && (p.startsWith "<<<<<<< " || p.startsWith ">>>>>>> " || p.startsWith "=======") then
    some (7, some .conflictMarker)
  else none

def skipGap (before : Token) : Nat → Gap → Point → Gap × Point
  | 0, gap, p => (gap, p)
  | fuel + 1, gap, p =>
    match p.rest with
    | [] => (gap, p)
    | c :: _ =>
      if isLineEnd c then skipGap before fuel { gap with lineBreak := true } (p.move 1)
      else if isInlineBlank c then skipGap before fuel gap (p.move 1)
      else
        match lineCommentAt gap.lineBreak p with
        | some (n, problem) =>
          let (text, q) := (p.move n).takeWhile fun c => !isLineEnd c
          let gap := gap.add (gap.lineBreak || !before.takesLineComment) ⟨.line, String.ofList text⟩
          match problem with
          | none => skipGap before fuel gap q
          | some problem =>
            let stop := if n = 4 then skipBlanks q else p.move n
            skipGap before fuel (gap.blame problem (p.spanTo stop)) q
        | none =>
          if p.startsWith "/*" then
            match blockComment (p.move 2) p.rest.length (p.move 2) with
            | none => (gap.blame .openComment p.atEnd.spot, p.atEnd)
            | some (text, q) =>
              let forNext := (gap.lineBreak || !before.takesBlockComment)
                && !(skipBlanks q).isAt ';'
              let gap := { gap with lineBreak := gap.lineBreak || text.toList.any isLineEnd }
              skipGap before fuel (gap.add forNext ⟨.block, text⟩) q
          else (gap, p)

end CallExpander.Code
