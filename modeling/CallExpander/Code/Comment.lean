/-!
Comments. A comment belongs to the token it stands before or behind, and is found again by the
position of that token.
-/

namespace CallExpander.Code

inductive CommentKind where
  | line
  | block
  deriving Repr, DecidableEq, Inhabited

structure Comment where
  kind : CommentKind
  text : String
  deriving Repr, DecidableEq, Inhabited

/-- Whether a line ends in a comment or with it. -/
def Comment.endsLine (c : Comment) : Bool :=
  c.kind == .line || c.text.toList.any fun c => c == '\n' || c == '\r'

/-- The comments of a file: before the token that starts at a position, and behind the token that
ends there. -/
structure Comments where
  leading : List (Nat × List Comment) := []
  trailing : List (Nat × List Comment) := []
  deriving Repr, Inhabited

namespace Comments

/-- Adds comments behind those that a position already has. -/
def addAt (pos : Nat) (comments : List Comment) (table : List (Nat × List Comment)) :
    List (Nat × List Comment) :=
  if comments.isEmpty then table else table ++ [(pos, comments)]

def lookAt (pos : Nat) (table : List (Nat × List Comment)) : List Comment :=
  (table.filter fun entry => entry.1 == pos).flatMap (·.2)

def dropAt (pos : Nat) (table : List (Nat × List Comment)) : List (Nat × List Comment) :=
  table.filter fun entry => entry.1 != pos

def addLeading (all : Comments) (pos : Nat) (comments : List Comment) : Comments :=
  { all with leading := addAt pos comments all.leading }

def addTrailing (all : Comments) (pos : Nat) (comments : List Comment) : Comments :=
  { all with trailing := addAt pos comments all.trailing }

def takeLeading (all : Comments) (pos : Nat) : List Comment × Comments :=
  (lookAt pos all.leading, { all with leading := dropAt pos all.leading })

def takeTrailing (all : Comments) (pos : Nat) : List Comment × Comments :=
  (lookAt pos all.trailing, { all with trailing := dropAt pos all.trailing })

def hasLeading (all : Comments) (pos : Nat) : Bool :=
  !(lookAt pos all.leading).isEmpty

def endsLineBefore (all : Comments) (pos : Nat) : Bool :=
  (lookAt pos all.leading).any Comment.endsLine

end Comments

end CallExpander.Code
