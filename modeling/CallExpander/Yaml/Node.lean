import CallExpander.Yaml.Scalar
import CallExpander.Yaml.Scan

/-!
Reading the start of a document and of the values in it. A value may have a name, by which later
values can refer to it, and a tag.
-/

namespace CallExpander.Yaml

structure Located where
  value : Value
  mark : Mark
  /-- Whether it was referred to by its name. -/
  isAlias : Bool := false
  deriving Repr, Inhabited

/-- What has been named in a document: the handles of tags, and values. -/
structure Names where
  handles : List (String × String) := []
  anchors : List (String × Located) := []
  deriving Inhabited

abbrev Reader := StateT Names Scan

def emptyAt (mark : Mark) : Located := ⟨.scalar {}, mark, false⟩

def failAtToken {α : Type} (problem : Problem) (placed : Placed)
    (during : Option (Activity × Mark)) : Reader α :=
  throw (.text problem placed.start during)

/-! ## Documents -/

/-- The handles that every document knows. -/
def defaultHandles : List (String × String) :=
  [("!", "!"), ("!!", "tag:yaml.org,2002:")]

/-- The directives before a document, each of which can stand only once. -/
def directives : Nat → Bool → Reader Unit
  | 0, _ => return ()
  | fuel + 1, hasVersion => do
    let placed ← peekToken
    match placed.token with
    | .version major minor =>
      if hasVersion then failAtToken .versionTwice placed none
      if major != 1 || !(minor == 1 || minor == 2) then failAtToken .unknownVersion placed none
      takeToken
      directives fuel true
    | .handle name address =>
      if (← get).handles.any (·.1 == name) then failAtToken .handleTwice placed none
      modify fun names => { names with handles := names.handles ++ [(name, address)] }
      takeToken
      directives fuel hasVersion
    | _ => return ()

/-- Whether a token can stand only between documents. -/
def Token.isOutside : Token → Bool
  | .version .. | .handle .. | .documentStart | .documentEnd | .streamEnd => true
  | _ => false

/-! ## Values -/

def anchor? : Reader (Option String) := do
  match (← peekToken).token with
  | .anchor name =>
    takeToken
    return some name
  | _ => return none

def tag? (start : Mark) : Reader (Option String) := do
  let placed ← peekToken
  match placed.token with
  | .tag handle suffix =>
    takeToken
    if handle == "" then return some suffix
    else
      match (← get).handles.lookup handle with
      | some address => return some (address ++ suffix)
      | none => failAtToken .unknownHandle placed (some (.node, start))
  | _ => return none

/-- What starts with the next token. A text is taken, the opening of a list or a record is not. -/
def content? (isBlock allowsDash : Bool) (tag : Option String) : Reader (Option Value) := do
  match (← peekToken).token with
  | .text text style =>
    takeToken
    return some (.scalar { text, style, tag := tag.filter (· != "!") })
  | .flowList => return some .sequence
  | .flowMap => return some .map
  | .blockList => return if isBlock then some .sequence else none
  | .blockMap => return if isBlock then some .map else none
  | .dash => return if allowsDash then some .sequence else none
  | _ => return none

/-- A value that is not referred to by a name. -/
def ownNode (isBlock allowsDash : Bool) (start : Mark) : Reader Located := do
  let early ← anchor?
  let tag ← tag? start
  let late ← (do if early.isNone then anchor? else return none)
  let anchor := early.or late
  let value ← (do
    match ← content? isBlock allowsDash tag with
    | some value => return value
    | none =>
      if anchor.isSome || tag.isSome then return .scalar { tag }
      else
        failAtToken .missingContent (← peekToken)
          (some (if isBlock then .blockNode else .flowNode, start)))
  let found : Located := ⟨value, start, false⟩
  if let some name := anchor then
    modify fun names => { names with anchors := (name, found) :: names.anchors }
  return found

def node (isBlock allowsDash : Bool) : Reader Located := do
  let placed ← peekToken
  match placed.token with
  | .alias name =>
    takeToken
    match (← get).anchors.lookup name with
    | some found => return { found with isAlias := true }
    | none => throw (.unknownAnchor placed.start)
  | _ => ownNode isBlock allowsDash placed.start

/-- The value that a document is; nothing if the text ends. -/
def root? (size : Nat) : Reader (Option Located) := do
  let first ← peekToken
  match first.token with
  | .streamEnd => return none
  | .version .. | .handle .. | .documentStart =>
    directives size false
    let placed ← peekToken
    if placed.token != .documentStart then failAtToken .missingDocument placed none
    modify fun names => { names with handles := names.handles ++ defaultHandles }
    takeToken
    let next ← peekToken
    if next.token.isOutside then return some (emptyAt next.start)
    else return some (← node true false)
  | _ =>
    modify fun names => { names with handles := defaultHandles }
    return some (← node true false)

def skipDocumentEnds : Nat → Reader Unit
  | 0 => return ()
  | fuel + 1 => do
    if (← peekToken).token == .documentEnd then
      takeToken
      skipDocumentEnds fuel

/-- Ends a document, behind which nothing can follow. -/
def endDocument (size : Nat) : Reader Unit := do
  let _ ← peekToken
  let isLast ← tryCatch (do
    skipDocumentEnds size
    return (← peekToken).token == .streamEnd) fun _ => return false
  if !isLast then throw .manyDocuments

end CallExpander.Yaml
