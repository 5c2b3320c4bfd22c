import CallExpander.Yaml.Node

/-!
Reading a record from a text of settings. Keys and values are judged in the order in which they
stand, so the first fault of the text is the one that is reported.
-/

namespace CallExpander.Yaml

/-! ## Entries -/

/-- Whether an entry of a block has no more to it. -/
def Token.endsBlockEntry : Token → Bool
  | .key | .value | .blockEnd => true
  | _ => false

def Token.endsFlowEntry : Token → Bool
  | .comma | .flowMapEnd => true
  | _ => false

/-- A key and whether it can have a value. -/
structure Key where
  name : Located
  hasValue : Bool := true

/-- The next key of a block; none at its end. -/
def blockKey? (start : Mark) : Reader (Option Key) := do
  let placed ← peekToken
  match placed.token with
  | .key =>
    takeToken
    if (← peekToken).token.endsBlockEntry then return some { name := emptyAt placed.stop }
    else return some { name := ← node true true }
  | .blockEnd =>
    takeToken
    return none
  | _ => failAtToken .missingKey placed (some (.blockMap, start))

def blockValue : Reader Located := do
  let placed ← peekToken
  match placed.token with
  | .value =>
    takeToken
    if (← peekToken).token.endsBlockEntry then return emptyAt placed.stop else node true true
  | _ => return emptyAt placed.start

/-- The next key in braces; none at the closing one. Behind a key without a mark there is no value.
-/
def flowKey? (start : Mark) (isFirst : Bool) : Reader (Option Key) := do
  let placed ← peekToken
  if placed.token != .flowMapEnd && !isFirst then
    if placed.token == .comma then takeToken
    else failAtToken .missingBrace placed (some (.flowMap, start))
  match (← peekToken).token with
  | .flowMapEnd =>
    takeToken
    return none
  | .key =>
    takeToken
    let next ← peekToken
    if next.token == .value || next.token.endsFlowEntry then
      return some { name := emptyAt next.start }
    else return some { name := ← node false false }
  | _ => return some { name := ← node false false, hasValue := false }

def flowValue (hasValue : Bool) : Reader Located := do
  let placed ← peekToken
  if hasValue && placed.token == .value then
    takeToken
    let next ← peekToken
    if next.token.endsFlowEntry then return emptyAt next.start else node false false
  else return emptyAt placed.start

def key? (isFlow : Bool) (start : Mark) (isFirst : Bool) : Reader (Option Key) :=
  if isFlow then flowKey? start isFirst else blockKey? start

def valueOf (isFlow : Bool) (key : Key) : Reader Located :=
  if isFlow then flowValue key.hasValue else blockValue

/-! ## Records -/

/-- What reading a record keeps in mind: the fields, those that were read, the record so far, and
where it starts. -/
structure Progress (σ : Type) where
  fields : List (Field σ)
  seen : List String := []
  record : σ
  start : Mark

/-- Takes a key, and gives the field it names. A key that names no field is reported where it stands,
a key that comes twice where the record starts. -/
def takeKey {σ : Type} (progress : Progress σ) (key : Located) : Except Fault (Field σ) :=
  match key.value with
  | .scalar scalar =>
    let name := scalar.text
    match progress.fields.find? fun f => f.1 == name with
    | none => .error (.value none (.unknownField name (progress.fields.map (·.1))) key.mark)
    | some field =>
      if progress.seen.contains name then
        .error (.value none (.duplicateField name) progress.start)
      else .ok field
  | value => .error (.value none (value.misfit "field identifier") key.mark)

/-- Takes the value of a field. A key that is referred to by its name is not known by its own. -/
def takeValue {σ : Type} (progress : Progress σ) (key : Located) (field : Field σ)
    (found : Located) : Except Fault (Progress σ) :=
  match field.2 found.value with
  | .ok update =>
    .ok { progress with seen := field.1 :: progress.seen, record := update progress.record }
  | .error refusal =>
    if refusal.isPlaced then
      .error (.value (some (if key.isAlias then "?" else field.1)) refusal.cause found.mark)
    else .error (.value none refusal.cause progress.start)

/-- A step that can fail. -/
def check {α : Type} : Except Fault α → Reader α
  | .ok a => return a
  | .error fault => throw fault

def entries {σ : Type} (isFlow : Bool) (start : Mark) : Nat → Bool → Progress σ → Reader σ
  | 0, _, progress => return progress.record
  | fuel + 1, isFirst, progress => do
    match ← key? isFlow start isFirst with
    | none => return progress.record
    | some key =>
      let field ← check (takeKey progress key.name)
      let progress ← check (takeValue progress key.name field (← valueOf isFlow key))
      entries isFlow start fuel false progress

/-- The record that a document is. An empty document is the record that is given. -/
def document {σ : Type} (name : String) (fields : List (Field σ)) (init : σ) (size : Nat) :
    Reader σ := do
  match ← root? size with
  | none => return init
  | some root =>
    let record ← (do
      match root.value with
      | .map =>
        let opening ← peekToken
        takeToken
        entries (opening.token == .flowMap) opening.start size true
          { fields, record := init, start := root.mark }
      | .scalar scalar =>
        if scalar.text == "" && scalar.style == .plain then return init
        else throw (.value none (root.value.misfit name) root.mark)
      | .sequence => throw (.value none (root.value.misfit name) root.mark))
    endDocument size
    return record

/-- Whether a text can hold a character. -/
def isAllowed (c : Char) : Bool :=
  let n := c.toNat
  n == 0x09 || n == 0x0a || n == 0x0d || (0x20 ≤ n && n ≤ 0x7e) || n == 0x85
    || (0xa0 ≤ n && n ≤ 0xfffd) || 0x10000 ≤ n

/-- The number of bytes before the first character that a text cannot hold. -/
def strayOffset? (chars : List Char) : Option Nat :=
  let fine := chars.takeWhile isAllowed
  if fine.length < chars.length then some (Text.byteLength fine) else none

def record {σ : Type} (name : String) (fields : List (Field σ)) (init : σ) (text : String) :
    Except Fault σ :=
  let chars := text.toList
  match strayOffset? chars with
  | some offset => .error (.character offset)
  | none =>
    match (document name fields init (chars.length + 2)).run' {} { rest := chars } with
    | .ok record _ => .ok record
    | .error fault _ => .error fault

end CallExpander.Yaml
