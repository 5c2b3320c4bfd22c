import CallExpander.Code.Parser.Names

/-!
Expressions that turn out to be patterns: what stands before an arrow or an assignment sign has been
read as an expression, and is read again as a pattern here.
-/

namespace CallExpander.Code

/-- What a pattern is for: the head of an arrow function binds names, an assignment may have any
place as a target. -/
inductive PatternUse where
  | binding
  | assignment
  deriving Repr, DecidableEq, Inhabited

/-- Whether an expression can be assigned to. A link of an optional chain cannot. -/
def isPlace (isStrict : Bool) : Node → Bool
  | .mk (.ident name _) _ _ => !(isStrict && isSpecialName name)
  | .mk .paren _ [inner] | .mk .asType _ [inner, _] | .mk .satisfies _ [inner, _]
  | .mk .nonNull _ [inner] | .mk .typeAssertion _ [inner, _]
  | .mk .instantiation _ [inner, _] => isPlace isStrict inner
  | .mk .member _ (object :: _) | .mk .index _ (object :: _) => isObjectOfPlace isStrict object
  | _ => false
where
  /-- Whether the members of an expression can be assigned to. -/
  isObjectOfPlace (isStrict : Bool) : Node → Bool
    | .mk .member _ (object :: _) | .mk .index _ (object :: _) => isObjectOfPlace isStrict object
    | .mk (.optMember _) _ _ | .mk (.optIndex _) _ _ | .mk (.optCall _) _ _ => false
    | _ => true

/-- Whether an expression is `import.meta` or `new.target`. -/
def isMetaProperty (text : String) : Bool :=
  text == "import.meta" || text == "new.target"

def Form.isLiteral : Form → Bool
  | .str _ | .num .. | .bool _ | .null => true
  | .verbatim text => !isMetaProperty text
  | _ => false

/-- Whether an expression is a link of an optional chain. -/
def Form.isChain : Form → Bool
  | .optMember _ | .optIndex _ | .optCall _ => true
  | _ => false

/-- Where types can be written, some expressions are left for the type checker to refuse. -/
def isLeftToChecker (allowsCall : Bool) : Node → Bool
  | .mk .paren _ [inner] => isLeftToChecker allowsCall inner
  | .mk .call _ _ => allowsCall
  | .mk (.binary _) _ _ => true
  | n => Form.isLiteral n.form

/-- Notes an expression that cannot be assigned to. -/
def checkPlace (allowsCall : Bool) (n : Node) : P Unit := do
  let isStrict := (← context).isStrict
  if ← hasTypes then
    match n.form with
    | .ident name _ =>
      if isSpecialName name then noteStrict n.span .reservedArguments
    | _ =>
      if !isPlace isStrict n && !isLeftToChecker allowsCall n then note n.span .notPlace
  else if !isPlace isStrict n then note n.span .notPlace

def Form.isTarget : Form → Bool
  | .ident .. | .paren | .member | .index | .asType | .satisfies | .nonNull | .typeAssertion
  | .instantiation | .arrayPattern | .objectPattern | .absent => true
  | form => Form.isChain form

/-- Whether an expression inside an assigned pattern is kept as it is. -/
def Form.isKeptTarget : Form → Bool
  | .member | .index | .call | .new _ | .ident .. | .function .expression .. | .class .expression ..
  | .paren | .template _ | .asType => true
  | form => Form.isLiteral form

def notPattern (n : Node) : P Node := do
  note n.span .notPattern
  return invalidNode n.span

def lastComma (n : Node) : P (Option Span) := return (← get).commas.lookup n.start

/-- Notes the last comma of an array or an object whose last element is a rest. -/
def noteLastComma (origin : Origin) : P Unit := do
  match ← lastComma (.mk .absent origin []) with
  | some comma => note comma .commaBehindRest
  | none => return ()

/-- Whether a node is a default value behind a pattern. -/
def isDefaulted (n : Node) : Bool :=
  match n.form with
  | .patternDefault | .assign "=" => true
  | _ => false

mutual

/-- An expression as a pattern, inside another pattern or on its own. -/
def toPattern (use : PatternUse) : Node → P Node
  | .mk form origin parts => do
    let n := Node.mk form origin parts
    match form with
    | .absent => return n
    | .array =>
      let elements ← toElements use origin parts
      return .mk .arrayPattern origin elements
    | .object =>
      let properties ← toProperties use origin parts
      return .mk .objectPattern origin properties
    | .assign "=" => return .mk .patternDefault origin parts
    | _ =>
      match use with
      | .binding =>
        match form with
        | .ident .. => return n
        | _ => notPattern n
      | .assignment =>
        if Form.isKeptTarget form then
          if !isPlace (← context).isStrict n then note n.span .notAssignable
          return n
        else notPattern n

/-- The elements of an array as those of a pattern. Holes behind the last element are dropped. -/
def toElements (use : PatternUse) (whole : Origin) : List Node → P (List Node)
  | [] => return []
  | .mk form origin parts :: rest => do
    match form with
    | .hole =>
      let more ← toElements use whole rest
      return if more.isEmpty then [] else .mk form origin parts :: more
    | .spread =>
      if rest.isEmpty then
        if parts.any isDefaulted then note (Node.mk form origin parts).span .restParameterDefault
        noteLastComma whole
        let inner ← toPatterns use parts
        return [.mk .rest ((parts.head?.map Node.origin).getD origin) inner]
      else
        note (Node.mk form origin parts).span .restNotLast
        toElements use whole rest
    | _ =>
      let first ← toPattern use (.mk form origin parts)
      return first :: (← toElements use whole rest)

def toPatterns (use : PatternUse) : List Node → P (List Node)
  | [] => return []
  | n :: rest => do
    let first ← toPattern use n
    return first :: (← toPatterns use rest)

def toProperties (use : PatternUse) (whole : Origin) : List Node → P (List Node)
  | [] => return []
  | .mk form origin parts :: rest => do
    let n := Node.mk form origin parts
    let first ← (do
      match form, parts with
      | .ident .., _ => return .mk .patternShorthand origin [n, Node.missing]
      | .shorthandDefault, _ => return .mk .patternShorthand origin parts
      | .property, key :: values =>
        let values ← toPatterns use values
        return .mk .patternProperty origin (key :: values)
      | .spread, [inner] =>
        if rest.isEmpty then noteLastComma whole else note n.span .restNotLast
        match use, inner.form with
        | .binding, .ident .. => return .mk .rest origin [inner]
        | .binding, _ =>
          note n.span .restWithoutName
          return .mk .rest origin [invalidNode n.span]
        | .assignment, _ =>
          let inner ← toPattern use inner
          if isDefaulted inner then note n.span .restParameterDefault
          return .mk .rest origin [inner]
      | _, _ => failAt n.span .notPattern)
    return first :: (← toProperties use whole rest)

end

mutual

/-- The default values of properties that stayed in expressions, in visiting order. What stands in a
function that is itself an expression is not looked at. -/
def strayDefaults : Node → List Span
  | .mk form origin parts =>
    match form with
    | .shorthandDefault => [(Node.mk form origin parts).span]
    | .arrow _ | .function .expression .. => []
    | _ => strayDefaultsIn parts

def strayDefaultsIn : List Node → List Span
  | [] => []
  | n :: rest => strayDefaults n ++ strayDefaultsIn rest

end

/-- Notes default values of properties in an expression that can be no pattern any more. -/
def noteStrayDefaults (n : Node) : P Unit :=
  (strayDefaults n).forM (note · .defaultInObject)

def toTarget (n : Node) : P Node := do
  match n.form with
  | .absent => return n
  | .array | .object => toPattern .assignment n
  | _ =>
    checkPlace false n
    return n

/-- The target of an assignment with a sign. -/
def assignmentTarget (op : String) (n : Node) : P Node := do
  let target ← (do
    if op == "=" then toTarget n
    else
      if !isPlace (← context).isStrict n then
        note n.span (if ← hasTypes then .notPlace else .notAssignable)
      match n.form with
      | .ident name _ =>
        if (← hasTypes) && isSpecialName name then noteStrict n.span .reservedArguments
      | _ => pure ()
      return n)
  if Form.isTarget target.form then return target else failAt target.span .assignmentTarget

end CallExpander.Code
