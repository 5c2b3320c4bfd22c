import CallExpander.Code.Parser.Subscripts

/-!
Classes.
-/

namespace CallExpander.Code

/-! ## What a class builds on -/

/-- The text of a name with points in it, if an expression is one. -/
def pointedName : Node → Option String
  | .mk (.ident name _) _ _ => some name
  | .mk .member _ [object, .mk (.name name) _ _] =>
    (pointedName object).map (· ++ "." ++ name)
  | _ => none

/-- One of the interfaces that a class or an interface names. -/
def heritageElement (self : Rules) : P Node := do
  let lo ← position
  let name ← anyWord
  let first ← node lo (.ident name false)
  let found ← subscripts self true true first
  match pointedName found with
  | some name =>
    let args ← (do if ← isSign "<" then typeArguments self else return Node.missing)
    node lo (.typeReference name) [args]
  | none =>
    if !(found.form matches .instantiation) then note (← spanFrom lo) .interfaceBase
    return found

def heritageList (self : Rules) : P (List Node) :=
  delimited (do return (← isSign "\x7b") || (← isOneOfWords ["implements", "extends"]))
    (heritageElement self)

/-- A class to build on, and the type arguments behind it. -/
def baseClass (self : Rules) : P (Node × Node) := do
  let base ← self .tight
  match base.form, base.parts with
  | .instantiation, [inner, args] => return (inner, args)
  | _, _ =>
    if (← hasTypes) && (← isSign "<") then return (base, ← typeArguments self)
    else return (base, Node.missing)

def extendsClause (self : Rules) : P (Node × Node) := do
  let found ← (do
    if ← eatWord "extends" then
      let base ← baseClass self
      if ← hasTypes <&&> eat "," then
        let more ← heritageList self
        more.forM fun n => note n.span .manyBases
      return base
    else return (Node.missing, Node.missing))
  if ← eatWord "extends" then
    note (← lastSpan) .baseTwice
    let _ ← baseClass self
  return found

def implementsClause (self : Rules) : P Node := do
  if !(← hasTypes) then return Node.missing
  else
    let found ← (do
      if ← eatWord "implements" then return group (← heritageList self) else return Node.missing)
    if ← eatWord "implements" then
      note (← lastSpan) .interfacesTwice
      let _ ← heritageList self
    if ← eatWord "extends" then
      note (← lastSpan) .baseBehindInterfaces
      let _ ← baseClass self
    return found

/-! ## Members -/

structure MemberHead where
  lo : Nat
  mods : Modifiers := {}
  /-- Where some of the words stand. -/
  declareSpan : Option Span := none
  readonlySpan : Option Span := none
  staticSpan : Option Span := none
  lastWord : Option Span := none

def isMethodHere : P Bool := do
  return (← isSign "(") || ((← hasTypes) && (← isSign "<"))

/-- Whether a field follows its key; a line end may be its end. -/
def isFieldHere (endsAtLine : Bool) : P Bool := do
  if (← hasTypes) && (← isOneOf ["!", ":"]) then return true
  else if ← isOneOf ["=", "\x7d"] then return true
  else if endsAtLine then isStatementEnd
  else isSign ";"

def isConstructorKey (key : Node) : Bool :=
  match key.form with
  | .name text => text == "constructor"
  | .str literal => literal.value == "constructor"
  | _ => false

def isPrivateKey (key : Node) : Bool := key.form matches .privateName _

def eatOptional : P Bool := do
  if ← hasTypes then eat "?" else return false

/-- Notes who can use a private member, which goes without saying. -/
def notePrivateAccess (head : MemberHead) (key : Node) : P Unit := do
  if isPrivateKey key && head.mods.access.isSome then note ⟨head.lo, key.span.hi⟩ .privateAccess

def methodTail (self : Rules) (head : MemberHead) (kind : MethodKind) (isAsync isGenerator : Bool)
    (key : Node) (params : P (List Node)) : P Node := do
  let function ← methodFunction self true isAsync isGenerator params
  notePrivateAccess head key
  let n ← node head.lo (.classMethod kind head.mods) [key, function]
  match bodyOf? function with
  | some body =>
    if head.mods.isAbstract && !isPrivateKey key && !body.isAbsent then note n.span .abstractBody
  | none => pure ()
  return n

def plainMethod (self : Rules) (head : MemberHead) (key : Node) : P Node :=
  methodTail self head .method false false key (formalParameters self)

/-- Notes type parameters of a constructor, which has none. -/
def noteConstructorTypes (self : Rules) : P Unit := do
  if (← hasTypes) && (← isSign "<") then
    let lo ← position
    if ← peekSign ">" then
      advance
      let start ← position
      advance
      note (← spanFrom lo) .noTypeParameters
      note (← spanFrom start) .constructorTypeParameters
    else
      let params ← typeParameters self
      params.parts.forM fun param => note param.span .constructorTypeParameters

def constructorTail (self : Rules) (head : MemberHead) : P Node := do
  if (← hasTypes) && head.mods.isOverride then
    note (← spanFrom head.lo) (.constructorModifier "override")
  noteConstructorTypes self
  let lo ← position
  let params ← within (fun c => { c with inField := false })
    (parametersOf false false (constructorParameters self))
  if (← hasTypes) && (← isSign ":") then
    let type ← optType self
    note type.span .constructorType
  let body ← within (fun c => { c with inField := false })
    (functionBody self false false (params.all isSimpleParameter))
  if body.isAbsent then
    params.forM fun param => do
      if param.form matches .parameterProperty _ then note param.span .parameterModifier
  noteDefaults params body
  if let some span := head.lastWord then
    if head.mods.isAbstract then note span .abstractHere
  let function ← node lo (.function (.method false) false false false)
    [Node.missing, group params, body, Node.missing, Node.missing]
  node head.lo (.constructor head.mods) [function]

def fieldTail (self : Rules) (head : MemberHead) (isOptional : Bool) (key : Node) : P Node := do
  let mods := head.mods
  if isConstructorKey key then failAt key.span .constructorField
  if isPrivateKey key then
    if mods.isDeclare then note key.span (.privateModifier "declare")
    if mods.isAbstract then note key.span (.privateModifier "abstract")
  let isDefinite ← (do if (← hasTypes) && !isOptional then eat "!" else return false)
  let type ← optType self
  within (fun c =>
      { c with includesIn := true, inField := true, inAsync := false, inGenerator := false })
    do
      let value ← behind "=" (self .assignment)
      if !(← eatSemicolon) then noteHere .semicolon
      let n ← node head.lo (.classField { mods with isOptional, isDefinite }) [key, value, type]
      if !mods.isAccessor then
        notePrivateAccess head key
        if mods.isAbstract && !isPrivateKey key && !value.isAbsent then note n.span .abstractValue
      return n

/-- A member whose key is a word that has been taken, if what follows is that of a method or a
field. -/
def memberNamed (self : Rules) (head : MemberHead) (text : String) (span : Span) (endsAtLine : Bool) :
    P (Option Node) := do
  let key := Node.mk (.name text) (.file span) []
  if ← isMethodHere then return some (← plainMethod self head key)
  else if ← isFieldHere endsAtLine then
    if text == "static" && (← isSign "\x7b") then return none
    else return some (← fieldTail self head false key)
  else return none

/-- A word before a member, noted where it stands in the wrong order. -/
def modifierBefore (head : MemberHead) : P (Option MemberHead) := do
  match ← eatModifier ["abstract", "readonly", "override", "static"] true with
  | none => return none
  | some word =>
    let span ← lastSpan
    let mods := head.mods
    let head := { head with lastWord := some span }
    match word with
    | "abstract" =>
      if mods.isAbstract then note span (.modifierTwice word)
      else if mods.isOverride then note span (.modifierOrder word "override")
      return some { head with mods := { mods with isAbstract := true } }
    | "override" =>
      if mods.isOverride then note span (.modifierTwice word)
      else if head.readonlySpan.isSome then note span (.modifierOrder word "readonly")
      else if mods.isDeclare then note span (.modifierClash word "declare")
      else if !(← context).hasBase then note span .overrideWithoutBase
      return some { head with mods := { mods with isOverride := true } }
    | "readonly" =>
      if head.readonlySpan.isSome then
        note span (.modifierTwice word)
        return some head
      else
        return some { head with mods := { mods with isReadonly := true }, readonlySpan := some span }
    | _ =>
      if mods.isOverride then note span (.modifierOrder word "override")
      return some { head with mods := { mods with isStatic := true } }

def staticBlock (self : Rules) (lo : Nat) : P Node := do
  let found ← within (fun c => { c with inStaticBlock := true, inField := true, includesIn := true })
    (bracedStatements (self .declaration))
  node lo .staticBlock found

def staticBlock? (self : Rules) (head : MemberHead) : P (Option Node) := do
  if head.mods.isStatic && (← isSign "\x7b") then
    if let some span := head.declareSpan then note span .modifierHere
    if head.mods.access.isSome then noteHere .modifierHere
    return some (← staticBlock self head.lo)
  else if ← isWord "static" <&&> peekSign "\x7b" then
    if let some span := head.lastWord then note span .modifierHere
    if let some span := head.staticSpan then note span .modifierHere
    advance
    return some (← staticBlock self head.lo)
  else return none

def generatorMethod (self : Rules) (head : MemberHead) : P Node := do
  let key ← memberKey self
  if head.mods.isReadonly then note (← spanFrom head.lo) .readonlyMethod
  if isConstructorKey key then note (← spanFrom head.lo) .constructorGenerator
  methodTail self head .method false true key (formalParameters self)

def asyncMethod (self : Rules) (head : MemberHead) (isOptional : Bool) : P Node := do
  let isOverride := (← eatModifier ["override"]).isSome
  if isOverride then note (← lastSpan) (.modifierOrder "override" "async")
  let isGenerator ← eat "*"
  let key ← memberKey self
  if isConstructorKey key then failAt key.span .constructorAsync
  if head.mods.isReadonly then note (← spanFrom head.lo) .readonlyMethod
  let isOptional ← (if isOptional then return true else eatOptional)
  let mods := { head.mods with isOptional, isOverride := head.mods.isOverride || isOverride }
  methodTail self { head with mods } .method true isGenerator key (formalParameters self)

def accessorMethod (self : Rules) (head : MemberHead) (isGetter isOptional : Bool) (word : Span) :
    P Node := do
  let key ← memberKey self
  if head.mods.isReadonly then note word .readonlyAccessor
  if isConstructorKey key then note word .constructorAccessor
  let head := { head with mods := { head.mods with isOptional } }
  if isGetter then methodTail self head .getter false false key (getterParameters self word)
  else methodTail self head .setter false false key (setterParameters self word)

/-- A member behind its key, or behind a word that stands before its key. -/
def keyedMember (self : Rules) (head : MemberHead) (key : Node) : P Node := do
  let isOptional ← eatOptional
  let marked := { head with mods := { head.mods with isOptional } }
  if ← isMethodHere then
    if let some span := head.declareSpan then note span .declareMember
    if head.mods.isReadonly then failAt (← spanFrom head.lo) .readonlyMethod
    if isConstructorKey key && !head.mods.isStatic then constructorTail self marked
    else plainMethod self marked key
  else
    let word := match key.form with
      | .name text => text
      | _ => ""
    let isGetterOrSetter ← (do
      if word == "get" || word == "set" then
        let startsGenerator ← (do return (← afterLineBreak) && (← isSign "*"))
        return !(← isFieldHere false) && !startsGenerator
      else return false)
    if !isGetterOrSetter && (← isFieldHere true) then fieldTail self head isOptional key
    else if word == "async" && !(← afterLineBreak) then asyncMethod self head isOptional
    else if isGetterOrSetter then accessorMethod self head (word == "get") isOptional key.span
    else failUnexpected "* for generator, private key, identifier or async"

/-- A member from the words on that stand before its key. -/
def modifiedMember (self : Rules) (head : MemberHead) : P Node := do
  let head ← grow modifierBefore head
  let isAccessor ← (do
    if head.mods.isAccessor then return true
    else if head.mods.isReadonly then return false
    else if ← hasTypes <&&> isWord "accessor" <&&> notM (peekSign "(") then eatWord "accessor"
    else return false)
  let head := { head with mods := { head.mods with isAccessor } }
  match ← staticBlock? self head with
  | some n => return n
  | none =>
    let mods := head.mods
    let index ← (do
      if (← hasTypes) && !mods.isAbstract && !mods.isOverride && mods.access.isNone then
        indexSignature? self head.lo mods.isReadonly true
      else return none)
    match index with
    | some n => return n
    | none =>
      if ← eat "*" then generatorMethod self head
      else
        let key ← (do
          match head.readonlySpan with
          | some span =>
            if ← isOneOf ["!", ":"] then return .mk (.name "readonly") (.file span) []
            else memberKey self
          | none => memberKey self)
        keyedMember self head key

/-- The word `declare` before a member, or the member of that name. -/
def declaredHead (self : Rules) (head : MemberHead) : P (MemberHead ⊕ Node) := do
  if ← hasTypes <&&> eatWord "declare" then
    let span ← spanFrom head.lo
    match ← memberNamed self head "declare" span true with
    | some n => return .inr n
    | none =>
      return .inl { head with
        mods := { head.mods with isDeclare := true }, declareSpan := head.declareSpan.or span }
  else return .inl head

def staticMember (self : Rules) (head : MemberHead) : P Node := do
  let isStatic ← eatWord "static"
  let staticSpan ← lastSpan
  let isAccessor ← (do if ← hasTypes then eatWord "accessor" else return false)
  let accessorSpan ← lastSpan
  let inner := { head with
    mods := { head.mods with isStatic }, staticSpan := if isStatic then some staticSpan else none }
  let named ← (do
    if isAccessor then memberNamed self inner "accessor" accessorSpan true
    else if isStatic then memberNamed self head "static" staticSpan false
    else return none)
  match named with
  | some n => return n
  | none => modifiedMember self { inner with mods := { inner.mods with isAccessor } }

def classMember (self : Rules) : P Node := do
  let lo ← position
  match ← declaredHead self { lo } with
  | .inr n => return n
  | .inl head =>
    let access ← eatAccess
    let head := { head with mods := { head.mods with access } }
    if head.mods.isDeclare then staticMember self head
    else
      match ← declaredHead self head with
      | .inr n => return n
      | .inl head => staticMember self head

/-- Whether a member is a constructor with a body. -/
def isFullConstructor (n : Node) : Bool :=
  match n with
  | .mk (.constructor _) _ [function] => !(bodyOf? function).any Node.isAbsent
  | _ => false

/-- The next member of a class, where `read` holds those before, the last one first. -/
def nextMember (self : Rules) (read : List Node) : P (Option (List Node)) := do
  if (← atEnd) || (← isSign "\x7d") then return none
  else
    let lo ← position
    if ← eat ";" then return some ((← node lo .emptyMember) :: read)
    else
      let n ← within (fun c => { c with allowsSuper := true, inClass := true }) (classMember self)
      if !(← context).inDeclare && isFullConstructor n && read.any isFullConstructor then
        note n.span .constructorTwice
      return some (n :: read)

def classMembers (self : Rules) : P (List Node) := do
  expect "\x7b"
  let found ← grow (nextMember self) []
  if ← atEnd then noteHere (.expected "\x7d" "<eof>") else expect "\x7d"
  return found.reverse

/-- Notes members that only an abstract class can have. -/
def noteAbstractMembers (members : List Node) : P Unit :=
  members.forM fun n =>
    match n.form with
    | .classMethod _ mods | .classField mods =>
      if mods.isAbstract && !mods.isAccessor && !n.parts.head?.any isPrivateKey then
        note n.span .abstractOutside
      else pure ()
    | _ => pure ()

def classFrom (self : Rules) (lo : Nat) (role : Role) (needsName isAbstract : Bool) : P Node := do
  let n ← within (fun c => { c with isStrict := true }) do
    expectWord "class"
    let name ← optBindingNode needsName true
    match name.form with
    | .ident text _ =>
      if (← hasTypes) && builtInTypes.contains text then note name.span .className
    | _ => pure ()
    let typeParams ← optTypeParameters self { allowsVariance := true }
    let (base, baseArgs) ← extendsClause self
    let interfaces ← implementsClause self
    let members ← within (fun c => { c with hasBase := !base.isAbsent }) (classMembers self)
    node lo (.class role isAbstract false)
      [name, Node.build .members members, base, typeParams, baseArgs, interfaces]
  if !isAbstract then
    match n.parts with
    | _ :: members :: _ => noteAbstractMembers members.parts
    | _ => pure ()
  return n

end CallExpander.Code
