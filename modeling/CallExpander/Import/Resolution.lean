import CallExpander.Import.Binding
import CallExpander.Tree.Calls

/-!
Which calls are macro calls. A callee is a name that no declaration binds, or a member of such a
name; of the bindings of that name the last one decides, even if it does not fit the callee.
-/

namespace CallExpander

/-- What the callee of a macro call stands for. -/
inductive Resolution where
  | known (module name : String)
  /-- The name comes from a macro module that has no such macro. -/
  | unknown (module name : String)
  deriving Repr, DecidableEq, Inhabited

/-- The binding that an unbound name stands for. -/
def lookup (bindings : List Binding) (n : Node) : Option Binding :=
  match n.form with
  | .ident name false => bindings.reverse.find? fun b => b.localName == name
  | _ => none

/-- The property that an index names: a string, or a template without holes. -/
def indexName? : Node → Option String
  | .mk (.str literal) _ _ => some literal.value
  | .mk (.template quasis) _ [] => quasis.head?.bind (·.cooked)
  | _ => none

def memberParts? : Node → Option (Node × Option String)
  | .mk .member _ [object, .mk (.name text) _ _] => some (object, some text)
  | .mk .member _ [object, _] => some (object, none)
  | .mk .index _ [object, index] => some (object, indexName? index)
  | _ => none

def resolveName (module name : String) (macros : List String) : Resolution :=
  if macros.contains name then .known module name else .unknown module name

/-- What a callee stands for; none for an ordinary call. -/
def resolveCallee (bindings : List Binding) (callee : Node) : Option Resolution :=
  match memberParts? callee with
  | some (object, property) =>
    match lookup bindings object, property with
    | some (.namespace _ module macros), some name => some (resolveName module name macros)
    | _, _ => none
  | none =>
    match lookup bindings callee with
    | some (.named _ module _ (some target)) => some (.known module target)
    | some (.named _ module exportName none) => some (.unknown module exportName)
    | _ => none

def resolveCall (bindings : List Binding) (n : Node) : Option Resolution :=
  n.callee?.bind (resolveCallee bindings)

/-- Whether a call is a call of a macro that exists. -/
def isMacroCall (bindings : List Binding) (n : Node) : Bool :=
  match resolveCall bindings n with
  | some (.known _ _) => true
  | _ => false

def containsMacros (bindings : List Binding) (n : Node) : Bool :=
  n.calls.any (isMacroCall bindings)

end CallExpander
