import CallExpander.Json.Writer
import CallExpander.Macro.Handler
import CallExpander.Script.Basic

/-!
What the texts, expressions and conditions of a script stand for.
-/

namespace CallExpander.Script

open CallExpander.Code
open CallExpander.Number

/-- What a script can see but not change. A script without a dialect cannot read or print program
text, and one without bindings cannot see the program. -/
structure Setting where
  call : Call
  dialect : Option Dialect := none
  bindings : Option (List Binding) := none
  deriving Inhabited

/-- What a script works on. -/
structure Scene where
  context : Context
  body : Body := { items := [] }
  /-- How the script changed the program. -/
  edits : List Edit := []
  /-- The paths of what was inserted last. -/
  latest : List Nat := []
  deriving Inhabited

def scriptFault {α : Type} (message : String) : Except String α := .error ("script: " ++ message)

def Setting.toolkit (setting : Setting) : Except String Dialect :=
  match setting.dialect with
  | some dialect => .ok dialect
  | none => scriptFault "no toolkit"

def Setting.helper (setting : Setting) : Except String (List Binding) :=
  match setting.bindings with
  | some bindings => .ok bindings
  | none => scriptFault "no helper"

def Scene.memory (scene : Scene) : Scope → Memory
  | .pass => scene.context.passState
  | .file => scene.context.fileState

/-- What follows the number of an argument in messages. -/
def argumentName (setting : Setting) (index : Nat) : String :=
  "argument " ++ toString index ++ " of `" ++ setting.call.macroName ++ "`"

def argument (setting : Setting) (scene : Scene) (index : Nat) : Except String Node :=
  match scene.context.arg? index with
  | some arg => .ok arg
  | none => .error (argumentName setting index ++ " is missing")

def argumentText (setting : Setting) (scene : Scene) (index : Nat) : Except String String :=
  match (scene.context.arg? index).bind Node.stringValue? with
  | some text => .ok text
  | none => .error (argumentName setting index ++ " must be a string literal")

def Place.eval (setting : Setting) (scene : Scene) : Place → Except String Nat
  | .at index => .ok index
  | .own => do
    let _ ← setting.helper
    return scene.body.pending.min?.getD 0
  | .behind count => do
    let _ ← setting.helper
    return scene.body.size + count
  | .latest index =>
    match scene.latest[index]? with
    | some path => .ok path
    | none => scriptFault "no such path"

def itemText (scene : Scene) (index : Nat) : Except String String :=
  match scene.body.items[index]? with
  | some item => .ok (String.ofList (Text.trim (printItems [item]).toList))
  | none => scriptFault "no such item"

def repeatText (text : String) (count : Nat) : String :=
  String.join (List.replicate count text)

mutual

def Phrase.eval (setting : Setting) (scene : Scene) : Phrase → Except String String
  | .literal text => .ok text
  | .argument index => argumentText setting scene index
  | .printed index => do
    let _ ← setting.toolkit
    return printExpression (← argument setting scene index)
  | .data index => do
    match (← argument setting scene index).literal? with
    | some value => return value.write
    | none => throw "not a literal"
  | .allArguments => do
    let texts ← (List.range scene.context.args.length).mapM (argumentText setting scene)
    return String.join texts
  | .concat parts => evalPhrases setting scene parts
  | .repeated part count => return repeatText (← Phrase.eval setting scene part) count
  | .reversed part => return String.ofList (← Phrase.eval setting scene part).toList.reverse
  | .item place => do
    let _ ← setting.helper
    itemText scene (← place.eval setting scene)
  | .unknown name => scriptFault ("unknown text " ++ name)

def evalPhrases (setting : Setting) (scene : Scene) : List Phrase → Except String String
  | [] => .ok ""
  | part :: rest => do
    let head ← Phrase.eval setting scene part
    return head ++ (← evalPhrases setting scene rest)

end

/-- What an argument is without the spread around it. -/
def withoutSpread : Node → Node
  | .mk .spread _ [inner] => inner
  | n => n

def argumentNumber (setting : Setting) (scene : Scene) (index : Nat) : Except String Binary64 := do
  match (← argument setting scene index).literal? with
  | some (.num n) => return n.toBinary64
  | _ => throw "not a number"

def parsed (dialect : Dialect) (code : String) : Except String Node :=
  match parseSnippet dialect code with
  | .ok n => .ok n
  | .error failure => .error failure.message

def parsedItems (dialect : Dialect) (code : String) : Except String (List Node) :=
  match parseItems dialect code with
  | .ok items => .ok items
  | .error failure => .error failure.message

mutual

def Form.eval (setting : Setting) (scene : Scene) : Form → Except String Node
  | .string text => return Node.string (← text.eval setting scene)
  | .number value => .ok (Node.number value)
  | .boolean value => .ok (Node.boolean value)
  | .null => .ok Node.nil
  | .undefined => .ok Node.undefined
  | .identifier name => .ok (Node.identifier name)
  | .member object name => return Node.memberOf (← Form.eval setting scene object) name
  | .call callee args => do
    let callee ← Form.eval setting scene callee
    return Node.callOf callee (← evalForms setting scene args)
  | .array elements => return Node.arrayOf (← evalForms setting scene elements)
  | .value value => .ok (Node.ofJson value)
  | .parsed text => do
    let dialect ← setting.toolkit
    parsed dialect (← text.eval setting scene)
  | .argument index => argument setting scene index
  | .allArguments => .ok (Node.arrayOf (scene.context.args.map withoutSpread))
  | .current => .ok scene.context.slot
  | .sum index number => return Node.number ((← argumentNumber setting scene index).add number)
  | .remembered scope key =>
    match (scene.memory scope).getInt? key with
    | some n => .ok (Node.number (Binary64.ofInt n))
    | none => .error "no such state"
  | .unknown name => scriptFault ("unknown expression " ++ name)

def evalForms (setting : Setting) (scene : Scene) : List Form → Except String (List Node)
  | [] => .ok []
  | form :: rest => do
    let head ← Form.eval setting scene form
    return head :: (← evalForms setting scene rest)

end

def Condition.eval (setting : Setting) (scene : Scene) : Condition → Except String Bool
  | .literal index value =>
    .ok (((scene.context.arg? index).bind Node.literal?).any (·.same value))
  | .argumentCount count => .ok (scene.context.args.length == count)
  | .isDev expected => .ok (setting.call.isDev == expected)
  | .isSsr expected => .ok (setting.call.isSsr == expected)
  | .remembers scope key => .ok ((scene.memory scope).contains key)
  | .containsMacros form => do
    let n ← form.eval setting scene
    let bindings ← setting.helper
    return CallExpander.containsMacros bindings n
  | .unknown name => scriptFault ("unknown condition " ++ name)

end CallExpander.Script
