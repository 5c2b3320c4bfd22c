import CallExpander.Code.Printer.Part

/-!
How types are laid out.
-/

namespace CallExpander.Code

def templateLayout : List Quasi → List Pieces → Pieces
  | [], _ => []
  | [q], _ => txt q.raw
  | q :: qs, [] => txt q.raw ++ templateLayout qs []
  | q :: qs, hole :: holes => txt (q.raw ++ "$\x7b") ++ hole ++ txt "\x7d" ++ templateLayout qs holes

def markText (mark word : String) : String :=
  if mark == "" then "" else if mark == "yes" then word else mark ++ word

/-- Parameters in parentheses; a missing list has none. -/
def parametersLayout (part : Part) : Pieces :=
  txt "(" ++ part.pieces ++ txt ")"

def between (sign : String) (origin : Origin) (parts : List Part) : Pieces :=
  joined (txt sign) (parts.map (listed origin Part.pieces))

/-- Type parameters, with a blank before them behind the word of a constructor. -/
def constructed (isConstructor : Bool) (typeParams : Part) : Pieces :=
  if isConstructor then typeParams.after " " else typeParams.pieces

def typeLayout (form : Form) (origin : Origin) (parts : List Part) : Pieces :=
  let first := nth parts 0
  let second := nth parts 1
  let third := nth parts 2
  match form with
  | .typeWord text => txt text
  | .typeReference name => txt name ++ first.pieces
  | .typeQuery name => txt ("typeof " ++ name) ++ first.pieces
  | .typeArray => first.pieces ++ txt "[]"
  | .typeUnion => between " | " origin parts
  | .typeIntersection => between " & " origin parts
  | .typeTuple => txt "[" ++ inLine origin Part.pieces parts ++ txt "]"
  | .typeTupleElement label isOptional isRest =>
    let mark := txtIf isOptional "?"
    match label with
    | some name => txtIf isRest "..." ++ txt name ++ mark ++ txt ": " ++ first.pieces
    | none => txtIf isRest "..." ++ first.pieces ++ mark
  | .typeObject => bracedLines (layouts parts)
  | .typeFunction isConstructor isAbstract =>
    txtIf isAbstract "abstract " ++ txtIf isConstructor "new" ++ constructed isConstructor second
      ++ parametersLayout first ++ txt " => " ++ third.pieces
  | .typeParen => txt "(" ++ first.pieces ++ txt ")"
  | .typeOperator op => txt (op ++ " ") ++ first.pieces
  | .typeConditional =>
    first.pieces ++ txt " extends " ++ second.pieces ++ txt " ? " ++ third.pieces ++ txt " : "
      ++ (nth parts 3).pieces
  | .typeInfer name => txt ("infer " ++ name) ++ first.after " extends "
  | .typeIndexed => first.pieces ++ txt "[" ++ second.pieces ++ txt "]"
  | .typeLiteral => first.pieces
  | .typeTemplate quasis => txt "`" ++ templateLayout quasis (layouts parts) ++ txt "`"
  | .typeImport qualifier =>
    txt "import(" ++ first.pieces ++ txt ")" ++ txtIf (qualifier != "") ("." ++ qualifier)
      ++ second.pieces
  | .typePredicate name isAsserts =>
    txtIf isAsserts "asserts " ++ txt name ++ first.after " is "
  | .typeMapped name readonlyMark optionalMark =>
    let mark := markText readonlyMark "readonly"
    bracedLines [txtIf (mark != "") (mark ++ " ") ++ txt ("[" ++ name ++ " in ") ++ first.pieces
      ++ second.after " as " ++ txt ("]" ++ markText optionalMark "?") ++ third.after ": " ++ txt ";"]
  | .typeArguments | .typeParameters => txt "<" ++ inLine origin Part.pieces parts ++ txt ">"
  | .typeParameter name words =>
    txt (words ++ name) ++ first.after " extends " ++ second.after " = "
  | .propertySignature isReadonly isOptional _ =>
    txtIf isReadonly "readonly " ++ first.full ++ txtIf isOptional "?" ++ second.after ": " ++ txt ";"
  | .methodSignature isOptional =>
    first.full ++ txtIf isOptional "?" ++ (nth parts 3).pieces ++ parametersLayout second
      ++ third.after ": " ++ txt ";"
  | .callSignature isConstructor =>
    txtIf isConstructor "new" ++ constructed isConstructor third ++ parametersLayout first
      ++ second.after ": " ++ txt ";"
  | .accessorSignature kind =>
    txt (if kind == .getter then "get " else "set ") ++ first.full ++ parametersLayout second
      ++ third.after ": " ++ txt ";"
  | .indexSignature isReadonly inClass =>
    txtIf isReadonly "readonly " ++ txt "[" ++ first.pieces ++ txt "]" ++ second.after ": "
      ++ txtIf (!inClass) ";"
  | _ => []

end CallExpander.Code
