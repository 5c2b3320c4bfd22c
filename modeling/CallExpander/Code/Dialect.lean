/-!
The dialects that a file can be written in, and which one a path asks for.
-/

namespace CallExpander

/-- How a file is read: `ecmascript` has markup and no types, `typescript` has types and no markup,
`tsx` has both. -/
inductive Dialect where
  | ecmascript
  | typescript
  | tsx
  deriving Repr, DecidableEq, Inhabited

namespace Dialect

def name : Dialect → String
  | .ecmascript => "ecmascript"
  | .typescript => "typescript"
  | .tsx => "tsx"

def ofName? (text : String) : Option Dialect :=
  [ecmascript, typescript, tsx].find? fun d => d.name == text

def hasTypes : Dialect → Bool
  | .ecmascript => false
  | _ => true

def hasMarkup : Dialect → Bool
  | .typescript => false
  | _ => true

/-- What follows the last point of a path, up to a query or a fragment. -/
def extension (path : String) : String :=
  let chars := path.toList
  if chars.contains '.' then
    let last := (chars.reverse.takeWhile (· != '.')).reverse
    String.ofList (last.takeWhile fun c => c != '?' && c != '#')
  else ""

def ofPath (path : String) : Dialect :=
  let ext := extension path
  if ext == "ts" || ext == "mts" || ext == "cts" then .typescript
  else if ext == "tsx" then .tsx
  else .ecmascript

end Dialect

end CallExpander
