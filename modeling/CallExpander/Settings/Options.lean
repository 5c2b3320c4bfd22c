import CallExpander.Json.Reader

/-!
The settings of one run.
-/

namespace CallExpander

/-- The number of passes that is allowed unless something else is asked for. -/
def defaultMaxPasses : Nat := 5

/-- The least number of passes: one that expands, and one that finds nothing left. -/
def leastMaxPasses : Nat := 2

structure Options where
  isDev : Bool := false
  isSsr : Bool := false
  /-- Keep the imports of macro modules as bare imports. -/
  keepImports : Bool := false
  /-- The number of passes that is asked for. -/
  maxPasses : Nat := defaultMaxPasses
  deriving Repr, DecidableEq, Inhabited

namespace Options

def development : Options := { isDev := true, keepImports := true }

def effectiveMaxPasses (options : Options) : Nat := max options.maxPasses leastMaxPasses

def toJson (options : Options) : Json :=
  Json.object [("dev", .bool options.isDev), ("ssr", .bool options.isSsr),
    ("keepImports", .bool options.keepImports), ("maxPasses", .ofNat options.maxPasses),
    ("effective", .ofNat options.effectiveMaxPasses)]

def fields : List (Json.Field Options) := [
  ("dev", do let b ← Json.flag; return fun o => { o with isDev := b }),
  ("ssr", do let b ← Json.flag; return fun o => { o with isSsr := b }),
  ("keepImports", do let b ← Json.flag; return fun o => { o with keepImports := b }),
  ("maxPasses", do let n ← Json.count; return fun o => { o with maxPasses := n })]

def read (text : String) : Except Json.Fault Options :=
  Json.readAll (Json.record "struct TransformOptions" fields {}) text

end Options

end CallExpander
