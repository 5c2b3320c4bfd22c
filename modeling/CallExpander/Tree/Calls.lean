import CallExpander.Tree.Basic

/-!
Walks over the tree: the calls in it, and changing it from the inside out.
-/

namespace CallExpander.Node

/-- Whether a node is a plain call. -/
def isCall (n : Node) : Bool :=
  match n.form with
  | .call => true
  | _ => false

def callee? : Node → Option Node
  | .mk .call _ (callee :: _) => some callee
  | _ => none

def args : Node → List Node
  | .mk .call _ [_, .mk .group _ args, _] => args
  | _ => []

/-- The same call with other arguments; what is no call stays as it is. -/
def withArgs (n : Node) (args : List Node) : Node :=
  match n with
  | .mk .call origin [callee, .mk .group o _, typeArgs] =>
    .mk .call origin [callee, .mk .group o args, typeArgs]
  | n => n

mutual

/-- The plain calls in a tree, each before those inside it, in visiting order. -/
def calls : Node → List Node
  | .mk form origin parts =>
    let inner := callsIn parts
    match form with
    | .call => .mk form origin parts :: inner
    | _ => inner

def callsIn : List Node → List Node
  | [] => []
  | n :: rest => calls n ++ callsIn rest

end

mutual

/-- Changes every node, each after its parts. -/
def map (f : Node → Node) : Node → Node
  | .mk form origin parts => f (.mk form origin (mapAll f parts))

def mapAll (f : Node → Node) : List Node → List Node
  | [] => []
  | n :: rest => map f n :: mapAll f rest

end

end CallExpander.Node
