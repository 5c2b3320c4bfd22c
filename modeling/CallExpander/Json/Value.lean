import CallExpander.Number.Render
import CallExpander.Table

/-!
Data values. An object keeps its entries sorted by key, one entry per key, so that two objects with
the same entries are the same value.
-/

namespace CallExpander

open Number

/-- A number in a data value: an exact integer, or a finite double. -/
inductive JsonNumber where
  | int (n : Int)
  | float (x : Binary64)
  deriving Repr, DecidableEq, Inhabited

inductive Json where
  | null
  | bool (b : Bool)
  | num (n : JsonNumber)
  | str (s : String)
  | arr (items : List Json)
  | obj (entries : List (String × Json))
  deriving Repr, Inhabited

namespace Json

mutual

def same : Json → Json → Bool
  | .null, .null => true
  | .bool a, .bool b => a == b
  | .num a, .num b => a == b
  | .str a, .str b => a == b
  | .arr a, .arr b => sameItems a b
  | .obj a, .obj b => sameEntries a b
  | _, _ => false

def sameItems : List Json → List Json → Bool
  | [], [] => true
  | a :: as, b :: bs => same a b && sameItems as bs
  | _, _ => false

def sameEntries : List (String × Json) → List (String × Json) → Bool
  | [], [] => true
  | (k, a) :: as, (l, b) :: bs => k == l && same a b && sameEntries as bs
  | _, _ => false

end

/-- An object of the given entries; the last entry of a key counts. -/
def object (entries : List (String × Json)) : Json :=
  .obj (entries.foldl (fun table entry => Table.insert entry.1 entry.2 table) [])

def ofInt (n : Int) : Json := .num (.int n)

def ofNat (n : Nat) : Json := .num (.int n)

/-- The value, or null. -/
def ofOption {α : Type} (f : α → Json) : Option α → Json
  | none => .null
  | some a => f a

/-- The entry of a key; none if the value is no object or has no such key. -/
def get? (value : Json) (key : String) : Option Json :=
  match value with
  | .obj entries => Table.get? key entries
  | _ => none

def str? : Json → Option String
  | .str s => some s
  | _ => none

def bool? : Json → Option Bool
  | .bool b => some b
  | _ => none

def arr? : Json → Option (List Json)
  | .arr items => some items
  | _ => none

def nat? : Json → Option Nat
  | .num (.int n) => if 0 ≤ n then some n.toNat else none
  | _ => none

def getStr? (value : Json) (key : String) : Option String :=
  (value.get? key).bind str?

/-- The list at a key; empty if there is none. -/
def getList (value : Json) (key : String) : List Json :=
  ((value.get? key).bind arr?).getD []

end Json

/-- The double nearest to a number. -/
def JsonNumber.toBinary64 : JsonNumber → Binary64
  | .int n => Binary64.ofInt n
  | .float x => x

end CallExpander
