import CallExpander.Json.Value
import CallExpander.Table
import CallExpander.Text.Quoted

/-!
What handlers remember: values by key, integers or texts. Asking for a value of one kind where a
value of the other kind is stored finds nothing.
-/

namespace CallExpander

inductive Memo where
  | int (n : Int)
  | text (s : String)
  deriving Repr, DecidableEq, Inhabited

def Memo.toJson : Memo → Json
  | .int n => .ofInt n
  | .text s => .str s

/-- The value that data stands for, if it is an integer or a text. -/
def Memo.ofJson? : Json → Option Memo
  | .num (.int n) => some (.int n)
  | .str s => some (.text s)
  | _ => none

structure Memory where
  entries : List (String × Memo) := []
  deriving Repr, DecidableEq, Inhabited

namespace Memory

def get? (memory : Memory) (key : String) : Option Memo :=
  Table.get? key memory.entries

def getInt? (memory : Memory) (key : String) : Option Int :=
  match memory.get? key with
  | some (.int n) => some n
  | _ => none

def getText? (memory : Memory) (key : String) : Option String :=
  match memory.get? key with
  | some (.text s) => some s
  | _ => none

def insert (memory : Memory) (key : String) (value : Memo) : Memory :=
  ⟨Table.insert key value memory.entries⟩

def erase (memory : Memory) (key : String) : Memory :=
  ⟨Table.erase key memory.entries⟩

def contains (memory : Memory) (key : String) : Bool :=
  Table.contains key memory.entries

def size (memory : Memory) : Nat := memory.entries.length

def isEmpty (memory : Memory) : Bool := memory.entries.isEmpty

/-- The keys as a set. -/
def render (memory : Memory) : String :=
  "\x7b" ++ String.intercalate ", " ((Table.keys memory.entries).map Text.quoted) ++ "\x7d"

inductive Action where
  | set (value : Option Memo)
  | getInt
  | getText
  | bump
  | remove
  | contains
  | isEmpty
  | size
  | clear
  | render
  deriving Repr, DecidableEq, Inhabited

def Action.ofName? (name : String) (value : Json) : Option Action :=
  match name with
  | "set" => some (.set (Memo.ofJson? value))
  | "get_int" => some .getInt
  | "get_text" => some .getText
  | "bump" => some .bump
  | "remove" => some .remove
  | "contains" => some .contains
  | "empty" => some .isEmpty
  | "len" => some .size
  | "clear" => some .clear
  | "debug" => some .render
  | _ => none

/-- The next integer of 64 bits with its sign; the least one follows the greatest one. -/
def successor (n : Int) : Int := Int.bmod (n + 1) (Nat.pow 2 64)

/-- Does one thing: its answer, and the memory after it. An integer is bumped to the next one; what
is no integer is replaced by one. -/
def act (memory : Memory) (key : String) : Action → Json × Memory
  | .set value =>
    (Json.ofOption Memo.toJson (memory.get? key), memory.insert key (value.getD (.int 0)))
  | .getInt => (Json.ofOption .ofInt (memory.getInt? key), memory)
  | .getText => (Json.ofOption .str (memory.getText? key), memory)
  | .bump =>
    match memory.getInt? key with
    | some n => (.ofInt (successor n), memory.insert key (.int (successor n)))
    | none =>
      (.arr [.ofInt 1, Json.ofOption Memo.toJson (memory.get? key)], memory.insert key (.int 1))
  | .remove => (.bool (memory.contains key), memory.erase key)
  | .contains => (.bool (memory.contains key), memory)
  | .isEmpty => (.bool memory.isEmpty, memory)
  | .size => (.ofNat memory.size, memory)
  | .clear => (.null, {})
  | .render => (if memory.size ≤ 1 then .str memory.render else .null, memory)

end Memory

end CallExpander
