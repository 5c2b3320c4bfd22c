/-!
Tables: entries in the order of their keys, one entry a key, so that two tables with the same
entries are the same list.
-/

namespace CallExpander.Table

variable {α : Type}

def get? (key : String) (table : List (String × α)) : Option α :=
  (table.find? fun entry => entry.1 == key).map (·.2)

def contains (key : String) (table : List (String × α)) : Bool :=
  table.any fun entry => entry.1 == key

/-- Puts an entry in its place, over the entry with the same key if there is one. -/
def insert (key : String) (value : α) : List (String × α) → List (String × α)
  | [] => [(key, value)]
  | (k, v) :: rest =>
    if key < k then (key, value) :: (k, v) :: rest
    else if key = k then (key, value) :: rest
    else (k, v) :: insert key value rest

def erase (key : String) (table : List (String × α)) : List (String × α) :=
  table.filter fun entry => entry.1 != key

def keys (table : List (String × α)) : List String :=
  table.map (·.1)

end CallExpander.Table
