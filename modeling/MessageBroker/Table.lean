/-!
# Tables

A table holds rows under keys, in ascending order of the keys, with one row for every key.
-/

namespace MessageBroker

/-- Rows under keys, in ascending order of the keys. -/
abbrev Table (κ α : Type) :=
  List (κ × α)

namespace Table

variable {κ α : Type}

/-- The row under a key. -/
def get? [DecidableEq κ] (table : Table κ α) (key : κ) : Option α :=
  (table.find? fun row => row.1 = key).map (·.2)

/-- Whether there is a row under a key. -/
def has [DecidableEq κ] (table : Table κ α) (key : κ) : Bool :=
  (table.get? key).isSome

/-- Puts a row under a key, in place of the one there was. -/
def put [DecidableEq κ] [LT κ] [DecidableLT κ] (key : κ) (row : α) : Table κ α → Table κ α
  | [] => [(key, row)]
  | (k, r) :: others =>
    if key < k then (key, row) :: (k, r) :: others
    else if key = k then (key, row) :: others
    else (k, r) :: put key row others

/-- Takes away the row under a key. -/
def erase [DecidableEq κ] (table : Table κ α) (key : κ) : Table κ α :=
  table.filter fun row => row.1 ≠ key

/-- Changes the row under a key. -/
def update [DecidableEq κ] (table : Table κ α) (key : κ) (change : α → α) : Table κ α :=
  table.map fun row => if row.1 = key then (row.1, change row.2) else row

/-- The keys, in ascending order. -/
def keys (table : Table κ α) : List κ :=
  table.map (·.1)

/-- The rows, in ascending order of their keys. -/
def rows (table : Table κ α) : List α :=
  table.map (·.2)

end Table

end MessageBroker
