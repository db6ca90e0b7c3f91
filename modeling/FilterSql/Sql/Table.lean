/-!
# Tables in order of insertion

A table holds one value for each of its keys, in the order in which the keys were first inserted.
Inserting a key that is present changes its value and keeps its place.
-/

namespace FilterSql.Sql

structure Table (κ ν : Type) where
  entries : List (κ × ν)

namespace Table

variable {κ ν : Type} [DecidableEq κ]

def empty : Table κ ν := ⟨[]⟩

def isEmpty (t : Table κ ν) : Bool := t.entries.isEmpty

def keys (t : Table κ ν) : List κ := t.entries.map (·.1)

def get? (t : Table κ ν) (key : κ) : Option ν :=
  (t.entries.find? (·.1 = key)).map (·.2)

def contains (t : Table κ ν) (key : κ) : Bool := (t.get? key).isSome

/-- Sets the value of the first entry with the key, or appends one. -/
def put (key : κ) (value : ν) : List (κ × ν) → List (κ × ν)
  | [] => [(key, value)]
  | e :: es => if e.1 = key then (e.1, value) :: es else e :: put key value es

def insert (t : Table κ ν) (key : κ) (value : ν) : Table κ ν := ⟨put key value t.entries⟩

/-- The table without the entry of a key. -/
def erase (t : Table κ ν) (key : κ) : Table κ ν := ⟨t.entries.eraseP (·.1 = key)⟩

/-- The value of a key, and the table without its entry. -/
def remove (t : Table κ ν) (key : κ) : Option ν × Table κ ν := (t.get? key, t.erase key)

/-- The table with its keys renamed. -/
def mapKeys {κ' : Type} (f : κ → κ') (t : Table κ ν) : Table κ' ν :=
  ⟨t.entries.map fun e => (f e.1, e.2)⟩

end Table

end FilterSql.Sql
