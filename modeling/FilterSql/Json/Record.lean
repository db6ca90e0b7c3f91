import FilterSql.Json.Value

/-!
# Records in JSON

A record is an object, or the list of its leading fields in order. Fields that the record does not
have are ignored in an object. A choice between names is a name, or an object with that name and
nothing to it. The readers of single values fail on a value of another type.
-/

namespace FilterSql.Json

/-- What becomes of items of a list that a record has no fields for, and of names beside the one that
is chosen. -/
inductive Surplus
  | refused
  | ignored
deriving Repr, DecidableEq

/-- The value as a record with the given field names. -/
def record? (surplus : Surplus) (names : List String) : Json → Option Json
  | .object fields => some (.object fields)
  | .array items =>
    if surplus = .ignored ∨ items.length ≤ names.length then some (.object (names.zip items))
    else none
  | _ => none

/-- The least of some names. -/
def leastName? : List String → Option String
  | [] => none
  | name :: names => some (names.foldl (fun least n => if n < least then n else least) name)

/-- The name that a value chooses. Of several names in an object, the least one counts. -/
def choice? (surplus : Surplus) : Json → Option String
  | .string name => some name
  | .object fields => do
    let least ← leastName? (fields.map (·.1))
    let isAlone := fields.all (·.1 == least)
    match (Json.object fields).field? least with
    | some .null => if surplus = .ignored ∨ isAlone then some least else none
    | _ => none
  | _ => none

def string? : Json → Option String
  | .string s => some s
  | _ => none

def char? : Json → Option Char
  | .string s =>
    match s.toList with
    | [c] => some c
    | _ => none
  | _ => none

/-- An integer of 32 bits. -/
def int32? : Json → Option Int
  | .integer n => if Decimal.fitsInt32 n then some n else none
  | _ => none

/-- A natural number of 64 bits. -/
def nat64? : Json → Option Nat
  | .integer n => if 0 ≤ n && n ≤ Decimal.maxNat64 then some n.toNat else none
  | _ => none

/-- A list whose items can all be read. -/
def list? {α : Type} (item : Json → Option α) : Json → Option (List α)
  | .array items => items.mapM item
  | _ => none

/-- A field that must be there. -/
def required? {α : Type} (read : Json → Option α) (name : String) (v : Json) : Option α :=
  (v.field? name).bind read

/-- A field that may be missing, which stands for `default`. -/
def withDefault? {α : Type} (read : Json → Option α) (default : α) (name : String) (v : Json) :
    Option α :=
  match v.field? name with
  | none => some default
  | some field => read field

/-- A field that may be missing or null. -/
def optional? {α : Type} (read : Json → Option α) (name : String) (v : Json) :
    Option (Option α) :=
  match v.field? name with
  | none | some .null => some none
  | some field => (read field).map some

/-- A field that is left out when there is nothing to write. -/
def optionalField (name : String) (value : Option Json) : List (String × Json) :=
  value.elim [] fun v => [(name, v)]

end FilterSql.Json
