import FilterSql.Edm.Kind

/-!
# Function catalogs

The functions that filters may call, and the SQL they stand for. A template has numbered
placeholders for the arguments. A function on text patterns may add a wildcard to its second argument.
Names are looked up ignoring ASCII case.
-/

namespace FilterSql.Catalog

open Text

/-- The side of a pattern that gets the wildcard. -/
inductive WildcardSide
  | left
  | right
  | both
deriving Repr, DecidableEq

structure SqlFunction where
  name : String
  template : String
  argumentTypes : List String
  returnType : String
  wildcardSide : Option WildcardSide
  wildcardSymbol : Option String
deriving Repr, DecidableEq

namespace SqlFunction

/-- A function without arguments. -/
def plain (name template returnType : String) : SqlFunction :=
  ⟨name, template, [], returnType, none, none⟩

def arity (f : SqlFunction) : Nat := f.argumentTypes.length

/-- The family of an argument; unknown past the end. -/
def argumentFamily (f : SqlFunction) (index : Nat) : Edm.Family :=
  (f.argumentTypes[index]?).elim .unknown .ofTypeName

def returnsBoolean (f : SqlFunction) : Bool := sameName (trim f.returnType) Edm.booleanTypeName

def symbol (f : SqlFunction) : String := f.wildcardSymbol.getD "%"

/-- The pattern with the wildcard on its side. -/
def applyWildcard (f : SqlFunction) (pattern : String) : String :=
  match f.wildcardSide with
  | some .right => pattern ++ f.symbol
  | some .left => f.symbol ++ pattern
  | some .both => f.symbol ++ pattern ++ f.symbol
  | none => pattern

/-- The second argument of a distance is a unit. -/
def isDistance (f : SqlFunction) : Bool := sameName f.name "distance"

end SqlFunction

structure FunctionCatalog where
  functions : List SqlFunction
deriving Repr, DecidableEq

namespace FunctionCatalog

def empty : FunctionCatalog := ⟨[]⟩

def get? (c : FunctionCatalog) (name : String) : Option SqlFunction :=
  c.functions.find? (sameName ·.name name)

/-- Puts a function in the place of the first one with its name. -/
def replaceFirst (f : SqlFunction) : List SqlFunction → List SqlFunction
  | [] => [f]
  | g :: gs => if sameName g.name f.name then f :: gs else g :: replaceFirst f gs

/-- Adds a function, or replaces the one with its name. -/
def insert (c : FunctionCatalog) (f : SqlFunction) : FunctionCatalog :=
  ⟨replaceFirst f c.functions⟩

def names (c : FunctionCatalog) : List String := c.functions.map (·.name)

end FunctionCatalog

end FilterSql.Catalog
