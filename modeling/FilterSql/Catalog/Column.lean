import FilterSql.Schema.Leaf
import FilterSql.Text.LowerCase

/-!
# Columns

The SQL that property paths stand for. Paths are looked up ignoring ASCII case.
-/

namespace FilterSql.Catalog

open Text

structure Column where
  /-- The property path as filters write it. -/
  path : String
  /-- The column or expression that is selected. -/
  query : String
  typeName : String
  /-- The expression to filter by, where it is not the selected one. -/
  condition : Option String
deriving Repr, DecidableEq

namespace Column

/-- The SQL of the column in a filter. -/
def filterSql (c : Column) : String := c.condition.getD c.query

def kind (c : Column) : Edm.Kind := .ofTypeName (trim c.typeName)

/-- The column of a leaf of a schema: its path in small letters, with underscores. -/
def ofLeaf (leaf : Schema.Leaf) : Column where
  path := leaf.path
  query := toLower (String.ofList (leaf.path.toList.map fun c => if c == '/' then '_' else c))
  typeName := leaf.typeName
  condition := none

end Column

structure ColumnMap where
  columns : List Column
deriving Repr, DecidableEq

namespace ColumnMap

def empty : ColumnMap := ⟨[]⟩

def get? (m : ColumnMap) (path : String) : Option Column :=
  m.columns.find? (sameName ·.path path)

/-- One column for each leaf. -/
def ofLeaves (leaves : List Schema.Leaf) : ColumnMap := ⟨leaves.map .ofLeaf⟩

end ColumnMap

end FilterSql.Catalog
