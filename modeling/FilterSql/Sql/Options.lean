import FilterSql.Geodesy.ReferenceSystem

/-!
# Options of a compilation
-/

namespace FilterSql.Sql

structure Options where
  /-- The first character of parameter names. -/
  sigil : Char := '@'
  /-- The reference system that spatial literals are written in. -/
  sourceSrid : Geodesy.Srid := Geodesy.storageSrid
  /-- The longest filter that is accepted, in characters. -/
  maxLength : Nat := 2000
deriving Repr, DecidableEq

end FilterSql.Sql
