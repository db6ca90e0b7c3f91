import FilterSql.Text.Blank
import FilterSql.Text.Split

/-!
# The outline of well-known text

Whether a text has the outline of a geometry: a keyword, an optional tag for further dimensions, and
an opening parenthesis or `EMPTY`. Blanks may stand between them. The rest of the text is not looked
at, so a text with this outline need not be a geometry.
-/

namespace FilterSql.Geometry.Wkt

open Text

/-- The keywords, those that start with another one first. -/
def outlineKeywords : List String :=
  ["GEOMETRYCOLLECTION", "MULTILINESTRING", "MULTIPOLYGON", "MULTIPOINT", "LINESTRING", "POLYGON",
    "POINT"]

/-- Drops the first of the given texts that stands at the start. -/
def dropFirst? (heads : List String) (cs : List Char) : Option (List Char) :=
  heads.findSome? fun head => dropPrefix? head.toList cs

/-- Whether the text has the outline of a geometry, in any case. -/
def hasOutline (text : String) : Bool :=
  match dropFirst? outlineKeywords ((dropBlanks text.toList).map Char.toUpper) with
  | none => false
  | some rest =>
    let rest := dropBlanks rest
    let rest := match dropFirst? ["ZM", "Z", "M"] rest with
      | some after => dropBlanks after
      | none => rest
    (dropFirst? ["(", "EMPTY"] rest).isSome

end FilterSql.Geometry.Wkt
