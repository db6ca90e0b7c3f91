import FilterSql.Decimal.Layout
import FilterSql.Geometry.Basic

/-!
# Writing well-known text

The text of a geometry: keyword and body without blanks between them, numbers in the plain layout,
and `EMPTY` for a shape without parts. An outer ring without positions is no part of its polygon.
-/

namespace FilterSql.Geometry.Wkt

def positionText (p : Position) : String := Decimal.plain p.x ++ " " ++ Decimal.plain p.y

/-- Texts with commas between them, in parentheses. -/
def enclosed (items : List String) : String := "(" ++ ",".intercalate items ++ ")"

def ringText (ring : List Position) : String := enclosed (ring.map positionText)

/-- The rings of a polygon that are written. -/
def writtenRings (p : Polygon Position) : List (List Position) :=
  if p.exterior.isEmpty then p.interiors else p.exterior :: p.interiors

/-- Rings in parentheses. No ring at all is written like an empty one. -/
def ringsText (rings : List (List Position)) : String :=
  enclosed ((if rings.isEmpty then [[]] else rings).map ringText)

/-- A keyword with the given body, or `EMPTY` when there is nothing to write. -/
def shapeText {α : Type} (keyword : String) (items : List α) (body : List α → String) : String :=
  if items.isEmpty then keyword ++ " EMPTY" else keyword ++ body items

def text : Geometry Position → String
  | .point p => "POINT" ++ enclosed [positionText p]
  | .lineString ps => shapeText "LINESTRING" ps ringText
  | .polygon p => shapeText "POLYGON" (writtenRings p) ringsText
  | .multiPoint ps => shapeText "MULTIPOINT" ps fun ps => enclosed (ps.map fun p => ringText [p])
  | .multiLineString ls => shapeText "MULTILINESTRING" ls fun ls => enclosed (ls.map ringText)
  | .multiPolygon ps => shapeText "MULTIPOLYGON" ps fun ps => enclosed (ps.map fun p => ringsText (writtenRings p))
  | .collection gs => shapeText "GEOMETRYCOLLECTION" gs fun _ => enclosed (memberTexts gs)
  | .line a b => "LINESTRING" ++ ringText [a, b]
  | .rect a b =>
    "POLYGON" ++ enclosed [ringText [⟨a.x, a.y⟩, ⟨a.x, b.y⟩, ⟨b.x, b.y⟩, ⟨b.x, a.y⟩, ⟨a.x, a.y⟩]]
  | .triangle a b c => "POLYGON" ++ enclosed [ringText [a, b, c, a]]
where
  memberTexts : List (Geometry Position) → List String
    | [] => []
    | g :: gs => text g :: memberTexts gs

end FilterSql.Geometry.Wkt
