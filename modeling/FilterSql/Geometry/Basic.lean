/-!
# Geometries

Shapes over positions. The rings of a polygon are closed: making a polygon appends the first position
to a ring whose ends differ.

The type of positions is a parameter, since the shapes do not depend on it.
-/

namespace FilterSql

/-- A position in the plane: longitude and latitude, or easting and northing. -/
structure Position where
  x : Float
  y : Float
deriving BEq, Inhabited

namespace Geometry

/-- A polygon: its outer ring and its holes. -/
structure Polygon (P : Type) where
  exterior : List P
  interiors : List (List P)

/-- The ring, with its first position appended if its ends differ. -/
def closeRing {P : Type} [BEq P] (ring : List P) : List P :=
  if ring.head? == ring.getLast? then ring else ring ++ ring.take 1

/-- The polygon of the given rings, each of them closed. -/
def Polygon.close {P : Type} [BEq P] (exterior : List P) (interiors : List (List P)) : Polygon P :=
  ⟨closeRing exterior, interiors.map closeRing⟩

/-- The polygon whose first ring is the outer one. -/
def Polygon.ofRings {P : Type} [BEq P] : List (List P) → Polygon P
  | [] => .close [] []
  | exterior :: interiors => .close exterior interiors

end Geometry

inductive Geometry (P : Type) where
  | point (position : P)
  | lineString (positions : List P)
  | polygon (shape : Geometry.Polygon P)
  | multiPoint (positions : List P)
  | multiLineString (lines : List (List P))
  | multiPolygon (shapes : List (Geometry.Polygon P))
  | collection (members : List (Geometry P))
  | line (first last : P)
  | rect (low high : P)
  | triangle (first second third : P)

namespace Geometry

variable {P Q ε : Type}

def shapeName : Geometry P → String
  | .point _ => "Point"
  | .lineString _ => "LineString"
  | .polygon _ => "Polygon"
  | .multiPoint _ => "MultiPoint"
  | .multiLineString _ => "MultiLineString"
  | .multiPolygon _ => "MultiPolygon"
  | .collection _ => "GeometryCollection"
  | .line _ _ => "Line"
  | .rect _ _ => "Rect"
  | .triangle _ _ _ => "Triangle"

/-- Applies `f` to every position of a polygon, the outer ring first. -/
def Polygon.mapM [BEq Q] (f : P → Except ε Q) (p : Polygon P) : Except ε (Polygon Q) := do
  let exterior ← p.exterior.mapM f
  let interiors ← p.interiors.mapM (·.mapM f)
  return .close exterior interiors

/-- Applies `f` to every position in order. Only points, lines, polygons and groups of polygons can
be mapped; the name of any other shape is given to `refuse`. -/
def mapM [BEq Q] (refuse : String → ε) (f : P → Except ε Q) : Geometry P → Except ε (Geometry Q)
  | .point c => return .point (← f c)
  | .lineString cs => return .lineString (← cs.mapM f)
  | .polygon p => return .polygon (← p.mapM f)
  | .multiPolygon ps => return .multiPolygon (← ps.mapM (·.mapM f))
  | other => .error (refuse other.shapeName)

end Geometry

end FilterSql
