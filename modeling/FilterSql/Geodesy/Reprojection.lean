import FilterSql.Geodesy.Mercator
import FilterSql.Geodesy.ObliqueStereographic
import FilterSql.Geodesy.ReferenceSystem
import FilterSql.Geodesy.TransverseMercator
import FilterSql.Geometry.Wkt.Printer
import FilterSql.Geometry.Wkt.Reader

/-!
# Reprojection

Positions go from one reference system to another by undoing the projection of the first, changing
the datum, and applying the projection of the second. A geometry is reprojected position by position;
between a system and itself it keeps its positions.
-/

namespace FilterSql.Geodesy

open FilterSql.Geometry

inductive ReprojectionError
  | notSupported (srid : Srid)
  | unsupportedGeometry (shape : String)
  | invalidText
  | outsideDomain
deriving Repr, DecidableEq

def ReprojectionError.message : ReprojectionError → String
  | .notSupported srid => s!"coordinate reference system EPSG:{srid} is not supported"
  | .unsupportedGeometry shape =>
    s!"geometry type '{shape}' is not supported for coordinate transformation"
  | .invalidText => "invalid geometry text"
  | .outsideDomain => "coordinate transformation failed"

/-- A projection of the plane in units of the semi-major axis, with its central meridian and false
origin. -/
structure Chart where
  meridian : Float
  east : Float
  north : Float
  forward? : Geodetic → Option (Float × Float)
  inverse? : Float → Float → Option Geodetic

/-- The chart of a projection on an ellipsoid; degrees need none. -/
def Projection.chart? (e : Ellipsoid) : Projection → Option Chart
  | .degrees => none
  | .mercator =>
    some ⟨0.0, 0.0, 0.0, Mercator.forward?, fun x y => some (Mercator.inverse x y)⟩
  | .transverseMercator zone =>
    let series := TransverseMercator.Series.of e 0.9996
    let meridian := toRadians ((zone.toFloat - 0.5) * 6.0 - 180.0)
    some ⟨meridian, 500000.0, 0.0, TransverseMercator.forward? series,
      TransverseMercator.inverse? series⟩
  | .obliqueStereographic lat lon scale east north =>
    let sphere := ObliqueStereographic.Sphere.of e (toRadians lat) scale
    some ⟨toRadians lon, east, north, fun p => some (ObliqueStereographic.forward sphere p),
      ObliqueStereographic.inverse? sphere⟩

/-- The angles of a position. -/
def ReferenceSystem.toGeodetic? (r : ReferenceSystem) (p : Position) : Option Geodetic :=
  match r.projection.chart? r.datum.ellipsoid with
  | none => some ⟨toRadians p.x, toRadians p.y⟩
  | some chart =>
    let a := r.datum.ellipsoid.major
    (chart.inverse? ((p.x - chart.east) / a) ((p.y - chart.north) / a)).map fun g =>
      { g with lon := wrapLongitude (g.lon + chart.meridian) }

/-- The position of angles. A projected position needs a latitude and a longitude in range. -/
def ReferenceSystem.ofGeodetic? (r : ReferenceSystem) (g : Geodetic) : Option Position :=
  match r.projection.chart? r.datum.ellipsoid with
  | none => some ⟨toDegrees g.lon, toDegrees g.lat⟩
  | some chart =>
    if g.lat.abs - halfPi > 1.0e-12 || g.lon.abs > 10.0 then none
    else
      let a := r.datum.ellipsoid.major
      (chart.forward? { g with lon := wrapLongitude (g.lon - chart.meridian) }).map fun (x, y) =>
        ⟨a * x + chart.east, a * y + chart.north⟩

/-- A position of `source` in `target`. -/
def reprojectPosition (source target : ReferenceSystem) (p : Position) :
    Except ReprojectionError Position :=
  let found := do
    let g ← source.toGeodetic? p
    let g ← source.datum.convert? target.datum g
    target.ofGeodetic? g
  match found with
  | some q => .ok q
  | none => .error .outsideDomain

/-- Reprojects a geometry. The target is looked up before the source. -/
def reproject (source target : Srid) (g : Geometry Position) :
    Except ReprojectionError (Geometry Position) :=
  match referenceSystem? target, referenceSystem? source with
  | none, _ => .error (.notSupported target)
  | some _, none => .error (.notSupported source)
  | some t, some s =>
    if source = target then g.mapM .unsupportedGeometry .ok
    else g.mapM .unsupportedGeometry (reprojectPosition s t)

/-- Reads a geometry, reprojects it, and writes it. -/
def reprojectText (source target : Srid) (text : String) : Except ReprojectionError String :=
  match Wkt.read? text with
  | none => .error .invalidText
  | some g => (reproject source target g).map Wkt.text

end FilterSql.Geodesy
