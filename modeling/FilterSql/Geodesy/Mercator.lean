import FilterSql.Geodesy.Angle

/-!
# Mercator projection of the sphere

Coordinates are in units of the radius. The poles have no image.
-/

namespace FilterSql.Geodesy.Mercator

def forward? (p : Geodetic) : Option (Float × Float) :=
  if (p.lat.abs - halfPi).abs ≤ 1.0e-10 then none else some (p.lon, p.lat.tan.asinh)

def inverse (x y : Float) : Geodetic := ⟨x, y.sinh.atan⟩

end FilterSql.Geodesy.Mercator
