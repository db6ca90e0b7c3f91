import FilterSql.Geodesy.Datum

/-!
# Oblique stereographic projection

The ellipsoid is first mapped to the Gaussian sphere that touches it at the origin, and the sphere is
then projected from the point opposite to the origin. Coordinates are in units of the semi-major axis.
-/

namespace FilterSql.Geodesy.ObliqueStereographic

/-- The Gaussian sphere at an origin, and the constants of the projection. -/
structure Sphere where
  eccentricity : Float
  /-- The exponent of the conformal map. -/
  exponent : Float
  factor : Float
  ratioExponent : Float
  originSin : Float
  originCos : Float
  originLatitude : Float
  diameter : Float
  scale : Float

def ratio (esin exponent : Float) : Float := ((1.0 - esin) / (1.0 + esin)).pow exponent

def Sphere.of (e : Ellipsoid) (originLatitude scale : Float) : Sphere :=
  let ecc := e.eccentricity
  let es := ecc * ecc
  let sinLat := originLatitude.sin
  let cosSq := originLatitude.cos * originLatitude.cos
  let radius := (1.0 - es).sqrt / (1.0 - es * sinLat * sinLat)
  let c := (1.0 + es * cosSq * cosSq / (1.0 - es)).sqrt
  let chi := (sinLat / c).asin
  let ratioExponent := 0.5 * c * ecc
  { eccentricity := ecc
    exponent := c
    factor := (0.5 * chi + quarterPi).tan /
      ((0.5 * originLatitude + quarterPi).tan.pow c * ratio (ecc * sinLat) ratioExponent)
    ratioExponent
    originSin := chi.sin
    originCos := chi.cos
    originLatitude := chi
    diameter := 2.0 * radius
    scale }

def Sphere.ofEllipsoid (s : Sphere) (p : Geodetic) : Geodetic where
  lon := s.exponent * p.lon
  lat := 2.0 * (s.factor * (0.5 * p.lat + quarterPi).tan.pow s.exponent *
    ratio (s.eccentricity * p.lat.sin) s.ratioExponent).atan - halfPi

/-- Improves a latitude until two successive ones agree, at most `steps` times. -/
def refine? (eccentricity base : Float) : Nat → Float → Option Float
  | 0, _ => none
  | steps + 1, lat =>
    let next :=
      2.0 * (base * ratio (eccentricity * lat.sin) (-0.5 * eccentricity)).atan - halfPi
    if (next - lat).abs < 1.0e-14 then some next else refine? eccentricity base steps next

def Sphere.toEllipsoid? (s : Sphere) (p : Geodetic) : Option Geodetic :=
  let base := ((0.5 * p.lat + quarterPi).tan / s.factor).pow (1.0 / s.exponent)
  (refine? s.eccentricity base 20 p.lat).map fun lat => ⟨p.lon / s.exponent, lat⟩

def forward (s : Sphere) (p : Geodetic) : Float × Float :=
  let q := s.ofEllipsoid p
  let sinLat := q.lat.sin
  let cosLat := q.lat.cos
  let cosLon := q.lon.cos
  let k := s.scale * s.diameter / (1.0 + s.originSin * sinLat + s.originCos * cosLat * cosLon)
  (k * cosLat * q.lon.sin, k * (s.originCos * sinLat - s.originSin * cosLat * cosLon))

def inverse? (s : Sphere) (x y : Float) : Option Geodetic :=
  let x := x / s.scale
  let y := y / s.scale
  let rho := hypot x y
  if rho == 0.0 then s.toEllipsoid? ⟨0.0, s.originLatitude⟩
  else
    let c := 2.0 * rho.atan2 s.diameter
    let sinC := c.sin
    let cosC := c.cos
    s.toEllipsoid?
      { lon := (x * sinC).atan2 (rho * s.originCos * cosC - y * s.originSin * sinC)
        lat := (cosC * s.originSin + y * sinC * s.originCos / rho).asin }

end FilterSql.Geodesy.ObliqueStereographic
