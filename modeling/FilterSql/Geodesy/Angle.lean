/-!
# Angles

Angles are in radians. A longitude may overshoot half a turn a little, so that it does not change
sign at the date line.
-/

namespace FilterSql.Geodesy

def pi : Float := 3.14159265358979323846

def halfPi : Float := 1.57079632679489661923

def quarterPi : Float := 0.78539816339744830962

def fullTurn : Float := 6.28318530717958647693

def toRadians (degrees : Float) : Float := degrees * (pi / 180.0)

def toDegrees (radians : Float) : Float := radians * (180.0 / pi)

def ofArcSeconds (seconds : Float) : Float := seconds * (pi / 180.0 / 3600.0)

/-- The longitude brought back to within half a turn of zero. -/
def wrapLongitude (lon : Float) : Float :=
  if lon.abs < pi + 1.0e-12 then lon
  else
    let shifted := lon + pi
    shifted - fullTurn * (shifted / fullTurn).floor - pi

/-- The length of the hypotenuse. -/
def hypot (x y : Float) : Float := (x * x + y * y).sqrt

/-- A longitude and a latitude. -/
structure Geodetic where
  lon : Float
  lat : Float

end FilterSql.Geodesy
