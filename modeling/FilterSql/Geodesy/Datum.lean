import FilterSql.Geodesy.Angle

/-!
# Ellipsoids and datum shifts

A datum is an ellipsoid and its place relative to the common one. Going from one datum to another
passes through geocentric coordinates: earth-centred rectangular ones, moved by a shift with seven
parameters.
-/

namespace FilterSql.Geodesy

/-- An ellipsoid: its semi-major axis and the square of its eccentricity. -/
structure Ellipsoid where
  major : Float
  eccentricitySq : Float

/-- The ellipsoid of a semi-major axis and an inverse flattening. -/
def Ellipsoid.ofInverseFlattening (major inverse : Float) : Ellipsoid :=
  let f := 1.0 / inverse
  ⟨major, 2.0 * f - f * f⟩

def Ellipsoid.eccentricity (e : Ellipsoid) : Float := e.eccentricitySq.sqrt

def Ellipsoid.wgs84 : Ellipsoid := .ofInverseFlattening 6378137.0 298.257223563

def Ellipsoid.grs80 : Ellipsoid := .ofInverseFlattening 6378137.0 298.257222101

def Ellipsoid.bessel : Ellipsoid := .ofInverseFlattening 6377397.155 299.1528128

def Ellipsoid.sphere (radius : Float) : Ellipsoid := ⟨radius, 0.0⟩

/-- Seven parameters of a shift: metres, arc seconds, and parts per million. -/
structure Shift where
  dx : Float
  dy : Float
  dz : Float
  rx : Float
  ry : Float
  rz : Float
  scale : Float
deriving BEq

def Shift.zero : Shift := ⟨0.0, 0.0, 0.0, 0.0, 0.0, 0.0, 0.0⟩

structure Geocentric where
  x : Float
  y : Float
  z : Float

def Shift.factor (s : Shift) : Float := 1.0 + s.scale / 1000000.0

/-- To the common datum. -/
def Shift.apply (s : Shift) (p : Geocentric) : Geocentric :=
  let m := s.factor
  let rx := ofArcSeconds s.rx
  let ry := ofArcSeconds s.ry
  let rz := ofArcSeconds s.rz
  { x := s.dx + m * (p.x - rz * p.y + ry * p.z)
    y := s.dy + m * (rz * p.x + p.y - rx * p.z)
    z := s.dz + m * (-ry * p.x + rx * p.y + p.z) }

/-- From the common datum. -/
def Shift.revert (s : Shift) (p : Geocentric) : Geocentric :=
  let m := s.factor
  let rx := ofArcSeconds s.rx
  let ry := ofArcSeconds s.ry
  let rz := ofArcSeconds s.rz
  let x := (p.x - s.dx) / m
  let y := (p.y - s.dy) / m
  let z := (p.z - s.dz) / m
  { x := x + rz * y - ry * z
    y := -rz * x + y + rx * z
    z := ry * x - rx * y + z }

structure Datum where
  ellipsoid : Ellipsoid
  /-- The shift to the common datum; `none` for the common datum itself. -/
  shift : Option Shift

/-- Geocentric coordinates of a point on the ellipsoid, or nothing for a latitude beyond a pole. A
latitude that is beyond it by rounding only is taken as the pole. -/
def Ellipsoid.toGeocentric? (e : Ellipsoid) (p : Geodetic) : Option Geocentric :=
  let lat? : Option Float :=
    if p.lat < -halfPi && p.lat > -1.001 * halfPi then some (-halfPi)
    else if p.lat > halfPi && p.lat < 1.001 * halfPi then some halfPi
    else if -halfPi ≤ p.lat && p.lat ≤ halfPi then some p.lat
    else none
  lat?.map fun lat =>
    let lon := if p.lon > pi then p.lon - fullTurn else p.lon
    let radius := e.major / (1.0 - e.eccentricitySq * (lat.sin * lat.sin)).sqrt
    { x := radius * lat.cos * lon.cos
      y := radius * lat.cos * lon.sin
      z := radius * (1.0 - e.eccentricitySq) * lat.sin }

/-- The state of the search for a latitude: its cosine and sine. -/
structure LatitudeGuess where
  cos : Float
  sin : Float

/-- Improves a guess until two successive latitudes agree, at most `steps` times. -/
def refineLatitude (e : Ellipsoid) (radial z cosT sinT : Float) : Nat → LatitudeGuess →
    LatitudeGuess
  | 0, guess => guess
  | steps + 1, guess =>
    let es := e.eccentricitySq
    let rn := e.major / (1.0 - es * guess.sin * guess.sin).sqrt
    let height := radial * guess.cos + z * guess.sin - rn * (1.0 - es * guess.sin * guess.sin)
    let rk := es * rn / (rn + height)
    let rx := 1.0 / (1.0 - rk * (2.0 - rk) * sinT * sinT).sqrt
    let next : LatitudeGuess := ⟨sinT * (1.0 - rk) * rx, cosT * rx⟩
    let change := next.sin * guess.cos - next.cos * guess.sin
    if change * change > 1.0e-24 then refineLatitude e radial z cosT sinT steps next else next

/-- The point of the ellipsoid below geocentric coordinates. -/
def Ellipsoid.ofGeocentric (e : Ellipsoid) (p : Geocentric) : Geodetic :=
  let radial := (p.x * p.x + p.y * p.y).sqrt
  let distance := (p.x * p.x + p.y * p.y + p.z * p.z).sqrt
  let atAxis := radial / e.major < 1.0e-12
  let lon := if atAxis then 0.0 else p.y.atan2 p.x
  if atAxis && distance / e.major < 1.0e-12 then ⟨lon, halfPi⟩
  else
    let es := e.eccentricitySq
    let cosT := p.z / distance
    let sinT := radial / distance
    let rx := 1.0 / (1.0 - es * (2.0 - es) * sinT * sinT).sqrt
    let found := refineLatitude e radial p.z cosT sinT 30 ⟨sinT * (1.0 - es) * rx, cosT * rx⟩
    ⟨lon, (found.sin / found.cos.abs).atan⟩

/-- Whether two data describe the same points by the same angles. -/
def Datum.agrees (a b : Datum) : Bool :=
  a.shift == b.shift && a.ellipsoid.major == b.ellipsoid.major &&
    (a.ellipsoid.eccentricitySq - b.ellipsoid.eccentricitySq).abs < 5.0e-11

/-- The same point in another datum. -/
def Datum.convert? (source target : Datum) (p : Geodetic) : Option Geodetic :=
  if source.agrees target then some p
  else
    (source.ellipsoid.toGeocentric? p).map fun c =>
      let common := match source.shift with
        | some s => s.apply c
        | none => c
      let moved := match target.shift with
        | some s => s.revert common
        | none => common
      target.ellipsoid.ofGeocentric moved

end FilterSql.Geodesy
