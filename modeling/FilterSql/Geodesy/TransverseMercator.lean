import FilterSql.Geodesy.Datum

/-!
# Transverse Mercator projection of the ellipsoid

The projection goes through the Gaussian sphere with trigonometric series of sixth order in the third
flattening. Coordinates are in units of the semi-major axis, from the crossing of the equator and the
central meridian. Points more than about 150 degrees away from the central meridian have no image.
-/

namespace FilterSql.Geodesy.TransverseMercator

/-- Coefficients of the series for one ellipsoid and scale. -/
structure Series where
  /-- Gaussian to geodetic latitude. -/
  toGeodetic : List Float
  /-- Geodetic to Gaussian latitude. -/
  toGaussian : List Float
  /-- Ellipsoidal to spherical northing and easting. -/
  toSphere : List Float
  /-- Spherical to ellipsoidal northing and easting. -/
  toEllipsoid : List Float
  /-- The meridian quadrant with the scale. -/
  quadrant : Float

/-- A polynomial with the constant coefficient first. -/
def polynomial (n : Float) (coefficients : List Float) : Float :=
  coefficients.foldr (fun c value => c + n * value) 0.0

/-- Polynomials, the `i`-th of them times `n ^ (i + 1)`. -/
def inPowers (n : Float) : Float → List (List Float) → List Float
  | _, [] => []
  | power, cs :: rest => power * polynomial n cs :: inPowers n (power * n) rest

def Series.of (e : Ellipsoid) (scale : Float) : Series :=
  let f := e.eccentricitySq / (1.0 + (1.0 - e.eccentricitySq).sqrt)
  let n := f / (2.0 - f)
  let nn := n * n
  { toGeodetic := inPowers n n
      [[2.0, -2.0 / 3.0, -2.0, 116.0 / 45.0, 26.0 / 45.0, -2854.0 / 675.0],
       [7.0 / 3.0, -8.0 / 5.0, -227.0 / 45.0, 2704.0 / 315.0, 2323.0 / 945.0],
       [56.0 / 15.0, -136.0 / 35.0, -1262.0 / 105.0, 73814.0 / 2835.0],
       [4279.0 / 630.0, -332.0 / 35.0, -399572.0 / 14175.0],
       [4174.0 / 315.0, -144838.0 / 6237.0],
       [601676.0 / 22275.0]]
    toGaussian := inPowers n n
      [[-2.0, 2.0 / 3.0, 4.0 / 3.0, -82.0 / 45.0, 32.0 / 45.0, 4642.0 / 4725.0],
       [5.0 / 3.0, -16.0 / 15.0, -13.0 / 9.0, 904.0 / 315.0, -1522.0 / 945.0],
       [-26.0 / 15.0, 34.0 / 21.0, 8.0 / 5.0, -12686.0 / 2835.0],
       [1237.0 / 630.0, -12.0 / 5.0, -24832.0 / 14175.0],
       [-734.0 / 315.0, 109598.0 / 31185.0],
       [444337.0 / 155925.0]]
    toSphere := inPowers n n
      [[-0.5, 2.0 / 3.0, -37.0 / 96.0, 1.0 / 360.0, 81.0 / 512.0, -96199.0 / 604800.0],
       [-1.0 / 48.0, -1.0 / 15.0, 437.0 / 1440.0, -46.0 / 105.0, 1118711.0 / 3870720.0],
       [-17.0 / 480.0, 37.0 / 840.0, 209.0 / 4480.0, -5569.0 / 90720.0],
       [-4397.0 / 161280.0, 11.0 / 504.0, 830251.0 / 7257600.0],
       [-4583.0 / 161280.0, 108847.0 / 3991680.0],
       [-20648693.0 / 638668800.0]]
    toEllipsoid := inPowers n n
      [[0.5, -2.0 / 3.0, 5.0 / 16.0, 41.0 / 180.0, -127.0 / 288.0, 7891.0 / 37800.0],
       [13.0 / 48.0, -3.0 / 5.0, 557.0 / 1440.0, 281.0 / 630.0, -1983433.0 / 1935360.0],
       [61.0 / 240.0, -103.0 / 140.0, 15061.0 / 26880.0, 167603.0 / 181440.0],
       [49561.0 / 161280.0, -179.0 / 168.0, 6601661.0 / 7257600.0],
       [34729.0 / 80640.0, -3418889.0 / 1995840.0],
       [212378941.0 / 319334400.0]]
    quadrant :=
      scale / (1.0 + n) * (1.0 + nn * (1.0 / 4.0 + nn * (1.0 / 64.0 + nn / 256.0))) }

/-- The latitude plus a sine series of its double. -/
def convertLatitude (coefficients : List Float) (lat : Float) : Float :=
  let r := 2.0 * (2.0 * lat).cos
  let (h, _) := coefficients.foldr (fun c (h1, h2) => (-h2 + r * h1 + c, h1)) (0.0, 0.0)
  lat + h * (2.0 * lat).sin

/-- A sine series of the complex argument `re + i * im`. -/
def complexSeries (coefficients : List Float) (re im : Float) : Float × Float :=
  let r := 2.0 * re.cos * im.cosh
  let i := -2.0 * re.sin * im.sinh
  let start : (Float × Float) × (Float × Float) := ((0.0, 0.0), (0.0, 0.0))
  let ((hr, hi), _) := coefficients.foldr
    (fun c (h1, h2) => ((-h2.1 + r * h1.1 - i * h1.2 + c, -h2.2 + i * h1.1 + r * h1.2), h1)) start
  let r := re.sin * im.cosh
  let i := re.cos * im.sinh
  (r * hr - i * hi, r * hi + i * hr)

/-- The largest easting of the normalised sphere that has an image. -/
def maxEasting : Float := 2.623395162778

def forward? (s : Series) (p : Geodetic) : Option (Float × Float) :=
  let gaussian := convertLatitude s.toGaussian p.lat
  let north := gaussian.sin.atan2 (p.lon.cos * gaussian.cos)
  let east := (p.lon.sin * gaussian.cos).atan2 (hypot gaussian.sin (gaussian.cos * p.lon.cos))
  let east := east.tan.asinh
  let (dn, de) := complexSeries s.toEllipsoid (2.0 * north) (2.0 * east)
  let north := north + dn
  let east := east + de
  if east.abs ≤ maxEasting then some (s.quadrant * east, s.quadrant * north) else none

def inverse? (s : Series) (x y : Float) : Option Geodetic :=
  let north := y / s.quadrant
  let east := x / s.quadrant
  if east.abs ≤ maxEasting then
    let (dn, de) := complexSeries s.toSphere (2.0 * north) (2.0 * east)
    let north := north + dn
    let east := (east + de).sinh.atan
    let lon := east.sin.atan2 (east.cos * north.cos)
    let gaussian := (north.sin * east.cos).atan2 (hypot east.sin (east.cos * north.cos))
    some ⟨lon, convertLatitude s.toGeodetic gaussian⟩
  else none

end FilterSql.Geodesy.TransverseMercator
