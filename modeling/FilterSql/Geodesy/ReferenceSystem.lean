import FilterSql.Decimal.Reader
import FilterSql.Geodesy.Datum
import FilterSql.Text.AsciiCase
import FilterSql.Text.Blank

/-!
# Coordinate reference systems

The closed registry of the systems that geometries can be written in, each with a number, a name, and
its definition as a parameter text and as the values that the text denotes.
-/

namespace FilterSql.Geodesy

/-- The number of a reference system. -/
abbrev Srid := Int

/-- How positions are written: as degrees, or as metres in a projection. -/
inductive Projection
  | degrees
  | mercator
  /-- A zone of the universal transverse Mercator grid. -/
  | transverseMercator (zone : Nat)
  /-- The latitude and longitude of the origin in degrees, the scale, and the false origin. -/
  | obliqueStereographic (lat lon scale east north : Float)

structure ReferenceSystem where
  srid : Srid
  name : String
  definition : String
  datum : Datum
  projection : Projection

/-- Positions are longitudes and latitudes. -/
def ReferenceSystem.isGeographic (r : ReferenceSystem) : Bool :=
  match r.projection with
  | .degrees => true
  | _ => false

/-- The system that spatial columns are stored in. -/
def storageSrid : Srid := 4258

def wgs84Srid : Srid := 4326

def etrs89 : Datum := ⟨.grs80, some .zero⟩

def registry : List ReferenceSystem :=
  [{ srid := 4326
     name := "WGS 84"
     definition := "+proj=longlat +datum=WGS84 +no_defs"
     datum := ⟨.wgs84, none⟩
     projection := .degrees },
   { srid := 4258
     name := "ETRS89"
     definition := "+proj=longlat +ellps=GRS80 +towgs84=0,0,0,0,0,0,0 +no_defs"
     datum := etrs89
     projection := .degrees },
   { srid := 28992
     name := "Amersfoort / RD New"
     definition := "+proj=sterea +lat_0=52.15616055555555 +lon_0=5.38763888888889 +k=0.9999079 " ++
       "+x_0=155000 +y_0=463000 +ellps=bessel " ++
       "+towgs84=565.4171,50.3319,465.5524,1.9342,-1.6677,9.1019,4.0725 +units=m +no_defs"
     datum :=
       ⟨.bessel, some ⟨565.4171, 50.3319, 465.5524, 1.9342, -1.6677, 9.1019, 4.0725⟩⟩
     projection :=
       .obliqueStereographic 52.15616055555555 5.38763888888889 0.9999079 155000.0 463000.0 },
   { srid := 3857
     name := "WGS 84 / Pseudo-Mercator"
     definition := "+proj=merc +a=6378137 +b=6378137 +lat_ts=0 +lon_0=0 +x_0=0 +y_0=0 +k=1 " ++
       "+units=m +towgs84=0,0,0,0,0,0,0 +no_defs"
     datum := ⟨.sphere 6378137.0, some .zero⟩
     projection := .mercator },
   { srid := 25831
     name := "ETRS89 / UTM zone 31N"
     definition := "+proj=utm +zone=31 +ellps=GRS80 +towgs84=0,0,0,0,0,0,0 +units=m +no_defs"
     datum := etrs89
     projection := .transverseMercator 31 },
   { srid := 25832
     name := "ETRS89 / UTM zone 32N"
     definition := "+proj=utm +zone=32 +ellps=GRS80 +towgs84=0,0,0,0,0,0,0 +units=m +no_defs"
     datum := etrs89
     projection := .transverseMercator 32 }]

def referenceSystem? (srid : Srid) : Option ReferenceSystem := registry.find? (·.srid == srid)

def isSupported (srid : Srid) : Bool := (referenceSystem? srid).isSome

/-- The system that a client declares for its content: the storage system when nothing is declared,
`CRS84`, or `EPSG:` and a registered number. -/
def contentSrid? (declared : Option String) : Option Srid :=
  let value := Text.trim (declared.getD "")
  if value.isEmpty then some storageSrid
  else if Text.sameName value "CRS84" then some wgs84Srid
  else
    match Text.dropName? "EPSG:".toList value.toList with
    | none => none
    | some code => (Decimal.readInt32? (Text.trim (String.ofList code)).toList).filter isSupported

end FilterSql.Geodesy
