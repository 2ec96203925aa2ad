import RecordStore.Error.Basic
import RecordStore.Json.Printer
import RecordStore.Json.Reader

/-!
# Geometries

A geometry is sent as a JSON object or as its text. It needs a known type and
the array that belongs to that type; nothing else is looked at. What is kept is
the compact text of the whole object.
-/

namespace RecordStore.GeoJson

/-- The types whose body is an array of coordinates. -/
def coordinateTypes : List String :=
  ["Point", "LineString", "Polygon", "MultiPoint", "MultiLineString", "MultiPolygon", "AeroCircle"]

/-- The name of the array that a type needs. -/
def bodyOf? (kind : String) : Option String :=
  if kind = "GeometryCollection" then some "geometries"
  else if coordinateTypes.contains kind then some "coordinates"
  else none

/-- Checks the type and the body of a geometry. -/
def check (geometry : Json) : Except GeoJsonError Unit :=
  match (geometry.field? "type").bind Json.toText? with
  | none => .error .missingType
  | some kind =>
    match bodyOf? kind with
    | none => .error (.unsupportedType kind)
    | some body =>
      if (geometry.field? body).any Json.isArray then .ok () else .error (.missingBody kind)

/-- The geometry itself: a text is read first. -/
def ofJson : Json → Except GeoJsonError Json
  | .string text =>
    match Json.ofText? text with
    | some geometry => .ok geometry
    | none => .error .unparsable
  | geometry => .ok geometry

/-- **The text that is kept** of a geometry. -/
def text (sent : Json) : Except GeoJsonError String := do
  let geometry ← ofJson sent
  check geometry
  return geometry.render

end RecordStore.GeoJson
