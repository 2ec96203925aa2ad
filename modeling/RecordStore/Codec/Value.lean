import RecordStore.Codec.GeoJson
import RecordStore.Codec.Serializer
import RecordStore.Result
import RecordStore.Text.Base64
import RecordStore.Value.Dict
import RecordStore.Word

/-!
# Values as JSON

Natural JSON is a value directly: `null`, integers, doubles, texts, arrays, and
objects as maps under texts. Everything else is an object with a single field
whose name is a tag:

| JSON                  | value                            |
|-----------------------|----------------------------------|
| a text at `$bytes`    | bytes, in base64                 |
| a geometry at `$geojson` | a geometry                    |
| an array at `$map`    | a map, entry by entry as a pair  |

Truth values go through the serializer of the codec. On the way out a map is an
object if all its keys are texts, and pairs at the tag otherwise; order policies
are not sent.
-/

namespace RecordStore

/-- How values are sent as JSON. -/
structure Codec where
  /-- What becomes of JSON that has no bin type. -/
  serializer : Serializer := Serializer.framed

namespace Codec

/-- The codec with the serializer of a name. -/
def named (name : String) : Except Error Codec := do
  return ⟨← Serializer.named name⟩

/-! ### Reading values -/

/-- The bytes that are sent at their tag. -/
def taggedBytes : Json → Except Error Value
  | .string text =>
    match Base64.decode text with
    | some bytes => .ok (.bytes bytes)
    | none => .error (.param .base64)
  | _ => .error (.param .bytesNotText)

/-- The geometry that is sent at its tag. -/
def taggedGeometry (sent : Json) : Except Error Value :=
  match GeoJson.text sent with
  | .ok text => .ok (.geoJson text)
  | .error cause => .error (.invalidGeoJson cause)

/-- An integer as a value. -/
def integerToValue (n : Int) : Except Error Value :=
  match Word.int64? n with
  | some n => .ok (.integer n)
  | none => .error (.param (.integerTooLarge n))

/-- A map without order over entries. -/
def unorderedMap (entries : List (Value × Value)) : Value :=
  .map (Dict.ofList .unordered entries)

mutual

/-- **The value that JSON stands for.** -/
def toValue (c : Codec) : Json → Except Error Value
  | .null => .ok .null
  | .bool b => (c.serializer.encode (.bool b)).map .bytes
  | .integer n => integerToValue n
  | .float x => .ok (.double x)
  | .string s => .ok (.string s)
  | .array items => (c.toValues items).map .list
  | .object ⟨[(name, inner)]⟩ =>
    if name = "$bytes" then taggedBytes inner
    else if name = "$geojson" then taggedGeometry inner
    else if name = "$map" then
      match inner with
      | .array pairs => (c.toPairs pairs).map unorderedMap
      | _ => .error (.param .pairsNotArray)
    else (c.toValue inner).map fun v => unorderedMap [(.string name, v)]
  | .object ⟨fields⟩ => (c.toEntries fields).map unorderedMap

/-- The values that the items of an array stand for. -/
def toValues (c : Codec) : List Json → Except Error (List Value)
  | [] => .ok []
  | j :: js => do
    let v ← c.toValue j
    let vs ← c.toValues js
    return v :: vs

/-- The entries that the fields of an object stand for. -/
def toEntries (c : Codec) : List (String × Json) → Except Error (List (Value × Value))
  | [] => .ok []
  | (name, j) :: fields => do
    let v ← c.toValue j
    let entries ← c.toEntries fields
    return (.string name, v) :: entries

/-- The entries that pairs stand for. -/
def toPairs (c : Codec) : List Json → Except Error (List (Value × Value))
  | [] => .ok []
  | .array [k, v] :: pairs => do
    let key ← c.toValue k
    let value ← c.toValue v
    let entries ← c.toPairs pairs
    return (key, value) :: entries
  | _ :: _ => .error (.param .pairShape)

end

/-! ### Writing values -/

/-- Bytes as JSON: what the serializer recognises, or base64 at the tag. -/
def bytesToJson (c : Codec) (bytes : List UInt8) : Json :=
  (c.serializer.decode bytes).getD (.object ⟨[("$bytes", .string (Base64.encode bytes))]⟩)

/-- A geometry as JSON: its text, read again, at the tag. -/
def geometryToJson (text : String) : Json :=
  .object ⟨[("$geojson", (Json.ofText? text).getD (.string text))]⟩

/-- The names of fields, if all keys are texts. -/
def fieldNames? (entries : List (Value × Json × Json)) : Option (List (String × Json)) :=
  entries.mapM fun e => e.1.toText?.map (·, e.2.2)

/-- A map as JSON, from its keys, each also as JSON, and its values as JSON. -/
def mapToJson (entries : List (Value × Json × Json)) : Json :=
  match fieldNames? entries with
  | some fields => Json.ofFields fields
  | none => .object ⟨[("$map", .array (entries.map fun e => .array [e.2.1, e.2.2]))]⟩

mutual

/-- **A value as JSON.** -/
def toJson (c : Codec) : Value → Json
  | .null => .null
  | .integer n => .integer n.toInt
  | .double x => Json.ofDouble x
  | .string s => .string s
  | .bytes bytes => c.bytesToJson bytes
  | .list items => .array (c.itemsToJson items)
  | .map ⟨_, entries⟩ => mapToJson (c.entriesToJson entries)
  | .geoJson text => geometryToJson text

/-- The items of a list as JSON. -/
def itemsToJson (c : Codec) : List Value → List Json
  | [] => []
  | v :: vs => c.toJson v :: c.itemsToJson vs

/-- The entries of a map: each key, and the key and the value as JSON. -/
def entriesToJson (c : Codec) : List (Value × Value) → List (Value × Json × Json)
  | [] => []
  | (k, v) :: entries => (k, c.toJson k, c.toJson v) :: c.entriesToJson entries

end

/-- The answer of an operation as JSON. -/
def resultToJson (c : Codec) : OpResult → Json
  | .scalar v => c.toJson v
  | .list vs => .array (c.itemsToJson vs)
  | .pairs entries => .array (entries.map fun e => .array [c.toJson e.1, c.toJson e.2])
  | .count n => .integer n

end Codec

end RecordStore
