import RecordStore.Codec.Value
import RecordStore.Record

/-!
# Keys and records as JSON

A key is an object with a namespace, a set that may be left out, and either a
user key or a digest; where both are there the user key counts. A record is one
object with its key, its bins and its metadata, where the lifetime stands as the
seconds that remain.
-/

namespace RecordStore.Codec

/-! ### Writing -/

/-- Bins as JSON. -/
def binsToJson (c : Codec) (bins : Bins) : Json :=
  .ofNamed (bins.map c.toJson)

/-- A key as JSON; the user key is there if it is known. -/
def keyToJson (c : Codec) (key : Key) : Json :=
  let userKey :=
    match key.userKey with
    | some userKey => [("key", c.toJson userKey.toValue)]
    | none => []
  .ofFields
    ([("ns", .string key.ns), ("set", .string key.set), ("digest", .string key.digest.toHex)] ++
      userKey)

/-- The remaining lifetime in seconds; minus one means forever. -/
def ttlToJson (m : Metadata) (now : UInt64) : Json :=
  match m.ttl now with
  | some seconds => .integer (min seconds Int64.maxValue.toInt)
  | none => .integer (-1)

/-- The fields of metadata. -/
def metadataFields (m : Metadata) (now : UInt64) : List (String × Json) :=
  [("generation", .integer m.generation.toNat), ("ttl", ttlToJson m now),
    ("lastUpdateTime", .integer m.lastUpdateTime.toNat)]

/-- Metadata as JSON. -/
def metadataToJson (m : Metadata) (now : UInt64) : Json :=
  .ofFields (metadataFields m now)

/-- **A record as JSON.** -/
def recordToJson (c : Codec) (record : Record) (now : UInt64) : Json :=
  .ofFields
    (metadataFields record.metadata now ++
      [("key", c.keyToJson record.key), ("bins", c.binsToJson record.bins)])

/-! ### Reading -/

/-- The set of a key; none is the empty one. -/
def parseSet : Option Json → Except Error String
  | none | some .null => .ok ""
  | some (.string set) => .ok set
  | some other => .error (.param (.keySet other.render))

/-- **The key that JSON stands for.** -/
def parseKey (c : Codec) (json : Json) : Except Error Key :=
  match json with
  | .object fields => do
    let some (.string ns) := fields.get? "ns" | throw (.param .keyNamespace)
    let set ← parseSet (fields.get? "set")
    match (fields.get? "key").filter (!·.isNull), fields.get? "digest" with
    | some userKey, _ => Key.ofUserKey ns set (← UserKey.ofValue (← c.toValue userKey))
    | none, some (.string hex) => Key.ofDigest ns set (← Digest.ofHex hex)
    | none, _ => throw (.param .keyIdentity)
  | _ => .error (.param .keyNotObject)

/-- The bins that JSON stands for. -/
def parseBins (c : Codec) : Json → Except Error Bins
  | .object fields => do
    let entries ← fields.entries.mapM fun field => do return (field.1, ← c.toValue field.2)
    return .ofList entries
  | _ => .error (.param .binsNotObject)

/-- The names of bins that JSON stands for. -/
def parseBinNames : Json → Except Error (List String)
  | .array items =>
    items.mapM fun item =>
      match item with
      | .string name => .ok name
      | other => .error (.param (.binNameNotText other.render))
  | _ => .error (.param .binNamesNotArray)

end RecordStore.Codec
