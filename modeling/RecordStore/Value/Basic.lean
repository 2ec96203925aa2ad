import RecordStore.Double

/-!
# Values

A bin of a record holds a `RecordStore.Value`: nothing, an integer, a double, a
text, a byte string, a list, a map, or a geometry in its JSON text. Lists and
maps hold values again, to any depth, and any value may be the key of a map.

A map is a `RecordStore.Dict`: its entries in storage order together with the
order policy it was last written with. The type does not force the invariant
that the operations of `RecordStore.Value.Dict` keep – keys are pairwise
different, and a map ordered by key stores its entries in ascending order of
their keys – because the order of values is only defined after the values are.
-/

namespace RecordStore

/-- In which order a map stores its entries. -/
inductive MapOrder where
  /-- In the order in which the keys came in. -/
  | unordered
  /-- In ascending order of the keys. -/
  | keyOrdered
  /-- Stored like `keyOrdered`; the policy is remembered as given. -/
  | keyValueOrdered
deriving DecidableEq, Inhabited

/-- Whether the entries are stored in ascending order of the keys. -/
def MapOrder.isKeyOrdered : MapOrder → Bool
  | .unordered => false
  | .keyOrdered | .keyValueOrdered => true

/-- A map over one type: entries in storage order, and the order policy. -/
structure Dict (α : Type) where
  /-- The order policy. -/
  order : MapOrder
  /-- The entries in storage order. -/
  entries : List (α × α)
deriving Inhabited

/-- A bin value. -/
inductive Value where
  /-- No value. Writing it to a bin removes the bin; a list or a map may hold it. -/
  | null
  /-- A whole number of sixty-four bits with sign. -/
  | integer (n : Int64)
  /-- A double-precision number. -/
  | double (x : Double)
  /-- A text. -/
  | string (s : String)
  /-- A byte string. -/
  | bytes (b : List UInt8)
  /-- A list. -/
  | list (items : List Value)
  /-- A map. -/
  | map (m : Dict Value)
  /-- A geometry, kept as its JSON text. -/
  | geoJson (text : String)
deriving Inhabited

/-- The types that a value may have, in ascending order of their values. -/
inductive Kind where
  /-- The type of `Value.null`. -/
  | null
  /-- The type of whole numbers. -/
  | integer
  /-- The type of texts. -/
  | string
  /-- The type of lists. -/
  | list
  /-- The type of maps. -/
  | map
  /-- The type of byte strings. -/
  | bytes
  /-- The type of doubles. -/
  | double
  /-- The type of geometries. -/
  | geoJson
deriving DecidableEq, Inhabited

namespace Kind

/-- The place of a type among the types. -/
def rank : Kind → Nat
  | .null => 0
  | .integer => 1
  | .string => 2
  | .list => 3
  | .map => 4
  | .bytes => 5
  | .double => 6
  | .geoJson => 7

/-- The name of a type in messages. -/
def name : Kind → String
  | .null => "null"
  | .integer => "integer"
  | .double => "double"
  | .string => "string"
  | .bytes => "bytes"
  | .list => "list"
  | .map => "map"
  | .geoJson => "geojson"

end Kind

namespace Value

/-- The type of a value. -/
def kind : Value → Kind
  | .null => .null
  | .integer _ => .integer
  | .double _ => .double
  | .string _ => .string
  | .bytes _ => .bytes
  | .list _ => .list
  | .map _ => .map
  | .geoJson _ => .geoJson

/-- Whether the value is `null`. -/
def isNull : Value → Bool
  | .null => true
  | _ => false

/-- Whether the value takes part in arithmetic. -/
def isNumeric : Value → Bool
  | .integer _ | .double _ => true
  | _ => false

/-- The whole number that a value is. -/
def toInt64? : Value → Option Int64
  | .integer n => some n
  | _ => none

/-- The double that a number is or is nearest to. -/
def toDouble? : Value → Option Double
  | .double x => some x
  | .integer n => some (Double.ofInt64 n)
  | _ => none

/-- The text that a value is. -/
def toText? : Value → Option String
  | .string s => some s
  | _ => none

/-- The bytes that a value is. -/
def toBytes? : Value → Option (List UInt8)
  | .bytes b => some b
  | _ => none

/-- The items of a value that is a list. -/
def toList? : Value → Option (List Value)
  | .list items => some items
  | _ => none

/-- The map that a value is. -/
def toDict? : Value → Option (Dict Value)
  | .map m => some m
  | _ => none

end Value

end RecordStore
