import RecordStore.Double
import RecordStore.Named
import RecordStore.Word

/-!
# JSON values

A `RecordStore.Json` is what a JSON text means to the store. Numbers come in two
kinds, integers and doubles; a number that is written with a point or an
exponent is a double even if it is whole. The fields of an object are in
ascending order of their names, and no name stands twice.
-/

namespace RecordStore

/-- The fields of an object, each under its name. That the names ascend cannot be
said inside the type of JSON values; it is so for every object that is built from
things that have it, `RecordStore.Named`. -/
structure Fields (α : Type) where
  /-- The names with what they stand for. -/
  entries : List (String × α)
deriving Inhabited

/-- What a name stands for. -/
def Fields.get? {α : Type} (fields : Fields α) (name : String) : Option α :=
  fields.entries.lookup name

/-- A JSON value. -/
inductive Json where
  /-- The value `null`. -/
  | null
  /-- A truth value. -/
  | bool (b : Bool)
  /-- An integer, from `-2 ^ 63` on and below `2 ^ 64`. -/
  | integer (n : Int)
  /-- A double that is a number and not an infinity. -/
  | float (x : Double)
  /-- A text. -/
  | string (s : String)
  /-- An array. -/
  | array (items : List Json)
  /-- An object. -/
  | object (fields : Fields Json)
deriving Inhabited

namespace Json

/-- An object from something under each of its names. -/
def ofNamed (n : Named Json) : Json := .object ⟨n.entries⟩

/-- An object from fields; the last of equal names counts. -/
def ofFields (fields : List (String × Json)) : Json := ofNamed (Named.ofList fields)

/-- A double as JSON; what is no number, or infinite, becomes `null`. -/
def ofDouble (x : Double) : Json := if x.isFinite then .float x else .null

/-- The field of an object. -/
def field? : Json → String → Option Json
  | .object fields, name => fields.get? name
  | _, _ => none

/-- Whether the value is `null`. -/
def isNull : Json → Bool
  | .null => true
  | _ => false

/-- The truth value that a value is. -/
def toBool? : Json → Option Bool
  | .bool b => some b
  | _ => none

/-- The text that a value is. -/
def toText? : Json → Option String
  | .string s => some s
  | _ => none

/-- The items of a value that is an array. -/
def toList? : Json → Option (List Json)
  | .array items => some items
  | _ => none

/-- Whether the value is an array. -/
def isArray (j : Json) : Bool := j.toList?.isSome

/-- The integer with sign that a value is. -/
def toInt64? : Json → Option Int64
  | .integer n => Word.int64? n
  | _ => none

/-- The integer without sign that a value is. -/
def toUInt64? : Json → Option UInt64
  | .integer n => Word.uint64? n
  | _ => none

/-- The short integer without sign that a value is. -/
def toUInt32? : Json → Option UInt32
  | .integer n => Word.uint32? n
  | _ => none

/-! ### Structures and choices -/

/-- The parts of a structure with named fields, which is sent as an object or as
an array of its fields in their order. An object may have other fields too, an
array may break off early; a field that is not sent has no part. -/
def parts? (names : List String) : Json → Option (List (Option Json))
  | .object fields => some (names.map fields.get?)
  | .array items =>
    if items.length ≤ names.length then some (names.zipIdx.map fun name => items[name.2]?)
    else none
  | _ => none

/-- The part of a field that may be left out; `null` is as good as nothing. -/
def optional {α : Type} (read : Json → Option α) : Option Json → Option (Option α)
  | none | some .null => some none
  | some j => (read j).map some

/-- A choice without content, which is sent as its name, or as an object with
`null` under its name. -/
def choice? : Json → Option String
  | .string name => some name
  | .object ⟨[(name, .null)]⟩ => some name
  | _ => none

end Json

end RecordStore
