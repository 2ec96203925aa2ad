import RecordStore.Json.Reader

/-!
# Structures read straight from text

A request that is a structure with named fields is read from the tree of its
text. The fields that the structure has must mean something and must not be
repeated; any other field only needs the form of JSON and a name. Sent as an
array, the structure has its fields in their order, and all of them must mean
something.
-/

namespace RecordStore.Json.Source

/-- The names and trees of the fields of an object, all names being texts. -/
def namedFields? (fields : List (Option String × Source)) : Option (List (String × Source)) :=
  fields.mapM fun field => field.1.map (·, field.2)

/-- The tree under a name: none of several, and perhaps none at all. -/
def only? (fields : List (String × Source)) (name : String) : Option (Option Source) :=
  match fields.filter (·.1 = name) with
  | [] => some none
  | [field] => some (some field.2)
  | _ => none

/-- **The parts of a structure**, in the order of the names of its fields. -/
def parts? (names : List String) : Source → Option (List (Option Json))
  | .object fields => do
    let fields ← namedFields? fields
    names.mapM fun name => do
      match ← only? fields name with
      | none => return none
      | some source => return some (← source.toJson? (maxDepth - 1))
  | .array items => do
    if items.length ≤ names.length then
      let items ← itemsToJson? (maxDepth - 1) items
      return names.zipIdx.map fun name => items[name.2]?
    else none
  | _ => none

/-- The parts of a structure whose other fields must mean something too, and
which is sent as an object alone. The parts are as they were written. -/
def strictParts? (names : List String) (source : Source) : Option (List (Option Source)) := do
  let .object fields := source | none
  let _ ← source.value?
  let fields ← namedFields? fields
  names.mapM (only? fields)

/-- A choice without content, which is sent as its name, or under its name as
`null` or an object without fields. The name must stand alone. -/
def choice? : Source → Option String
  | .string name => name
  | .object [(name, .null)] | .object [(name, .object [])] => name
  | _ => none

end RecordStore.Json.Source
