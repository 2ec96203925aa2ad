import RecordStore.Codec.Value
import RecordStore.Descriptor.Basic

/-!
# Operations as JSON

An operation is an object with a name at `op` and fields of a descriptor, each a
value. A field that descriptors do not have is an error, and the fields are
looked at in ascending order of their names.
-/

namespace RecordStore

/-- The descriptor with a value in one of its fields; none if there is no such
field. -/
def Descriptor.setField? (d : Descriptor) (name : String) : Option (Value → Descriptor) :=
  match name with
  | "bin" => some fun v => { d with bin := some v }
  | "key" => some fun v => { d with key := some v }
  | "index" => some fun v => { d with index := some v }
  | "rank" => some fun v => { d with rank := some v }
  | "count" => some fun v => { d with count := some v }
  | "range_end" => some fun v => { d with rangeEnd := some v }
  | "val" => some fun v => { d with val := some v }
  | "return_type" => some fun v => { d with returnType := some v }
  | "list_policy" => some fun v => { d with listPolicy := some v }
  | "map_policy" => some fun v => { d with mapPolicy := some v }
  | "ttl" => some fun v => { d with ttl := some v }
  | _ => none

namespace Codec

/-- Takes one field of an operation into its descriptor. -/
def parseField (c : Codec) (d : Descriptor) (field : String × Json) : Except Error Descriptor :=
  if field.1 = "op" then .ok d
  else
    match d.setField? field.1 with
    | none => .error (.param (.unknownField field.1))
    | some set => return set (← c.toValue field.2)

/-- The descriptor that JSON stands for. -/
def parseDescriptor (c : Codec) : Json → Except Error Descriptor
  | .object fields => do
    let some (.string name) := fields.get? "op" | throw (.param .operationNameless)
    let some op := OpKind.ofName? name | throw (.param (.unknownOperation name))
    fields.entries.foldlM c.parseField { op }
  | _ => .error (.param .operationNotObject)

/-- **The operations that JSON stands for**; the first one that fails is
reported. -/
def parseOperations (c : Codec) : Json → Except Error (List Operation)
  | .array items => items.mapM fun item => do (← c.parseDescriptor item).toOperation
  | _ => .error (.param .operationsNotArray)

end Codec

end RecordStore
