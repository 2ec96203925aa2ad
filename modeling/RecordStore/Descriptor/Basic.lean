import RecordStore.Descriptor.Kind
import RecordStore.Operation

/-!
# Descriptors

A `RecordStore.Descriptor` is an operation as a caller sends it: a name and some
values under field names, none of them checked. Turning it into an
`RecordStore.Operation` checks that the fields which the operation needs are
there and have the right types. Which fields are needed, and in which order they
are looked at, depends on the name; a field that the operation does not use may
hold anything. Where several fields are wrong, the first one that is looked at
is reported.
-/

namespace RecordStore

/-- An operation as a caller sends it. -/
structure Descriptor where
  /-- What kind of operation is asked for. -/
  op : OpKind
  /-- The bin. -/
  bin : Option Value := none
  /-- The key of a map entry. -/
  key : Option Value := none
  /-- A position. -/
  index : Option Value := none
  /-- A rank. -/
  rank : Option Value := none
  /-- The number of elements of a range. -/
  count : Option Value := none
  /-- The bound of an interval. -/
  rangeEnd : Option Value := none
  /-- The value. -/
  val : Option Value := none
  /-- What to report. -/
  returnType : Option Value := none
  /-- The policy of a write into a list. -/
  listPolicy : Option Value := none
  /-- The policy of a write into a map. -/
  mapPolicy : Option Value := none
  /-- The lifetime. -/
  ttl : Option Value := none

namespace Descriptor

/-! ### Single fields -/

/-- A field that the operation needs. -/
def need (d : Descriptor) (field : Option Value) (name : String) : Except Error Value :=
  match field with
  | some v => .ok v
  | none => .error (.param (.missingField d.op.name name))

/-- A field that must be an integer. -/
def needInteger (d : Descriptor) (field : Option Value) (name : String) : Except Error Int64 := do
  match ← d.need field name with
  | .integer n => return n
  | _ => throw (.param (.fieldNotInteger name))

/-- A field that must be a list. -/
def needList (d : Descriptor) (field : Option Value) (name : String) :
    Except Error (List Value) := do
  match ← d.need field name with
  | .list items => return items
  | v => throw (.param (.fieldNotList name v.kind))

/-- The name of the bin. -/
def needBin (d : Descriptor) : Except Error String := do
  match ← d.need d.bin "bin" with
  | .string bin => return bin
  | v => throw (.param (.binKind v.kind))

/-- The value. -/
def needVal (d : Descriptor) : Except Error Value := d.need d.val "val"

/-- The key of a map entry. -/
def needKey (d : Descriptor) : Except Error Value := d.need d.key "key"

/-- The position. -/
def needIndex (d : Descriptor) : Except Error Int64 := d.needInteger d.index "index"

/-- The rank. -/
def needRank (d : Descriptor) : Except Error Int64 := d.needInteger d.rank "rank"

/-- A count is not negative. -/
def countOf (n : Int64) : Except Error UInt64 :=
  if n.toInt < 0 then .error (.param (.negativeCount n)) else .ok n.toUInt64

/-- The number of elements. -/
def needCount (d : Descriptor) : Except Error UInt64 := do
  countOf (← d.needInteger d.count "count")

/-- The number of elements of a range of a list; where it is missing, an integer
value takes its place. -/
def needRangeCount (d : Descriptor) : Except Error UInt64 :=
  match d.count, d.val with
  | none, some (.integer n) => countOf n
  | _, _ => d.needCount

/-- The bound of an interval; `null` means that there is none. -/
def needRangeEnd (d : Descriptor) : Except Error (Option Value) := do
  let bound ← d.need d.rangeEnd "range_end"
  return if bound.isNull then none else some bound

/-- What to report. -/
def needReturnType (d : Descriptor) : Except Error ReturnType := do
  ReturnType.ofBits (← d.needInteger d.returnType "return_type")

/-- The policy of a write into a map. -/
def needMapPolicy (d : Descriptor) : Except Error MapPolicy := do
  MapPolicy.ofValue (← d.need d.mapPolicy "map_policy")

/-- The policy of a write into a list; the default one where it is missing. -/
def listPolicyOrDefault (d : Descriptor) : Except Error ListPolicy :=
  match d.listPolicy with
  | none => .ok {}
  | some v => ListPolicy.ofValue v

/-- The lifetime, if there is one. -/
def lifetime? (d : Descriptor) : Except Error (Option Expiration) :=
  match d.ttl with
  | none => .ok none
  | some (.integer ttl) => (Expiration.ofInt64 ttl).map some
  | some v => .error (.param (.ttlKind v.kind))

/-! ### Selectors -/

/-- The selector of a shape. -/
def selector (d : Descriptor) : Shape → Except Error Selector
  | .index => return .index (← d.needIndex)
  | .indexRange => return .indexRange (← d.needIndex) (some (← d.needCount))
  | .indexRangeToEnd => return .indexRange (← d.needIndex) none
  | .rank => return .rank (← d.needRank)
  | .rankRange => return .rankRange (← d.needRank) (some (← d.needCount))
  | .rankRangeToEnd => return .rankRange (← d.needRank) none
  | .value => return .value (← d.needVal)
  | .valueList => return .valueList (← d.needList d.val "val")
  | .valueRange => return .valueRange (← d.needVal) (← d.needRangeEnd)
  | .valueRelRankRange =>
    return .valueRelRankRange (← d.needVal) (← d.needRank) (some (← d.needCount))
  | .valueRelRankRangeToEnd => return .valueRelRankRange (← d.needVal) (← d.needRank) none
  | .key => return .key (← d.needKey)
  | .keyList => return .keyList (← d.needList d.key "key")
  | .keyRange => return .keyRange (← d.needKey) (← d.needRangeEnd)

/-! ### Operations -/

/-- The list operation of a selecting kind. -/
def listSelection (d : Descriptor) (remove : Bool) (shape : Shape) : Except Error ListOp := do
  let selector ← d.selector shape
  let returnType ← d.needReturnType
  return if remove then .removeBy selector returnType else .getBy selector returnType

/-- The map operation of a selecting kind. -/
def mapSelection (d : Descriptor) (remove : Bool) (shape : Shape) : Except Error MapOp := do
  let selector ← d.selector shape
  let returnType ← d.needReturnType
  return if remove then .removeBy selector returnType else .getBy selector returnType

/-- The items to put into a map, which are sent as a map. -/
def needItems (d : Descriptor) : Except Error (List (Value × Value)) := do
  match ← d.needVal with
  | .map m => return m.entries
  | v => throw (.param (.itemsKind v.kind))

/-- An operation on a list in the bin; the bin is looked at first. -/
def onList (d : Descriptor) (op : Except Error ListOp) : Except Error Operation := do
  return .list (← d.needBin) (← op)

/-- An operation on a map in the bin; the bin is looked at first. -/
def onMap (d : Descriptor) (op : Except Error MapOp) : Except Error Operation := do
  return .map (← d.needBin) (← op)

/-- The operation that a descriptor asks for, not yet validated. -/
def decode (d : Descriptor) : Except Error Operation :=
  match d.op with
  | .write => return .write (← d.needBin) (← d.needVal)
  | .read => return .read (← d.needBin)
  | .incr => return .increment (← d.needBin) (← d.needVal)
  | .append => return .append (← d.needBin) (← d.needVal)
  | .prepend => return .prepend (← d.needBin) (← d.needVal)
  | .touch => return .touch (← d.lifetime?)
  | .delete => return .delete
  | .listAppend => d.onList do return .append (← d.needVal) (← d.listPolicyOrDefault)
  | .listMerge => d.onList do
    return .merge (← d.needList d.val "val") (← d.listPolicyOrDefault)
  | .listInsert => d.onList do
    return .insert (← d.needIndex) (← d.needVal) (← d.listPolicyOrDefault)
  | .listInsertItems => d.onList do
    return .insertItems (← d.needIndex) (← d.needList d.val "val") (← d.listPolicyOrDefault)
  | .listSet => d.onList do
    return .set (← d.needIndex) (← d.needVal) (← d.listPolicyOrDefault)
  | .listPop => d.onList do return .pop (← d.needIndex)
  | .listPopRange => d.onList do return .popRange (← d.needIndex) (some (← d.needRangeCount))
  | .listPopRangeFrom => d.onList do return .popRange (← d.needIndex) none
  | .listRemove => d.onList do return .remove (← d.needIndex)
  | .listRemoveRange => d.onList do
    return .removeRange (← d.needIndex) (some (← d.needRangeCount))
  | .listRemoveRangeFrom => d.onList do return .removeRange (← d.needIndex) none
  | .listGet => d.onList do return .get (← d.needIndex)
  | .listGetRange => d.onList do return .getRange (← d.needIndex) (some (← d.needRangeCount))
  | .listGetRangeFrom => d.onList do return .getRange (← d.needIndex) none
  | .listTrim => d.onList do return .trim (← d.needIndex) (← d.needRangeCount)
  | .listClear => d.onList (.ok .clear)
  | .listSize => d.onList (.ok .size)
  | .mapSetPolicy => d.onMap do return .setPolicy (← d.needMapPolicy)
  | .mapPut => d.onMap do return .put (← d.needKey) (← d.needVal) (← d.needMapPolicy)
  | .mapPutItems => d.onMap do return .putItems (← d.needItems) (← d.needMapPolicy)
  | .mapIncrement => d.onMap do
    return .increment (← d.needKey) (← d.needVal) (← d.needMapPolicy)
  | .mapDecrement => d.onMap do
    return .decrement (← d.needKey) (← d.needVal) (← d.needMapPolicy)
  | .mapClear => d.onMap (.ok .clear)
  | .mapSize => d.onMap (.ok .size)
  | .select .list remove shape => d.onList (d.listSelection remove shape)
  | .select .map remove shape => d.onMap (d.mapSelection remove shape)

/-- **The operation that a descriptor asks for.** -/
def toOperation (d : Descriptor) : Except Error Operation := do
  let op ← d.decode
  op.validate
  return op

end Descriptor

end RecordStore
