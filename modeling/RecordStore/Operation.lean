import RecordStore.Bins
import RecordStore.Collection.ListOp
import RecordStore.Collection.MapOp

/-!
# Operations

A `RecordStore.Operation` is one step of a call on a record. An operation is
either *write-class*, because it may change the record, or *read-class*; two of
the write-class ones are about the record as a whole and address no bin.
-/

namespace RecordStore

/-- One step of a call on a record. -/
inductive Operation where
  /-- Stores a value in a bin; `null` removes the bin. -/
  | write (bin : String) (value : Value)
  /-- Answers the value of a bin. -/
  | read (bin : String)
  /-- Adds to the number in a bin. -/
  | increment (bin : String) (delta : Value)
  /-- Adds a text or bytes at the end of a bin. -/
  | append (bin : String) (value : Value)
  /-- Adds a text or bytes in front of a bin. -/
  | prepend (bin : String) (value : Value)
  /-- Sets the lifetime anew; without one, as the policy of the call says. -/
  | touch (ttl : Option Expiration)
  /-- Deletes the record, behind all reads of the call. -/
  | delete
  /-- An operation on a list in a bin. -/
  | list (bin : String) (op : ListOp)
  /-- An operation on a map in a bin. -/
  | map (bin : String) (op : MapOp)
deriving Inhabited

namespace Operation

/-- The bin that an operation addresses. -/
def bin? : Operation → Option String
  | write bin _ | read bin | increment bin _ | append bin _ | prepend bin _ | list bin _
  | map bin _ => some bin
  | touch _ | delete => none

/-- Whether an operation may change the record. -/
def isWrite : Operation → Bool
  | read _ => false
  | list _ op => op.isWrite
  | map _ op => op.isWrite
  | write .. | increment .. | append .. | prepend .. | touch _ | delete => true

/-- Whether an operation is a write on the record as a whole. -/
def isRecordLevel : Operation → Bool
  | touch _ | delete => true
  | _ => false

/-- What can be added at an end of a bin is a text or bytes. -/
def checkConcat (value : Value) : Except Error Unit :=
  match value with
  | .string _ | .bytes _ => .ok ()
  | v => .error (.param (.concatKind v.kind))

/-- The checks that need no record: the name of the bin, and then what the
operation brings. -/
def validate (op : Operation) : Except Error Unit := do
  if let some bin := op.bin? then checkBinName bin
  match op with
  | increment _ delta =>
    if delta.isNumeric then .ok () else .error (.notApplicable (.incrementDelta delta.kind))
  | append _ value | prepend _ value => checkConcat value
  | list _ op => op.validate
  | map _ op => op.validate
  | write .. | read _ | touch _ | delete => .ok ()

end Operation

end RecordStore
