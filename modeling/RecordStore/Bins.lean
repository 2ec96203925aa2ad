import RecordStore.Attempt
import RecordStore.Record
import RecordStore.Result
import RecordStore.Value.Arithmetic

/-!
# Operations on single bins

Writing, reading, adding to a number, and adding a text or a byte string at one
end.
-/

namespace RecordStore.Bins

/-- Stores a value; writing `null` removes the bin. -/
def write (bins : Bins) (bin : String) (value : Value) : Bins :=
  if value.isNull then bins.erase bin else bins.insert bin value

/-- The value of a bin; a missing bin reads as `null`. -/
def read (bins : Bins) (bin : String) : OpResult :=
  .scalar ((bins.get? bin).getD .null)

/-- An error in a sum, with the bin that the sum belongs to. -/
def nameBin (bin : String) : Error → Error
  | .notApplicable cause => .notApplicable (.inBin bin cause)
  | error => error

/-- Adds to the number in a bin; where there is none it becomes the number. -/
def increment (bins : Bins) (bin : String) (delta : Value) : Attempt Bins Unit :=
  match bins.get? bin with
  | none => .done () (bins.insert bin delta)
  | some current =>
    .needing bins ((current.add delta).mapError (nameBin bin)) fun sum =>
      .done () (bins.insert bin sum)

/-- Adds a text to a text, or bytes to bytes, at one end. -/
def joined (bin : String) (place : End) : (current value : Value) → Except Error Value
  | .string old, .string new =>
    .ok (.string (match place with | .front => new ++ old | .back => old ++ new))
  | .bytes old, .bytes new =>
    .ok (.bytes (match place with | .front => new ++ old | .back => old ++ new))
  | current, value => .error (.notApplicable (.cannotConcat place value.kind bin current.kind))

/-- Adds to the text or the bytes in a bin at one end; where there is no bin the
value becomes its content. -/
def concat (bins : Bins) (bin : String) (value : Value) (place : End) : Attempt Bins Unit :=
  match bins.get? bin with
  | none => .done () (bins.insert bin value)
  | some current =>
    .needing bins (joined bin place current value) fun content =>
      .done () (bins.insert bin content)

end RecordStore.Bins
