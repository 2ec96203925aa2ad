import RecordStore.Error.Basic
import RecordStore.Word

/-!
# Adding values

Counters are added to. Two integers make an integer, and a sum that does not fit
into sixty-four bits is an error; as soon as one operand is a double the sum is
a double.
-/

namespace RecordStore.Value

/-- **The sum of two values.** -/
def add (current delta : Value) : Except Error Value :=
  match current, delta with
  | .integer a, .integer b =>
    match Word.int64? (a.toInt + b.toInt) with
    | some n => .ok (.integer n)
    | none => .error (.notApplicable .integerOverflow)
  | current, delta =>
    match current.toDouble?, delta.toDouble? with
    | some x, some y => .ok (.double (x.add y))
    | _, _ => .error (.notApplicable (.cannotAdd delta.kind current.kind))

/-- The negative of a number. The least integer has none. -/
def negate : Value → Except Error Value
  | .integer n =>
    match Word.int64? (-n.toInt) with
    | some m => .ok (.integer m)
    | none => .error (.notApplicable .decrementOverflow)
  | .double x => .ok (.double x.neg)
  | v => .error (.notApplicable (.cannotDecrement v.kind))

end RecordStore.Value
