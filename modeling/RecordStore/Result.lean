import RecordStore.Value.Order

/-!
# Results of operations

What a single operation of a call answers, if it answers anything.
-/

namespace RecordStore

/-- The answer of an operation. -/
inductive OpResult where
  /-- A single value. -/
  | scalar (value : Value)
  /-- Values, one for each element. -/
  | list (values : List Value)
  /-- Keys with their values. -/
  | pairs (entries : List (Value × Value))
  /-- A number of elements. -/
  | count (n : Nat)
deriving Inhabited

/-- The answer as a value: pairs become one list of keys and values in turn, and
a count stops at the greatest integer. -/
def OpResult.toValue : OpResult → Value
  | scalar value => value
  | list values => .list values
  | pairs entries => .list (entries.flatMap fun e => [e.1, e.2])
  | count n => .integer (Int64.ofInt (min n Int64.maxValue.toInt))

/-- Answers are equal when they have one shape and their values are equal. -/
instance : BEq OpResult where
  beq
    | .scalar v, .scalar w => v == w
    | .list vs, .list ws => vs == ws
    | .pairs es, .pairs fs => es == fs
    | .count m, .count n => m == n
    | _, _ => false

end RecordStore
