import RecordStore.Error.Basic
import RecordStore.Value.Order

/-!
# Selectors and return types

Lists and maps share one way of addressing their elements. A
`RecordStore.Selector` picks elements by index, by rank, by value or by key; a
`RecordStore.ReturnType` says what to report about the picked elements, and
through its inverted flag whether the picked set or its complement is meant.
-/

namespace RecordStore

/-! ### What is reported -/

/-- What a selecting operation reports about each element. -/
inductive ReturnKind where
  /-- Nothing. -/
  | none
  /-- The index. -/
  | index
  /-- The index, counted from the end. -/
  | reverseIndex
  /-- The rank. -/
  | rank
  /-- The rank, counted from the end. -/
  | reverseRank
  /-- The number of elements. -/
  | count
  /-- The key. -/
  | key
  /-- The value. -/
  | value
  /-- The key and the value. -/
  | keyValue
deriving DecidableEq, Inhabited

/-- The code of a kind. -/
def ReturnKind.code : ReturnKind → Int64
  | .none => 0
  | .index => 1
  | .reverseIndex => 2
  | .rank => 3
  | .reverseRank => 4
  | .count => 5
  | .key => 6
  | .value => 7
  | .keyValue => 8

/-- All kinds, in the order of their codes. -/
def ReturnKind.all : List ReturnKind :=
  [.none, .index, .reverseIndex, .rank, .reverseRank, .count, .key, .value, .keyValue]

/-- What is reported, and about which elements. -/
structure ReturnType where
  /-- What is reported about each element. -/
  kind : ReturnKind
  /-- Whether the elements that were not picked are meant. -/
  inverted : Bool := false
deriving DecidableEq, Inhabited

namespace ReturnType

/-- The bit that stands for inversion. -/
def invertedBit : Int64 := 0x10000

/-- Reads the wire form: the code of a kind, with or without the inversion bit. -/
def ofBits (bits : Int64) : Except Error ReturnType :=
  match ReturnKind.all.find? (·.code = bits &&& ~~~invertedBit) with
  | some kind => .ok ⟨kind, bits &&& invertedBit ≠ 0⟩
  | none => .error (.param (.returnTypeBits bits))

/-- The wire form. -/
def bits (r : ReturnType) : Int64 :=
  if r.inverted then r.kind.code ||| invertedBit else r.kind.code

/-- The same report about the elements that were not picked. -/
def invert (r : ReturnType) : ReturnType := { r with inverted := true }

/-- Whether the report needs keys. -/
def usesKeys (r : ReturnType) : Bool :=
  r.kind = .key || r.kind = .keyValue

end ReturnType

/-! ### What is picked -/

/-- Which elements of a container are picked. Indices and ranks may be negative
and then count from the end; a range without a count runs to the end. -/
inductive Selector where
  /-- The element at an index. -/
  | index (index : Int64)
  /-- So many elements from an index on. -/
  | indexRange (index : Int64) (count : Option UInt64)
  /-- The element of a rank. -/
  | rank (rank : Int64)
  /-- So many elements from a rank on. -/
  | rankRange (rank : Int64) (count : Option UInt64)
  /-- The elements equal to a value. -/
  | value (value : Value)
  /-- The elements equal to one of some values. -/
  | valueList (values : List Value)
  /-- The elements from a value on, and before another one if there is one. -/
  | valueRange (first : Value) (bound : Option Value)
  /-- So many elements from a rank on that counts from where a value stands or
  would stand. -/
  | valueRelRankRange (value : Value) (rank : Int64) (count : Option UInt64)
  /-- The element at a key. -/
  | key (key : Value)
  /-- The elements at some keys. -/
  | keyList (keys : List Value)
  /-- The elements whose keys are from one on, and before another one if there
  is one. -/
  | keyRange (first : Value) (bound : Option Value)
deriving Inhabited

namespace Selector

/-- Whether the selector addresses keys. -/
def isKeyBased : Selector → Bool
  | key _ | keyList _ | keyRange .. => true
  | _ => false

/-- Whether at most one element can be picked; it is reported by itself and not
in a list. -/
def isPoint : Selector → Bool
  | index _ | rank _ | key _ => true
  | _ => false

/-- Whether elements are reported in the order of their ranks. -/
def isRankStyle : Selector → Bool
  | rank _ | rankRange .. | valueRelRankRange .. => true
  | _ => false

end Selector

end RecordStore
