import RecordStore.Store.Basic

/-!
# Lists in a store

Verbs on a list in a bin, each of them a call with a single operation. The list
policy is always the default one.
-/

namespace RecordStore.Store

/-- Applies a list operation to a bin of the record of a key. -/
def listOp (s : Store) (key : Key) (bin : String) (op : ListOp) (policy : WritePolicy)
    (now : UInt64) : Attempt Store (Option OpResult) :=
  (s.operateOrdered key [.list bin op] policy now).map (·.getLastD none)

/-- The value of an answer; no answer is `null`. -/
def valueOf : Option OpResult → Value
  | some result => result.toValue
  | none => .null

/-- The values of an answer that is a list. -/
def itemsOf : Option OpResult → List Value
  | some (.list values) => values
  | _ => []

/-- The number of an answer that is a count; no answer counts nothing. -/
def countOf : Option OpResult → Nat
  | some (.count n) => n
  | _ => 0

/-- Adds a value at the end of a list. -/
def listAppend (s : Store) (key : Key) (bin : String) (value : Value) (policy : WritePolicy)
    (now : UInt64) : Attempt Store Unit :=
  (s.listOp key bin (.append value {}) policy now).forget

/-- Adds some values at the end of a list. -/
def listMerge (s : Store) (key : Key) (bin : String) (values : List Value)
    (policy : WritePolicy) (now : UInt64) : Attempt Store Unit :=
  (s.listOp key bin (.merge values {}) policy now).forget

/-- Puts a value in front of a position of a list. -/
def listInsert (s : Store) (key : Key) (bin : String) (index : Int64) (value : Value)
    (policy : WritePolicy) (now : UInt64) : Attempt Store Unit :=
  (s.listOp key bin (.insert index value {}) policy now).forget

/-- Puts some values in front of a position of a list. -/
def listInsertItems (s : Store) (key : Key) (bin : String) (index : Int64)
    (values : List Value) (policy : WritePolicy) (now : UInt64) : Attempt Store Unit :=
  (s.listOp key bin (.insertItems index values {}) policy now).forget

/-- Replaces the value at a position of a list. -/
def listSet (s : Store) (key : Key) (bin : String) (index : Int64) (value : Value)
    (policy : WritePolicy) (now : UInt64) : Attempt Store Unit :=
  (s.listOp key bin (.set index value {}) policy now).forget

/-- Takes the value at a position of a list out. -/
def listPop (s : Store) (key : Key) (bin : String) (index : Int64) (policy : WritePolicy)
    (now : UInt64) : Attempt Store Value :=
  (s.listOp key bin (.pop index) policy now).map valueOf

/-- Takes a range of a list out. -/
def listPopRange (s : Store) (key : Key) (bin : String) (index : Int64)
    (count : Option UInt64) (policy : WritePolicy) (now : UInt64) :
    Attempt Store (List Value) :=
  (s.listOp key bin (.popRange index count) policy now).map itemsOf

/-- Removes the value at a position of a list. -/
def listRemove (s : Store) (key : Key) (bin : String) (index : Int64) (policy : WritePolicy)
    (now : UInt64) : Attempt Store Unit :=
  (s.listOp key bin (.remove index) policy now).forget

/-- Removes a range of a list. -/
def listRemoveRange (s : Store) (key : Key) (bin : String) (index : Int64)
    (count : Option UInt64) (policy : WritePolicy) (now : UInt64) : Attempt Store Unit :=
  (s.listOp key bin (.removeRange index count) policy now).forget

/-- Keeps a range of a list. -/
def listTrim (s : Store) (key : Key) (bin : String) (index : Int64) (count : UInt64)
    (policy : WritePolicy) (now : UInt64) : Attempt Store Unit :=
  (s.listOp key bin (.trim index count) policy now).forget

/-- Removes everything from a list. -/
def listClear (s : Store) (key : Key) (bin : String) (policy : WritePolicy) (now : UInt64) :
    Attempt Store Unit :=
  (s.listOp key bin .clear policy now).forget

/-- The value at a position of a list. -/
def listGet (s : Store) (key : Key) (bin : String) (index : Int64) (now : UInt64) :
    Attempt Store Value :=
  (s.listOp key bin (.get index) {} now).map valueOf

/-- A range of a list. -/
def listGetRange (s : Store) (key : Key) (bin : String) (index : Int64)
    (count : Option UInt64) (now : UInt64) : Attempt Store (List Value) :=
  (s.listOp key bin (.getRange index count) {} now).map itemsOf

/-- The number of values in a list. -/
def listSize (s : Store) (key : Key) (bin : String) (now : UInt64) : Attempt Store Nat :=
  (s.listOp key bin .size {} now).map countOf

end RecordStore.Store
