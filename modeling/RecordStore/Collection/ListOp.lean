import RecordStore.Attempt
import RecordStore.Policy
import RecordStore.Selection.View

/-!
# Operations on lists

A `RecordStore.ListOp` is one operation on a list; `RecordStore.ListOp.apply` is
the attempt to apply it. Whatever may be wrong with a write is looked at before
the list is changed, and filling up is the last thing that can fail.

Positions in writes are counted forward only; selectors may count from the end.
A write behind the end of a list first fills the list up with nulls, unless its
policy forbids that, and never with more than `RecordStore.maxPadding` of them.
-/

namespace RecordStore

/-- An operation on a list. -/
inductive ListOp where
  /-- Adds a value at the end. -/
  | append (value : Value) (policy : ListPolicy)
  /-- Adds some values at the end, in order. -/
  | merge (values : List Value) (policy : ListPolicy)
  /-- Puts a value in front of a position. -/
  | insert (index : Int64) (value : Value) (policy : ListPolicy)
  /-- Puts some values in front of a position, in order. -/
  | insertItems (index : Int64) (values : List Value) (policy : ListPolicy)
  /-- Replaces the value at a position. -/
  | set (index : Int64) (value : Value) (policy : ListPolicy)
  /-- Takes the value at a position out and answers it. -/
  | pop (index : Int64)
  /-- Takes a range out and answers it; without a count it runs to the end. -/
  | popRange (index : Int64) (count : Option UInt64)
  /-- Removes the value at a position. -/
  | remove (index : Int64)
  /-- Removes a range; without a count it runs to the end. -/
  | removeRange (index : Int64) (count : Option UInt64)
  /-- Answers the value at a position. -/
  | get (index : Int64)
  /-- Answers a range; without a count it runs to the end. -/
  | getRange (index : Int64) (count : Option UInt64)
  /-- Keeps a range and removes everything else. -/
  | trim (index : Int64) (count : UInt64)
  /-- Removes everything. -/
  | clear
  /-- Answers the number of values. -/
  | size
  /-- Reports on selected values. -/
  | getBy (selector : Selector) (returnType : ReturnType)
  /-- Reports on selected values and removes them. -/
  | removeBy (selector : Selector) (returnType : ReturnType)
deriving Inhabited

namespace ListOp

/-! ### The shape of operations -/

/-- Positions must not be negative. -/
def checkIndex (index : Int64) : Except Error Unit :=
  if index.toInt < 0 then .error (.param (.negativeListIndex index)) else .ok ()

/-- A list has no keys to select by or to report. -/
def checkSelection (selector : Selector) (returnType : ReturnType) : Except Error Unit :=
  if selector.isKeyBased then .error (.param .listByKey)
  else if returnType.usesKeys then .error (.param .listReturnsKeys)
  else .ok ()

/-- The checks that need no list. -/
def validate : ListOp → Except Error Unit
  | insert index .. | insertItems index .. | set index .. | pop index | popRange index _
  | remove index | removeRange index _ | get index | getRange index _ | trim index _ =>
    checkIndex index
  | getBy selector returnType | removeBy selector returnType => checkSelection selector returnType
  | append .. | merge .. | clear | size => .ok ()

/-- Whether the operation may change the list. -/
def isWrite : ListOp → Bool
  | get _ | getRange .. | size | getBy .. => false
  | _ => true

/-- Whether the operation starts from an empty list where there is none. -/
def createsBin : ListOp → Bool
  | append .. | merge .. | insert .. | insertItems .. | set .. => true
  | _ => false

/-- Whether the operation is about the list as a whole. -/
def isWhole : ListOp → Bool
  | clear | size => true
  | _ => false

/-! ### Positions -/

/-- The position of a value that exists. -/
def existing (items : List Value) (index : Int64) : Except Error Nat :=
  if 0 ≤ index.toInt ∧ index.toInt < items.length then .ok index.toInt.toNat
  else .error (.indexOutOfRange index items.length)

/-- The items of a window. -/
def slice (items : List Value) (window : Window) : List Value :=
  (items.take window.bound).drop window.first

/-- The items outside a window. -/
def outside (items : List Value) (window : Window) : List Value :=
  items.take window.first ++ items.drop window.bound

/-! ### Writing -/

/-- **The values that the policy lets in**, of those that a write brings. Where
values are to be unique, one that is in the list already, or came earlier in the
same write, is denied: that fails the write, or skips it as a whole, or leaves
out the denied value alone, as the policy says. No list at all means that the
write is skipped. -/
def accept (items values : List Value) (policy : ListPolicy) :
    Except Error (Option (List Value)) :=
  if policy.addUnique then acceptUnique [] values else .ok (some values)
where
  /-- Goes through the values, with those accepted so far in reverse order. -/
  acceptUnique (accepted : List Value) : List Value → Except Error (Option (List Value))
    | [] => .ok (some accepted.reverse)
    | value :: rest =>
      if items.contains value || accepted.contains value then
        if policy.noFail then
          if policy.keepRest then acceptUnique accepted rest else .ok none
        else .error (.elementExists (.item value))
      else acceptUnique (value :: accepted) rest

/-- **Makes a position addressable**: fills the list up with nulls as far as the
position. No position means that the write is skipped. -/
def padTo (items : List Value) (index : Int64) (policy : ListPolicy) :
    Attempt (List Value) (Option Nat) :=
  if index.toInt < 0 then .fail (.param .negativePosition) items
  else
    let position := index.toInt.toNat
    let length := items.length
    if position ≤ length then .done (some position) items
    else if policy.insertBounded then
      if policy.noFail then .done none items
      else .fail (.notApplicable (.pastEnd position length)) items
    else if position - length > maxPadding then
      .fail (.param (.paddingTooLong position length)) items
    else .done (some position) (items ++ List.replicate (position - length) .null)

/-- Adds the values that the policy lets in at the end. -/
def addItems (items values : List Value) (policy : ListPolicy) : Attempt (List Value) Unit :=
  .needing items (accept items values policy) fun accepted =>
    match accepted with
    | none => .done () items
    | some accepted => .done () (items ++ accepted)

/-- Puts the values that the policy lets in before a position. -/
def insertAt (items : List Value) (index : Int64) (values : List Value) (policy : ListPolicy) :
    Attempt (List Value) Unit :=
  .needing items (accept items values policy) fun accepted =>
    match accepted with
    | none => .done () items
    | some accepted =>
      -- filling up comes after the values are let in, even if none of them is
      (padTo items index policy).andThen fun position padded =>
        match position with
        | none => .done () padded
        | some position => .done () (padded.take position ++ accepted ++ padded.drop position)

/-- Replaces the value at a position, or adds it if the list ends there. -/
def setAt (items : List Value) (index : Int64) (value : Value) (policy : ListPolicy) :
    Attempt (List Value) Unit :=
  .needing items (accept items [value] policy) fun accepted =>
    match accepted with
    | none | some [] => .done () items
    | some (value :: _) =>
      (padTo items index policy).andThen fun position padded =>
        match position with
        | none => .done () padded
        | some position =>
          -- the list was filled up as far as the position, which may be its end
          if position < padded.length then .done () (padded.set position value)
          else .done () (padded ++ [value])

/-! ### Applying -/

/-- The value at a position, and the position. -/
def valueAt (items : List Value) (index : Int64) : Except Error (Value × Nat) := do
  let position ← existing items index
  return (items.getD position .null, position)

/-- **Applies an operation to a list.** -/
def apply (op : ListOp) (items : List Value) : Attempt (List Value) (Option OpResult) :=
  match op with
  | append value policy => (addItems items [value] policy).map fun _ => none
  | merge values policy => (addItems items values policy).map fun _ => none
  | insert index value policy => (insertAt items index [value] policy).map fun _ => none
  | insertItems index values policy => (insertAt items index values policy).map fun _ => none
  | set index value policy => (setAt items index value policy).map fun _ => none
  | pop index =>
    .needing items (valueAt items index) fun (value, position) =>
      .done (some (.scalar value)) (items.eraseIdx position)
  | popRange index count =>
    let window := Window.forward items.length index count
    .done (some (.list (slice items window))) (outside items window)
  | remove index =>
    .needing items (existing items index) fun position => .done none (items.eraseIdx position)
  | removeRange index count =>
    .done none (outside items (Window.forward items.length index count))
  | get index =>
    .needing items (valueAt items index) fun (value, _) => .done (some (.scalar value)) items
  | getRange index count =>
    .done (some (.list (slice items (Window.forward items.length index count)))) items
  | trim index count =>
    .done none (slice items (Window.forward items.length index (some count)))
  | clear => .done none []
  | size => .done (some (.count items.length)) items
  | getBy selector returnType =>
    .needing items ((View.ofList items).selectAndReport selector returnType) fun (_, result) =>
      .done result items
  | removeBy selector returnType =>
    .needing items ((View.ofList items).selectAndReport selector returnType)
      fun (selection, result) => .done result (selection.others.map (·.value))

end ListOp

end RecordStore
