import RecordStore.Attempt
import RecordStore.Policy
import RecordStore.Selection.View
import RecordStore.Value.Arithmetic

/-!
# Operations on maps

A `RecordStore.MapOp` is one operation on a map; `RecordStore.MapOp.apply` is the
attempt to apply it. Whatever may be wrong with a write is looked at before the
map is changed.

Selectors address the entries in ascending order of their keys, so that maps
that hold the same entries answer alike, whatever their order policies.
-/

namespace RecordStore

/-- An operation on a map. -/
inductive MapOp where
  /-- Changes the order policy. -/
  | setPolicy (policy : MapPolicy)
  /-- Writes an entry. -/
  | put (key value : Value) (policy : MapPolicy)
  /-- Writes some entries. -/
  | putItems (items : List (Value × Value)) (policy : MapPolicy)
  /-- Adds to the value of an entry. -/
  | increment (key delta : Value) (policy : MapPolicy)
  /-- Subtracts from the value of an entry. -/
  | decrement (key delta : Value) (policy : MapPolicy)
  /-- Removes everything. -/
  | clear
  /-- Answers the number of entries. -/
  | size
  /-- Reports on selected entries. -/
  | getBy (selector : Selector) (returnType : ReturnType)
  /-- Reports on selected entries and removes them. -/
  | removeBy (selector : Selector) (returnType : ReturnType)
deriving Inhabited

namespace MapOp

/-! ### The shape of operations -/

/-- The checks that need no map. -/
def validate : MapOp → Except Error Unit
  | increment _ delta _ | decrement _ delta _ =>
    if delta.isNumeric then .ok () else .error (.notApplicable (.mapIncrementDelta delta.kind))
  | putItems items _ => if items.isEmpty then .error (.param .noItems) else .ok ()
  | setPolicy _ | put .. | clear | size | getBy .. | removeBy .. => .ok ()

/-- Whether the operation may change the map. -/
def isWrite : MapOp → Bool
  | size | getBy .. => false
  | _ => true

/-- The policy of the empty map that the operation starts from where there is
none, if it does. -/
def createsBin : MapOp → Option MapPolicy
  | setPolicy policy | put _ _ policy | putItems _ policy | increment _ _ policy
  | decrement _ _ policy => some policy
  | _ => none

/-- Whether the operation is about the map as a whole. -/
def isWhole : MapOp → Bool
  | clear | size => true
  | _ => false

/-! ### Writing -/

/-- **Whether the policy lets a write address a key.** A denied write fails, or
is left out if the policy says so. -/
def accept (m : Dict Value) (key : Value) (policy : MapPolicy) : Except Error Bool :=
  let deny (error : Error) : Except Error Bool := if policy.noFail then .ok false else .error error
  match policy.writeMode, m.contains key with
  | .updateOnly, false => deny (.elementNotFound (.mapKey key))
  | .createOnly, true => deny (.elementExists (.mapKey key))
  | _, _ => .ok true

/-- The items that the policy lets in, looked at on the map as it is before the
write. No list means that the write is skipped. -/
def acceptItems (m : Dict Value) (policy : MapPolicy) :
    List (Value × Value) → Except Error (Option (List (Value × Value)))
  | [] => .ok (some [])
  | item :: rest => do
    if ← accept m item.1 policy then
      return (← acceptItems m policy rest).map (item :: ·)
    else if policy.keepRest then acceptItems m policy rest
    else return none

/-- The value of an entry with an amount added; where there is no entry it is the
amount. -/
def sumAt (m : Dict Value) (key amount : Value) : Except Error Value :=
  match m.get? key with
  | none => .ok amount
  | some current => current.add amount

/-- Adds an amount, which is worked out once the key is let in, to the value of
an entry, and answers the sum. -/
def addTo (m : Dict Value) (key : Value) (amount : Except Error Value) (policy : MapPolicy) :
    Attempt (Dict Value) (Option OpResult) :=
  .needing m (accept m key policy) fun accepted =>
    if accepted then
      -- an amount that cannot be worked out fails only here
      .needing m (amount.bind (sumAt m key)) fun sum =>
        .done (some (.scalar sum)) (m.insert key sum)
    else .done none m

/-! ### Applying -/

/-- **Applies an operation to a map.** -/
def apply (op : MapOp) (m : Dict Value) : Attempt (Dict Value) (Option OpResult) :=
  match op with
  | setPolicy policy => .done none (m.setOrder policy.order)
  | put key value policy =>
    .needing m (accept m key policy) fun accepted =>
      .done none (if accepted then m.insert key value else m)
  | putItems items policy =>
    .needing m (acceptItems m policy items) fun accepted =>
      .done none (m.insertMany (accepted.getD []))
  | increment key delta policy => addTo m key (.ok delta) policy
  | decrement key delta policy => addTo m key delta.negate policy
  | clear => .done none m.clear
  | size => .done (some (.count m.size)) m
  | getBy selector returnType =>
    .needing m ((View.ofDict m).selectAndReport selector returnType) fun (_, result) =>
      .done result m
  | removeBy selector returnType =>
    .needing m ((View.ofDict m).selectAndReport selector returnType) fun (selection, result) =>
      .done result (m.erasePositions (selection.elements.map (·.position)))

end MapOp

end RecordStore
