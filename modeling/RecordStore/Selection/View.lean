import RecordStore.Result
import RecordStore.Selection.Selector
import RecordStore.Selection.Window
import RecordStore.Value.Dict

/-!
# Selecting elements

A list or a map is selected from through a `RecordStore.View`, the elements of
the container with everything that a selector can ask of them. An element has an
*index* – for a list its place, for a map its place in ascending order of the
keys, whatever the order policy – and a *rank*, its place in ascending order of
the values, where equal values keep the order of their indices.

With index and rank at hand every selector is a test on single elements
(`RecordStore.View.test`). A selection is the elements that pass the test, or,
inverted, those that fail it; selectors by rank list them in ascending order of
rank, all others in ascending order of index.
-/

namespace RecordStore

/-! ### Elements -/

/-- An element of a container as selectors see it. -/
structure Element where
  /-- The key; the items of a list have `null`. -/
  key : Value
  /-- The value. -/
  value : Value
  /-- Where the container stores the element. -/
  position : Nat
  /-- The place in index order. -/
  index : Nat
  /-- The place in the order of the values. -/
  rank : Nat
deriving Inhabited

/-- The elements of a container. -/
structure View where
  /-- Whether the elements have keys. -/
  keyed : Bool
  /-- The elements in index order. -/
  byIndex : List Element
  /-- The elements in rank order. -/
  byRank : List Element

namespace View

/-- Keys and values with their storage positions, in index order, as elements.
The ranks are counted off in the order of the values. -/
def ofEntries (keyed : Bool) (entries : List ((Value × Value) × Nat)) : View :=
  let unranked := entries.zipIdx.map fun e =>
    { key := e.1.1.1, value := e.1.1.2, position := e.1.2, index := e.2, rank := 0 : Element }
  -- the sort is stable, so that equal values are ranked in the order of their indices
  let sorted := unranked.mergeSort fun e f => decide (e.value ≤ f.value)
  let ranked := sorted.zipIdx.map fun e => { e.1 with rank := e.2 }
  { keyed
    byIndex := ranked.mergeSort fun e f => decide (e.index ≤ f.index)
    byRank := ranked }

/-- The view of a list: index order is storage order. -/
def ofList (items : List Value) : View :=
  ofEntries false (items.zipIdx.map fun e => ((.null, e.1), e.2))

/-- The view of a map: index order is the order of the keys. -/
def ofDict (m : Dict Value) : View :=
  ofEntries true m.byKey

/-- The number of elements. -/
def size (v : View) : Nat := v.byIndex.length

/-- How many elements have a value before a given one. -/
def countBelow (v : View) (value : Value) : Nat :=
  v.byIndex.countP fun e => decide (e.value < value)

/-! ### Selecting -/

/-- Whether a value is from one on, and before another one if there is one. -/
def inRange (value first : Value) (bound : Option Value) : Bool :=
  decide (first ≤ value) && bound.all fun b => decide (value < b)

/-- Guards a test on keys. -/
def onKeys (v : View) (test : Value → Bool) : Except Error (Element → Bool) :=
  if v.keyed then .ok fun e => test e.key else .error (.param .keysOfList)

/-- **The test that a selector is.** -/
def test (v : View) : Selector → Except Error (Element → Bool)
  | .index index =>
    let place := Window.resolve v.size index
    .ok fun e => place == some e.index
  | .indexRange index count =>
    let window := Window.ofRange v.size index count
    .ok fun e => window.contains e.index
  | .rank rank =>
    let place := Window.resolve v.size rank
    .ok fun e => place == some e.rank
  | .rankRange rank count =>
    let window := Window.ofRange v.size rank count
    .ok fun e => window.contains e.rank
  | .value value => .ok fun e => e.value == value
  | .valueList values => .ok fun e => values.contains e.value
  | .valueRange first bound => .ok fun e => inRange e.value first bound
  | .valueRelRankRange value rank count =>
    let window := Window.ofRelative v.size (v.countBelow value) rank count
    .ok fun e => window.contains e.rank
  | .key key => v.onKeys (· == key)
  | .keyList keys => v.onKeys keys.contains
  | .keyRange first bound => v.onKeys fun key => inRange key first bound

end View

/-- Selected elements, and those that are left. -/
structure Selection where
  /-- The selected elements, in the order in which they are reported. -/
  elements : List Element
  /-- The other elements, in the order of their indices. -/
  others : List Element
  /-- Whether a single element was asked for. -/
  point : Bool

/-- **Selects** the elements that a selector picks, or those that it leaves. -/
def View.select (v : View) (selector : Selector) (inverted : Bool) : Except Error Selection := do
  let test ← v.test selector
  let candidates := if selector.isRankStyle then v.byRank else v.byIndex
  return {
    elements := candidates.filter fun e => test e != inverted
    others := v.byIndex.filter fun e => test e == inverted
    point := selector.isPoint && !inverted }

/-! ### Reporting -/

namespace Selection

/-- Values as they are reported: the one that was asked for, `null` if there is
none, or all of them. -/
def shape (s : Selection) (values : List Value) : OpResult :=
  if s.point then .scalar (values.headD .null) else .list values

/-- Places of the elements, in ascending order. -/
def places (s : Selection) (place : Element → Nat) : OpResult :=
  let sorted := (s.elements.map place).mergeSort fun a b => decide (a ≤ b)
  s.shape (sorted.map fun p => .integer (Int64.ofNat p))

/-- **What is reported** about selected elements of a view. -/
def report (s : Selection) (v : View) (kind : ReturnKind) : Except Error (Option OpResult) :=
  let last := v.size - 1
  match kind with
  | .none => .ok none
  | .count => .ok (some (.count s.elements.length))
  | .index => .ok (some (s.places (·.index)))
  | .reverseIndex => .ok (some (s.places fun e => last - e.index))
  | .rank => .ok (some (s.places (·.rank)))
  | .reverseRank => .ok (some (s.places fun e => last - e.rank))
  | .value => .ok (some (s.shape (s.elements.map (·.value))))
  | .key =>
    if v.keyed then .ok (some (s.shape (s.elements.map (·.key))))
    else .error (.param .keysOfList)
  | .keyValue =>
    if v.keyed then .ok (some (.pairs (s.elements.map fun e => (e.key, e.value))))
    else .error (.param .keysOfList)

end Selection

/-- **What is reported** about the elements that a selector picks, together with
the selection. -/
def View.selectAndReport (v : View) (selector : Selector) (returnType : ReturnType) :
    Except Error (Selection × Option OpResult) := do
  let selection ← v.select selector returnType.inverted
  return (selection, ← selection.report v returnType.kind)

end RecordStore
