import RecordStore.Value.Basic

/-!
# The order of values

Values form one line across all types. Values of different types stand in the
order of their types (`RecordStore.Kind.rank`); in particular no integer equals
a double. Within a type

* integers compare as numbers, doubles by their total order;
* texts compare by code points, byte strings byte by byte;
* lists compare item by item, a list before its continuations;
* maps compare as the lists of their entries *in ascending order of the keys*,
  whatever order the entries are stored in.

The last clause is what makes the order of maps independent of their policy. It
is reached in two steps: `RecordStore.Value.canonical` puts the entries of every
map, at every depth, into ascending order of the keys and forgets the policy,
and `RecordStore.Value.compareCanonical` compares the results by their structure
alone. A map ordered by key is taken at its word: its entries are not sorted
again.

Two values are equal (`==`) when they compare as equal, so that equality too
looks through the order policy and the storage order of maps.
-/

namespace RecordStore

namespace Value

/-! ### Comparing by structure -/

mutual

/-- Compares two values whose maps store their entries in the order in which
they are to be compared. -/
def compareCanonical : Value → Value → Ordering
  | .null, w =>
    match w with
    | .null => .eq
    | w => compare Kind.null.rank w.kind.rank
  | .integer m, w =>
    match w with
    | .integer n => compare m.toInt n.toInt
    | w => compare Kind.integer.rank w.kind.rank
  | .string s, w =>
    match w with
    | .string t => compare s t
    | w => compare Kind.string.rank w.kind.rank
  | .list xs, w =>
    match w with
    | .list ys => compareItems xs ys
    | w => compare Kind.list.rank w.kind.rank
  | .map ⟨_, es⟩, w =>
    -- the order policies have no say
    match w with
    | .map ⟨_, fs⟩ => compareEntries es fs
    | w => compare Kind.map.rank w.kind.rank
  | .bytes xs, w =>
    match w with
    | .bytes ys => compare xs ys
    | w => compare Kind.bytes.rank w.kind.rank
  | .double x, w =>
    match w with
    | .double y => compare x.rank y.rank
    | w => compare Kind.double.rank w.kind.rank
  | .geoJson s, w =>
    match w with
    | .geoJson t => compare s t
    | w => compare Kind.geoJson.rank w.kind.rank

/-- Compares two lists item by item; a list comes before its continuations. -/
def compareItems : List Value → List Value → Ordering
  | [], [] => .eq
  | [], _ :: _ => .lt
  | _ :: _, [] => .gt
  | x :: xs, y :: ys =>
    match compareCanonical x y with
    | .eq => compareItems xs ys
    | o => o

/-- Compares two lists of entries, the key of an entry before its value. -/
def compareEntries : List (Value × Value) → List (Value × Value) → Ordering
  | [], [] => .eq
  | [], _ :: _ => .lt
  | _ :: _, [] => .gt
  | (k, v) :: es, (l, w) :: fs =>
    match compareCanonical k l with
    | .eq =>
      match compareCanonical v w with
      | .eq => compareEntries es fs
      | o => o
    | o => o

end

/-! ### The canonical form -/

/-- Entries in ascending order of their keys; equal keys keep their order. -/
def sortEntries (entries : List (Value × Value)) : List (Value × Value) :=
  entries.mergeSort fun e f => (compareCanonical e.1 f.1).isLE

mutual

/-- **The canonical form** of a value: every map in it lists its entries in
ascending order of the keys, and all maps carry the same order policy. A map that
is ordered by key lists them as it stores them. -/
def canonical : Value → Value
  | .null => .null
  | .integer n => .integer n
  | .double x => .double x
  | .string s => .string s
  | .bytes b => .bytes b
  | .list items => .list (canonicalItems items)
  | .map ⟨order, entries⟩ =>
    let images := canonicalEntries entries
    .map ⟨.keyOrdered, if order.isKeyOrdered then images else sortEntries images⟩
  | .geoJson text => .geoJson text

/-- The canonical forms of the items of a list. -/
def canonicalItems : List Value → List Value
  | [] => []
  | x :: xs => canonical x :: canonicalItems xs

/-- The canonical forms of the entries of a map, not yet sorted. -/
def canonicalEntries : List (Value × Value) → List (Value × Value)
  | [] => []
  | (k, v) :: es => (canonical k, canonical v) :: canonicalEntries es

end

/-! ### The order -/

/-- **The order of values**: their canonical forms, compared by structure. -/
protected def compare (v w : Value) : Ordering :=
  compareCanonical v.canonical w.canonical

instance : Ord Value := ⟨Value.compare⟩

/-- Values are equal when neither comes before the other. -/
instance : BEq Value := ⟨fun v w => Value.compare v w == .eq⟩

instance : LT Value := ⟨fun v w => Value.compare v w = .lt⟩

instance : LE Value := ⟨fun v w => Value.compare v w ≠ .gt⟩

instance (v w : Value) : Decidable (v < w) :=
  inferInstanceAs (Decidable (Value.compare v w = .lt))

instance (v w : Value) : Decidable (v ≤ w) :=
  inferInstanceAs (Decidable (Value.compare v w ≠ .gt))

/-- Values in ascending order; equal ones keep their order. -/
def sort (values : List Value) : List Value :=
  values.mergeSort fun v w => decide (v ≤ w)

end Value

end RecordStore
