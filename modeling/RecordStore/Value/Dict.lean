import RecordStore.Value.Order

/-!
# Maps of values

The operations on the map type `RecordStore.Dict` over values. A map is looked
up by equality of keys, which ignores how a key that is itself a map stores its
entries. Every operation here keeps two things: the keys are pairwise different,
and a map ordered by key stores its entries in ascending order of the keys. On
such maps the operations are those of a finite function; the order policy shows
in the storage order alone.

The order policy also decides how a key is found (`RecordStore.Dict.place`). A
map ordered by key is searched by halving, which relies on the order of its
entries; any other map is gone through from the start.

A key that is already present keeps the spelling it was first stored with; only
its value is replaced.
-/

namespace RecordStore.Dict

/-! ### Finding keys -/

/-- What looking for a key comes to. -/
inductive Place where
  /-- The key stands at a position. -/
  | found (position : Nat)
  /-- The key is absent, and a new entry goes in front of a position. -/
  | absent (position : Nat)
deriving DecidableEq, Inhabited

/-- The position of a key that was found. -/
def Place.position? : Place → Option Nat
  | found position => some position
  | absent _ => none

/-- **Looks for a key by halving**, among the positions from `lo` on and before
`hi`; the entries have to be in ascending order of the keys. -/
def search (entries : List (Value × Value)) (key : Value) (lo hi : Nat)
    (bounded : hi ≤ entries.length) : Place :=
  if h : lo < hi then
    let middle := lo + (hi - lo) / 2
    have inside : middle < entries.length := by omega
    match Value.compare entries[middle].1 key with
    | .lt => search entries key (middle + 1) hi bounded
    | .gt => search entries key lo middle (Nat.le_of_lt inside)
    | .eq => .found middle
  else .absent lo
termination_by hi - lo

/-- Looks for a key from the start; where it is absent, a new entry goes to the
end. -/
def scan (entries : List (Value × Value)) (key : Value) : Place :=
  match entries.findIdx? (·.1 == key) with
  | some position => .found position
  | none => .absent entries.length

/-- **Where a key stands** in a map, or where it goes. -/
def place (m : Dict Value) (key : Value) : Place :=
  if m.order.isKeyOrdered then search m.entries key 0 m.entries.length (Nat.le_refl _)
  else scan m.entries key

/-! ### Looking up -/

/-- The map without entries. -/
def empty (order : MapOrder) : Dict Value := ⟨order, []⟩

/-- The number of entries. -/
def size (m : Dict Value) : Nat := m.entries.length

/-- Whether there are no entries. -/
def isEmpty (m : Dict Value) : Bool := m.entries.isEmpty

/-- The value at a key. -/
def get? (m : Dict Value) (key : Value) : Option Value :=
  (m.place key).position?.bind fun position => m.entries[position]?.map (·.2)

/-- Whether a key is present. -/
def contains (m : Dict Value) (key : Value) : Bool :=
  (m.place key).position?.isSome

/-! ### Inserting and erasing -/

/-- **Inserts or overwrites.** A key that is present keeps its place; a new one
goes to the end, or to its place among the keys if the map is ordered by key. -/
def insert (m : Dict Value) (key value : Value) : Dict Value :=
  match m.place key with
  | .found position => { m with entries := m.entries.modify position fun e => (e.1, value) }
  | .absent position => { m with entries := m.entries.insertIdx position (key, value) }

/-- Inserts or overwrites, and answers the value that was at the key. -/
def getThenInsert? (m : Dict Value) (key value : Value) : Option Value × Dict Value :=
  (m.get? key, m.insert key value)

/-- Inserts pairs one by one; the last of equal keys determines the value. -/
def insertMany (m : Dict Value) (pairs : List (Value × Value)) : Dict Value :=
  pairs.foldl (fun m e => m.insert e.1 e.2) m

/-- The map that arises from inserting pairs one by one. -/
def ofList (order : MapOrder) (pairs : List (Value × Value)) : Dict Value :=
  (empty order).insertMany pairs

/-- Removes the entry at a key, if there is one. -/
def erase (m : Dict Value) (key : Value) : Dict Value :=
  match m.place key with
  | .found position => { m with entries := m.entries.eraseIdx position }
  | .absent _ => m

/-- Removes the entry at a key, and answers its value. -/
def getThenErase? (m : Dict Value) (key : Value) : Option Value × Dict Value :=
  (m.get? key, m.erase key)

/-- Removes every entry; the order policy stays. -/
def clear (m : Dict Value) : Dict Value := { m with entries := [] }

/-- Removes the entries at some storage positions. -/
def erasePositions (m : Dict Value) (positions : List Nat) : Dict Value :=
  { m with entries := (m.entries.zipIdx.filter fun e => !positions.contains e.2).map (·.1) }

/-! ### The order of the keys -/

/-- Changes the order policy; the entries are sorted if the new one asks for
it, and stay as they are stored otherwise. -/
def setOrder (m : Dict Value) (order : MapOrder) : Dict Value :=
  { order := order
    entries :=
      if order.isKeyOrdered then m.entries.mergeSort fun e f => decide (e.1 ≤ f.1)
      else m.entries }

/-- Entries with their storage positions, in ascending order of the keys; a map
ordered by key stores them that way. -/
def byKey (m : Dict Value) : List ((Value × Value) × Nat) :=
  if m.order.isKeyOrdered then m.entries.zipIdx
  else m.entries.zipIdx.mergeSort fun e f => decide (e.1.1 ≤ f.1.1)

/-- The storage positions of the entries, in ascending order of the keys. -/
def keyOrder (m : Dict Value) : List Nat :=
  m.byKey.map (·.2)

/-! ### Equality -/

/-- Maps are equal when they have as many entries and neither comes before the
other; the order policies have no say. -/
instance : BEq (Dict Value) :=
  ⟨fun m n => m.size == n.size && Value.compare (.map m) (.map n) == .eq⟩

end RecordStore.Dict
