import RecordStore.Proofs.Selection.Addresses
import RecordStore.Proofs.Trap.Access

/-!
# Containers by columns

A selection is said with elements that know their places. A machine has no such elements: it keeps
the keys, the values and the storage positions of a container in three columns
(`RecordStore.Columns`), and goes from one to the other through indices – from a rank to the index
of its element, from an index to the rank, from the indices that are picked to those that are not,
and from an index to the position in store. Each of these steps is an access that may be a trap.

This file works selections and reports out of the columns, with all of these accesses, and shows
that the columns of a list and of a map are those of its view
(`RecordStore.View.columns_ofList`, `RecordStore.View.columns_ofDict`). What the view knows and the
columns do not is the order of the ranks; a sort of the values puts the indices in that order
(`RecordStore.View.Columned`).
-/

namespace RecordStore

open Trap

/-! ### Columns -/

/-- **A container by columns**, in the order of the indices. -/
structure Columns where
  /-- The keys, if there are any. -/
  keys : Option (List Value)
  /-- The values. -/
  values : List Value
  /-- Where the elements are stored. -/
  storage : List Nat

/-- What is picked. -/
structure Picked where
  /-- The indices, in the order in which the elements are reported. -/
  indices : List Nat
  /-- Whether a single element was asked for. -/
  point : Bool

/-- What is picked, by its indices. -/
def Selection.picked (s : Selection) : Picked := ⟨s.elements.map (·.index), s.point⟩

/-- The columns of a view. -/
def View.columns (v : View) : Columns where
  keys := if v.keyed then some (v.byIndex.map (·.key)) else none
  values := v.byIndex.map (·.value)
  storage := v.byIndex.map (·.position)

namespace Columns

/-- The columns of a list. -/
def ofList (items : List Value) : Columns where
  keys := none
  values := items
  storage := List.range items.length

/-- The storage positions of a map, in ascending order of the keys. -/
def keyOrder? (m : Dict Value) : Option (List Nat) :=
  let positions := List.range m.entries.length
  if m.order.isKeyOrdered then some positions
  else sort? m.entries positions fun e f => decide (e.1 ≤ f.1)

/-- The columns of a map. -/
def ofDict? (m : Dict Value) : Option Columns := do
  let storage ← keyOrder? m
  let found ← lookUp? m.entries storage
  return {
    keys := some (found.map (·.1.1))
    values := found.map (·.1.2)
    storage }

/-- The number of elements. -/
def size (c : Columns) : Nat := c.values.length

/-- The indices in the order of the ranks. -/
def ranked? (c : Columns) : Option (List Nat) :=
  sort? c.values (List.range c.size) fun a b => decide (a ≤ b)

/-- The rank at each index. -/
def ranks? (c : Columns) : Option (List Nat) := do
  let ranked ← c.ranked?
  setAll? (List.replicate c.size 0) ranked.zipIdx

/-- The indices of the values that pass a test. -/
def matching? (c : Columns) (test : Value → Bool) : Option (Except Error (List Nat)) :=
  (filter? c.values (List.range c.size) test).map .ok

/-- The indices of the keys that pass a test. -/
def matchingKeys? (c : Columns) (test : Value → Bool) : Option (Except Error (List Nat)) :=
  match c.keys with
  | none => some (.error (.param .keysOfList))
  | some keys => (filter? keys (List.range c.size) test).map .ok

/-- How many values stand before a given one. -/
def countBelow (c : Columns) (value : Value) : Nat := c.values.countP fun v => decide (v < value)

/-- The positions in a window. -/
def positionsIn (w : Window) : List Nat := List.range' w.first (w.bound - w.first)

/-- **The indices that a selector picks.** -/
def pick? (c : Columns) : Selector → Option (Except Error (List Nat))
  | .index index => do return .ok (← Window.resolve? c.size index).toList
  | .indexRange index count => do return .ok (positionsIn (← Window.ofRange? c.size index count))
  | .rank rank => do
    let ranked ← c.ranked?
    match ← Window.resolve? c.size rank with
    | none => return .ok []
    | some r => return .ok [← ranked[r]?]
  | .rankRange rank count => do
    let ranked ← c.ranked?
    return .ok (← slice? ranked (← Window.ofRange? c.size rank count))
  | .value value => c.matching? (· == value)
  | .valueList values => c.matching? values.contains
  | .valueRange first bound => c.matching? (View.inRange · first bound)
  | .valueRelRankRange value rank count => do
    let ranked ← c.ranked?
    return .ok (← slice? ranked (← Window.ofRelative? c.size (c.countBelow value) rank count))
  | .key key => c.matchingKeys? (· == key)
  | .keyList keys => c.matchingKeys? keys.contains
  | .keyRange first bound => c.matchingKeys? (View.inRange · first bound)

/-- The indices of a selector that are not picked, in the order in which it reports. -/
def unpicked? (c : Columns) (selector : Selector) (picked : List Nat) : Option (List Nat) := do
  let marks ← mark? c.size picked
  let indices ← (if selector.isRankStyle then c.ranked? else some (List.range c.size))
  filter? marks indices (!·)

/-- **Selects** what a selector picks, or what it leaves. -/
def select? (c : Columns) (selector : Selector) (inverted : Bool) :
    Option (Except Error Picked) := do
  match ← c.pick? selector with
  | .error e => return .error e
  | .ok picked =>
    let indices ← (if inverted then c.unpicked? selector picked else some picked)
    return .ok ⟨indices, selector.isPoint && !inverted⟩

/-! ### Reports -/

/-- Values as they are reported. -/
def shape (p : Picked) (values : List Value) : OpResult :=
  if p.point then .scalar (values.headD .null) else .list values

/-- A place, counted from the end if asked for. -/
def turned? (c : Columns) (reverse : Bool) (place : Nat) : Option Nat :=
  if reverse then (sub? c.size 1).bind fun last => sub? last place else some place

/-- Places of what is picked, in ascending order. -/
def places? (c : Columns) (p : Picked) (place : Nat → Option Nat) (reverse : Bool) :
    Option OpResult := do
  let places ← p.indices.mapM fun i => (place i).bind (c.turned? reverse)
  let sorted := places.mergeSort fun a b => decide (a ≤ b)
  return shape p (sorted.map fun p => .integer (Int64.ofNat p))

/-- What stands in a column at what is picked. -/
def column? (column : List Value) (p : Picked) : Option (List Value) :=
  (lookUp? column p.indices).map fun found => found.map (·.1)

/-- **What is reported.** -/
def report? (c : Columns) (p : Picked) : ReturnKind → Option (Except Error (Option OpResult))
  | .none => some (.ok none)
  | .count => some (.ok (some (.count p.indices.length)))
  | .index => do return .ok (some (← c.places? p some false))
  | .reverseIndex => do return .ok (some (← c.places? p some true))
  | .rank => do
    let ranks ← c.ranks?
    return .ok (some (← c.places? p (fun i => ranks[i]?) false))
  | .reverseRank => do
    let ranks ← c.ranks?
    return .ok (some (← c.places? p (fun i => ranks[i]?) true))
  | .value => do return .ok (some (shape p (← column? c.values p)))
  | .key =>
    match c.keys with
    | none => some (.error (.param .keysOfList))
    | some keys => do return .ok (some (shape p (← column? keys p)))
  | .keyValue =>
    match c.keys with
    | none => some (.error (.param .keysOfList))
    | some keys => do
      return .ok (some (.pairs ((← column? keys p).zip (← column? c.values p))))

/-- **Selects and reports.** -/
def selectAndReport? (c : Columns) (selector : Selector) (returnType : ReturnType) :
    Option (Except Error (Picked × Option OpResult)) := do
  match ← c.select? selector returnType.inverted with
  | .error e => return .error e
  | .ok picked => return (← c.report? picked returnType.kind).map (picked, ·)

/-- The storage positions of what is picked. -/
def positions? (c : Columns) (p : Picked) : Option (List Nat) :=
  (lookUp? c.storage p.indices).map fun found => found.map (·.1)

end Columns

/-! ### Columns of a view -/

/-- **The columns of a view stand for it**, as the sort by value puts the indices in the order of
the ranks. -/
structure View.Columned (v : View) (entries : List (Value × Value)) : Prop extends
    v.Shows entries where
  /-- The indices in the order of the ranks. -/
  ranked_eq : v.columns.ranked? = some (v.byRank.map (·.index))

namespace View

variable {v : View} {entries : List (Value × Value)} {e : Element}

/-- A column holds at an index what belongs to its element. -/
theorem Shows.getElem?_map_index (h : v.Shows entries) {α : Type} (f : Element → α)
    (he : e ∈ v.byIndex) : (v.byIndex.map f)[e.index]? = some (f e) := by
  rw [List.getElem?_map, h.getElem?_index he]
  rfl

theorem Shows.size_columns (h : v.Shows entries) : v.columns.size = entries.length :=
  (List.length_map ..).trans h.size_eq

theorem Shows.length_byRank (h : v.Shows entries) : v.byRank.length = entries.length := by
  simpa using congrArg List.length h.ranks_eq

theorem Shows.range_size (h : v.Shows entries) :
    List.range v.columns.size = v.byIndex.map (·.index) := by
  rw [h.size_columns, h.indices_eq]

/-! ### Lists and maps -/

/-- Sorting the values sorts the elements. -/
theorem columned_ofEntries (keyed : Bool) (entries : List ((Value × Value) × Nat)) :
    (ofEntries keyed entries).Columned (entries.map (·.1)) where
  toShows := shows_ofEntries keyed entries
  ranked_eq := by
    have h := shows_ofEntries keyed entries
    have hsorted : ((ofEntries keyed entries).byIndex.mergeSort
        fun e f => decide (e.value ≤ f.value)).map Element.unrank = sorted entries := by
      rw [sorted, ← map_unrank_byIndex keyed entries]
      exact List.map_mergeSort fun _ _ _ _ => rfl
    have hranked : (ofEntries keyed entries).byRank.map Element.unrank = sorted entries := by
      have hsort : (sorted entries).map Element.unrank = sorted entries := by
        conv_rhs => rw [sorted, ← map_unrank_unranked entries]
        exact List.map_mergeSort fun _ _ _ _ => rfl
      exact (map_unrank_zipIdx (sorted entries)).trans hsort
    have hindex : ∀ es : List Element,
        es.map (·.index) = (es.map Element.unrank).map (·.index) := by
      intro es
      rw [List.map_map]
      rfl
    rw [Columns.ranked?, h.range_size]
    refine (sort?_map (fun e he => h.getElem?_map_index (·.value) he) _).trans ?_
    rw [hindex, hsorted, ← hranked, ← hindex]

theorem columned_ofList (items : List Value) :
    (ofList items).Columned (items.map fun item => (.null, item)) where
  toShows := shows_ofList items
  ranked_eq := (columned_ofEntries false _).ranked_eq

theorem columned_ofDict (m : Dict Value) : (ofDict m).Columned (m.byKey.map (·.1)) :=
  columned_ofEntries true m.byKey

theorem columns_ofList (items : List Value) : (ofList items).columns = .ofList items := by
  have hvalues := congrArg (List.map (·.1)) (map_item_byIndex items)
  have hstorage := congrArg (List.map (·.2)) (map_item_byIndex items)
  rw [List.map_map, List.zipIdx_map_fst] at hvalues
  rw [List.map_map, List.zipIdx_map_snd, ← List.range_eq_range'] at hstorage
  exact congrArg₂ (Columns.mk none) hvalues hstorage

theorem keyOrder?_eq (m : Dict Value) : Columns.keyOrder? m = some m.keyOrder := by
  have hrange : List.range m.entries.length = m.entries.zipIdx.map (·.2) := by
    rw [List.zipIdx_map_snd, List.range_eq_range']
  rw [Columns.keyOrder?, Dict.keyOrder, Dict.byKey, hrange]
  split
  · rfl
  · exact sort?_map (fun e he => List.mk_mem_zipIdx_iff_getElem?.mp he) _

/-- **The entries of a map are looked up** in the order of their keys. -/
theorem columns_ofDict (m : Dict Value) : Columns.ofDict? m = some (ofDict m).columns := by
  have hfound : lookUp? m.entries (m.byKey.map (·.2)) =
      some (m.byKey.map fun e => (e.1, e.2)) :=
    lookUp?_map fun e he => List.mk_mem_zipIdx_iff_getElem?.mp (m.byKey_perm.mem_iff.mp he)
  have hentries := map_entry_byIndex true m.byKey
  rw [Columns.ofDict?, keyOrder?_eq, Option.bind_eq_bind, Option.bind_some, Dict.keyOrder, hfound,
    Option.bind_eq_bind, Option.bind_some, ← hentries]
  simp [columns, ofDict, ofEntries]

end View

end RecordStore
