import Mathlib.Data.List.Nodup
import RecordStore.Selection.View

/-!
# Views show what is stored

A view lists the elements of a container twice, in the order of their indices and in
the order of their ranks, and an element carries its position in the container. Two
sorts and two counts lie between the container and the view. This file shows that
nothing is lost or made up on the way: both lists hold the same elements, and these
are what is stored, each at its own position (`RecordStore.View.Faithful`). For a list
the indices are the positions; for a map they are not, as its entries may be stored in
any order.
-/

namespace RecordStore

/-- An element without its rank. -/
def Element.unrank (e : Element) : Element := { e with rank := 0 }

/-- What is counted off stands at its place. -/
theorem place_of_getElem? {α : Type} {l : List α} {place : α → Nat} {n i : Nat} {a : α}
    (hplace : l.map place = List.range n) (ha : l[i]? = some a) : place a = i := by
  have hi : (l.map place)[i]? = some (place a) := by
    rw [List.getElem?_map, ha]
    rfl
  rw [hplace] at hi
  obtain ⟨hlt, heq⟩ := List.getElem?_eq_some_iff.mp hi
  rw [← heq, List.getElem_range]

/-- Whatever the order policy, the entries of a map are listed with their positions. -/
theorem Dict.byKey_perm (m : Dict Value) : m.byKey.Perm m.entries.zipIdx := by
  rw [Dict.byKey]
  split
  · exact .refl _
  · exact List.mergeSort_perm _ _

/-- Listed by their keys, the entries of a map stand as a map that is ordered by key
stores them. -/
theorem Dict.map_fst_byKey (m : Dict Value) :
    m.byKey.map (·.1) = if m.order.isKeyOrdered then m.entries
      else (m.setOrder .keyOrdered).entries := by
  rw [byKey]
  split
  · exact List.zipIdx_map_fst 0 m.entries
  · have hsort : (m.entries.zipIdx.mergeSort fun e f => decide (e.1.1 ≤ f.1.1)).map Prod.fst =
        (m.entries.zipIdx.map Prod.fst).mergeSort fun e f => decide (e.1 ≤ f.1) :=
      List.map_mergeSort fun _ _ _ _ => rfl
    rw [hsort, List.zipIdx_map_fst]
    rfl

namespace View

variable {α : Type}

/-! ### Elements before and after sorting -/

/-- The elements of some entries, before ranks are given to them. -/
def unranked (entries : List ((Value × Value) × Nat)) : List Element :=
  entries.zipIdx.map fun e =>
    { key := e.1.1.1, value := e.1.1.2, position := e.1.2, index := e.2, rank := 0 }

/-- Indices are counted off. -/
theorem map_index_unranked (entries : List ((Value × Value) × Nat)) :
    (unranked entries).map (·.index) = List.range entries.length := by
  rw [unranked, List.map_map, List.range_eq_range', ← List.zipIdx_map_snd]
  rfl

/-- What the elements hold is what the entries are. -/
theorem map_entry_unranked (entries : List ((Value × Value) × Nat)) :
    (unranked entries).map (fun e => ((e.key, e.value), e.position)) = entries := by
  rw [unranked, List.map_map]
  exact List.zipIdx_map_fst 0 entries

theorem map_unrank_unranked (entries : List ((Value × Value) × Nat)) :
    (unranked entries).map Element.unrank = unranked entries := by
  rw [unranked, List.map_map]
  rfl

/-- Giving ranks to elements changes nothing but their ranks. -/
theorem map_unrank_zipIdx (elements : List Element) :
    (elements.zipIdx.map fun e => { e.1 with rank := e.2 }).map Element.unrank =
      elements.map Element.unrank :=
  calc
    _ = (elements.zipIdx.map Prod.fst).map Element.unrank := by rw [List.map_map, List.map_map]; rfl
    _ = elements.map Element.unrank := by rw [List.zipIdx_map_fst]

/-- **Both lists of a view hold the same elements.** -/
theorem byRank_perm_byIndex (keyed : Bool) (entries : List ((Value × Value) × Nat)) :
    (ofEntries keyed entries).byRank.Perm (ofEntries keyed entries).byIndex :=
  (List.mergeSort_perm _ _).symm

/-- But for their ranks, the elements are the same as before they were sorted. -/
theorem map_unrank_byRank_perm (keyed : Bool) (entries : List ((Value × Value) × Nat)) :
    ((ofEntries keyed entries).byRank.map Element.unrank).Perm (unranked entries) := by
  have hsorted := (List.mergeSort_perm (unranked entries)
    fun e f => decide (e.value ≤ f.value)).map Element.unrank
  rw [map_unrank_unranked] at hsorted
  exact (map_unrank_zipIdx _).symm ▸ hsorted

/-- **In the order of the indices** stand the elements as they were before they were
sorted by value, but for their ranks. -/
theorem map_unrank_byIndex (keyed : Bool) (entries : List ((Value × Value) × Nat)) :
    (ofEntries keyed entries).byIndex.map Element.unrank = unranked entries := by
  have hsort : (ofEntries keyed entries).byIndex.map Element.unrank =
      ((ofEntries keyed entries).byRank.map Element.unrank).mergeSort
        fun e f => decide (e.index ≤ f.index) :=
    List.map_mergeSort fun e _ f _ => rfl
  have hperm := (List.mergeSort_perm _ fun e f => decide (e.index ≤ f.index)).trans
    (map_unrank_byRank_perm keyed entries)
  have hindices := map_index_unranked entries
  have hnodup : ((unranked entries).map (·.index)).Nodup := hindices ▸ List.nodup_range
  have hascending : (unranked entries).Pairwise fun e f => e.index < f.index :=
    List.pairwise_map.mp (hindices ▸ List.pairwise_lt_range)
  rw [hsort]
  -- both lists ascend in their indices, and no index stands twice
  refine List.Perm.eq_of_pairwise (fun e f he hf hef hfe => ?_) (List.pairwise_mergeSort ?_ ?_ _)
    (hascending.imp fun h => decide_eq_true (Nat.le_of_lt h)) hperm
  · refine List.inj_on_of_nodup_map hnodup (hperm.mem_iff.mp he) hf ?_
    exact Nat.le_antisymm (of_decide_eq_true hef) (of_decide_eq_true hfe)
  · intro e f g hef hfg
    exact decide_eq_true (Nat.le_trans (of_decide_eq_true hef) (of_decide_eq_true hfg))
  · intro e f
    simpa using Nat.le_total e.index f.index

/-! ### Elements and what is stored -/

/-- **The elements of a view are its entries**, in the order of their indices. -/
theorem map_entry_byIndex (keyed : Bool) (entries : List ((Value × Value) × Nat)) :
    (ofEntries keyed entries).byIndex.map (fun e => ((e.key, e.value), e.position)) = entries := by
  have h := congrArg (List.map fun e : Element => ((e.key, e.value), e.position))
    (map_unrank_byIndex keyed entries)
  rw [List.map_map, map_entry_unranked] at h
  exact h

/-- **A view shows what is stored**: it lists the same elements twice, and they are
the stored things, each with its position. -/
structure Faithful (v : View) (storage : List α) (content : Element → α) : Prop where
  /-- Both lists hold the same elements. -/
  perm : v.byRank.Perm v.byIndex
  /-- The elements are the things that are stored. -/
  stored : (v.byIndex.map fun e => (content e, e.position)).Perm storage.zipIdx

/-- The view of a list lists its items in their order. -/
theorem map_item_byIndex (items : List Value) :
    (ofList items).byIndex.map (fun e => (e.value, e.position)) = items.zipIdx := by
  have h := congrArg (List.map fun e : (Value × Value) × Nat => (e.1.2, e.2))
    (map_entry_byIndex false (items.zipIdx.map fun e => ((.null, e.1), e.2)))
  rw [List.map_map, List.map_map] at h
  exact h.trans (List.map_id _)

theorem faithful_ofList (items : List Value) : (ofList items).Faithful items (·.value) where
  perm := byRank_perm_byIndex _ _
  stored := .of_eq (map_item_byIndex items)

theorem faithful_ofDict (m : Dict Value) :
    (ofDict m).Faithful m.entries fun e => (e.key, e.value) where
  perm := byRank_perm_byIndex _ _
  stored := by
    rw [ofDict, map_entry_byIndex]
    exact m.byKey_perm

end View

end RecordStore
