import RecordStore.Proofs.Selection.View
import RecordStore.Proofs.Value.Dict

/-!
# The rank of an element

The rank of an element is where it comes to stand when the values are sorted. This file
counts instead of sorting: as many elements stand in front of an element as have smaller
values, together with those that have an equal value and a smaller index
(`RecordStore.rankAt`). That both are the same is what the stability of the sort comes to
(`RecordStore.View.shows_ofEntries`).

With the ranks everything is known that a view shows. `RecordStore.View.Shows` says it for
any entries in index order; for a list these are its items, and for a map with different
keys its entries in ascending order of the keys.
-/

namespace RecordStore

/-! ### Ranks by counting -/

/-- **The rank of the value at an index**: so many values are smaller, and so many equal ones
stand in front of it. -/
def rankAt (values : List Value) (index : Nat) : Nat :=
  values[index]?.elim 0 fun v =>
    values.countP (fun w => decide (w < v)) + (values.take index).countP (· == v)

/-- In a list in which everything comes before what stands behind it, as many things come
before another one as stand in front of it. -/
theorem countP_of_pairwise {α : Type} {R : α → α → Prop} [DecidableRel R]
    (hasymm : ∀ a b, R a b → ¬R b a) {l : List α} (h : l.Pairwise R) {place : Nat} {a : α}
    (ha : l[place]? = some a) : l.countP (fun b => decide (R b a)) = place := by
  induction l generalizing place with
  | nil => simp at ha
  | cons b l ih =>
    obtain ⟨hb, hl⟩ := List.pairwise_cons.mp h
    cases place with
    | zero =>
      obtain rfl := Option.some.inj ha
      have hself : ¬R b b := fun hbb => hasymm b b hbb hbb
      have hrest : l.countP (fun c => decide (R c b)) = 0 := by
        rw [List.countP_eq_zero]
        intro c hc
        simpa using hasymm b c (hb c hc)
      simp [hself, hrest]
    | succ place =>
      rw [List.getElem?_cons_succ] at ha
      have hfirst : R b a := hb a (List.mem_of_getElem? ha)
      simp [hfirst, ih hl ha]

namespace Element

/-- **An element ranks before another one** if its value is smaller, or is equal and has a
smaller index. -/
def Before (e f : Element) : Prop :=
  e.value < f.value ∨ (e.value == f.value) = true ∧ e.index < f.index

instance : DecidableRel Before := fun e f =>
  inferInstanceAs (Decidable (e.value < f.value ∨ (e.value == f.value) = true ∧ e.index < f.index))

theorem Before.asymm {e f : Element} (h : e.Before f) : ¬f.Before e := by
  rintro (hlt | ⟨heq, hindex⟩)
  · rcases h with hlt' | ⟨heq', -⟩
    · have hloop : (e.value == e.value) = false :=
        Value.beq_eq_false_of_lt (Value.lt_trans hlt' hlt)
      exact absurd (Value.beq_iff_canonical_eq.mpr rfl) (ne_true_of_eq_false hloop)
    · rw [Value.beq_eq_false_of_gt hlt] at heq'
      cases heq'
  · rcases h with hlt' | ⟨-, hindex'⟩
    · rw [Value.beq_eq_false_of_gt hlt'] at heq
      cases heq
    · omega

theorem countP_before (elements : List Element) (e : Element) :
    elements.countP (fun f => decide (f.Before e)) =
      elements.countP (fun f => decide (f.value < e.value)) +
        elements.countP fun f => f.value == e.value && decide (f.index < e.index) := by
  induction elements with
  | nil => rfl
  | cons f elements ih =>
    simp only [List.countP_cons, ih]
    by_cases hlt : f.value < e.value
    · simp [Before, hlt, Value.beq_eq_false_of_lt hlt]
      omega
    · simp [Before, hlt]
      omega

end Element

/-- Listed by their keys, the entries of a map with different keys ascend. -/
theorem Dict.WellFormed.pairwise_byKey {m : Dict Value} (h : m.WellFormed) :
    (m.byKey.map (·.1)).Pairwise fun e f => e.1 < f.1 := by
  rw [Dict.map_fst_byKey]
  split
  · rename_i hordered
    exact List.pairwise_map.mp (h.ascending hordered)
  · exact List.pairwise_map.mp ((h.setOrder .keyOrdered).ascending rfl)

namespace View

/-! ### Sorting by value -/

/-- The elements of some entries in the order of the values, before they have ranks. -/
def sorted (entries : List ((Value × Value) × Nat)) : List Element :=
  (unranked entries).mergeSort fun e f => decide (e.value ≤ f.value)

/-- The elements before sorting stand at their indices. -/
theorem index_of_unranked {entries : List ((Value × Value) × Nat)} {e : Element} {i : Nat}
    (h : (unranked entries)[i]? = some e) : e.index = i :=
  place_of_getElem? (map_index_unranked entries) h

/-- The order that a stable sort by value keeps to, on elements with their indices. -/
theorem before_of_zipIdxLE {e f : Element}
    (h : List.zipIdxLE (fun e f : Element => decide (e.value ≤ f.value)) (e, e.index)
      (f, f.index) = true) (hne : e.index ≠ f.index) : e.Before f := by
  simp only [List.zipIdxLE, decide_eq_true_eq] at h
  cases hcompare : Value.compare e.value f.value with
  | lt => exact Or.inl hcompare
  | gt =>
    have hgt : ¬e.value ≤ f.value := fun hle => hle hcompare
    rw [if_neg hgt] at h
    cases h
  | eq =>
    have heq : (e.value == f.value) = true := Value.beq_iff_compare_eq.mpr hcompare
    have hle : e.value ≤ f.value := by
      intro hgt
      rw [hcompare] at hgt
      cases hgt
    have hge : f.value ≤ e.value := by
      intro hgt
      rw [Value.beq_symm, Value.beq_iff_compare_eq, hgt] at heq
      cases heq
    rw [if_pos hle, if_pos hge, decide_eq_true_eq] at h
    exact Or.inr ⟨heq, Nat.lt_of_le_of_ne h hne⟩

/-- **Sorting by value keeps equal values in the order of their indices.** -/
theorem pairwise_sorted (entries : List ((Value × Value) × Nat)) :
    (sorted entries).Pairwise Element.Before := by
  have htrans : ∀ e f g : Element, decide (e.value ≤ f.value) → decide (f.value ≤ g.value) →
      decide (e.value ≤ g.value) := by
    intro e f g hef hfg
    exact decide_eq_true (Value.le_trans (of_decide_eq_true hef) (of_decide_eq_true hfg))
  have htotal : ∀ e f : Element, decide (e.value ≤ f.value) || decide (f.value ≤ e.value) := by
    intro e f
    simpa using Value.le_total e.value f.value
  have hordered := List.pairwise_mergeSort (List.zipIdxLE_trans htrans)
    (List.zipIdxLE_total htotal) (unranked entries).zipIdx
  have hperm := List.mergeSort_perm (unranked entries).zipIdx
    (List.zipIdxLE fun e f => decide (e.value ≤ f.value))
  -- no two elements are counted off with the same number
  have hdistinct : ((unranked entries).zipIdx.mergeSort
      (List.zipIdxLE fun e f => decide (e.value ≤ f.value))).Pairwise fun a b => a.2 ≠ b.2 := by
    refine List.pairwise_map.mp ((hperm.map Prod.snd).nodup_iff.mpr ?_)
    rw [List.zipIdx_map_snd]
    exact List.nodup_range'
  have hindex : ∀ a ∈ (unranked entries).zipIdx, a.1.index = a.2 := fun a ha =>
    index_of_unranked (List.mk_mem_zipIdx_iff_getElem?.mp ha)
  rw [sorted, ← List.mergeSort_zipIdx, List.pairwise_map]
  refine (hordered.and hdistinct).imp_of_mem ?_
  rintro ⟨e, i⟩ ⟨f, j⟩ he hf ⟨hle, hne⟩
  obtain rfl : e.index = i := hindex _ (hperm.mem_iff.mp he)
  obtain rfl : f.index = j := hindex _ (hperm.mem_iff.mp hf)
  exact before_of_zipIdxLE hle hne

/-! ### What a view shows -/

/-- The elements in front of an index are those with a smaller one. -/
theorem take_unranked (entries : List ((Value × Value) × Nat)) (n : Nat) :
    (unranked entries).take n = (unranked entries).filter fun e => decide (e.index < n) := by
  have hfront : ∀ e ∈ (unranked entries).take n, e.index < n := by
    intro e he
    obtain ⟨i, hi, rfl⟩ := List.mem_take_iff_getElem.mp he
    rw [index_of_unranked (List.getElem?_eq_getElem _)]
    omega
  have hback : ∀ e ∈ (unranked entries).drop n, ¬e.index < n := by
    intro e he
    obtain ⟨i, hi, rfl⟩ := List.mem_drop_iff_getElem.mp he
    rw [index_of_unranked (List.getElem?_eq_getElem _)]
    omega
  conv_rhs => rw [← List.take_append_drop n (unranked entries), List.filter_append]
  rw [List.filter_eq_self.mpr fun e he => decide_eq_true (hfront e he),
    List.filter_eq_nil_iff.mpr fun e he => by simpa using hback e he, List.append_nil]

/-- **Counted off in the order of the values, an element gets its rank.** -/
theorem rankAt_of_sorted {entries : List ((Value × Value) × Nat)} {e : Element} {rank : Nat}
    (h : (sorted entries)[rank]? = some e) :
    rankAt (entries.map fun entry => entry.1.2) e.index = rank := by
  have hperm : (sorted entries).Perm (unranked entries) := List.mergeSort_perm _ _
  have hvalues : entries.map (fun entry => entry.1.2) = (unranked entries).map (·.value) := by
    conv_lhs => rw [← map_entry_unranked entries, List.map_map]
    rfl
  obtain ⟨i, hi⟩ := List.mem_iff_getElem?.mp (hperm.mem_iff.mp (List.mem_of_getElem? h))
  obtain rfl := index_of_unranked hi
  have hplace := countP_of_pairwise (fun _ _ => Element.Before.asymm) (pairwise_sorted entries) h
  rw [hperm.countP_eq, Element.countP_before] at hplace
  rw [rankAt, hvalues, List.getElem?_map, hi, ← List.map_take, take_unranked]
  simp only [Option.map_some, Option.elim_some, List.countP_map, List.countP_filter]
  exact hplace

example : (List.range 4).map (rankAt [.integer 2, .integer 1, .integer 2, .integer 0]) =
    [2, 1, 3, 0] := by decide

/-- **What a view shows** of some entries in index order. -/
structure Shows (v : View) (entries : List (Value × Value)) : Prop where
  /-- The elements are the entries. -/
  entries_eq : v.byIndex.map (fun e => (e.key, e.value)) = entries
  /-- Their indices are counted off. -/
  indices_eq : v.byIndex.map (·.index) = List.range entries.length
  /-- Their ranks are their places in the order of the values. -/
  rank_eq : ∀ e ∈ v.byIndex, e.rank = rankAt (entries.map (·.2)) e.index
  /-- In the order of the ranks stand the same elements. -/
  perm : v.byRank.Perm v.byIndex
  /-- Their ranks are counted off there. -/
  ranks_eq : v.byRank.map (·.rank) = List.range entries.length

theorem shows_ofEntries (keyed : Bool) (entries : List ((Value × Value) × Nat)) :
    (ofEntries keyed entries).Shows (entries.map (·.1)) where
  entries_eq := by
    conv_rhs => rw [← map_entry_byIndex keyed entries, List.map_map]
    rfl
  indices_eq := by
    have hindices := congrArg (List.map (·.index)) (map_unrank_byIndex keyed entries)
    rw [map_index_unranked, List.map_map] at hindices
    rw [List.length_map]
    exact hindices
  rank_eq e he := by
    have hrank := (byRank_perm_byIndex keyed entries).mem_iff.mpr he
    obtain ⟨⟨f, rank⟩, hf, rfl⟩ := List.mem_map.mp hrank
    rw [List.map_map]
    exact (rankAt_of_sorted (List.mk_mem_zipIdx_iff_getElem?.mp hf)).symm
  perm := byRank_perm_byIndex keyed entries
  ranks_eq := by
    have hranks : (ofEntries keyed entries).byRank.map (·.rank) =
        List.range (sorted entries).length := by
      rw [List.range_eq_range', ← List.zipIdx_map_snd, ofEntries, List.map_map]
      rfl
    rw [hranks, sorted, List.length_mergeSort, unranked, List.length_map, List.length_zipIdx,
      List.length_map]

/-- The view of a list shows its items, which have no keys. -/
theorem shows_ofList (items : List Value) :
    (ofList items).Shows (items.map fun item => (.null, item)) := by
  have hentries : (items.zipIdx.map fun e => (((.null, e.1), e.2) : (Value × Value) × Nat)).map
      (·.1) = items.map fun item => (.null, item) := by
    rw [List.map_map]
    conv_rhs => rw [← List.zipIdx_map_fst 0 items, List.map_map]
    rfl
  exact hentries ▸ shows_ofEntries false _

/-- **The view of a map** with different keys shows its entries in ascending order of the
keys, whatever the order policy. -/
theorem shows_ofDict {m : Dict Value} (h : m.WellFormed) :
    ∃ entries, entries.Perm m.entries ∧ (entries.Pairwise fun e f => e.1 < f.1) ∧
      (ofDict m).Shows entries := by
  refine ⟨m.byKey.map Prod.fst, ?_, h.pairwise_byKey, shows_ofEntries true m.byKey⟩
  have hperm := m.byKey_perm.map Prod.fst
  rwa [List.zipIdx_map_fst] at hperm

end View

end RecordStore
