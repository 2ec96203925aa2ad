import RecordStore.Proofs.Trap.Columns

/-!
# Selecting and reporting meets no trap

Selections and reports that are worked out of the columns of a view
(`RecordStore.Columns.selectAndReport?`) are those that are said with its elements, without a trap
on the way (`RecordStore.View.Columned.selectAndReport?_eq`). Two ways of saying which elements are
picked come together here. A selector is a test on single elements, which looks at their places; a
machine cuts a window out of the elements, which does the same as the places are counted off
(`RecordStore.filter_contains_eq`).

What is picked is addressed from then on by indices. Each of them belongs to one element, so that
what is written for one of them – a mark, or a rank – is not written over.
-/

namespace RecordStore

open Trap

/-! ### Windows of elements -/

section Windows

variable {α : Type} {l : List α} {place : α → Nat} {n : Nat}

/-- **Of things that are counted off**, those whose places are in a window are cut out by it. -/
theorem filter_contains_eq (hplace : l.map place = List.range n) {w : Window} (hw : w.Within n) :
    (l.filter fun a => w.contains (place a)) = (l.take w.bound).drop w.first := by
  have hlength : l.length = n := by simpa using congrArg List.length hplace
  have hfront : ∀ a ∈ l.take w.first, ¬w.contains (place a) = true := by
    intro a ha
    obtain ⟨i, hi, rfl⟩ := List.mem_take_iff_getElem.mp ha
    rw [place_of_getElem? hplace (List.getElem?_eq_getElem _), Window.contains]
    simp
    omega
  have hinside : ∀ a ∈ (l.take w.bound).drop w.first, w.contains (place a) = true := by
    intro a ha
    obtain ⟨i, hi, rfl⟩ := List.mem_drop_iff_getElem.mp ha
    rw [List.length_take] at hi
    rw [List.getElem_take, place_of_getElem? hplace (List.getElem?_eq_getElem _), Window.contains]
    simp
    omega
  have hbehind : ∀ a ∈ l.drop w.bound, ¬w.contains (place a) = true := by
    intro a ha
    obtain ⟨i, hi, rfl⟩ := List.mem_drop_iff_getElem.mp ha
    rw [place_of_getElem? hplace (List.getElem?_eq_getElem _), Window.contains]
    simp
  conv_lhs => rw [← Window.take_append_drop_take_append_drop hw.ordered l, List.filter_append,
    List.filter_append]
  rw [List.filter_eq_nil_iff.mpr hfront, List.filter_eq_self.mpr hinside,
    List.filter_eq_nil_iff.mpr hbehind, List.nil_append, List.append_nil]

/-- Of things that are counted off, one has a place: the one that stands there. -/
theorem filter_place_eq (hplace : l.map place = List.range n) (p : Nat) :
    (l.filter fun a => some p == some (place a)) = l[p]?.toList := by
  have hlength : l.length = n := by simpa using congrArg List.length hplace
  by_cases hp : p < n
  · have hone : (l.filter fun a => some p == some (place a)) =
        l.filter fun a => Window.contains ⟨p, p + 1⟩ (place a) := by
      refine List.filter_congr fun a _ => ?_
      rw [Bool.eq_iff_iff, Window.contains]
      simp
      omega
    have hw : Window.Within ⟨p, p + 1⟩ n := ⟨Nat.le_succ p, hp⟩
    rw [hone, filter_contains_eq hplace hw]
    dsimp only
    rw [List.take_add_one, List.drop_left' (List.length_take_of_le (by omega))]
  · rw [List.getElem?_eq_none (by omega), Option.toList_none, List.filter_eq_nil_iff]
    intro a ha heq
    have hmem : place a ∈ List.range n := hplace ▸ List.mem_map_of_mem ha
    rw [List.mem_range] at hmem
    simp at heq
    omega

theorem positionsIn_eq {w : Window} (hw : w.Within n) :
    Columns.positionsIn w = ((List.range n).take w.bound).drop w.first := by
  rw [Columns.positionsIn, List.take_range, Nat.min_eq_left hw.bounded, List.range_eq_range',
    List.drop_range', Nat.zero_add, Nat.mul_one]

end Windows

namespace View

variable {v : View} {entries : List (Value × Value)} {e : Element} {selector : Selector}
  {s : Selection}

/-- The elements that a selector looks through, in the order in which it reports. -/
def candidates (v : View) (selector : Selector) : List Element :=
  if selector.isRankStyle then v.byRank else v.byIndex

namespace Columned

/-- Looking through the values. -/
theorem matching?_eq (h : v.Shows entries) (test : Value → Bool) : v.columns.matching? test =
    some (.ok ((v.byIndex.filter fun e => test e.value).map (·.index))) := by
  rw [Columns.matching?, h.range_size]
  exact congrArg (Option.map Except.ok)
    (filter?_map (fun e he => h.getElem?_map_index (·.value) he) test)

/-- Looking through the keys, if there are any. -/
theorem matchingKeys?_eq (h : v.Shows entries) (test : Value → Bool) :
    v.columns.matchingKeys? test =
      some ((v.onKeys test).map fun test => (v.byIndex.filter test).map (·.index)) := by
  cases hkeyed : v.keyed with
  | false => simp [Columns.matchingKeys?, columns, onKeys, hkeyed, Except.map]
  | true =>
    rw [Columns.matchingKeys?, h.range_size]
    simp only [columns, onKeys, hkeyed, if_true]
    exact congrArg (Option.map Except.ok)
      (filter?_map (fun e he => h.getElem?_map_index (·.key) he) test)

/-- The indices in the order of the ranks, cut to a window. -/
theorem slice?_ranked (h : v.Shows entries) {w : Window} (hw : w.Within entries.length) :
    slice? (v.byRank.map (·.index)) w =
      some ((v.byRank.filter fun e => w.contains e.rank).map (·.index)) := by
  have hlength : (v.byRank.map (·.index)).length = entries.length := by
    rw [List.length_map, h.length_byRank]
  rw [slice?_of_within (hlength ▸ hw), filter_contains_eq h.ranks_eq hw, List.map_drop,
    List.map_take]

/-- A single place, looked up among things that are counted off. -/
theorem filter_resolve_eq {l : List Element} {place : Element → Nat} {n : Nat}
    (hplace : l.map place = List.range n) (position : Int64) :
    (l.filter fun e => Window.resolve n position == some (place e)) =
      ((Window.resolve n position).bind fun p => l[p]?).toList := by
  cases hp : Window.resolve n position with
  | none => simp
  | some p => rw [filter_place_eq hplace, Option.bind_some]

/-- **The indices that a selector picks** are those of the elements that pass its test. -/
theorem pick?_eq (h : v.Columned entries) (hn : (entries.length : Int) ≤ maxPosition)
    (selector : Selector) :
    v.columns.pick? selector = some ((v.test selector).map fun test =>
      ((v.candidates selector).filter test).map (·.index)) := by
  have hsize := h.size_columns
  have hsize' := h.size_eq
  cases selector with
  | index index =>
    rw [Columns.pick?, hsize, Window.resolve?_eq hn]
    simp only [test, hsize', Except.map, candidates, Selector.isRankStyle]
    refine congrArg (fun l => some (Except.ok l)) ?_
    change _ = (List.filter _ v.byIndex).map _
    rw [filter_resolve_eq h.indices_eq]
    cases hp : Window.resolve entries.length index with
    | none => rfl
    | some p =>
      have hlt := (Window.resolve_eq_some_iff.mp hp).1
      rw [Option.bind_some, ← Option.toList_map, ← List.getElem?_map, h.indices_eq,
        List.getElem?_range hlt]
  | indexRange index count =>
    have hw : (Window.ofRange entries.length index count).Within entries.length :=
      Window.within_clip _ _ _
    rw [Columns.pick?, hsize, Window.ofRange?_eq hn]
    simp only [test, hsize', Except.map, candidates, Selector.isRankStyle]
    refine congrArg (fun l => some (Except.ok l)) ?_
    change _ = (List.filter _ v.byIndex).map _
    rw [positionsIn_eq hw, filter_contains_eq h.indices_eq hw, List.map_drop, List.map_take,
      h.indices_eq]
  | rank rank =>
    rw [Columns.pick?, hsize, Window.resolve?_eq hn, h.ranked_eq]
    simp only [test, hsize', Except.map, candidates, Selector.isRankStyle, if_true]
    rw [filter_resolve_eq h.ranks_eq]
    cases hp : Window.resolve entries.length rank with
    | none => rfl
    | some r =>
      have hlt := (Window.resolve_eq_some_iff.mp hp).1
      simp [List.getElem?_eq_getElem (h.length_byRank ▸ hlt : r < v.byRank.length)]
  | rankRange rank count =>
    have hw : (Window.ofRange entries.length rank count).Within entries.length :=
      Window.within_clip _ _ _
    rw [Columns.pick?, hsize, Window.ofRange?_eq hn, h.ranked_eq]
    simp only [test, hsize', Except.map, candidates, Selector.isRankStyle, if_true,
      Option.bind_eq_bind, Option.bind_some, slice?_ranked h.toShows hw]
    rfl
  | value value => exact matching?_eq h.toShows _
  | valueList values => exact matching?_eq h.toShows _
  | valueRange first bound => exact matching?_eq h.toShows _
  | valueRelRankRange value rank count =>
    have hbase : v.columns.countBelow value = v.countBelow value := List.countP_map
    have hle : v.countBelow value ≤ entries.length := hsize' ▸ List.countP_le_length
    have hw : (Window.ofRelative entries.length (v.countBelow value) rank count).Within
        entries.length := Window.within_clip _ _ _
    rw [Columns.pick?, hsize, hbase, Window.ofRelative?_eq hn hle, h.ranked_eq]
    simp only [test, hsize', Except.map, candidates, Selector.isRankStyle, if_true,
      Option.bind_eq_bind, Option.bind_some, slice?_ranked h.toShows hw]
    rfl
  | key key => exact matchingKeys?_eq h.toShows _
  | keyList keys => exact matchingKeys?_eq h.toShows _
  | keyRange first bound => exact matchingKeys?_eq h.toShows _

theorem mem_candidates (h : v.Shows entries) : e ∈ v.candidates selector ↔ e ∈ v.byIndex :=
  h.mem_candidates_iff selector

/-- No index stands twice among the elements that a selector looks through. -/
theorem nodup_candidates (h : v.Shows entries) (selector : Selector) :
    ((v.candidates selector).map (·.index)).Nodup := by
  have hindex : (v.byIndex.map (·.index)).Nodup := h.indices_eq ▸ List.nodup_range
  rw [candidates]
  split
  · exact (h.perm.map _).nodup_iff.mpr hindex
  · exact hindex

/-- The indices of the elements that a selector looks through. -/
theorem indices_candidates (h : v.Columned entries) (selector : Selector) :
    (if selector.isRankStyle then v.columns.ranked? else some (List.range v.columns.size)) =
      some ((v.candidates selector).map (·.index)) := by
  rw [candidates]
  split
  · exact h.ranked_eq
  · rw [h.range_size]

/-- **The marks tell the elements apart**, so that those are left that do not pass. -/
theorem unpicked?_eq (h : v.Columned entries) (selector : Selector) (test : Element → Bool) :
    v.columns.unpicked? selector (((v.candidates selector).filter test).map (·.index)) =
      some (((v.candidates selector).filter fun e => !test e).map (·.index)) := by
  have hin : ∀ i ∈ ((v.candidates selector).filter test).map (·.index), i < v.columns.size := by
    intro i hi
    obtain ⟨e, he, rfl⟩ := List.mem_map.mp hi
    rw [h.size_columns]
    exact h.index_lt ((mem_candidates h.toShows).mp (List.mem_filter.mp he).1)
  have hnodup := nodup_candidates h.toShows selector
  obtain ⟨marks, hmarks, -, hmarked⟩ :=
    mark?_eq_some hin (hnodup.sublist (List.filter_sublist.map _))
  have hmark : ∀ e ∈ v.candidates selector, marks[e.index]? = some (test e) := by
    intro e he
    have hlt := h.size_columns ▸ h.index_lt ((mem_candidates h.toShows).mp he)
    rw [hmarked e.index hlt, Option.some_inj, Bool.eq_iff_iff, List.contains_iff_mem]
    constructor
    · -- another element with this index would be this one
      intro hmem
      obtain ⟨f, hf, hindex⟩ := List.mem_map.mp hmem
      obtain ⟨hf, hpass⟩ := List.mem_filter.mp hf
      rwa [← List.inj_on_of_nodup_map hnodup hf he hindex]
    · exact fun hpass => List.mem_map_of_mem (List.mem_filter.mpr ⟨he, hpass⟩)
  rw [Columns.unpicked?, hmarks, h.indices_candidates]
  exact filter?_map hmark _

/-- **A selection meets no trap**, and picks the selected elements. -/
theorem select?_eq (h : v.Columned entries) (hn : (entries.length : Int) ≤ maxPosition)
    (selector : Selector) (inverted : Bool) :
    v.columns.select? selector inverted =
      some ((v.select selector inverted).map Selection.picked) := by
  rw [Columns.select?, h.pick?_eq hn, Option.bind_eq_bind, Option.bind_some, select]
  cases v.test selector with
  | error e => rfl
  | ok test =>
    cases inverted with
    | false =>
      simp [Except.map, Selection.picked, candidates, bind, Except.bind, pure, Except.pure]
    | true =>
      have hunpicked := h.unpicked?_eq selector test
      simp only [Except.map, if_true]
      rw [hunpicked]
      simp [Selection.picked, candidates, bind, Except.bind, pure, Except.pure]

/-! ### Reports -/

/-- **The ranks are written to their indices.** -/
theorem ranks?_eq (h : v.Columned entries) :
    ∃ ranks, v.columns.ranks? = some ranks ∧ ∀ e ∈ v.byIndex, ranks[e.index]? = some e.rank := by
  have hzip : (v.byRank.map (·.index)).zipIdx = v.byRank.map fun e => (e.index, e.rank) := by
    rw [List.zipIdx_eq_zip_range', List.length_map, h.length_byRank, ← List.range_eq_range',
      ← h.ranks_eq, List.zip_map']
  have hin : ∀ w ∈ v.byRank.map fun e => (e.index, e.rank),
      w.1 < (List.replicate v.columns.size 0).length := by
    intro w hw
    obtain ⟨e, he, rfl⟩ := List.mem_map.mp hw
    rw [List.length_replicate, h.size_columns]
    exact h.index_lt (h.perm.mem_iff.mp he)
  have hnodup : ((v.byRank.map fun e => (e.index, e.rank)).map (·.1)).Nodup := by
    rw [List.map_map]
    exact (h.perm.map _).nodup_iff.mpr (h.indices_eq ▸ List.nodup_range)
  obtain ⟨ranks, hranks, -, hwritten, -⟩ := setAll?_eq_some hin hnodup
  refine ⟨ranks, ?_, fun e he => ?_⟩
  · rw [Columns.ranks?, h.ranked_eq, Option.bind_eq_bind, Option.bind_some, hzip, hranks]
  · exact hwritten _ (List.mem_map_of_mem (h.perm.mem_iff.mpr he))

/-- **A place can be counted from the end**, as it is one of the elements, so that there is a last
one. -/
theorem turned?_eq (h : v.Shows entries) (reverse : Bool) {place : Nat}
    (hlt : place < entries.length) :
    v.columns.turned? reverse place = some (if reverse then v.size - 1 - place else place) := by
  have hlast : sub? v.columns.size 1 = some (v.size - 1) := by
    rw [h.size_columns, h.size_eq]
    exact if_pos (by omega)
  have hreverse : sub? (v.size - 1) place = some (v.size - 1 - place) := by
    rw [h.size_eq]
    exact if_pos (by omega)
  cases reverse with
  | false => rfl
  | true => rw [Columns.turned?, if_pos rfl, hlast, Option.bind_some, hreverse, if_pos rfl]

theorem places?_eq (h : v.Shows entries) (hs : ∀ e ∈ s.elements, e ∈ v.byIndex)
    {place : Nat → Option Nat} {placeOf : Element → Nat}
    (hplace : ∀ e ∈ v.byIndex, place e.index = some (placeOf e))
    (hlt : ∀ e ∈ v.byIndex, placeOf e < entries.length) (reverse : Bool) :
    v.columns.places? s.picked place reverse =
      some (s.places fun e => if reverse then v.size - 1 - placeOf e else placeOf e) := by
  have hplaces : s.picked.indices.mapM (fun i => (place i).bind (v.columns.turned? reverse)) =
      some (s.elements.map fun e => if reverse then v.size - 1 - placeOf e else placeOf e) := by
    rw [Selection.picked, List.mapM_map]
    refine mapM_eq_some fun e he => ?_
    rw [Function.comp_apply, hplace e (hs e he), Option.bind_some]
    exact turned?_eq h reverse (hlt e (hs e he))
  rw [Columns.places?, hplaces]
  rfl

/-- What is picked is found in a column. -/
theorem column?_eq (h : v.Shows entries) (hs : ∀ e ∈ s.elements, e ∈ v.byIndex)
    (f : Element → Value) :
    Columns.column? (v.byIndex.map f) s.picked = some (s.elements.map f) := by
  rw [Columns.column?, Selection.picked,
    lookUp?_map fun e he => h.getElem?_map_index f (hs e he), Option.map_some, List.map_map]
  rfl

/-- **A report meets no trap.** -/
theorem report?_eq (h : v.Columned entries) (hs : ∀ e ∈ s.elements, e ∈ v.byIndex)
    (kind : ReturnKind) : v.columns.report? s.picked kind = some (s.report v kind) := by
  have hvalues : Columns.column? v.columns.values s.picked = some (s.elements.map (·.value)) :=
    column?_eq h.toShows hs _
  have hkeys : Columns.column? (v.byIndex.map (·.key)) s.picked = some (s.elements.map (·.key)) :=
    column?_eq h.toShows hs _
  obtain ⟨ranks, hranks, hrank⟩ := h.ranks?_eq
  have hindices : ∀ reverse, v.columns.places? s.picked some reverse = some (s.places fun e =>
      if reverse then v.size - 1 - e.index else e.index) :=
    places?_eq h.toShows hs (fun _ _ => rfl) fun e he => h.index_lt he
  have hplaces := places?_eq h.toShows hs hrank fun e he => h.rank_lt he
  cases kind with
  | none => rfl
  | count => simp [Columns.report?, Selection.report, Selection.picked]
  | index | reverseIndex =>
    rw [Columns.report?, hindices]
    rfl
  | rank | reverseRank =>
    rw [Columns.report?, hranks, Option.bind_eq_bind, Option.bind_some, hplaces]
    rfl
  | value =>
    rw [Columns.report?, hvalues]
    rfl
  | key =>
    cases hkeyed : v.keyed with
    | false => simp [Columns.report?, columns, Selection.report, hkeyed]
    | true =>
      simp [Columns.report?, columns, Selection.report, hkeyed, hkeys]
      rfl
  | keyValue =>
    cases hkeyed : v.keyed with
    | false => simp [Columns.report?, columns, Selection.report, hkeyed]
    | true =>
      have hzip : (s.elements.map (·.key)).zip (s.elements.map (·.value)) =
          s.elements.map fun e => (e.key, e.value) := List.zip_map' ..
      simp only [Columns.report?, columns, Selection.report, hkeyed, if_true, hkeys] at hvalues ⊢
      rw [hvalues, ← hzip]
      rfl

/-- **What is picked is stored** at the positions of the selected elements. -/
theorem positions?_eq (h : v.Shows entries) (hs : ∀ e ∈ s.elements, e ∈ v.byIndex) :
    v.columns.positions? s.picked = some s.positions := by
  have hfound := lookUp?_map fun e he => h.getElem?_map_index (·.position) (hs e he)
  rw [Columns.positions?, Selection.picked, columns, hfound, Option.map_some, List.map_map]
  rfl

/-- **Selecting and reporting meets no trap.** -/
theorem selectAndReport?_eq (h : v.Columned entries) (hn : (entries.length : Int) ≤ maxPosition)
    (selector : Selector) (returnType : ReturnType) :
    v.columns.selectAndReport? selector returnType =
      some ((v.selectAndReport selector returnType).map fun r => (r.1.picked, r.2)) := by
  rw [Columns.selectAndReport?, h.select?_eq hn, Option.bind_eq_bind, Option.bind_some,
    selectAndReport]
  cases hs : v.select selector returnType.inverted with
  | error e => rfl
  | ok s =>
    simp only [Except.map]
    rw [h.report?_eq fun e he => h.mem_of_select hs he]
    cases hreport : s.report v returnType.kind <;>
      simp [bind, Except.bind, pure, Except.pure, hreport]

end Columned

end View

end RecordStore
