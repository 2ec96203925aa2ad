import RecordStore.Proofs.Selection.Picks

/-!
# How far ranges reach

A range has a start and a count, and means a span of integers
(`RecordStore.Window.InSpan`). Its window is counted out in words of sixty-four bits, where
sums stop at the greatest position, and it is cut to the container. This file says for
starts and counts of any size what is left of the span on the way.

The start is harmless: wherever a sum with it stops, the container has ended before. The
count is not. One beyond the greatest position is counted out as the greatest position
(`RecordStore.View.select_capped`), so that a span from far in front of a container, with
such a count, ends too early if it reaches into the container at all
(`RecordStore.Window.FallsShort`). That is the only way in which a range picks something else
than its span (`RecordStore.View.ranges_pick_spans`). A range by index or by rank comes to
it from the least integer alone, and then misses the last position
(`RecordStore.Window.fallsShort_placeOf_iff`).
-/

namespace RecordStore

/-! ### Counts as they are counted out -/

namespace Window

variable {n position : Nat} {start : Int} {count : Option UInt64}

/-- The greatest count that is counted out in full. -/
def maxCount : UInt64 := 0x7FFFFFFFFFFFFFFF

/-- **A count as it is counted out.** -/
def capped (count : Option UInt64) : Option UInt64 :=
  count.map fun c => if c < maxCount then c else maxCount

theorem toNat_capped (c : UInt64) :
    ((if c < maxCount then c else maxCount).toNat : Int) = min (c.toNat : Int) maxPosition := by
  have hmax : (maxCount.toNat : Int) = maxPosition := by
    rw [maxPosition_eq]
    rfl
  rw [← hmax]
  split
  · rename_i h
    have hlt := UInt64.lt_iff_toNat_lt.mp h
    omega
  · rename_i h
    have hle := UInt64.lt_iff_toNat_lt.not.mp h
    omega

theorem countFits_capped (count : Option UInt64) : CountFits (capped count) := by
  rintro c hc
  obtain ⟨c, -, rfl⟩ := Option.map_eq_some_iff.mp hc
  rw [toNat_capped]
  exact Int.min_le_right _ _

/-- A range ends where it ends with the count as it is counted out. -/
theorem boundOf_capped (n : Nat) (start : Int) (count : Option UInt64) :
    boundOf n start (capped count) = boundOf n start count := by
  cases count with
  | none => rfl
  | some c =>
    simp only [capped, Option.map_some, boundOf, toNat_capped]
    omega

/-- A position in the span of a count as it is counted out is in the span of the count, and
less than the greatest position behind the start. -/
theorem inSpan_capped_iff :
    InSpan start (capped count) position ↔
      InSpan start count position ∧
        (count.isSome → (position : Int) < start + maxPosition) := by
  cases count with
  | none => simp [InSpan, capped]
  | some c =>
    have hmin := toNat_capped c
    simp only [InSpan, capped, Option.map_some, Option.mem_def, Option.some_inj, forall_eq',
      Option.isSome_some, forall_const]
    omega

/-- **A span falls short** in a container: it has a position there that is too far behind its
start to be counted out. -/
def FallsShort (n : Nat) (start : Int) (count : Option UInt64) : Prop :=
  ∃ position < n, InSpan start count position ∧ count.isSome ∧
    start + maxPosition ≤ position

/-- **From a place of the container** on, or from in front of it, only a span from the least
integer falls short, and only with a count beyond the greatest position. -/
theorem fallsShort_placeOf_iff (hn : (n : Int) ≤ maxPosition) {i : Int64} :
    FallsShort n (placeOf n i.toInt) count ↔
      0 < n ∧ i = Int64.minValue ∧ ∃ c ∈ count, maxPosition < (c.toNat : Int) := by
  have hleast : i = Int64.minValue ↔ i.toInt = -(2 ^ 63) := Int64.toInt_inj.symm
  have hbound := i.le_toInt
  rw [hleast, placeOf]
  rw [maxPosition_eq] at hn ⊢
  cases count with
  | none => simp [FallsShort]
  | some c =>
    simp only [FallsShort, InSpan, maxPosition_eq, Option.mem_def, Option.some_inj, forall_eq',
      exists_eq_left', Option.isSome_some, true_and]
    constructor
    · rintro ⟨position, hposition, ⟨hstart, hend⟩, hfar⟩
      split at hstart <;> omega
    · rintro ⟨hpos, hi, hc⟩
      have hneg : ¬0 ≤ i.toInt := by omega
      rw [if_neg hneg]
      exact ⟨n - 1, by omega⟩

end Window

/-! ### The spans of selectors -/

namespace Selector

variable {entries : List (Value × Value)} {selector : Selector} {start : Int}
  {count : Option UInt64}

/-- The selector with its count as it is counted out. -/
def capped : Selector → Selector
  | indexRange i count => indexRange i (Window.capped count)
  | rankRange r count => rankRange r (Window.capped count)
  | valueRelRankRange v r count => valueRelRankRange v r (Window.capped count)
  | selector => selector

/-- **The span of a range**, with the place that it starts from among some entries. -/
def span? (entries : List (Value × Value)) : Selector → Option (Int × Option UInt64)
  | indexRange i count => some (Window.placeOf entries.length i.toInt, count)
  | rankRange r count => some (Window.placeOf entries.length r.toInt, count)
  | valueRelRankRange v r count =>
    some (((entries.map (·.2)).countP fun w => decide (w < v)) + r.toInt, count)
  | _ => none

/-- What a range goes by: the index of an entry, or its rank. -/
def placeAt (entries : List (Value × Value)) (selector : Selector) (j : Nat) : Nat :=
  if selector.isRankStyle then rankAt (entries.map (·.2)) j else j

theorem countFits_capped (selector : Selector) : Window.CountFits selector.capped.count? := by
  cases selector with
  | indexRange _ count | rankRange _ count | valueRelRankRange _ _ count =>
    exact Window.countFits_capped count
  | _ => rintro c ⟨⟩

theorem precedes_capped (entries : List (Value × Value)) (selector : Selector) :
    selector.capped.Precedes entries = selector.Precedes entries := by
  cases selector <;> rfl

/-- A range picks the entries whose places are in its span. -/
theorem picks_iff_inSpan (h : selector.span? entries = some (start, count)) {j : Nat} :
    selector.Picks entries j ↔ Window.InSpan start count (selector.placeAt entries j) := by
  cases selector with
  | indexRange | rankRange | valueRelRankRange =>
    obtain ⟨rfl, rfl⟩ := Prod.mk.inj (Option.some_inj.mp h)
    rfl
  | _ => cases h

theorem picks_capped_iff_inSpan (h : selector.span? entries = some (start, count)) {j : Nat} :
    selector.capped.Picks entries j ↔
      Window.InSpan start (Window.capped count) (selector.placeAt entries j) := by
  cases selector with
  | indexRange | rankRange | valueRelRankRange =>
    obtain ⟨rfl, rfl⟩ := Prod.mk.inj (Option.some_inj.mp h)
    rfl
  | _ => cases h

end Selector

/-! ### What ranges select -/

/-- A selection that holds what is picked holds something else if that is the same. -/
theorem Selection.Holds.congr_iff {s : Selection} {entries : List (Value × Value)}
    {before : Nat → Nat → Prop} {picked picked' : Nat → Prop} (h : s.Holds entries before picked) :
    s.Holds entries before picked' ↔ ∀ j < entries.length, (picked j ↔ picked' j) := by
  constructor
  · intro h' j hj
    have hmem := (h.mem_iff j).symm.trans (h'.mem_iff j)
    exact ⟨fun hp => (hmem.mp ⟨hj, hp⟩).2, fun hp => (hmem.mpr ⟨hj, hp⟩).2⟩
  · intro hiff
    refine ⟨h.entry_eq, fun j => ?_, h.ordered⟩
    exact (h.mem_iff j).trans (and_congr_right (hiff j))

namespace View

variable {v : View} {entries : List (Value × Value)} {selector : Selector} {start : Int}
  {count : Option UInt64}

theorem test_capped (v : View) (selector : Selector) : v.test selector.capped = v.test selector := by
  cases selector with
  | indexRange | rankRange | valueRelRankRange =>
    simp only [Selector.capped, test, Window.ofRange, Window.ofRelative, Window.boundOf_capped]
  | _ => rfl

/-- **A count beyond the greatest position** selects what the greatest position selects. -/
theorem select_capped (v : View) (selector : Selector) (inverted : Bool) :
    v.select selector.capped inverted = v.select selector inverted := by
  have hstyle : selector.capped.isRankStyle = selector.isRankStyle := by cases selector <;> rfl
  have hpoint : selector.capped.isPoint = selector.isPoint := by cases selector <;> rfl
  rw [select, select, test_capped, hstyle, hpoint]

namespace Shows

theorem placeAt_lt (h : v.Shows entries) (selector : Selector) {j : Nat}
    (hj : j < entries.length) : selector.placeAt entries j < entries.length := by
  rw [Selector.placeAt]
  split
  · have hmem : j ∈ v.byIndex.map (·.index) := by rwa [h.indices_eq, List.mem_range]
    obtain ⟨e, he, rfl⟩ := List.mem_map.mp hmem
    rw [← h.rank_eq e he]
    exact h.rank_lt he
  · exact hj

/-- Every place is the place of an entry. -/
theorem exists_placeAt (h : v.Shows entries) (selector : Selector) {place : Nat}
    (hplace : place < entries.length) :
    ∃ j < entries.length, selector.placeAt entries j = place := by
  by_cases hstyle : selector.isRankStyle
  · have hmem : place ∈ v.byRank.map (·.rank) := by rwa [h.ranks_eq, List.mem_range]
    obtain ⟨e, he, rfl⟩ := List.mem_map.mp hmem
    have he := h.perm.mem_iff.mp he
    refine ⟨e.index, h.index_lt he, ?_⟩
    rw [Selector.placeAt, if_pos hstyle, h.rank_eq e he]
  · exact ⟨place, hplace, by rw [Selector.placeAt, if_neg hstyle]⟩

/-- **A range picks as it is counted out**, unless its span falls short. -/
theorem picks_capped_iff (h : v.Shows entries) (hspan : selector.span? entries = some (start, count)) :
    (∀ j < entries.length, selector.capped.Picks entries j ↔ selector.Picks entries j) ↔
      ¬Window.FallsShort entries.length start count := by
  simp only [Selector.picks_iff_inSpan hspan, Selector.picks_capped_iff_inSpan hspan,
    Window.inSpan_capped_iff]
  constructor
  · rintro hiff ⟨place, hplace, hin, hcount, hfar⟩
    obtain ⟨j, hj, rfl⟩ := h.exists_placeAt selector hplace
    have hnear := ((hiff j hj).mpr hin).2 hcount
    omega
  · intro hreaches j hj
    refine ⟨And.left, fun hin => ⟨hin, fun hcount => ?_⟩⟩
    by_contra hfar
    exact hreaches ⟨_, h.placeAt_lt selector hj, hin, hcount, Int.not_lt.mp hfar⟩

end Shows

/-- **A range picks its span**, from some entries in index order that a view shows. -/
structure PicksSpan (v : View) (entries : List (Value × Value)) (selector : Selector)
    (inverted : Bool) : Prop where
  /-- It selects its span with the count as it is counted out, and that is its span unless
  this falls short. -/
  selects : ∀ (start : Int) (count : Option UInt64), selector.span? entries = some (start, count) →
    ∃ s, v.select selector inverted = .ok s ∧
      s.Holds entries (selector.Precedes entries) (selector.capped.Selects entries inverted) ∧
      (s.Holds entries (selector.Precedes entries) (selector.Selects entries inverted) ↔
        ¬Window.FallsShort entries.length start count)
  /-- The span of a range by index or by rank falls short from the least integer alone, with a
  count beyond the greatest position. -/
  fallsShort_iff : ∀ (i : Int64) (count : Option UInt64),
    selector = .indexRange i count ∨ selector = .rankRange i count →
      (Window.FallsShort entries.length (Window.placeOf entries.length i.toInt) count ↔
        0 < entries.length ∧ i = Int64.minValue ∧ ∃ c ∈ count, maxPosition < (c.toNat : Int))

theorem Shows.picksSpan (h : v.Shows entries) (hsize : entries.length < 2 ^ 63)
    (selector : Selector) (inverted : Bool) : v.PicksSpan entries selector inverted := by
  have hbound : (entries.length : Int) ≤ maxPosition := by
    rw [maxPosition_eq]
    omega
  refine ⟨fun start count hspan => ?_, fun i count _ => Window.fallsShort_placeOf_iff hbound⟩
  have hkeyed : selector.capped.isKeyBased = true → v.keyed = true := by
    cases selector with
    | indexRange | rankRange | valueRelRankRange => exact nofun
    | _ => cases hspan
  obtain ⟨s, hs, hholds⟩ :=
    h.holds_of_select hbound selector.countFits_capped hkeyed inverted
  rw [select_capped] at hs
  rw [Selector.precedes_capped] at hholds
  refine ⟨s, hs, hholds, ?_⟩
  rw [hholds.congr_iff, ← h.picks_capped_iff hspan]
  refine forall₂_congr fun j _ => ?_
  rw [Selector.Selects, Selector.Selects]
  cases inverted <;> simp [not_iff_not]

/-- **The windows of ranges.** Whatever its start and its count, a range by index, by rank or
by rank relative to a value selects its span of unbounded integers, cut to the container, from
every list and every well-formed map – unless the span falls short, and then it selects the
part of it that the greatest position counts out. -/
theorem ranges_pick_spans (selector : Selector) (inverted : Bool) :
    (∀ items : List Value, items.length < 2 ^ 63 →
      (ofList items).PicksSpan (items.map fun item => (.null, item)) selector inverted) ∧
    ∀ m : Dict Value, m.WellFormed → m.size < 2 ^ 63 →
      ∃ entries, entries.Perm m.entries ∧ (entries.Pairwise fun e f => e.1 < f.1) ∧
        (ofDict m).PicksSpan entries selector inverted := by
  refine ⟨fun items hsize => ?_, fun m hm hsize => ?_⟩
  · refine (shows_ofList items).picksSpan ?_ selector inverted
    rwa [List.length_map]
  · obtain ⟨entries, hperm, hascending, hshows⟩ := shows_ofDict hm
    refine ⟨entries, hperm, hascending, hshows.picksSpan ?_ selector inverted⟩
    rwa [hperm.length_eq]

/-- With the greatest count, three values are all in the span from the least integer on, and
only the first two of them are selected; from one place later all of them are. -/
theorem ranges_pick_spans_from_far :
    let items : List Value := [.integer 7, .integer 8, .integer 9]
    let entries : List (Value × Value) := items.map fun item => (.null, item)
    let m : Dict Value := ⟨.unordered, [(.integer 2, .null), (.integer 1, .null)]⟩
    let all (i : Int64) : Selector := .indexRange i (some 0xFFFFFFFFFFFFFFFF)
    items.length < 2 ^ 63 ∧ m.WellFormed ∧ m.size < 2 ^ 63 ∧
      (∃ s, (ofList items).select (all Int64.minValue) false = .ok s ∧
        ¬s.Holds entries ((all Int64.minValue).Precedes entries)
          ((all Int64.minValue).Selects entries false)) ∧
      (∃ s, (ofList items).select (all (Int64.minValue + 1)) false = .ok s ∧
        s.Holds entries ((all (Int64.minValue + 1)).Precedes entries)
          ((all (Int64.minValue + 1)).Selects entries false)) ∧
      ∃ sorted, sorted.Perm m.entries ∧ (ofDict m).PicksSpan sorted (all 0) true := by
  intro items entries m all
  have hitems : items.length < 2 ^ 63 := by decide
  have hm : m.WellFormed := ⟨by decide, nofun⟩
  have hsize : m.size < 2 ^ 63 := by decide
  have hleast := (ranges_pick_spans (all Int64.minValue) false).1 items hitems
  have hnext := (ranges_pick_spans (all (Int64.minValue + 1)) false).1 items hitems
  obtain ⟨s, hs, -, hexact⟩ := hleast.selects _ _ rfl
  obtain ⟨s', hs', -, hexact'⟩ := hnext.selects _ _ rfl
  obtain ⟨sorted, hperm, -, hspan⟩ := (ranges_pick_spans (all 0) true).2 m hm hsize
  refine ⟨hitems, hm, hsize, ⟨s, hs, fun hholds => hexact.mp hholds ?_⟩,
    ⟨s', hs', hexact'.mpr fun hfalls => ?_⟩, sorted, hperm, hspan⟩
  · exact (hleast.fallsShort_iff _ _ (Or.inl rfl)).mpr ⟨by decide, rfl, _, rfl, by decide⟩
  · have hfirst := ((hnext.fallsShort_iff _ _ (Or.inl rfl)).mp hfalls).2.1
    exact absurd hfirst (by decide)

/-- **A range of everything loses the last value**: from the least integer on, with the
greatest count, the span holds all of three values, and two are reported. -/
theorem range_from_least_integer_loses_last :
    let items : List Value := [.integer 7, .integer 8, .integer 9]
    let all : Selector := .indexRange Int64.minValue (some 0xFFFFFFFFFFFFFFFF)
    (∀ j < 3, all.Picks (items.map fun item => (.null, item)) j) ∧
      ((ListOp.getBy all ⟨.value, false⟩).apply items).result =
        .ok (some (.list [.integer 7, .integer 8])) := by
  intro items all
  refine ⟨fun j hj => ⟨?_, fun c hc => ?_⟩, ?_⟩
  · have hplace : Window.placeOf 3 Int64.minValue.toInt < 0 := by decide
    exact Int.le_of_lt (Int.lt_of_lt_of_le hplace (Int.natCast_nonneg j))
  · obtain rfl := Option.some_inj.mp hc
    have hreach : 3 ≤ Window.placeOf 3 Int64.minValue.toInt +
        (UInt64.toNat 0xFFFFFFFFFFFFFFFF : Int) := by decide
    exact Int.lt_of_lt_of_le (Int.ofNat_lt.mpr hj) hreach
  · -- the values ascend, so that there is nothing to sort
    let elements := unranked (items.zipIdx.map fun e => ((.null, e.1), e.2))
    have hvalues : elements.Pairwise fun e f => decide (e.value ≤ f.value) = true := by decide
    have hindices : (elements.zipIdx.map fun e => { e.1 with rank := e.2 }).Pairwise
        fun e f => decide (e.index ≤ f.index) = true := by decide
    rw [ListOp.apply, ofList, ofEntries, ← unranked]
    dsimp only
    rw [List.mergeSort_of_pairwise hvalues, List.mergeSort_of_pairwise hindices]
    rfl

end View

end RecordStore
