import RecordStore.Descriptor.Basic
import RecordStore.Proofs.Selection.Rank
import RecordStore.Proofs.Selection.Removal
import RecordStore.Proofs.Selection.Window

/-!
# What selectors pick

A selector is said here in terms of what a container holds: some entries in index order, with
their ranks (`RecordStore.Selector.Picks`). Nothing is sorted, cut or counted out in words to
say it; positions from the end and spans are integers without a bound.

A selection is what is picked, or everything else if it is inverted
(`RecordStore.Selector.Selects`), each entry once, in the order of the ranks or of the indices
(`RecordStore.Selection.Holds`). That is what selecting comes to for every list and every
well-formed map, with every selector whose count is no greater than the greatest position
(`RecordStore.View.selection_semantics`).
-/

namespace RecordStore

/-! ### Picking by index, rank, value and key -/

namespace Selector

/-- **Whether a selector picks the entry at an index**, of some entries in index order. -/
def Picks (entries : List (Value × Value)) (j : Nat) : Selector → Prop
  | .index i => (j : Int) = Window.placeOf entries.length i.toInt
  | .indexRange i count => Window.InSpan (Window.placeOf entries.length i.toInt) count j
  | .rank r => (rankAt (entries.map (·.2)) j : Int) = Window.placeOf entries.length r.toInt
  | .rankRange r count =>
    Window.InSpan (Window.placeOf entries.length r.toInt) count (rankAt (entries.map (·.2)) j)
  | .value v => ∃ e ∈ entries[j]?, (e.2 == v) = true
  | .valueList vs => ∃ e ∈ entries[j]?, ∃ v ∈ vs, (e.2 == v) = true
  | .valueRange first bound => ∃ e ∈ entries[j]?, first ≤ e.2 ∧ ∀ b ∈ bound, e.2 < b
  | .valueRelRankRange v r count =>
    -- the rank counts from the number of smaller values, wherever the value stands
    let base := (entries.map (·.2)).countP fun w => decide (w < v)
    Window.InSpan (base + r.toInt) count (rankAt (entries.map (·.2)) j)
  | .key k => ∃ e ∈ entries[j]?, (e.1 == k) = true
  | .keyList ks => ∃ e ∈ entries[j]?, ∃ k ∈ ks, (e.1 == k) = true
  | .keyRange first bound => ∃ e ∈ entries[j]?, first ≤ e.1 ∧ ∀ b ∈ bound, e.1 < b

/-- **Whether the entry at an index is selected**: it is picked, or it is not and the selection
is inverted. -/
def Selects (entries : List (Value × Value)) (selector : Selector) (inverted : Bool) (j : Nat) :
    Prop :=
  selector.Picks entries j ↔ inverted = false

/-- Whether a selector has the entry at one index reported before the entry at another. -/
def Precedes (entries : List (Value × Value)) (selector : Selector) (i j : Nat) : Prop :=
  match selector with
  | .rank _ | .rankRange .. | .valueRelRankRange .. =>
    rankAt (entries.map (·.2)) i < rankAt (entries.map (·.2)) j
  | _ => i < j

/-- The count of a range. -/
def count? : Selector → Option UInt64
  | .indexRange _ count | .rankRange _ count | .valueRelRankRange _ _ count => count
  | _ => none

end Selector

/-- **A selection holds what is picked** of some entries, each once and in a given order. -/
structure Selection.Holds (s : Selection) (entries : List (Value × Value))
    (before : Nat → Nat → Prop) (picked : Nat → Prop) : Prop where
  /-- The elements are entries. -/
  entry_eq : ∀ e ∈ s.elements, entries[e.index]? = some (e.key, e.value)
  /-- They are those that are picked. -/
  mem_iff : ∀ j, j ∈ s.elements.map (·.index) ↔ j < entries.length ∧ picked j
  /-- Each comes before those behind it. -/
  ordered : (s.elements.map (·.index)).Pairwise before

namespace Descriptor

variable {d : Descriptor} {shape : Shape} {selector : Selector}

/-- The counts of a descriptor are integers of sixty-four bits with a sign. -/
theorem countFits_of_countOf {n : Int64} {count : UInt64} (h : countOf n = .ok count) :
    Window.CountFits (some count) := by
  obtain ⟨hn, h⟩ := ite_error_eq_ok_iff.mp h
  obtain rfl := Except.ok.inj h
  rintro c ⟨⟩
  have hpos : 0 ≤ n := Int64.le_iff_toInt_le.mpr (Int.not_lt.mp hn)
  have hmax : n.toInt ≤ maxPosition := Int64.toInt_le n
  rw [Int64.toNat_toUInt64_of_le hpos, Int64.toNatClampNeg]
  omega

theorem countFits_of_needCount {count : UInt64} (h : d.needCount = .ok count) :
    Window.CountFits (some count) := by
  obtain ⟨n, -, h⟩ := bind_eq_ok_iff.mp h
  exact countFits_of_countOf h

/-- **The selector of a descriptor** has no count beyond the greatest position. -/
theorem countFits_selector (h : d.selector shape = .ok selector) :
    Window.CountFits selector.count? := by
  cases shape with
  | indexRange | rankRange =>
    obtain ⟨n, -, h⟩ := bind_eq_ok_iff.mp h
    obtain ⟨count, hcount, h⟩ := bind_eq_ok_iff.mp h
    obtain rfl := Except.ok.inj h
    exact countFits_of_needCount hcount
  | valueRelRankRange =>
    obtain ⟨v, -, h⟩ := bind_eq_ok_iff.mp h
    obtain ⟨n, -, h⟩ := bind_eq_ok_iff.mp h
    obtain ⟨count, hcount, h⟩ := bind_eq_ok_iff.mp h
    obtain rfl := Except.ok.inj h
    exact countFits_of_needCount hcount
  | valueRange | keyRange | valueRelRankRangeToEnd =>
    obtain ⟨v, -, h⟩ := bind_eq_ok_iff.mp h
    obtain ⟨w, -, h⟩ := bind_eq_ok_iff.mp h
    obtain rfl := Except.ok.inj h
    rintro c ⟨⟩
  | _ =>
    obtain ⟨v, -, h⟩ := bind_eq_ok_iff.mp h
    obtain rfl := Except.ok.inj h
    rintro c ⟨⟩

end Descriptor

namespace View

variable {v : View} {entries : List (Value × Value)} {selector : Selector} {test : Element → Bool}
  {e : Element}

namespace Shows

theorem size_eq (h : v.Shows entries) : v.size = entries.length := by
  rw [size, ← List.length_map, h.entries_eq]

/-- An element stands at its index. -/
theorem getElem?_index (h : v.Shows entries) (he : e ∈ v.byIndex) :
    v.byIndex[e.index]? = some e := by
  obtain ⟨i, hi⟩ := List.mem_iff_getElem?.mp he
  rw [place_of_getElem? h.indices_eq hi, hi]

theorem entry_eq (h : v.Shows entries) (he : e ∈ v.byIndex) :
    entries[e.index]? = some (e.key, e.value) := by
  rw [← h.entries_eq, List.getElem?_map, h.getElem?_index he]
  rfl

theorem index_lt (h : v.Shows entries) (he : e ∈ v.byIndex) : e.index < entries.length := by
  obtain ⟨hlt, -⟩ := List.getElem?_eq_some_iff.mp (h.entry_eq he)
  exact hlt

theorem rank_lt (h : v.Shows entries) (he : e ∈ v.byIndex) : e.rank < entries.length := by
  have hmem : e.rank ∈ v.byRank.map (·.rank) := List.mem_map_of_mem (h.perm.mem_iff.mpr he)
  rwa [h.ranks_eq, List.mem_range] at hmem

theorem countBelow_eq (h : v.Shows entries) (w : Value) :
    v.countBelow w = (entries.map (·.2)).countP fun u => decide (u < w) := by
  rw [← h.entries_eq, List.map_map, List.countP_map]
  rfl

theorem inRange_eq_true_iff {v first : Value} {bound : Option Value} :
    inRange v first bound = true ↔ first ≤ v ∧ ∀ b ∈ bound, v < b := by
  cases bound <;> simp [inRange]

theorem onKeys_eq_ok_iff {p : Value → Bool} :
    v.onKeys p = .ok test ↔ v.keyed = true ∧ test = fun e => p e.key := by
  rw [onKeys]
  split <;> simp [*, eq_comm]

/-- **The test that a selector is** picks what the selector picks. -/
theorem test_iff (h : v.Shows entries) (hsize : (entries.length : Int) ≤ maxPosition)
    (hcount : Window.CountFits selector.count?) (htest : v.test selector = .ok test)
    (he : e ∈ v.byIndex) : test e = true ↔ selector.Picks entries e.index := by
  have hn := h.size_eq
  have hentry := h.entry_eq he
  have hindex := h.index_lt he
  have hranklt := h.rank_lt he
  have hrank := h.rank_eq e he
  cases selector with
  | index i =>
    obtain rfl := Except.ok.inj htest
    rw [Selector.Picks, hn]
    simp only [beq_iff_eq, Window.resolve_eq_some_iff, hindex, true_and]
  | indexRange i count =>
    obtain rfl := Except.ok.inj htest
    rw [Selector.Picks, hn]
    exact Window.contains_ofRange hcount hindex hsize
  | rank r =>
    obtain rfl := Except.ok.inj htest
    rw [Selector.Picks, ← hrank, hn]
    simp only [beq_iff_eq, Window.resolve_eq_some_iff, hranklt, true_and]
  | rankRange r count =>
    obtain rfl := Except.ok.inj htest
    rw [Selector.Picks, hn, ← hrank]
    exact Window.contains_ofRange hcount hranklt hsize
  | value w =>
    obtain rfl := Except.ok.inj htest
    simp [Selector.Picks, hentry]
  | valueList ws =>
    obtain rfl := Except.ok.inj htest
    simp [Selector.Picks, hentry, List.contains_iff_exists_mem_beq]
  | valueRange first bound =>
    obtain rfl := Except.ok.inj htest
    simp [Selector.Picks, hentry, inRange_eq_true_iff]
  | valueRelRankRange w r count =>
    obtain rfl := Except.ok.inj htest
    rw [Selector.Picks, hn, h.countBelow_eq, ← hrank]
    exact Window.contains_ofRelative hcount hranklt hsize
  | key k =>
    change v.onKeys (· == k) = .ok test at htest
    obtain ⟨-, rfl⟩ := onKeys_eq_ok_iff.mp htest
    simp [Selector.Picks, hentry]
  | keyList ks =>
    obtain ⟨-, rfl⟩ := onKeys_eq_ok_iff.mp htest
    simp [Selector.Picks, hentry, List.contains_iff_exists_mem_beq]
  | keyRange first bound =>
    change v.onKeys (fun key => inRange key first bound) = .ok test at htest
    obtain ⟨-, rfl⟩ := onKeys_eq_ok_iff.mp htest
    simp [Selector.Picks, hentry, inRange_eq_true_iff]

end Shows

/-- A test is there for every selector, unless it is on keys and there are none. -/
theorem exists_test (hkeyed : selector.isKeyBased = true → v.keyed = true) :
    ∃ test, v.test selector = .ok test := by
  cases selector with
  | key | keyList | keyRange =>
    rw [View.test, onKeys, if_pos (hkeyed rfl)]
    exact ⟨_, rfl⟩
  | _ => exact ⟨_, rfl⟩

/-- **Selectors of keys** fail where there are no keys. -/
theorem select_of_not_keyed (hkeyed : v.keyed = false) (hselector : selector.isKeyBased = true)
    (inverted : Bool) : v.select selector inverted = .error (.param .keysOfList) := by
  rw [select_eq_error_iff]
  cases selector with
  | key | keyList | keyRange =>
    rw [View.test, onKeys, hkeyed]
    rfl
  | _ => cases hselector

namespace Shows

theorem ordered_byIndex (h : v.Shows entries) :
    v.byIndex.Pairwise fun e f => e.index < f.index :=
  List.pairwise_map.mp (h.indices_eq ▸ List.pairwise_lt_range)

theorem ordered_byRank (h : v.Shows entries) : v.byRank.Pairwise fun e f => e.rank < f.rank :=
  List.pairwise_map.mp (h.ranks_eq ▸ List.pairwise_lt_range)

/-- The candidates of a selector stand in the order in which it reports. -/
theorem ordered_candidates (h : v.Shows entries) (selector : Selector) :
    (if selector.isRankStyle then v.byRank else v.byIndex).Pairwise fun e f =>
      selector.Precedes entries e.index f.index := by
  have hranks : v.byRank.Pairwise fun e f =>
      rankAt (entries.map (·.2)) e.index < rankAt (entries.map (·.2)) f.index := by
    refine h.ordered_byRank.imp_of_mem fun he hf hlt => ?_
    rwa [← h.rank_eq _ (h.perm.mem_iff.mp he), ← h.rank_eq _ (h.perm.mem_iff.mp hf)]
  cases selector with
  | rank | rankRange | valueRelRankRange => exact hranks
  | _ => exact h.ordered_byIndex

theorem mem_candidates_iff (h : v.Shows entries) (selector : Selector) :
    e ∈ (if selector.isRankStyle then v.byRank else v.byIndex) ↔ e ∈ v.byIndex := by
  split
  · exact h.perm.mem_iff
  · rfl

/-- **What is selected is what the selector picks**, or what it does not pick. -/
theorem holds_of_select (h : v.Shows entries) (hsize : (entries.length : Int) ≤ maxPosition)
    (hcount : Window.CountFits selector.count?)
    (hkeyed : selector.isKeyBased = true → v.keyed = true) (inverted : Bool) :
    ∃ s, v.select selector inverted = .ok s ∧
      s.Holds entries (selector.Precedes entries) (selector.Selects entries inverted) := by
  obtain ⟨test, htest⟩ := exists_test hkeyed
  have hpasses : ∀ e ∈ v.byIndex,
      (test e != inverted) = true ↔ selector.Selects entries inverted e.index := by
    intro e he
    rw [Selector.Selects, ← h.test_iff hsize hcount htest he]
    cases inverted <;> simp
  refine ⟨_, select_eq_ok_iff.mpr ⟨test, htest, rfl⟩, ?_, ?_, ?_⟩
  · intro e he
    exact h.entry_eq ((h.mem_candidates_iff selector).mp (List.mem_filter.mp he).1)
  · intro j
    simp only [List.mem_map, List.mem_filter, h.mem_candidates_iff]
    constructor
    · rintro ⟨e, ⟨he, hpass⟩, rfl⟩
      exact ⟨h.index_lt he, (hpasses e he).mp hpass⟩
    · rintro ⟨hj, hpicked⟩
      -- every index belongs to an element
      have hmem : j ∈ v.byIndex.map (·.index) := by rwa [h.indices_eq, List.mem_range]
      obtain ⟨e, he, rfl⟩ := List.mem_map.mp hmem
      exact ⟨e, ⟨he, (hpasses e he).mpr hpicked⟩, rfl⟩
  · exact List.pairwise_map.mpr ((h.ordered_candidates selector).filter _)

end Shows

/-! ### Lists and maps -/

/-- **Selecting from a view means** what the selectors mean on some entries in index order. -/
structure SelectsFrom (v : View) (keyed : Bool) (entries : List (Value × Value)) : Prop where
  /-- Without keys there is no selecting by key. -/
  refuses : keyed = false → ∀ (selector : Selector) (inverted : Bool),
    selector.isKeyBased = true → v.select selector inverted = .error (.param .keysOfList)
  /-- What is selected is what the selector picks, or what it does not pick. -/
  selects : ∀ (selector : Selector) (inverted : Bool), Window.CountFits selector.count? →
    (selector.isKeyBased = true → keyed = true) →
      ∃ s, v.select selector inverted = .ok s ∧
        s.Holds entries (selector.Precedes entries) (selector.Selects entries inverted)

theorem Shows.selectsFrom (h : v.Shows entries) (hsize : entries.length < 2 ^ 63) :
    v.SelectsFrom v.keyed entries := by
  have hbound : (entries.length : Int) ≤ maxPosition := by
    rw [maxPosition_eq]
    omega
  exact ⟨fun hkeyed _ inverted hselector => select_of_not_keyed hkeyed hselector inverted,
    fun _ inverted hcount hkeyed => h.holds_of_select hbound hcount hkeyed inverted⟩

/-- **Selecting by index, rank, value and key.** What is selected from a list or a well-formed
map is what the selector picks of its entries in index order, or, inverted, what it does not
pick: each entry once, and in the order of the ranks or of the indices. The index order of a
map is the ascending order of its keys. Counts beyond the greatest position are left out; the
selector of a descriptor never has one. -/
theorem selection_semantics :
    (∀ items : List Value, items.length < 2 ^ 63 →
      (ofList items).SelectsFrom false (items.map fun item => (.null, item))) ∧
    (∀ m : Dict Value, m.WellFormed → m.size < 2 ^ 63 →
      ∃ entries, entries.Perm m.entries ∧ (entries.Pairwise fun e f => e.1 < f.1) ∧
        (ofDict m).SelectsFrom true entries) ∧
    ∀ (d : Descriptor) (shape : Shape) (selector : Selector),
      d.selector shape = .ok selector → Window.CountFits selector.count? := by
  refine ⟨fun items hsize => ?_, fun m hm hsize => ?_, fun _ _ _ => Descriptor.countFits_selector⟩
  · refine (shows_ofList items).selectsFrom ?_
    rwa [List.length_map]
  · obtain ⟨entries, hperm, hascending, hshows⟩ := shows_ofDict hm
    refine ⟨entries, hperm, hascending, hshows.selectsFrom ?_⟩
    rwa [hperm.length_eq]

/-- What is left of three values without the two greatest, which are equal; and a map that is
stored in another order than that of its keys. -/
theorem selection_semantics_greatest :
    let items : List Value := [.integer 3, .integer 1, .integer 3]
    let entries : List (Value × Value) := items.map fun item => (.null, item)
    let m : Dict Value := ⟨.unordered, [(.integer 2, .null), (.integer 1, .null)]⟩
    let greatest : Selector := .rankRange (-2) none
    items.length < 2 ^ 63 ∧ m.WellFormed ∧ m.size < 2 ^ 63 ∧ Window.CountFits greatest.count? ∧
      (∃ s, (ofList items).select greatest true = .ok s ∧
        s.Holds entries (greatest.Precedes entries) (greatest.Selects entries true)) ∧
      ∃ sorted, sorted.Perm m.entries ∧ (ofDict m).SelectsFrom true sorted := by
  intro items entries m greatest
  have hitems : items.length < 2 ^ 63 := by decide
  have hm : m.WellFormed := ⟨by decide, nofun⟩
  have hsize : m.size < 2 ^ 63 := by decide
  have hcount : Window.CountFits greatest.count? := nofun
  have hselected := (selection_semantics.1 items hitems).selects greatest true hcount nofun
  obtain ⟨sorted, hperm, -, hselects⟩ := selection_semantics.2.1 m hm hsize
  exact ⟨hitems, hm, hsize, hcount, hselected, sorted, hperm, hselects⟩

end View

end RecordStore
