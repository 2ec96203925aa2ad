import RecordStore.Proofs.Selection.Picks

/-!
# Reported places are addresses

What is selected can be reported as places: indices or ranks, counted from the front or from
the end. The same integers address elements in selectors (`RecordStore.Addressing`). This file
shows that the two directions fit together: every place in a report selects one of the elements
that the report is about and nothing else, and every such element is selected by one of them
(`RecordStore.Selection.LeadsBack`).

Places from the end are reported without a sign, `0` for the last one, and are addressed from
`-1` on, so that a place `p` is read back as `-1 - p`.

Reports by value and by key, and the count, are about the same elements. A selector of one
element reports it by itself, and for that it has to pick one at most
(`RecordStore.View.Shows.length_le_one_of_isPoint`); for a key this rests on the keys of a map
being different.
-/

namespace RecordStore

/-! ### Places and addresses -/

/-- **A way to address elements**, and to report where they are. -/
inductive Addressing where
  /-- By their indices. -/
  | index
  /-- By their indices, counted from the end. -/
  | reverseIndex
  /-- By their ranks. -/
  | rank
  /-- By their ranks, counted from the end. -/
  | reverseRank

namespace Addressing

/-- The report of the places. -/
def kind : Addressing → ReturnKind
  | index => .index
  | reverseIndex => .reverseIndex
  | rank => .rank
  | reverseRank => .reverseRank

/-- The selector that a reported place is an address for. -/
def selector : Addressing → Int64 → Selector
  | index, p => .index p
  | reverseIndex, p => .index (-1 - p)
  | rank, p => .rank p
  | reverseRank, p => .rank (-1 - p)

/-- The place of an element among `n`. -/
def place (n : Nat) : Addressing → Element → Nat
  | index, e => e.index
  | reverseIndex, e => n - 1 - e.index
  | rank, e => e.rank
  | reverseRank, e => n - 1 - e.rank

end Addressing

/-- **How values are answered**: all of them in a list, or the one that was asked for by
itself, and `null` if there is none. -/
inductive OpResult.Reports : (point : Bool) → (values : List Value) → OpResult → Prop where
  /-- All of them. -/
  | all (values : List Value) : Reports false values (.list values)
  /-- The one that was asked for. -/
  | single (value : Value) : Reports true [value] (.scalar value)
  /-- None. -/
  | nothing : Reports true [] (.scalar .null)

theorem Selection.reports_shape {s : Selection} {values : List Value}
    (h : s.point = true → values.length ≤ 1) : OpResult.Reports s.point values (s.shape values) := by
  rw [shape]
  cases hpoint : s.point with
  | false => exact .all values
  | true =>
    match values, h hpoint with
    | [], _ => exact .nothing
    | [value], _ => exact .single value

/-- The selected elements in the order in which their places are reported. -/
def Selection.byPlace (s : Selection) (place : Element → Nat) : List Element :=
  s.elements.mergeSort fun e f => decide (place e ≤ place f)

theorem Selection.byPlace_perm (s : Selection) (place : Element → Nat) :
    (s.byPlace place).Perm s.elements :=
  List.mergeSort_perm _ _

/-- Sorting places is sorting by place. -/
theorem Selection.places_eq (s : Selection) (place : Element → Nat) :
    s.places place =
      s.shape (((s.byPlace place).map fun e => Int64.ofNat (place e)).map .integer) := by
  have hsorted : (s.byPlace place).map place =
      (s.elements.map place).mergeSort fun p q => decide (p ≤ q) :=
    List.map_mergeSort fun _ _ _ _ => rfl
  rw [places, ← hsorted, List.map_map, List.map_map]
  rfl

namespace Addressing

variable {n : Nat} {p : Nat}

theorem toInt_place (hp : p < n) (hn : (n : Int) ≤ maxPosition) :
    (Int64.ofNat p).toInt = p := by
  rw [maxPosition_eq] at hn
  exact Int64.toInt_ofNat_of_lt (by omega)

/-- Read back from the end, a place counts from the end. -/
theorem placeOf_reverse (hp : p < n) (hn : (n : Int) ≤ maxPosition) :
    Window.placeOf n (-1 - Int64.ofNat (n - 1 - p)).toInt = p := by
  have hplace := toInt_place (show n - 1 - p < n by omega) hn
  have hone : (-1 : Int64).toInt = -1 := by decide
  have hdiff : (-1 - Int64.ofNat (n - 1 - p)).toInt = -1 - ((n - 1 - p : Nat) : Int) := by
    rw [Int64.toInt_sub, hone, hplace]
    rw [maxPosition_eq] at hn
    exact Int.bmod_eq_of_le (by omega) (by omega)
  rw [hdiff, Window.placeOf]
  omega

end Addressing

namespace View

variable {v : View} {entries : List (Value × Value)} {selector : Selector} {inverted : Bool}
  {s : Selection} {e f : Element}

/-- A selector selects one element and nothing else. -/
def SelectsOnly (v : View) (selector : Selector) (e : Element) : Prop :=
  ∃ s, v.select selector false = .ok s ∧ s.elements = [e]

namespace Shows

/-! ### Selectors of one element -/

/-- What is selected is in the view. -/
theorem mem_of_select (h : v.Shows entries) (hs : v.select selector inverted = .ok s)
    (he : e ∈ s.elements) : e ∈ v.byIndex := by
  obtain ⟨test, -, rfl⟩ := select_eq_ok_iff.mp hs
  exact (h.mem_candidates_iff selector).mp (List.mem_filter.mp he).1

/-- The keys of the elements ascend as those of the entries do. -/
theorem ascending_keys (h : v.Shows entries) (hkeys : entries.Pairwise fun e f => e.1 < f.1) :
    v.byIndex.Pairwise fun e f => e.key < f.key := by
  rw [← h.entries_eq, List.pairwise_map] at hkeys
  exact hkeys

/-- **A selector of one element picks one at most**, if the keys of the entries ascend. -/
theorem length_le_one_of_isPoint (h : v.Shows entries)
    (hkeys : v.keyed = true → entries.Pairwise fun e f => e.1 < f.1)
    (hpoint : selector.isPoint = true) (hs : v.select selector false = .ok s) :
    s.elements.length ≤ 1 := by
  obtain ⟨test, htest, rfl⟩ := select_eq_ok_iff.mp hs
  -- no two elements pass the test
  have hapart : (if selector.isRankStyle then v.byRank else v.byIndex).Pairwise fun e f =>
      test e = true → test f = true → False := by
    cases selector with
    | index i =>
      obtain rfl := Except.ok.inj htest
      refine h.ordered_byIndex.imp fun hlt he hf => ?_
      have heq := (eq_of_beq he).symm.trans (eq_of_beq hf)
      exact Nat.ne_of_lt hlt (Option.some_inj.mp heq)
    | rank r =>
      obtain rfl := Except.ok.inj htest
      refine h.ordered_byRank.imp fun hlt he hf => ?_
      have heq := (eq_of_beq he).symm.trans (eq_of_beq hf)
      exact Nat.ne_of_lt hlt (Option.some_inj.mp heq)
    | key k =>
      change v.onKeys (· == k) = .ok test at htest
      obtain ⟨hkeyed, rfl⟩ := onKeys_eq_ok_iff.mp htest
      refine (h.ascending_keys (hkeys hkeyed)).imp fun hlt he hf => ?_
      have heq := (Value.beq_iff_canonical_eq.mp he).trans (Value.beq_iff_canonical_eq.mp hf).symm
      have hne := Value.beq_eq_false_of_lt hlt
      rw [Value.beq_iff_canonical_eq.mpr heq] at hne
      cases hne
    | _ => cases hpoint
  have hfilter := List.pairwise_filter.mpr hapart
  have hsame : ∀ e ∈ (if selector.isRankStyle then v.byRank else v.byIndex),
      (test e != false) = test e := fun e _ => Bool.bne_false (test e)
  rw [List.filter_congr hsame]
  match (if selector.isRankStyle then v.byRank else v.byIndex).filter test, hfilter with
  | [], _ => exact Nat.zero_le 1
  | [e], _ => exact Nat.le_refl 1
  | e :: f :: _, hfilter => exact ((List.pairwise_cons.mp hfilter).1 f List.mem_cons_self).elim

/-- A selector of one element that picks an element selects nothing else. -/
theorem selectsOnly (h : v.Shows entries)
    (hkeys : v.keyed = true → entries.Pairwise fun e f => e.1 < f.1)
    (hsize : (entries.length : Int) ≤ maxPosition) (hpoint : selector.isPoint = true)
    (hkeyed : selector.isKeyBased = true → v.keyed = true) (he : e ∈ v.byIndex)
    (hpicks : selector.Picks entries e.index) : v.SelectsOnly selector e := by
  have hcount : Window.CountFits selector.count? := by
    cases selector with
    | index | rank | key => exact nofun
    | _ => cases hpoint
  obtain ⟨test, htest⟩ := exists_test hkeyed
  obtain ⟨s, hs⟩ : ∃ s, v.select selector false = .ok s :=
    ⟨_, select_eq_ok_iff.mpr ⟨test, htest, rfl⟩⟩
  have hone := h.length_le_one_of_isPoint hkeys hpoint hs
  have hmem : e ∈ s.elements := by
    obtain ⟨test', htest', rfl⟩ := select_eq_ok_iff.mp hs
    refine List.mem_filter.mpr ⟨(h.mem_candidates_iff selector).mpr he, ?_⟩
    rw [Bool.bne_false]
    exact (h.test_iff hsize hcount htest' he).mpr hpicks
  refine ⟨s, hs, ?_⟩
  match hs : s.elements with
  | [] => simp [hs] at hmem
  | [f] =>
    rw [hs, List.mem_singleton] at hmem
    rw [hmem]
  | _ :: _ :: _ => simp [hs] at hone

/-- **The place of an element is its address.** -/
theorem selectsOnly_place (h : v.Shows entries)
    (hkeys : v.keyed = true → entries.Pairwise fun e f => e.1 < f.1)
    (hsize : (entries.length : Int) ≤ maxPosition) (he : e ∈ v.byIndex) (a : Addressing) :
    v.SelectsOnly (a.selector (Int64.ofNat (a.place v.size e))) e := by
  have hindex := h.index_lt he
  have hrank := h.rank_lt he
  refine h.selectsOnly hkeys hsize (by cases a <;> rfl) (by cases a <;> exact nofun) he ?_
  rw [h.size_eq]
  cases a with
  | index =>
    rw [Addressing.selector, Selector.Picks, Addressing.place, Addressing.toInt_place hindex hsize,
      Window.placeOf, if_pos (Int.natCast_nonneg _)]
  | reverseIndex => exact (Addressing.placeOf_reverse hindex hsize).symm
  | rank =>
    rw [Addressing.selector, Selector.Picks, Addressing.place, Addressing.toInt_place hrank hsize,
      Window.placeOf, if_pos (Int.natCast_nonneg _), h.rank_eq e he]
  | reverseRank =>
    rw [Addressing.selector, Selector.Picks, ← h.rank_eq e he]
    exact (Addressing.placeOf_reverse hrank hsize).symm

/-! ### Reports of places -/

/-- No element of a view has the place of another one. -/
theorem eq_of_place (h : v.Shows entries) (he : e ∈ v.byIndex) (hf : f ∈ v.byIndex)
    {a : Addressing} (hplace : a.place v.size e = a.place v.size f) : e = f := by
  have hindices := List.inj_on_of_nodup_map (h.indices_eq ▸ List.nodup_range) he hf
  have hranks := List.inj_on_of_nodup_map (h.ranks_eq ▸ List.nodup_range)
    (h.perm.mem_iff.mpr he) (h.perm.mem_iff.mpr hf)
  have hindex := h.index_lt he
  have hindex' := h.index_lt hf
  have hrank := h.rank_lt he
  have hrank' := h.rank_lt hf
  rw [h.size_eq] at hplace
  cases a <;> simp only [Addressing.place] at hplace
  · exact hindices hplace
  · exact hindices (by omega)
  · exact hranks hplace
  · exact hranks (by omega)

theorem place_lt (h : v.Shows entries) (he : e ∈ v.byIndex) (a : Addressing) :
    a.place v.size e < entries.length := by
  have hindex := h.index_lt he
  have hrank := h.rank_lt he
  rw [h.size_eq]
  cases a <;> simp only [Addressing.place] <;> omega

/-- No element is selected twice. -/
theorem nodup_elements (h : v.Shows entries) (hs : v.select selector inverted = .ok s) :
    s.elements.Nodup := by
  obtain ⟨test, -, rfl⟩ := select_eq_ok_iff.mp hs
  have hindex : v.byIndex.Nodup := .of_map _ (h.indices_eq ▸ List.nodup_range)
  have hcandidates : (if selector.isRankStyle then v.byRank else v.byIndex).Nodup := by
    split
    · exact h.perm.nodup_iff.mpr hindex
    · exact hindex
  exact hcandidates.filter _

end Shows

end View

/-- **A selection is led back to** by the reports about it, of a view and with a single element
or with any number. -/
structure Selection.LeadsBack (s : Selection) (v : View) (point : Bool)
    (report : ReturnKind → Except Error (Option OpResult)) : Prop where
  /-- No element is selected twice. -/
  distinct : s.elements.Nodup
  /-- Places are reported in ascending order, and each is the address of a selected element;
  together they address every selected element once. -/
  places : ∀ a : Addressing, ∃ (places : List Int64) (addressed : List Element) (r : OpResult),
    report a.kind = .ok (some r) ∧ r.Reports point (places.map .integer) ∧
      places.Pairwise (· < ·) ∧ addressed.Perm s.elements ∧
      List.Forall₂ (fun place e => v.SelectsOnly (a.selector place) e) places addressed
  /-- The values are those of the selected elements. -/
  values : ∃ r, report .value = .ok (some r) ∧ r.Reports point (s.elements.map (·.value))
  /-- So are the keys, where there are keys. -/
  keys : v.keyed = true →
    ∃ r, report .key = .ok (some r) ∧ r.Reports point (s.elements.map (·.key))
  /-- Keys are reported with their values in a list, also for a single element. -/
  pairs : v.keyed = true →
    report .keyValue = .ok (some (.pairs (s.elements.map fun e => (e.key, e.value))))
  /-- The count is the number of the selected elements. -/
  count : report .count = .ok (some (.count s.elements.length))

namespace View.Shows

variable {v : View} {entries : List (Value × Value)} {selector : Selector} {inverted : Bool}
  {s : Selection}

/-- By their places, the selected elements ascend strictly. -/
theorem ascending_byPlace (h : v.Shows entries) (hs : v.select selector inverted = .ok s)
    (a : Addressing) :
    (s.byPlace (a.place v.size)).Pairwise fun e f => a.place v.size e < a.place v.size f := by
  have hperm := s.byPlace_perm (a.place v.size)
  have hview : ∀ e ∈ s.byPlace (a.place v.size), e ∈ v.byIndex := fun e he =>
    h.mem_of_select hs (hperm.mem_iff.mp he)
  have hdistinct := hperm.nodup_iff.mpr (h.nodup_elements hs)
  have hascending : (s.byPlace (a.place v.size)).Pairwise fun e f =>
      a.place v.size e ≤ a.place v.size f := by
    refine (List.pairwise_mergeSort ?_ ?_ _).imp of_decide_eq_true
    · intro e f g hef hfg
      exact decide_eq_true (Nat.le_trans (of_decide_eq_true hef) (of_decide_eq_true hfg))
    · intro e f
      simpa using Nat.le_total (a.place v.size e) (a.place v.size f)
  refine (hascending.and hdistinct).imp_of_mem ?_
  rintro e f he hf ⟨hle, hne⟩
  exact Nat.lt_of_le_of_ne hle fun heq => hne (h.eq_of_place (hview e he) (hview f hf) heq)

/-- **Reported places are addresses** of the selected elements. -/
theorem places_leadBack (h : v.Shows entries)
    (hkeys : v.keyed = true → entries.Pairwise fun e f => e.1 < f.1)
    (hsize : (entries.length : Int) ≤ maxPosition) (hs : v.select selector inverted = .ok s)
    (hone : s.point = true → s.elements.length ≤ 1) (a : Addressing) :
    ∃ (places : List Int64) (addressed : List Element) (r : OpResult),
      s.report v a.kind = .ok (some r) ∧ r.Reports s.point (places.map .integer) ∧
        places.Pairwise (· < ·) ∧ addressed.Perm s.elements ∧
        List.Forall₂ (fun place e => v.SelectsOnly (a.selector place) e) places addressed := by
  have hperm := s.byPlace_perm (a.place v.size)
  have hview : ∀ e ∈ s.byPlace (a.place v.size), e ∈ v.byIndex := fun e he =>
    h.mem_of_select hs (hperm.mem_iff.mp he)
  have hreport : s.report v a.kind = .ok (some (s.places (a.place v.size))) := by cases a <;> rfl
  refine ⟨(s.byPlace (a.place v.size)).map fun e => Int64.ofNat (a.place v.size e),
    s.byPlace (a.place v.size), s.places (a.place v.size), hreport, ?_, ?_, hperm, ?_⟩
  · rw [Selection.places_eq]
    refine Selection.reports_shape fun hpoint => ?_
    rw [List.length_map, List.length_map, hperm.length_eq]
    exact hone hpoint
  · refine List.pairwise_map.mpr ((h.ascending_byPlace hs a).imp_of_mem fun he hf hlt => ?_)
    rw [Int64.lt_iff_toInt_lt, Addressing.toInt_place (h.place_lt (hview _ he) a) hsize,
      Addressing.toInt_place (h.place_lt (hview _ hf) a) hsize]
    exact Int.ofNat_lt.mpr hlt
  · rw [List.forall₂_map_left_iff, List.forall₂_same]
    exact fun e he => h.selectsOnly_place hkeys hsize (hview e he) a

theorem leadsBack (h : v.Shows entries)
    (hkeys : v.keyed = true → entries.Pairwise fun e f => e.1 < f.1)
    (hsize : (entries.length : Int) ≤ maxPosition) (hs : v.select selector inverted = .ok s) :
    s.LeadsBack v (selector.isPoint && !inverted) (s.report v) := by
  have hpoint : s.point = (selector.isPoint && !inverted) := by
    obtain ⟨test, -, rfl⟩ := select_eq_ok_iff.mp hs
    rfl
  have hone : s.point = true → s.elements.length ≤ 1 := by
    rw [hpoint, Bool.and_eq_true, Bool.not_eq_true']
    rintro ⟨hsingle, rfl⟩
    exact h.length_le_one_of_isPoint hkeys hsingle hs
  have hshape : ∀ content : Element → Value, OpResult.Reports s.point
      (s.elements.map content) (s.shape (s.elements.map content)) := fun content =>
    Selection.reports_shape fun hpoint => by
      rw [List.length_map]
      exact hone hpoint
  rw [← hpoint]
  exact
    { distinct := h.nodup_elements hs
      places := h.places_leadBack hkeys hsize hs hone
      values := ⟨_, rfl, hshape _⟩
      keys := fun hkeyed => ⟨_, by rw [Selection.report, if_pos hkeyed], hshape _⟩
      pairs := fun hkeyed => by rw [Selection.report, if_pos hkeyed]
      count := rfl }

end View.Shows

/-! ### Lists and maps -/

namespace ContainerKind

variable {σ α : Type} {kind : ContainerKind σ α} {container : σ}

/-- **Reports lead back** to what was selected from a container. -/
def LeadsBack (kind : ContainerKind σ α) (container : σ) : Prop :=
  ∀ (selector : Selector) (inverted : Bool) (s : Selection),
    (kind.view container).select selector inverted = .ok s →
      s.LeadsBack (kind.view container) (selector.isPoint && !inverted) fun reported =>
        (kind.getBy container selector ⟨reported, inverted⟩).result

/-- A read of a selection reports on it. -/
theorem Selects.result_getBy (h : kind.Selects container) {selector : Selector} {inverted : Bool}
    {s : Selection} (hs : (kind.view container).select selector inverted = .ok s)
    (reported : ReturnKind) :
    (kind.getBy container selector ⟨reported, inverted⟩).result =
      s.report (kind.view container) reported := by
  rw [h.getBy_eq]
  cases hreport : s.report (kind.view container) reported with
  | error e =>
    rw [View.selectAndReport_eq_error_iff.mpr (Or.inr ⟨s, hs, hreport⟩)]
    rfl
  | ok answer =>
    rw [View.selectAndReport_eq_ok_iff.mpr ⟨hs, hreport⟩]
    rfl

/-- What goes through a view that shows some entries leads back. -/
theorem Selects.leadsBack (h : kind.Selects container) {entries : List (Value × Value)}
    (hshows : (kind.view container).Shows entries)
    (hkeys : (kind.view container).keyed = true → entries.Pairwise fun e f => e.1 < f.1)
    (hsize : entries.length < 2 ^ 63) : kind.LeadsBack container := by
  have hbound : (entries.length : Int) ≤ maxPosition := by
    rw [maxPosition_eq]
    omega
  intro selector inverted s hs
  have hreport : (fun reported => (kind.getBy container selector ⟨reported, inverted⟩).result) =
      s.report (kind.view container) := funext (h.result_getBy hs)
  rw [hreport]
  exact hshows.leadsBack hkeys hbound hs

/-- **Reported places are addresses.** What is selected from a list or a well-formed map, as it
is or inverted, can be read back from its places: read as selectors, they select its elements
again, each one once. All other reports are about the same elements. -/
theorem reports_lead_back :
    (∀ items : List Value, items.length < 2 ^ 63 → lists.LeadsBack items) ∧
      ∀ m : Dict Value, m.WellFormed → m.size < 2 ^ 63 → dicts.LeadsBack m := by
  refine ⟨fun items hsize => ?_, fun m hm hsize => ?_⟩
  · refine (selects_lists items).leadsBack (View.shows_ofList items) nofun ?_
    rwa [List.length_map]
  · obtain ⟨entries, hperm, hascending, hshows⟩ := View.shows_ofDict hm
    refine (selects_dicts m).leadsBack hshows (fun _ => hascending) ?_
    rwa [hperm.length_eq]

/-- Two equal values, which have different ranks, and everything but the first entry of a map
that is stored in another order than that of its keys. -/
theorem reports_lead_back_equal_values :
    let items : List Value := [.integer 3, .integer 1, .integer 3]
    let m : Dict Value := ⟨.unordered, [(.integer 2, .null), (.integer 1, .null)]⟩
    items.length < 2 ^ 63 ∧ m.WellFormed ∧ m.size < 2 ^ 63 ∧
      (∃ s, (View.ofList items).select (.value (.integer 3)) false = .ok s ∧
        s.LeadsBack (View.ofList items) false fun reported =>
          ((ListOp.getBy (.value (.integer 3)) ⟨reported, false⟩).apply items).result) ∧
      ∃ s, (View.ofDict m).select (.index 0) true = .ok s ∧
        s.LeadsBack (View.ofDict m) false fun reported =>
          ((MapOp.getBy (.index 0) ⟨reported, true⟩).apply m).result := by
  intro items m
  have hitems : items.length < 2 ^ 63 := by decide
  have hm : m.WellFormed := ⟨by decide, nofun⟩
  have hsize : m.size < 2 ^ 63 := by decide
  exact ⟨hitems, hm, hsize,
    ⟨_, rfl, reports_lead_back.1 items hitems (.value (.integer 3)) false _ rfl⟩,
    ⟨_, rfl, reports_lead_back.2 m hm hsize (.index 0) true _ rfl⟩⟩

end ContainerKind

end RecordStore
