import RecordStore.Proofs.Selection.View
import RecordStore.Proofs.Value.Dict

/-!
# Selecting from canonical forms

What a selector picks, and what is reported about it, depends on the keys and the values
of the elements up to equality, on their indices and on their ranks; it does not depend
on where the container stores them. This file says so by comparing a view with its
canonical form (`RecordStore.View.canonical`), which puts every key and every value into
its canonical form and forgets the positions: selecting and reporting commute with it
(`RecordStore.View.selectAndReport_canonical`).

The canonical form of the view of a map depends on the canonical form of the map alone
(`RecordStore.View.canonical_ofDict`), so that maps that are equal show the same.
-/

namespace RecordStore

/-! ### Canonical forms of what is shown -/

/-- An element with its key and its value in their canonical forms, and without its
position. -/
def Element.canonical (e : Element) : Element :=
  { e with key := e.key.canonical, value := e.value.canonical, position := 0 }

/-- A view with its elements in their canonical forms. -/
def View.canonical (v : View) : View where
  keyed := v.keyed
  byIndex := v.byIndex.map Element.canonical
  byRank := v.byRank.map Element.canonical

/-- A selection with its elements in their canonical forms. -/
def Selection.canonical (s : Selection) : Selection where
  elements := s.elements.map Element.canonical
  others := s.others.map Element.canonical
  point := s.point

/-- An answer with its values in their canonical forms. -/
def OpResult.canonical : OpResult → OpResult
  | scalar value => scalar value.canonical
  | list values => list (values.map Value.canonical)
  | pairs entries => pairs (entries.map Value.canonicalEntry)
  | count n => count n

/-! ### Views -/

namespace View

/-- The canonical form of a view is the view of the entries in their canonical forms. -/
theorem canonical_ofEntries (keyed : Bool) (entries : List ((Value × Value) × Nat)) :
    (ofEntries keyed entries).canonical =
      ofEntries keyed (entries.map fun e => (Value.canonicalEntry e.1, 0)) := by
  let images := entries.map fun e => (Value.canonicalEntry e.1, 0)
  have hunranked : (unranked entries).map Element.canonical = unranked images := by
    rw [unranked, unranked, List.zipIdx_map, List.map_map, List.map_map]
    rfl
  have hsorted : ((unranked entries).mergeSort fun e f => decide (e.value ≤ f.value)).map
      Element.canonical = (unranked images).mergeSort fun e f => decide (e.value ≤ f.value) := by
    rw [← hunranked]
    refine List.map_mergeSort fun e _ f _ => decide_eq_decide.mpr ?_
    exact Value.le_congr (Value.canonical_canonical _).symm (Value.canonical_canonical _).symm
  have hranked : (ofEntries keyed entries).byRank.map Element.canonical =
      (ofEntries keyed images).byRank := by
    change List.map _ (List.map _ (List.zipIdx (List.mergeSort (unranked entries) _))) =
      List.map _ (List.zipIdx (List.mergeSort (unranked images) _))
    rw [← hsorted, List.zipIdx_map, List.map_map, List.map_map]
    rfl
  have hindexed : (ofEntries keyed entries).byIndex.map Element.canonical =
      (ofEntries keyed images).byIndex := by
    change List.map _ (List.mergeSort (ofEntries keyed entries).byRank _) =
      List.mergeSort (ofEntries keyed images).byRank _
    rw [← hranked]
    exact List.map_mergeSort fun _ _ _ _ => rfl
  rw [canonical, hranked, hindexed]
  rfl

/-- The canonical form of the view of a map shows the canonical form of the map. -/
theorem canonical_ofDict (m : Dict Value) :
    (ofDict m).canonical = ofEntries true (m.sortedImage.map (·, 0)) := by
  have hkeys : (m.byKey.map (·.1)).map Value.canonicalEntry = m.sortedImage := by
    rw [m.map_fst_byKey, Dict.sortedImage]
    split
    · rfl
    · exact m.sortEntries_image.symm
  rw [ofDict, canonical_ofEntries, ← hkeys, List.map_map, List.map_map]
  rfl

/-! ### Selecting -/

theorem size_canonical (v : View) : v.canonical.size = v.size := List.length_map ..

theorem countBelow_canonical (v : View) (value : Value) :
    v.canonical.countBelow value = v.countBelow value := by
  rw [countBelow, countBelow, canonical, List.countP_map]
  refine List.countP_congr fun e _ => ?_
  rw [Function.comp_apply, decide_eq_true_eq, decide_eq_true_eq]
  exact Value.lt_congr (Value.canonical_canonical e.value) rfl

/-- Whether a value is in a range is a matter of its canonical form. -/
theorem inRange_canonical (value first : Value) (bound : Option Value) :
    inRange value.canonical first bound = inRange value first bound := by
  have hvalue := Value.canonical_canonical value
  have hbound : ∀ b : Value, decide (value.canonical < b) = decide (value < b) := fun b =>
    decide_eq_decide.mpr (Value.lt_congr hvalue rfl)
  rw [inRange, inRange, decide_eq_decide.mpr (Value.le_congr rfl hvalue), funext hbound]

/-- Whether a value is among others is a matter of its canonical form. -/
theorem contains_canonical (values : List Value) (value : Value) :
    values.contains value.canonical = values.contains value := by
  have hbeq : ∀ w : Value, (value.canonical == w) = (value == w) := fun w =>
    Value.beq_congr (Value.canonical_canonical value) rfl
  rw [List.contains_eq_any_beq, List.contains_eq_any_beq, funext hbeq]

/-- **A test passes an element** when the same test of the canonical view passes its
canonical form. -/
theorem test_canonical (v : View) (selector : Selector) :
    v.test selector = (v.canonical.test selector).map fun test e => test e.canonical := by
  have hbeq : ∀ value w : Value, (value.canonical == w) = (value == w) := fun value w =>
    Value.beq_congr (Value.canonical_canonical value) rfl
  have honKeys : ∀ test : Value → Bool, (∀ key, test key.canonical = test key) →
      v.onKeys test = (v.canonical.onKeys test).map fun test e => test e.canonical := by
    intro test htest
    rw [onKeys, onKeys, canonical]
    dsimp only
    split
    · refine congrArg Except.ok (funext fun e => ?_)
      exact (htest e.key).symm
    · rfl
  cases selector with
  | index index => rw [test, test, size_canonical]; rfl
  | indexRange index count => rw [test, test, size_canonical]; rfl
  | rank rank => rw [test, test, size_canonical]; rfl
  | rankRange rank count => rw [test, test, size_canonical]; rfl
  | value value => exact congrArg Except.ok (funext fun e => (hbeq e.value value).symm)
  | valueList values =>
    exact congrArg Except.ok (funext fun e => (contains_canonical values e.value).symm)
  | valueRange first bound =>
    exact congrArg Except.ok (funext fun e => (inRange_canonical e.value first bound).symm)
  | valueRelRankRange value rank count =>
    rw [test, test, size_canonical, countBelow_canonical]
    rfl
  | key key => exact honKeys (· == key) fun k => hbeq k key
  | keyList keys => exact honKeys keys.contains (contains_canonical keys)
  | keyRange first bound => exact honKeys (inRange · first bound) fun k => inRange_canonical k first bound

/-- Filtering by a test that looks at canonical forms. -/
theorem filter_canonical (elements : List Element) (test : Element → Bool) :
    (elements.filter fun e => test e.canonical).map Element.canonical =
      (elements.map Element.canonical).filter test := by
  rw [List.filter_map]
  rfl

/-- **Selecting commutes with canonical forms.** -/
theorem select_canonical (v : View) (selector : Selector) (inverted : Bool) :
    v.canonical.select selector inverted =
      (v.select selector inverted).map Selection.canonical := by
  rw [select, select, v.test_canonical selector]
  cases v.canonical.test selector with
  | error e => rfl
  | ok test =>
    have hcandidates : (if selector.isRankStyle then v.canonical.byRank else v.canonical.byIndex) =
        (if selector.isRankStyle then v.byRank else v.byIndex).map Element.canonical := by
      split <;> rfl
    have helements := filter_canonical (if selector.isRankStyle then v.byRank else v.byIndex)
      fun e => test e != inverted
    have hothers := filter_canonical v.byIndex fun e => test e == inverted
    refine congrArg Except.ok ?_
    rw [Selection.canonical, helements, hothers, hcandidates]
    rfl

/-! ### Reporting -/

/-- What is shaped is reported in canonical form when its values are. -/
theorem shape_canonical (s : Selection) (values : List Value) :
    s.canonical.shape (values.map Value.canonical) = (s.shape values).canonical := by
  have hhead : (values.map Value.canonical).headD .null = (values.headD .null).canonical := by
    cases values <;> rfl
  rw [Selection.shape, Selection.shape, hhead]
  change (if s.point then _ else _) = _
  split <;> rfl

/-- Places are what they are. -/
theorem places_canonical (s : Selection) (place : Element → Nat)
    (hplace : ∀ e, place e.canonical = place e) :
    s.canonical.places place = (s.places place).canonical := by
  have hplaces : s.canonical.elements.map place = s.elements.map place := by
    rw [Selection.canonical, List.map_map]
    exact List.map_congr_left fun e _ => hplace e
  rw [Selection.places, Selection.places, ← shape_canonical, hplaces, List.map_map]
  rfl

/-- **Reporting commutes with canonical forms.** -/
theorem report_canonical (v : View) (s : Selection) (kind : ReturnKind) :
    s.canonical.report v.canonical kind =
      (s.report v kind).map (·.map OpResult.canonical) := by
  have hsize := v.size_canonical
  have hshape : ∀ value : Element → Value,
      (∀ e, value e.canonical = (value e).canonical) →
        s.canonical.shape (s.canonical.elements.map value) =
          (s.shape (s.elements.map value)).canonical := by
    intro value hvalue
    rw [← shape_canonical, Selection.canonical, List.map_map, List.map_map]
    exact congrArg _ (List.map_congr_left fun e _ => hvalue e)
  have hlength : s.canonical.elements.length = s.elements.length := List.length_map ..
  have hkeyed : v.canonical.keyed = v.keyed := rfl
  cases kind with
  | none => rfl
  | count => simp only [Selection.report, hlength]; rfl
  | index =>
    simp only [Selection.report, places_canonical s (·.index) fun _ => rfl]; rfl
  | reverseIndex =>
    simp only [Selection.report, hsize]
    rw [places_canonical s (fun e => v.size - 1 - e.index) fun _ => rfl]
    rfl
  | rank => simp only [Selection.report, places_canonical s (·.rank) fun _ => rfl]; rfl
  | reverseRank =>
    simp only [Selection.report, hsize]
    rw [places_canonical s (fun e => v.size - 1 - e.rank) fun _ => rfl]
    rfl
  | value => simp only [Selection.report, hshape (·.value) fun _ => rfl]; rfl
  | key =>
    simp only [Selection.report, hkeyed, hshape (·.key) fun _ => rfl]
    split <;> rfl
  | keyValue =>
    have hpairs : s.canonical.elements.map (fun e => (e.key, e.value)) =
        (s.elements.map fun e => (e.key, e.value)).map Value.canonicalEntry := by
      rw [Selection.canonical, List.map_map, List.map_map]
      rfl
    simp only [Selection.report, hkeyed, hpairs]
    split <;> rfl

/-- **Selecting and reporting commute with canonical forms.** -/
theorem selectAndReport_canonical (v : View) (selector : Selector) (returnType : ReturnType) :
    v.canonical.selectAndReport selector returnType =
      (v.selectAndReport selector returnType).map fun (s, answer) =>
        (s.canonical, answer.map OpResult.canonical) := by
  rw [selectAndReport, selectAndReport, select_canonical]
  cases v.select selector returnType.inverted with
  | error e => rfl
  | ok s =>
    change (s.canonical.report v.canonical returnType.kind >>= _) = _
    rw [report_canonical]
    cases hreport : s.report v returnType.kind <;>
      simp [bind, Except.bind, pure, Except.pure, Except.map, hreport]

end View

end RecordStore
