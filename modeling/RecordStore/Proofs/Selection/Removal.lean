import RecordStore.Collection.ListOp
import RecordStore.Collection.MapOp
import RecordStore.Proofs.Attempt
import RecordStore.Proofs.Selection.View

/-!
# Removing what is selected

A selection is made on a view, and a removal happens in the container. This file
shows that the two stay in step: the selected elements stand at different positions
(`RecordStore.View.Faithful.takes_iff`), a removal vacates these positions and no
others, and the survivors keep their order (`RecordStore.survivors`).

Lists and maps are treated at once, as two kinds of container
(`RecordStore.ContainerKind`). What is to be shown of a container is
`RecordStore.ContainerKind.RemovalAgrees`.
-/

namespace RecordStore

variable {α : Type}

/-! ### Survivors -/

/-- **What is left in store** when some positions are vacated. -/
def survivors (storage : List α) (gone : Nat → Bool) : List α :=
  (storage.zipIdx.filter fun e => !gone e.2).map (·.1)

theorem survivors_sublist (storage : List α) (gone : Nat → Bool) :
    (survivors storage gone).Sublist storage := by
  have hsub := (List.filter_sublist (l := storage.zipIdx) (p := fun e => !gone e.2)).map Prod.fst
  rwa [List.zipIdx_map_fst] at hsub

/-- Only positions in store matter. -/
theorem survivors_congr {storage : List α} {gone gone' : Nat → Bool}
    (h : ∀ position < storage.length, gone position = gone' position) :
    survivors storage gone = survivors storage gone' := by
  refine congrArg (List.map Prod.fst) (List.filter_congr fun e he => ?_)
  have hposition : e.2 < storage.length := List.snd_lt_of_mem_zipIdx he
  rw [h e.2 hposition]

/-! ### Selected positions -/

namespace Selection

/-- The positions of the selected elements. -/
def positions (s : Selection) : List Nat := s.elements.map (·.position)

/-- Whether the element at a position is selected. -/
def takes (s : Selection) (position : Nat) : Bool := s.positions.contains position

end Selection

namespace View

variable {v : View} {selector : Selector} {inverted : Bool} {s : Selection}

/-- A selection is what passes the test of its selector. -/
theorem select_eq_ok_iff :
    v.select selector inverted = .ok s ↔
      ∃ test, v.test selector = .ok test ∧
        s = { elements := (if selector.isRankStyle then v.byRank else v.byIndex).filter
                fun e => test e != inverted
              others := v.byIndex.filter fun e => test e == inverted
              point := selector.isPoint && !inverted } := by
  simp only [select, bind_eq_ok_iff]
  constructor
  · rintro ⟨test, htest, hs⟩
    exact ⟨test, htest, (Except.ok.inj hs).symm⟩
  · rintro ⟨test, htest, rfl⟩
    exact ⟨test, htest, rfl⟩

namespace Faithful

variable {storage : List α} {content : Element → α}

/-- **Positions in store belong to one element each.** -/
theorem positions_perm (h : v.Faithful storage content) :
    (v.byIndex.map (·.position)).Perm (List.range storage.length) := by
  have hpositions := h.stored.map Prod.snd
  rw [List.map_map, List.zipIdx_map_snd, ← List.range_eq_range'] at hpositions
  exact hpositions

theorem eq_of_position (h : v.Faithful storage content) {e f : Element} (he : e ∈ v.byIndex)
    (hf : f ∈ v.byIndex) (hposition : e.position = f.position) : e = f :=
  List.inj_on_of_nodup_map (h.positions_perm.nodup_iff.mpr List.nodup_range) he hf hposition

/-- At its position an element is stored. -/
theorem getElem?_position (h : v.Faithful storage content) {e : Element} (he : e ∈ v.byIndex) :
    storage[e.position]? = some (content e) := by
  have hmem := h.stored.mem_iff.mp (List.mem_map_of_mem he)
  exact List.mk_mem_zipIdx_iff_getElem?.mp hmem

/-- Whatever their order, the selected elements are those that pass the test. -/
theorem elements_perm (h : v.Faithful storage content) (test : Element → Bool) (byRank : Bool) :
    ((if byRank then v.byRank else v.byIndex).filter test).Perm (v.byIndex.filter test) := by
  cases byRank with
  | true => exact h.perm.filter test
  | false => exact .refl _

variable {test : Element → Bool}

theorem mem_elements_iff (h : v.Faithful storage content) (htest : v.test selector = .ok test)
    (hs : v.select selector inverted = .ok s) {e : Element} :
    e ∈ s.elements ↔ e ∈ v.byIndex ∧ (test e != inverted) = true := by
  obtain ⟨test', htest', rfl⟩ := select_eq_ok_iff.mp hs
  obtain rfl : test = test' := Except.ok.inj (htest.symm.trans htest')
  rw [(h.elements_perm _ _).mem_iff, List.mem_filter]

/-- **An element is selected by its position** as it is by the test. -/
theorem takes_iff (h : v.Faithful storage content) (htest : v.test selector = .ok test)
    (hs : v.select selector inverted = .ok s) {e : Element} (he : e ∈ v.byIndex) :
    s.takes e.position = (test e != inverted) := by
  rw [Bool.eq_iff_iff, Selection.takes, List.contains_iff_mem, Selection.positions, List.mem_map]
  constructor
  · -- what is selected at the position is the element itself
    rintro ⟨f, hf, hposition⟩
    obtain ⟨hf, hpass⟩ := (h.mem_elements_iff htest hs).mp hf
    rwa [h.eq_of_position he hf hposition.symm]
  · exact fun hpass => ⟨e, (h.mem_elements_iff htest hs).mpr ⟨he, hpass⟩, rfl⟩

/-- The selected elements stand at different positions. -/
theorem nodup_positions (h : v.Faithful storage content)
    (hs : v.select selector inverted = .ok s) : s.positions.Nodup := by
  obtain ⟨test, -, rfl⟩ := select_eq_ok_iff.mp hs
  have hperm := (h.elements_perm (fun e => test e != inverted) selector.isRankStyle).map
    Element.position
  refine hperm.nodup_iff.mpr (List.Nodup.sublist (List.filter_sublist.map _) ?_)
  exact h.positions_perm.nodup_iff.mpr List.nodup_range

/-- The selected elements stand in store. -/
theorem positions_lt (h : v.Faithful storage content)
    (hs : v.select selector inverted = .ok s) : ∀ p ∈ s.positions, p < storage.length := by
  intro p hp
  obtain ⟨e, he, rfl⟩ := List.mem_map.mp hp
  obtain ⟨test, htest, -⟩ := select_eq_ok_iff.mp hs
  have hin := ((h.mem_elements_iff htest hs).mp he).1
  exact (List.getElem?_eq_some_iff.mp (h.getElem?_position hin)).1

/-- The elements that are left are those whose positions are not taken. -/
theorem others_eq (h : v.Faithful storage content) (hs : v.select selector inverted = .ok s) :
    s.others = v.byIndex.filter fun e => !s.takes e.position := by
  obtain ⟨test, htest, hsel⟩ := select_eq_ok_iff.mp hs
  have hothers : s.others = v.byIndex.filter fun e => test e == inverted := by rw [hsel]
  rw [hothers]
  refine List.filter_congr fun e he => ?_
  rw [h.takes_iff htest hs he, bne, Bool.not_not]

/-- **The survivors are the elements that are left.** -/
theorem survivors_perm (h : v.Faithful storage content)
    (hs : v.select selector inverted = .ok s) :
    (survivors storage s.takes).Perm (s.others.map content) := by
  have hkept := (h.stored.symm.filter fun e => !s.takes e.2).map Prod.fst
  rw [List.filter_map, List.map_map] at hkept
  rw [h.others_eq hs]
  exact hkept

/-- A removal and the survivors make up the container. -/
theorem length_survivors (h : v.Faithful storage content)
    (hs : v.select selector inverted = .ok s) :
    (survivors storage s.takes).length + s.elements.length = storage.length := by
  obtain ⟨test, -, hsel⟩ := select_eq_ok_iff.mp hs
  -- both are counted in the view, where the test tells them apart
  have hothers : s.others.length = v.byIndex.countP fun e => test e == inverted := by
    rw [hsel, List.countP_eq_length_filter]
  have helements : s.elements.length = v.byIndex.countP fun e => test e != inverted := by
    rw [hsel, (h.elements_perm _ _).length_eq, List.countP_eq_length_filter]
  have hlength : v.byIndex.length = storage.length := by
    simpa using h.stored.length_eq
  rw [(h.survivors_perm hs).length_eq, List.length_map, hothers, helements, ← hlength]
  rw [List.length_eq_countP_add_countP fun e => test e == inverted]
  exact congrArg _ (List.countP_congr fun e _ => by simp)

/-- **An inverted selection takes the positions that the plain one leaves.** -/
theorem takes_inverted (h : v.Faithful storage content) {s' : Selection}
    (hs : v.select selector false = .ok s) (hs' : v.select selector true = .ok s')
    {position : Nat} (hposition : position < storage.length) :
    s'.takes position = !s.takes position := by
  obtain ⟨test, htest, -⟩ := select_eq_ok_iff.mp hs
  have hmem := h.positions_perm.mem_iff.mpr (List.mem_range.mpr hposition)
  obtain ⟨e, he, rfl⟩ := List.mem_map.mp hmem
  rw [h.takes_iff htest hs he, h.takes_iff htest hs' he]
  simp

end Faithful

/-- The items of a list that are not selected are its survivors, in their order. -/
theorem map_others_ofList {items : List Value}
    (hs : (ofList items).select selector inverted = .ok s) :
    s.others.map (·.value) = survivors items s.takes := by
  rw [(faithful_ofList items).others_eq hs, survivors, ← map_item_byIndex, List.filter_map,
    List.map_map]
  rfl

/-! ### Reports -/

theorem selectAndReport_eq_ok_iff {returnType : ReturnType} {answer : Option OpResult} :
    v.selectAndReport selector returnType = .ok (s, answer) ↔
      v.select selector returnType.inverted = .ok s ∧
        s.report v returnType.kind = .ok answer := by
  simp only [selectAndReport, bind_eq_ok_iff]
  constructor
  · rintro ⟨s', hs, answer', hanswer, hpair⟩
    obtain ⟨rfl, rfl⟩ := Prod.mk.inj (Except.ok.inj hpair)
    exact ⟨hs, hanswer⟩
  · rintro ⟨hs, hanswer⟩
    exact ⟨s, hs, answer, hanswer, rfl⟩

/-- Whether a report fails is a matter of what is asked for, and not of which elements
are selected. -/
theorem report_eq_error_iff (v : View) (s s' : Selection) (kind : ReturnKind) (e : Error) :
    s.report v kind = .error e ↔ s'.report v kind = .error e := by
  cases kind with
  | key => cases hkeyed : v.keyed <;> simp [Selection.report, hkeyed]
  | keyValue => cases hkeyed : v.keyed <;> simp [Selection.report, hkeyed]
  | _ => simp [Selection.report]

theorem select_eq_error_iff {e : Error} :
    v.select selector inverted = .error e ↔ v.test selector = .error e := by
  rw [select, bind_eq_error_iff]
  simp [pure, Except.pure]

theorem selectAndReport_eq_error_iff {returnType : ReturnType} {e : Error} :
    v.selectAndReport selector returnType = .error e ↔
      v.test selector = .error e ∨
        ∃ s, v.select selector returnType.inverted = .ok s ∧
          s.report v returnType.kind = .error e := by
  rw [selectAndReport, bind_eq_error_iff, select_eq_error_iff]
  simp [bind_eq_error_iff, pure, Except.pure]

/-- A selector that selects does so inverted, too. -/
theorem exists_select (hs : v.select selector inverted = .ok s) (inverted' : Bool) :
    ∃ s', v.select selector inverted' = .ok s' := by
  obtain ⟨test, htest, -⟩ := select_eq_ok_iff.mp hs
  exact ⟨_, select_eq_ok_iff.mpr ⟨test, htest, rfl⟩⟩

/-- Inverting a selection does not change whether it fails, nor how. -/
theorem selectAndReport_inverted {kind : ReturnKind} {inverted' : Bool} {e : Error}
    (h : v.selectAndReport selector ⟨kind, inverted⟩ = .error e) :
    v.selectAndReport selector ⟨kind, inverted'⟩ = .error e := by
  rw [selectAndReport_eq_error_iff] at h ⊢
  refine h.imp_right fun ⟨s, hs, hreport⟩ => ?_
  obtain ⟨s', hs'⟩ := exists_select hs inverted'
  exact ⟨s', hs', (report_eq_error_iff v s s' kind e).mp hreport⟩

end View

/-! ### Reads and removals -/

/-- **A kind of container**, as far as selecting and removing go. -/
structure ContainerKind (σ α : Type) where
  /-- What a container stores, in the order in which it stores it. -/
  storage : σ → List α
  /-- The container with something else in store. -/
  restock : σ → List α → σ
  /-- The elements of a container. -/
  view : σ → View
  /-- What is stored for an element. -/
  content : Element → α
  /-- Reports on selected elements. -/
  getBy : σ → Selector → ReturnType → Attempt σ (Option OpResult)
  /-- Reports on selected elements and removes them. -/
  removeBy : σ → Selector → ReturnType → Attempt σ (Option OpResult)

namespace ContainerKind

variable {σ : Type}

/-- Lists. -/
def lists : ContainerKind (List Value) Value where
  storage items := items
  restock _ items := items
  view := View.ofList
  content e := e.value
  getBy items selector returnType := (ListOp.getBy selector returnType).apply items
  removeBy items selector returnType := (ListOp.removeBy selector returnType).apply items

/-- Maps, of any order policy. -/
def dicts : ContainerKind (Dict Value) (Value × Value) where
  storage m := m.entries
  restock m entries := { m with entries }
  view := View.ofDict
  content e := (e.key, e.value)
  getBy m selector returnType := (MapOp.getBy selector returnType).apply m
  removeBy m selector returnType := (MapOp.removeBy selector returnType).apply m

/-- **A removal agrees with the read** of the same selector, on a container. -/
structure RemovalAgrees (kind : ContainerKind σ α) (container : σ) : Prop where
  /-- Reading changes nothing. -/
  reads : ∀ selector returnType, (kind.getBy container selector returnType).state = container
  /-- A removal answers what the read answers. -/
  answers : ∀ selector returnType,
    (kind.removeBy container selector returnType).result =
      (kind.getBy container selector returnType).result
  /-- A removal that fails changes nothing. -/
  failed : ∀ selector returnType error,
    (kind.removeBy container selector returnType).result = .error error →
      (kind.removeBy container selector returnType).state = container
  /-- A removal that succeeds vacates the positions of the selected elements, which are
  different and hold these elements; counting the selection counts the removed. -/
  removed : ∀ selector returnType answer,
    (kind.removeBy container selector returnType).result = .ok answer →
      ∃ selection, (kind.view container).select selector returnType.inverted = .ok selection ∧
        selection.positions.Nodup ∧
        (∀ e ∈ selection.elements, (kind.storage container)[e.position]? = some (kind.content e)) ∧
        (kind.removeBy container selector returnType).state =
          kind.restock container (survivors (kind.storage container) selection.takes) ∧
        (kind.getBy container selector ⟨.count, returnType.inverted⟩).result =
          .ok (some (.count selection.elements.length)) ∧
        (kind.storage (kind.removeBy container selector returnType).state).length +
          selection.elements.length = (kind.storage container).length
  /-- The inverted removal fails as the plain one does. -/
  fails : ∀ selector reported error,
    (kind.removeBy container selector ⟨reported, false⟩).result = .error error ↔
      (kind.removeBy container selector ⟨reported, true⟩).result = .error error
  /-- What is stored at a position survives either the plain removal or the inverted
  one, whatever the two report. -/
  parts : ∀ selector reported reported' answer answer',
    (kind.removeBy container selector ⟨reported, false⟩).result = .ok answer →
    (kind.removeBy container selector ⟨reported', true⟩).result = .ok answer' →
      ∃ gone : Nat → Bool,
        (kind.removeBy container selector ⟨reported, false⟩).state =
            kind.restock container (survivors (kind.storage container) gone) ∧
          (kind.removeBy container selector ⟨reported', true⟩).state =
            kind.restock container (survivors (kind.storage container) fun p => !gone p)

/-- **Reads and removals go through the view** of a container. -/
structure Selects (kind : ContainerKind σ α) (container : σ) : Prop where
  /-- The view shows what is stored. -/
  faithful : (kind.view container).Faithful (kind.storage container) kind.content
  /-- What is put in store is stored. -/
  restocked : ∀ storage, kind.storage (kind.restock container storage) = storage
  /-- A read reports on the selection. -/
  getBy_eq : ∀ selector returnType,
    kind.getBy container selector returnType =
      .needing container ((kind.view container).selectAndReport selector returnType)
        fun (_, answer) => .done answer container
  /-- A removal reports on the selection and vacates its positions. -/
  removeBy_eq : ∀ selector returnType,
    kind.removeBy container selector returnType =
      .needing container ((kind.view container).selectAndReport selector returnType)
        fun (selection, answer) => .done answer
          (kind.restock container (survivors (kind.storage container) selection.takes))

theorem selects_lists (items : List Value) : lists.Selects items where
  faithful := View.faithful_ofList items
  restocked _ := rfl
  getBy_eq _ _ := rfl
  removeBy_eq selector returnType := by
    simp only [lists, ListOp.apply]
    cases h : (View.ofList items).selectAndReport selector returnType with
    | error e => rfl
    | ok pair =>
      have hs := (View.selectAndReport_eq_ok_iff.mp h).1
      exact congrArg (Attempt.done pair.2) (View.map_others_ofList hs)

theorem selects_dicts (m : Dict Value) : dicts.Selects m where
  faithful := View.faithful_ofDict m
  restocked _ := rfl
  getBy_eq _ _ := rfl
  removeBy_eq _ _ := rfl

variable {kind : ContainerKind σ α} {container : σ}

/-- A removal succeeds with a selection and a report. -/
theorem Selects.of_ok (h : kind.Selects container) {selector : Selector}
    {returnType : ReturnType} {answer : Option OpResult}
    (hok : (kind.removeBy container selector returnType).result = .ok answer) :
    ∃ selection, (kind.view container).select selector returnType.inverted = .ok selection ∧
      (kind.removeBy container selector returnType).state =
        kind.restock container (survivors (kind.storage container) selection.takes) := by
  rw [h.removeBy_eq] at hok ⊢
  cases hreport : (kind.view container).selectAndReport selector returnType with
  | error e =>
    rw [hreport] at hok
    cases hok
  | ok pair => exact ⟨pair.1, (View.selectAndReport_eq_ok_iff.mp hreport).1, rfl⟩

theorem Selects.result_eq_error_iff (h : kind.Selects container) {selector : Selector}
    {returnType : ReturnType} {e : Error} :
    (kind.removeBy container selector returnType).result = .error e ↔
      (kind.view container).selectAndReport selector returnType = .error e := by
  rw [h.removeBy_eq]
  cases (kind.view container).selectAndReport selector returnType <;>
    simp [Attempt.needing, Attempt.done, Attempt.fail]

/-- What goes through a faithful view agrees. -/
theorem Selects.removalAgrees (h : kind.Selects container) : kind.RemovalAgrees container where
  reads selector returnType := by
    rw [h.getBy_eq]
    cases (kind.view container).selectAndReport selector returnType <;> rfl
  answers selector returnType := by
    rw [h.getBy_eq, h.removeBy_eq]
    cases (kind.view container).selectAndReport selector returnType <;> rfl
  failed selector returnType error herror := by
    rw [h.removeBy_eq, h.result_eq_error_iff.mp herror]
    rfl
  removed selector returnType answer hok := by
    obtain ⟨selection, hs, hstate⟩ := h.of_ok hok
    refine ⟨selection, hs, h.faithful.nodup_positions hs, fun e he => ?_, hstate, ?_, ?_⟩
    · obtain ⟨test, htest, -⟩ := View.select_eq_ok_iff.mp hs
      exact h.faithful.getElem?_position ((h.faithful.mem_elements_iff htest hs).mp he).1
    · have hcount : (kind.view container).selectAndReport selector ⟨.count, returnType.inverted⟩ =
          .ok (selection, some (.count selection.elements.length)) :=
        View.selectAndReport_eq_ok_iff.mpr ⟨hs, rfl⟩
      rw [h.getBy_eq, hcount]
      rfl
    · rw [hstate, h.restocked]
      exact h.faithful.length_survivors hs
  fails selector reported error := by
    rw [h.result_eq_error_iff, h.result_eq_error_iff]
    exact ⟨View.selectAndReport_inverted, View.selectAndReport_inverted⟩
  parts selector reported reported' answer answer' hok hok' := by
    obtain ⟨selection, hs, hstate⟩ := h.of_ok hok
    obtain ⟨selection', hs', hstate'⟩ := h.of_ok hok'
    refine ⟨selection.takes, hstate, hstate'.trans (congrArg _ ?_)⟩
    exact survivors_congr fun position hposition => h.faithful.takes_inverted hs hs' hposition

/-- **Removing agrees with reading**, on every list and on every map of any order
policy: a removal answers what the read of the same selector answers, removes exactly
what is selected, and leaves what its inversion removes. -/
theorem removal_agrees :
    (∀ items, lists.RemovalAgrees items) ∧ ∀ m, dicts.RemovalAgrees m :=
  ⟨fun items => (selects_lists items).removalAgrees, fun m => (selects_dicts m).removalAgrees⟩

end ContainerKind

end RecordStore
