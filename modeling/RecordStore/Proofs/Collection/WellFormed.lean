import RecordStore.Proofs.Selection.Removal
import RecordStore.Proofs.Value.Dict

/-!
# Operations keep values well-formed

A value is well-formed (`RecordStore.Value.WellFormed`) when every map in it is, at any
depth: in lists, among the values of maps and among their keys. This file shows that the
operations on lists and on maps keep it so, if the values that they bring are well-formed
themselves (`RecordStore.ListOp.forall_mem_apply`, `RecordStore.MapOp.wellFormed_apply`).

What an operation leaves in a collection was there before, or was brought by the
operation, or is a null that fills a list up, or is a sum.
-/

namespace RecordStore

/-! ### Well-formed values -/

/-- **A value is well-formed** when every map in it is, at any depth. -/
inductive Value.WellFormed : Value → Prop where
  | null : WellFormed .null
  | integer (n : Int64) : WellFormed (.integer n)
  | double (x : Double) : WellFormed (.double x)
  | string (s : String) : WellFormed (.string s)
  | bytes (b : List UInt8) : WellFormed (.bytes b)
  | list {items : List Value} (hitems : ∀ v ∈ items, WellFormed v) : WellFormed (.list items)
  | map {m : Dict Value} (hm : m.WellFormed) (hkeys : ∀ e ∈ m.entries, WellFormed e.1)
      (hvalues : ∀ e ∈ m.entries, WellFormed e.2) : WellFormed (.map m)
  | geoJson (text : String) : WellFormed (.geoJson text)

namespace Value

theorem wellFormed_list_iff {items : List Value} :
    WellFormed (.list items) ↔ ∀ v ∈ items, WellFormed v := by
  constructor
  · rintro ⟨⟩
    assumption
  · exact .list

theorem wellFormed_map_iff {m : Dict Value} :
    WellFormed (.map m) ↔ m.WellFormed ∧ ∀ e ∈ m.entries, WellFormed e.1 ∧ WellFormed e.2 := by
  constructor
  · intro h
    cases h with
    | map hm hkeys hvalues => exact ⟨hm, fun e he => ⟨hkeys e he, hvalues e he⟩⟩
  · rintro ⟨hm, hentries⟩
    exact .map hm (fun e he => (hentries e he).1) fun e he => (hentries e he).2

/-- A number holds no map. -/
theorem WellFormed.of_isNumeric {v : Value} (h : v.isNumeric) : WellFormed v := by
  cases v with
  | integer n => exact .integer n
  | double x => exact .double x
  | _ => cases h

/-- A sum is a number. -/
theorem isNumeric_of_add {current delta sum : Value} (h : current.add delta = .ok sum) :
    sum.isNumeric := by
  unfold add at h
  split at h
  · split at h
    · cases h
      rfl
    · cases h
  · split at h
    · cases h
      rfl
    · cases h

/-- The negative of a number is a number. -/
theorem isNumeric_of_negate {v w : Value} (h : v.negate = .ok w) : w.isNumeric := by
  unfold negate at h
  split at h
  · split at h
    · cases h
      rfl
    · cases h
  · cases h
    rfl
  · cases h

end Value

/-! ### Operations on lists -/

namespace ListOp

/-- The values that an operation on a list brings. -/
def values : ListOp → List Value
  | append value _ | insert _ value _ | set _ value _ => [value]
  | merge values _ | insertItems _ values _ => values
  | _ => []

variable {P : Value → Prop} {items values : List Value} {policy : ListPolicy}

/-- What a policy lets in was brought. -/
theorem mem_of_accept {accepted : List Value} (h : accept items values policy = .ok (some accepted)) :
    ∀ v ∈ accepted, v ∈ values := by
  have hunique : ∀ values accepted : List Value,
      ∀ result, accept.acceptUnique items policy accepted values = .ok (some result) →
        ∀ v ∈ result, v ∈ accepted ∨ v ∈ values := by
    intro values
    induction values with
    | nil =>
      intro accepted result h v hv
      cases h
      exact Or.inl (List.mem_reverse.mp hv)
    | cons value rest ih =>
      intro accepted result h v hv
      rw [accept.acceptUnique] at h
      split at h
      · split at h
        · split at h
          · exact (ih accepted result h v hv).imp_right (List.mem_cons_of_mem value)
          · cases h
        · cases h
      · rcases ih _ result h v hv with hv | hv
        · rcases List.mem_cons.mp hv with rfl | hv
          · exact Or.inr List.mem_cons_self
          · exact Or.inl hv
        · exact Or.inr (List.mem_cons_of_mem value hv)
  rw [accept] at h
  split at h
  · intro v hv
    exact (hunique values [] accepted h v hv).resolve_left List.not_mem_nil
  · cases h
    exact fun v hv => hv

/-- Filling up adds nulls at most. -/
theorem forall_mem_padTo (hnull : P .null) (hitems : ∀ v ∈ items, P v) (index : Int64)
    (policy : ListPolicy) : ∀ v ∈ (padTo items index policy).state, P v := by
  rw [padTo]
  split
  · exact hitems
  · dsimp only
    split
    · exact hitems
    · split
      · split <;> exact hitems
      · split
        · exact hitems
        · intro v hv
          rcases List.mem_append.mp hv with hv | hv
          · exact hitems v hv
          · rwa [List.eq_of_mem_replicate hv]

theorem forall_mem_addItems (hitems : ∀ v ∈ items, P v) (hvalues : ∀ v ∈ values, P v)
    (policy : ListPolicy) : ∀ v ∈ (addItems items values policy).state, P v := by
  rw [addItems]
  cases haccept : accept items values policy with
  | error e => exact hitems
  | ok accepted =>
    cases accepted with
    | none => exact hitems
    | some accepted =>
      intro v hv
      rcases List.mem_append.mp hv with hv | hv
      · exact hitems v hv
      · exact hvalues v (mem_of_accept haccept v hv)

theorem forall_mem_insertAt (hnull : P .null) (hitems : ∀ v ∈ items, P v)
    (hvalues : ∀ v ∈ values, P v) (index : Int64) (policy : ListPolicy) :
    ∀ v ∈ (insertAt items index values policy).state, P v := by
  rw [insertAt]
  cases haccept : accept items values policy with
  | error e => exact hitems
  | ok accepted =>
    cases accepted with
    | none => exact hitems
    | some accepted =>
      have hpadded := forall_mem_padTo hnull hitems index policy
      dsimp only [Attempt.needing]
      rw [Attempt.andThen]
      cases hresult : (padTo items index policy).result with
      | error e => exact hpadded
      | ok position =>
        cases position with
        | none => exact hpadded
        | some position =>
          intro v hv
          rcases List.mem_append.mp hv with hv | hv
          · rcases List.mem_append.mp hv with hv | hv
            · exact hpadded v (List.mem_of_mem_take hv)
            · exact hvalues v (mem_of_accept haccept v hv)
          · exact hpadded v (List.mem_of_mem_drop hv)

theorem forall_mem_setAt (hnull : P .null) (hitems : ∀ v ∈ items, P v) {value : Value}
    (hvalue : P value) (index : Int64) (policy : ListPolicy) :
    ∀ v ∈ (setAt items index value policy).state, P v := by
  rw [setAt]
  cases haccept : accept items [value] policy with
  | error e => exact hitems
  | ok accepted =>
    rcases accepted with _ | _ | ⟨first, rest⟩
    · exact hitems
    · exact hitems
    · have hfirst : P first := by
        rwa [List.mem_singleton.mp (mem_of_accept haccept first List.mem_cons_self)]
      have hpadded := forall_mem_padTo hnull hitems index policy
      dsimp only [Attempt.needing]
      rw [Attempt.andThen]
      cases hresult : (padTo items index policy).result with
      | error e => exact hpadded
      | ok position =>
        cases position with
        | none => exact hpadded
        | some position =>
          dsimp only [Attempt.needing]
          split
          · intro v hv
            rcases List.mem_or_eq_of_mem_set hv with hv | rfl
            · exact hpadded v hv
            · exact hfirst
          · intro v hv
            rcases List.mem_append.mp hv with hv | hv
            · exact hpadded v hv
            · rwa [List.mem_singleton.mp hv]

theorem mem_of_mem_slice {window : Window} {v : Value} (h : v ∈ slice items window) : v ∈ items :=
  List.mem_of_mem_take (List.mem_of_mem_drop h)

theorem mem_of_mem_outside {window : Window} {v : Value} (h : v ∈ outside items window) :
    v ∈ items := by
  rcases List.mem_append.mp h with h | h
  · exact List.mem_of_mem_take h
  · exact List.mem_of_mem_drop h

/-- **What an operation leaves in a list** was there, or was brought, or is null. -/
theorem forall_mem_apply (hnull : P .null) {op : ListOp} (hitems : ∀ v ∈ items, P v)
    (hvalues : ∀ v ∈ op.values, P v) : ∀ v ∈ (op.apply items).state, P v := by
  cases op with
  | append value policy => exact forall_mem_addItems hitems hvalues policy
  | merge values policy => exact forall_mem_addItems hitems hvalues policy
  | insert index value policy => exact forall_mem_insertAt hnull hitems hvalues index policy
  | insertItems index values policy => exact forall_mem_insertAt hnull hitems hvalues index policy
  | set index value policy =>
    exact forall_mem_setAt hnull hitems (hvalues value List.mem_cons_self) index policy
  | pop index =>
    rw [apply]
    cases valueAt items index with
    | error e => exact hitems
    | ok found => exact fun v hv => hitems v (List.mem_of_mem_eraseIdx hv)
  | popRange index count => exact fun v hv => hitems v (mem_of_mem_outside hv)
  | remove index =>
    rw [apply]
    cases existing items index with
    | error e => exact hitems
    | ok position => exact fun v hv => hitems v (List.mem_of_mem_eraseIdx hv)
  | removeRange index count => exact fun v hv => hitems v (mem_of_mem_outside hv)
  | get index =>
    rw [apply]
    cases valueAt items index <;> exact hitems
  | getRange index count => exact hitems
  | trim index count => exact fun v hv => hitems v (mem_of_mem_slice hv)
  | clear => exact fun v hv => absurd hv List.not_mem_nil
  | size => exact hitems
  | getBy selector returnType =>
    rw [apply]
    cases (View.ofList items).selectAndReport selector returnType <;> exact hitems
  | removeBy selector returnType =>
    rw [apply]
    cases hreport : (View.ofList items).selectAndReport selector returnType with
    | error e => exact hitems
    | ok pair =>
      intro v hv
      have hothers := View.map_others_ofList (View.selectAndReport_eq_ok_iff.mp hreport).1
      have hv : v ∈ pair.1.others.map (·.value) := hv
      rw [hothers] at hv
      exact hitems v ((survivors_sublist items _).subset hv)

end ListOp

/-! ### Operations on maps -/

namespace Value

variable {m : Dict Value}

/-- **Inserting a well-formed value under a well-formed key** keeps a map well-formed. -/
theorem WellFormed.insert (h : WellFormed (.map m)) {key value : Value}
    (hkey : WellFormed key) (hvalue : WellFormed value) :
    WellFormed (.map (m.insert key value)) := by
  obtain ⟨hm, hentries⟩ := wellFormed_map_iff.mp h
  refine wellFormed_map_iff.mpr ⟨hm.insert key value, fun f hf => ?_⟩
  rcases hm.mem_insert hf with hf | ⟨hf, hkey' | ⟨e, he, hkey'⟩⟩
  · exact hentries f hf
  · exact ⟨hkey'.symm ▸ hkey, hf.symm ▸ hvalue⟩
  · exact ⟨hkey' ▸ (hentries e he).1, hf.symm ▸ hvalue⟩

theorem WellFormed.insertMany (h : WellFormed (.map m)) {pairs : List (Value × Value)}
    (hpairs : ∀ e ∈ pairs, WellFormed e.1 ∧ WellFormed e.2) :
    WellFormed (.map (m.insertMany pairs)) := by
  induction pairs generalizing m with
  | nil => exact h
  | cons e pairs ih =>
    obtain ⟨he, hpairs⟩ := List.forall_mem_cons.mp hpairs
    exact ih (h.insert he.1 he.2) hpairs

/-- A well-formed map with entries of a well-formed map is a well-formed value. -/
theorem WellFormed.of_subset (h : WellFormed (.map m)) {n : Dict Value} (hn : n.WellFormed)
    (hsub : n.entries ⊆ m.entries) : WellFormed (.map n) := by
  obtain ⟨-, hentries⟩ := wellFormed_map_iff.mp h
  exact wellFormed_map_iff.mpr ⟨hn, fun e he => hentries e (hsub he)⟩

end Value

namespace MapOp

/-- The values that an operation on a map brings, keys among them. -/
def values : MapOp → List Value
  | put key value _ => [key, value]
  | putItems items _ => items.flatMap fun e => [e.1, e.2]
  | increment key delta _ | decrement key delta _ => [key, delta]
  | _ => []

variable {m : Dict Value} {policy : MapPolicy}

/-- The items that a policy lets in were brought. -/
theorem mem_of_acceptItems {items accepted : List (Value × Value)}
    (h : acceptItems m policy items = .ok (some accepted)) : ∀ e ∈ accepted, e ∈ items := by
  induction items generalizing accepted with
  | nil =>
    cases h
    exact fun e he => he
  | cons item rest ih =>
    rw [acceptItems] at h
    obtain ⟨isIn, -, h⟩ := bind_eq_ok_iff.mp h
    cases isIn with
    | false =>
      rw [if_neg Bool.false_ne_true] at h
      split at h
      · exact fun e he => List.mem_cons_of_mem item (ih h e he)
      · cases h
    | true =>
      rw [if_pos rfl] at h
      obtain ⟨others, hothers, h⟩ := bind_eq_ok_iff.mp h
      obtain ⟨others, rfl, rfl⟩ := Option.map_eq_some_iff.mp (Except.ok.inj h)
      intro e he
      rcases List.mem_cons.mp he with rfl | he
      · exact List.mem_cons_self
      · exact List.mem_cons_of_mem item (ih hothers e he)

theorem wellFormed_addTo (h : Value.WellFormed (.map m)) {key : Value} (hkey : key.WellFormed)
    {amount : Except Error Value} (hamount : ∀ v, amount = .ok v → v.WellFormed) :
    Value.WellFormed (.map (addTo m key amount policy).state) := by
  rw [addTo]
  cases accept m key policy with
  | error e => exact h
  | ok accepted =>
    cases accepted with
    | false => exact h
    | true =>
      cases hamount' : amount with
      | error e => exact h
      | ok v =>
        have hv := hamount v hamount'
        have hsum : ∀ sum, sumAt m key v = .ok sum → sum.WellFormed := by
          intro sum hsum
          rw [sumAt] at hsum
          cases hget : m.get? key with
          | none =>
            rw [hget] at hsum
            cases hsum
            exact hv
          | some current =>
            rw [hget] at hsum
            exact .of_isNumeric (Value.isNumeric_of_add hsum)
        change Value.WellFormed (.map (Attempt.needing m (sumAt m key v) _).state)
        cases hsumAt : sumAt m key v with
        | error e => exact h
        | ok sum => exact h.insert hkey (hsum sum hsumAt)

/-- **An operation on a well-formed map** leaves it well-formed, if what it brings is. -/
theorem wellFormed_apply {op : MapOp} (h : Value.WellFormed (.map m))
    (hvalues : ∀ v ∈ op.values, v.WellFormed) : Value.WellFormed (.map (op.apply m).state) := by
  obtain ⟨hm, hentries⟩ := Value.wellFormed_map_iff.mp h
  cases op with
  | setPolicy policy =>
    exact h.of_subset (hm.setOrder policy.order) (m.setOrder_perm policy.order).subset
  | put key value policy =>
    have hkey := hvalues key List.mem_cons_self
    have hvalue := hvalues value (List.mem_cons_of_mem _ List.mem_cons_self)
    rw [apply]
    cases accept m key policy with
    | error e => exact h
    | ok accepted =>
      cases accepted with
      | false => exact h
      | true => exact h.insert hkey hvalue
  | putItems items policy =>
    rw [apply]
    cases haccept : acceptItems m policy items with
    | error e => exact h
    | ok accepted =>
      cases accepted with
      | none => exact h
      | some accepted =>
        refine h.insertMany fun e he => ?_
        have he := mem_of_acceptItems haccept e he
        have hvalues : ∀ v ∈ items.flatMap fun e => [e.1, e.2], v.WellFormed := hvalues
        exact ⟨hvalues _ (List.mem_flatMap.mpr ⟨e, he, List.mem_cons_self⟩),
          hvalues _ (List.mem_flatMap.mpr ⟨e, he, List.mem_cons_of_mem _ List.mem_cons_self⟩)⟩
  | increment key delta policy =>
    refine wellFormed_addTo h (hvalues key List.mem_cons_self) ?_
    rintro v ⟨⟩
    exact hvalues delta (List.mem_cons_of_mem _ List.mem_cons_self)
  | decrement key delta policy =>
    refine wellFormed_addTo h (hvalues key List.mem_cons_self) fun v hv => ?_
    exact .of_isNumeric (Value.isNumeric_of_negate hv)
  | clear => exact h.of_subset (.clear m) (List.nil_subset _)
  | size => exact h
  | getBy selector returnType =>
    rw [apply]
    cases (View.ofDict m).selectAndReport selector returnType <;> exact h
  | removeBy selector returnType =>
    rw [apply]
    cases (View.ofDict m).selectAndReport selector returnType with
    | error e => exact h
    | ok pair => exact h.of_subset (hm.erasePositions _) (m.erasePositions_sublist _).subset

end MapOp

end RecordStore
