import RecordStore.Proofs.Collection.WellFormed

/-!
# Writes of which nothing comes in

A write into a list may ask that its values are not in the list yet, and that those that are
be left out instead of failing it. If every one of its values is there, nothing is left to be
written. This file says what such a write does to the list
(`RecordStore.ListOp.apply_of_denied`).

It changes nothing, with one exception. A write that leaves out single values goes on with
those that remain, even if there are none; and one that puts values in front of a position goes
on by filling the list up as far as that position (`RecordStore.ListOp.FillsUp`). It then adds
nulls, or fails if there would be too many of them. Replacing a value is not like that: without
a value it stops before the list is filled up.
-/

namespace RecordStore

namespace ListOp

variable {items values accepted : List Value} {policy : ListPolicy} {index : Int64} {op : ListOp}

/-! ### What is let in -/

/-- Values that are in the list are left out one by one. -/
theorem acceptUnique_of_keepRest (hnoFail : policy.noFail = true)
    (hkeepRest : policy.keepRest = true) (hdenied : ∀ v ∈ values, items.contains v = true) :
    accept.acceptUnique items policy accepted values = .ok (some accepted.reverse) := by
  induction values with
  | nil => rfl
  | cons value rest ih =>
    obtain ⟨hvalue, hrest⟩ := List.forall_mem_cons.mp hdenied
    rw [accept.acceptUnique, hvalue, Bool.true_or, if_pos rfl, if_pos hnoFail, if_pos hkeepRest]
    exact ih hrest

/-- **Of values that are in the list** none is let in: each is left out, or the first of them
has the write skipped. -/
theorem accept_of_denied (hunique : policy.addUnique = true) (hnoFail : policy.noFail = true)
    (hvalues : values ≠ []) (hdenied : ∀ v ∈ values, items.contains v = true) :
    accept items values policy = .ok (if policy.keepRest then some [] else none) := by
  rw [accept, if_pos hunique]
  cases hkeepRest : policy.keepRest with
  | true => exact acceptUnique_of_keepRest hnoFail hkeepRest hdenied
  | false =>
    obtain ⟨value, rest, rfl⟩ := List.exists_cons_of_ne_nil hvalues
    have hvalue := hdenied value List.mem_cons_self
    rw [accept.acceptUnique, hvalue, Bool.true_or, if_pos rfl, if_pos hnoFail, hkeepRest]
    rfl

/-! ### What is left to do -/

/-- A position of the list, or its end, needs no filling up. -/
theorem padTo_of_le (hindex : 0 ≤ index.toInt) (hle : index.toInt ≤ items.length) :
    padTo items index policy = .done (some index.toInt.toNat) items := by
  have hposition : index.toInt.toNat ≤ items.length := by omega
  rw [padTo, if_neg (Int.not_lt.mpr hindex)]
  exact if_pos hposition

/-- A position behind the end is passed over where that is not allowed but does not fail. -/
theorem padTo_of_bounded (hbounded : policy.insertBounded = true) (hnoFail : policy.noFail = true)
    (hlt : (items.length : Int) < index.toInt) : padTo items index policy = .done none items := by
  have hindex : ¬index.toInt < 0 := by omega
  have hposition : ¬index.toInt.toNat ≤ items.length := by omega
  rw [padTo, if_neg hindex]
  dsimp only
  rw [if_neg hposition, if_pos hbounded, if_pos hnoFail]

/-- **Filling up** as far as a position behind the end. -/
theorem padTo_of_lt (hbounded : policy.insertBounded = false)
    (hlt : (items.length : Int) < index.toInt) :
    padTo items index policy =
      if index.toInt.toNat - items.length > maxPadding then
        .fail (.param (.paddingTooLong index.toInt.toNat items.length)) items
      else .done (some index.toInt.toNat)
        (items ++ List.replicate (index.toInt.toNat - items.length) .null) := by
  have hindex : ¬index.toInt < 0 := by omega
  have hposition : ¬index.toInt.toNat ≤ items.length := by omega
  rw [padTo, if_neg hindex]
  dsimp only
  rw [if_neg hposition, hbounded]
  rfl

/-- **Putting no value in front of a position** is filling up. -/
theorem insertAt_of_accept_nil (haccept : accept items values policy = .ok (some [])) :
    insertAt items index values policy = (padTo items index policy).map fun _ => () := by
  rw [insertAt, haccept]
  obtain ⟨result, padded⟩ := padTo items index policy
  rcases result with _ | _ | position
  · rfl
  · rfl
  · change Attempt.done () (padded.take position ++ [] ++ padded.drop position) = _
    rw [List.append_nil, List.take_append_drop]
    rfl

/-! ### Writes to a position -/

/-- **A write without a value still fills up**: it goes on without the values that are denied,
it may fill the list up, and its position is behind the end. -/
structure FillsUpTo (items : List Value) (index : Int64) (policy : ListPolicy) : Prop where
  /-- Single values are left out. -/
  keepRest : policy.keepRest = true
  /-- Positions behind the end are filled up to. -/
  unbounded : policy.insertBounded = false
  /-- The position is behind the end. -/
  length_lt : (items.length : Int) < index.toInt

/-- What filling up as far as a position behind the end comes to. -/
def filledUp (items : List Value) (index : Int64) : Attempt (List Value) (Option OpResult) :=
  if index.toInt.toNat - items.length > maxPadding then
    .fail (.param (.paddingTooLong index.toInt.toNat items.length)) items
  else .done none (items ++ List.replicate (index.toInt.toNat - items.length) .null)

/-- Filling up changes the list, or fails. -/
theorem FillsUpTo.filledUp_ne (h : FillsUpTo items index policy) :
    filledUp items index ≠ .done none items := by
  have hlt := h.length_lt
  rw [filledUp]
  split
  · exact nofun
  · intro hsame
    have hlength := congrArg (List.length ∘ Attempt.state) hsame
    simp only [Function.comp_apply, Attempt.done, List.length_append,
      List.length_replicate] at hlength
    omega

theorem FillsUpTo.insertAt_eq (h : FillsUpTo items index policy)
    (haccept : accept items values policy = .ok (if policy.keepRest then some [] else none)) :
    (insertAt items index values policy).map (fun _ => none) = filledUp items index := by
  rw [if_pos h.keepRest] at haccept
  rw [insertAt_of_accept_nil haccept, padTo_of_lt h.unbounded h.length_lt, filledUp]
  split <;> rfl

/-- A write without a value that does not fill up changes nothing. -/
theorem insertAt_of_not_fillsUpTo (hnoFail : policy.noFail = true) (hindex : 0 ≤ index.toInt)
    (haccept : accept items values policy = .ok (if policy.keepRest then some [] else none))
    (hfills : ¬FillsUpTo items index policy) :
    insertAt items index values policy = .done () items := by
  cases hkeepRest : policy.keepRest with
  | false =>
    rw [insertAt, haccept, hkeepRest]
    rfl
  | true =>
    rw [if_pos hkeepRest] at haccept
    rw [insertAt_of_accept_nil haccept]
    by_cases hlt : (items.length : Int) < index.toInt
    · have hbounded : policy.insertBounded = true := by
        by_contra hne
        exact hfills ⟨hkeepRest, eq_false_of_ne_true hne, hlt⟩
      rw [padTo_of_bounded hbounded hnoFail hlt]
      rfl
    · rw [padTo_of_le hindex (Int.not_lt.mp hlt)]
      rfl

/-! ### Denied writes -/

/-- The policy of a write of values. -/
def policy? : ListOp → Option ListPolicy
  | append _ policy | merge _ policy | insert _ _ policy | insertItems _ _ policy
  | set _ _ policy => some policy
  | _ => none

/-- The position that a write of values goes to, if it is not the end. -/
def position? : ListOp → Option Int64
  | insert index _ _ | insertItems index _ _ | set index _ _ => some index
  | _ => none

/-- **A write of which nothing comes in**: its policy asks for values that are not in the list
and leaves out the others, and all of its values are in the list. -/
structure Denied (items : List Value) (policy : ListPolicy) (op : ListOp) : Prop where
  /-- The policy is that of the write. -/
  policy_eq : op.policy? = some policy
  /-- What is in the list is denied. -/
  addUnique : policy.addUnique = true
  /-- What is denied is left out. -/
  noFail : policy.noFail = true
  /-- The position is not negative. -/
  position_nonneg : ∀ index ∈ op.position?, 0 ≤ index.toInt
  /-- A write to a position brings a value. -/
  values_ne_nil : op.position?.isSome = true → op.values ≠ []
  /-- All values are in the list. -/
  contained : ∀ v ∈ op.values, items.contains v = true

/-- **A write fills up without a value** if it puts values in front of a position; one that
replaces a value does not. -/
def FillsUp (items : List Value) : ListOp → Prop
  | insert index _ policy | insertItems index _ policy => FillsUpTo items index policy
  | _ => False

/-- A write to the end of a list. -/
theorem addItems_of_denied (hunique : policy.addUnique = true) (hnoFail : policy.noFail = true)
    (hdenied : ∀ v ∈ values, items.contains v = true) :
    addItems items values policy = .done () items := by
  by_cases hvalues : values = []
  · subst hvalues
    rw [addItems, accept, if_pos hunique]
    exact congrArg (Attempt.done ()) (List.append_nil items)
  · rw [addItems, accept_of_denied hunique hnoFail hvalues hdenied]
    cases policy.keepRest with
    | true => exact congrArg (Attempt.done ()) (List.append_nil items)
    | false => rfl

/-- Replacing a value stops before it fills up. -/
theorem setAt_of_denied {value : Value}
    (haccept : accept items [value] policy = .ok (if policy.keepRest then some [] else none)) :
    setAt items index value policy = .done () items := by
  rw [setAt, haccept]
  cases policy.keepRest <;> rfl

/-- **What a denied write comes to**: it fills up, or it changes nothing. -/
theorem Denied.apply_cases (h : op.Denied items policy) :
    (op.FillsUp items → ∀ index ∈ op.position?, op.apply items = filledUp items index) ∧
      (¬op.FillsUp items → op.apply items = .done none items) := by
  obtain ⟨hpolicy, hunique, hnoFail, hposition, hvalues, hdenied⟩ := h
  cases op with
  | append value _ | merge values _ =>
    obtain rfl := Option.some_inj.mp hpolicy
    refine ⟨False.elim, fun _ => ?_⟩
    exact congrArg (·.map fun _ => none) (addItems_of_denied hunique hnoFail hdenied)
  | insert index value _ | insertItems index values _ =>
    obtain rfl := Option.some_inj.mp hpolicy
    have haccept := accept_of_denied hunique hnoFail (hvalues rfl) hdenied
    constructor
    · rintro hfills _ ⟨⟩
      exact hfills.insertAt_eq haccept
    · intro hfills
      exact congrArg (·.map fun _ => none)
        (insertAt_of_not_fillsUpTo hnoFail (hposition index rfl) haccept hfills)
  | set index value _ =>
    obtain rfl := Option.some_inj.mp hpolicy
    have haccept := accept_of_denied hunique hnoFail (hvalues rfl) hdenied
    refine ⟨False.elim, fun _ => ?_⟩
    exact congrArg (·.map fun _ => none) (setAt_of_denied haccept)
  | _ => cases hpolicy

theorem FillsUp.apply_ne (hfills : op.FillsUp items) (h : op.Denied items policy) :
    op.apply items ≠ .done none items := by
  cases op with
  | insert index _ _ | insertItems index _ _ =>
    rw [h.apply_cases.1 hfills index rfl]
    exact FillsUpTo.filledUp_ne hfills
  | _ => exact hfills.elim

/-- **A write of which nothing comes in** changes nothing and answers nothing, unless it puts
values in front of a position behind the end, leaves out single ones, and may fill up; then it
fills up, or fails as that does. -/
theorem apply_of_denied (h : op.Denied items policy) :
    (op.apply items = .done none items ↔ ¬op.FillsUp items) ∧
      (op.FillsUp items → ∀ index ∈ op.position?, op.apply items = filledUp items index) :=
  ⟨⟨fun hsame hfills => hfills.apply_ne h hsame, h.apply_cases.2⟩, h.apply_cases.1⟩

/-- A denied value replaces nothing, even behind the end, and two denied values that are put in
front of a position of the list leave it as it is. -/
theorem apply_of_denied_set_and_insert :
    let items : List Value := [.integer 1, .string "a"]
    let policy : ListPolicy := { addUnique := true, noFail := true, keepRest := true }
    let set : ListOp := .set 9 (.integer 1) policy
    let insert : ListOp := .insertItems 1 [.string "a", .integer 1] policy
    set.Denied items policy ∧ set.apply items = .done none items ∧
      insert.Denied items policy ∧ insert.apply items = .done none items := by
  intro items policy set insert
  have hset : set.Denied items policy :=
    ⟨rfl, rfl, rfl, by rintro _ ⟨⟩; decide, fun _ => nofun, by decide⟩
  have hinsert : insert.Denied items policy :=
    ⟨rfl, rfl, rfl, by rintro _ ⟨⟩; decide, fun _ => nofun, by decide⟩
  refine ⟨hset, (apply_of_denied hset).1.mpr id, hinsert, (apply_of_denied hinsert).1.mpr ?_⟩
  intro hfills
  exact absurd hfills.length_lt (by decide)

/-- **A value that is denied leaves nulls behind**: it is in the list, is to be left out, and is
put in front of a position behind the end. -/
theorem denied_insert_adds_nulls :
    let policy : ListPolicy := { addUnique := true, noFail := true, keepRest := true }
    let insert : ListOp := .insert 3 (.integer 1) policy
    insert.Denied [.integer 1] policy ∧
      insert.apply [.integer 1] = .done none [.integer 1, .null, .null] := by
  refine ⟨⟨rfl, rfl, rfl, by rintro _ ⟨⟩; decide, fun _ => nofun, by decide⟩, ?_⟩
  rfl

end ListOp

end RecordStore
