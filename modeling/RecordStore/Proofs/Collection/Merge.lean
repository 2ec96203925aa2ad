import RecordStore.Collection.ListOp
import RecordStore.Proofs.Attempt

/-!
# Merging is appending one by one

A merge adds several values to a list in one write, and an append adds one. This file shows that
a merge comes to what the appends of its values do, one after another
(`RecordStore.ListOp.merge_as_appends`), and that it takes everything back where one of them
would fail.

The two look at different lists. A merge goes through its values before it touches the list, and
compares each with the list as it was and with those let in so far; an append compares with the
list as the appends before it have left it. What carries the induction is that this list is the
one as it was, followed by the values let in so far.
-/

namespace RecordStore.ListOp

variable {items values accepted : List Value} {policy : ListPolicy} {value : Value}

/-! ### Single appends -/

/-- **Appends values one by one**, up to the first that fails. -/
def appends (policy : ListPolicy) : List Value → List Value → Attempt (List Value) Unit :=
  Attempt.each fun value => (append value policy).apply

/-- A value is added where values may be repeated, or where it is new. -/
theorem apply_append_of_new (h : policy.addUnique = true → items.contains value = false) :
    (append value policy).apply items = .done none (items ++ [value]) := by
  rw [apply, addItems, accept]
  split
  · rename_i hunique
    rw [accept.acceptUnique, h hunique]
    rfl
  · rfl

/-- A value that is denied is left out, or fails. -/
theorem apply_append_of_denied (hunique : policy.addUnique = true)
    (h : items.contains value = true) :
    (append value policy).apply items =
      if policy.noFail then .done none items else .fail (.elementExists (.item value)) items := by
  rw [apply, addItems, accept, if_pos hunique, accept.acceptUnique, h, Bool.true_or, if_pos rfl]
  split
  · split
    · exact congrArg (Attempt.done none) (List.append_nil items)
    · rfl
  · rfl

theorem appends_cons_of_new (h : policy.addUnique = true → items.contains value = false) :
    appends policy (value :: values) items = appends policy values (items ++ [value]) :=
  Attempt.each_cons_of_done (apply_append_of_new h)

theorem appends_cons_of_leftOut (hunique : policy.addUnique = true)
    (hnoFail : policy.noFail = true) (h : items.contains value = true) :
    appends policy (value :: values) items = appends policy values items :=
  Attempt.each_cons_of_done ((apply_append_of_denied hunique h).trans (if_pos hnoFail))

theorem appends_cons_of_failing (hunique : policy.addUnique = true)
    (hnoFail : policy.noFail ≠ true) (h : items.contains value = true) :
    appends policy (value :: values) items = .fail (.elementExists (.item value)) items :=
  Attempt.each_cons_of_fail ((apply_append_of_denied hunique h).trans (if_neg hnoFail))

/-! ### One after another -/

/-- Where values may be repeated, all of them are added. -/
theorem appends_of_repeatable (hunique : policy.addUnique = false) :
    appends policy values items = .done () (items ++ values) := by
  induction values generalizing items with
  | nil => exact congrArg (Attempt.done ()) (List.append_nil items).symm
  | cons value rest ih =>
    have hnew : policy.addUnique = true → items.contains value = false := fun h => by
      rw [hunique] at h
      cases h
    rw [appends_cons_of_new hnew, ih, List.append_assoc]
    rfl

/-- Appends that leave out what is denied do not fail. -/
theorem appends_of_noFail (hunique : policy.addUnique = true) (hnoFail : policy.noFail = true) :
    (appends policy values items).result = .ok () := by
  induction values generalizing items with
  | nil => rfl
  | cons value rest ih =>
    rcases hold : items.contains value with _ | _
    · rw [appends_cons_of_new fun _ => hold]
      exact ih
    · rw [appends_cons_of_leftOut hunique hnoFail hold]
      exact ih

/-- **Going through the values is appending them**, to the list followed by those let in so far.
It is assumed that a denied value does not skip the write as a whole. -/
theorem appends_acceptUnique (hunique : policy.addUnique = true)
    (hskip : policy.noFail = true → policy.keepRest = true) :
    (appends policy values (items ++ accepted.reverse)).orBack items =
      .needing items (accept.acceptUnique items policy accepted values) fun letIn =>
        .done () (items ++ letIn.getD []) := by
  induction values generalizing accepted with
  | nil => rfl
  | cons value rest ih =>
    have hcontains : (items ++ accepted.reverse).contains value =
        (items.contains value || accepted.contains value) := by
      rw [List.contains_append, List.contains_reverse]
    rw [accept.acceptUnique, ← hcontains]
    split
    · rename_i hold
      split
      · rename_i hnoFail
        rw [appends_cons_of_leftOut hunique hnoFail hold, if_pos (hskip hnoFail)]
        exact ih
      · rename_i hnoFail
        rw [appends_cons_of_failing hunique hnoFail hold]
        rfl
    · rename_i hnew
      rw [appends_cons_of_new fun _ => eq_false_of_ne_true hnew, List.append_assoc,
        ← List.reverse_cons]
      exact ih

/-! ### Merging -/

/-- Nothing let in and no list at all are the same at the end of a list. -/
theorem addItems_eq (items values : List Value) (policy : ListPolicy) :
    addItems items values policy =
      .needing items (accept items values policy) fun letIn =>
        .done () (items ++ letIn.getD []) := by
  rw [addItems]
  refine congrArg _ (funext fun letIn => ?_)
  rcases letIn with _ | accepted
  · exact congrArg (Attempt.done ()) (List.append_nil items).symm
  · rfl

/-- **A write to the end is its appends**, taken back if one fails. -/
theorem addItems_eq_appends (hunique : policy.addUnique = true)
    (hskip : policy.noFail = true → policy.keepRest = true) :
    addItems items values policy = (appends policy values items).orBack items := by
  have happends : (appends policy values (items ++ [].reverse)).orBack items = _ :=
    appends_acceptUnique hunique hskip
  rw [List.reverse_nil, List.append_nil] at happends
  rw [addItems_eq, accept, if_pos hunique, happends]

/-- **A write that is skipped as a whole** lets in what the strict write lets in, and nothing
where that fails. -/
theorem acceptUnique_of_skipping (hnoFail : policy.noFail = true)
    (hkeepRest : policy.keepRest = false) :
    accept.acceptUnique items policy accepted values =
      match accept.acceptUnique items { policy with noFail := false } accepted values with
      | .ok letIn => .ok letIn
      | .error _ => .ok none := by
  induction values generalizing accepted with
  | nil => rfl
  | cons value rest ih =>
    rw [accept.acceptUnique, accept.acceptUnique]
    by_cases hold : (items.contains value || accepted.contains value) = true
    · rw [if_pos hold, if_pos hold, if_pos hnoFail, hkeepRest]
      rfl
    · rw [if_neg hold, if_neg hold]
      exact ih

theorem addItems_of_skipping (hunique : policy.addUnique = true) (hnoFail : policy.noFail = true)
    (hkeepRest : policy.keepRest = false) :
    addItems items values policy =
      .done () (addItems items values { policy with noFail := false }).state := by
  rw [addItems_eq, addItems_eq, accept, accept, if_pos hunique, if_pos hunique,
    acceptUnique_of_skipping hnoFail hkeepRest]
  rcases accept.acceptUnique items { policy with noFail := false } [] values with e | letIn
  · exact congrArg (Attempt.done ()) (List.append_nil items)
  · rfl

/-- **A merge is a sequence of appends.** Where values may be repeated it adds all of them. Where
they are to be unique, it comes to what the appends of its values come to one after another, and
leaves the list as it was if one of them fails. A merge that is skipped as a whole when a value
is denied leaves what the appends leave that fail then, or else the list as it was. -/
theorem merge_as_appends (items values : List Value) (policy : ListPolicy) :
    let merged := (merge values policy).apply items
    let run := appends policy values items
    let strict := appends { policy with noFail := false } values items
    (policy.addUnique = false →
        merged = .done none (items ++ values) ∧ run = .done () (items ++ values)) ∧
      (policy.addUnique = true → policy.noFail = true → policy.keepRest = true →
        merged = .done none run.state ∧ run.result = .ok ()) ∧
      (policy.addUnique = true → policy.noFail = false →
        merged = (run.orBack items).map fun _ => none) ∧
      (policy.addUnique = true → policy.noFail = true → policy.keepRest = false →
        merged = .done none (strict.orBack items).state) := by
  intro merged run strict
  refine ⟨fun hunique => ⟨?_, appends_of_repeatable hunique⟩, fun hunique hnoFail hkeepRest => ?_,
    fun hunique hnoFail => ?_, fun hunique hnoFail hkeepRest => ?_⟩
  · have haccept : accept items values policy = .ok (some values) := by
      rw [accept, hunique]
      rfl
    simp only [merged, apply, addItems, haccept]
    rfl
  · have hrun : run.result = .ok () := appends_of_noFail hunique hnoFail
    refine ⟨?_, hrun⟩
    have hmerged : addItems items values policy = run.orBack items :=
      addItems_eq_appends hunique fun _ => hkeepRest
    change (addItems items values policy).map (fun _ => none) = _
    rw [hmerged, Attempt.orBack, hrun]
    rfl
  · refine congrArg (·.map fun _ => none) (addItems_eq_appends hunique fun h => ?_)
    rw [hnoFail] at h
    cases h
  · have hstrict : addItems items values { policy with noFail := false } = strict.orBack items :=
      addItems_eq_appends hunique nofun
    rw [← hstrict]
    exact congrArg (·.map fun _ => none) (addItems_of_skipping hunique hnoFail hkeepRest)

/-- A value that comes twice is added once, fails the merge, or has it skipped. -/
theorem merge_as_appends_twice :
    let values : List Value := [.integer 2, .integer 2, .integer 3]
    let unique : ListPolicy := { addUnique := true }
    let skipping : ListPolicy := { addUnique := true, noFail := true }
    let leavingOut : ListPolicy := { addUnique := true, noFail := true, keepRest := true }
    (merge values unique).apply [.integer 1] =
        .fail (.elementExists (.item (.integer 2))) [.integer 1] ∧
      (merge values skipping).apply [.integer 1] = .done none [.integer 1] ∧
      (merge values leavingOut).apply [.integer 1] =
        .done none [.integer 1, .integer 2, .integer 3] := by
  intro values unique skipping leavingOut
  obtain ⟨-, -, hunique, -⟩ := merge_as_appends [.integer 1] values unique
  obtain ⟨-, -, -, hskipping⟩ := merge_as_appends [.integer 1] values skipping
  obtain ⟨-, hleavingOut, -⟩ := merge_as_appends [.integer 1] values leavingOut
  exact ⟨hunique rfl rfl, hskipping rfl rfl rfl, (hleavingOut rfl rfl rfl).1⟩

end RecordStore.ListOp
