import Mathlib.Data.List.Forall2
import RecordStore.Collection.MapOp
import RecordStore.Proofs.Selection.Canonical
import RecordStore.Proofs.Selection.Removal
import RecordStore.Proofs.Value.Lookup

/-!
# The order policy of a map does not show

A map that is ordered by key stores its entries in the order of the keys and looks keys
up by halving; any other map stores them as they come and looks keys up one by one. This
file shows that no operation tells the two apart: operations that are applied one after
another to two equal maps, whatever their order policies, answer the same at every step
and leave equal maps behind (`RecordStore.MapOp.run_agrees`).

The relation that carries the induction is that two well-formed maps have the same
entries in their canonical forms, up to their order (`RecordStore.Dict.Same`). Whatever
an operation asks of a map – whether a key is present, the value at a key, what a
selector picks – is the same for two such maps, and so is what it does to their entries.
-/

namespace RecordStore

/-! ### Equal answers -/

/-- Lists are equal when a map that tells unequal members apart makes the same of them. -/
theorem list_beq_iff_map_eq {α β : Type} [BEq α] {f : α → β}
    (hf : ∀ a b, (a == b) = true ↔ f a = f b) (as bs : List α) :
    (as == bs) = true ↔ as.map f = bs.map f := by
  induction as generalizing bs with
  | nil => cases bs <;> simp
  | cons a as ih =>
    cases bs with
    | nil => simp
    | cons b bs =>
      rw [List.cons_beq_cons, Bool.and_eq_true, hf, ih, List.map_cons, List.map_cons,
        List.cons_eq_cons]

theorem Value.beq_entry_iff {e f : Value × Value} :
    (e == f) = true ↔ Value.canonicalEntry e = Value.canonicalEntry f := by
  change (e.1 == f.1 && e.2 == f.2) = true ↔ _
  rw [Bool.and_eq_true, beq_iff_canonical_eq, beq_iff_canonical_eq]
  exact (iff_of_eq (Prod.mk.injEq ..)).symm

/-- **Answers are equal** when they have the same canonical form. -/
theorem OpResult.beq_iff_canonical_eq {a b : OpResult} :
    (a == b) = true ↔ a.canonical = b.canonical := by
  cases a with
  | scalar v =>
    cases b with
    | scalar w => exact Value.beq_iff_canonical_eq.trans (iff_of_eq (scalar.injEq ..)).symm
    | _ => exact iff_of_false Bool.false_ne_true fun h => nomatch h
  | list vs =>
    cases b with
    | list ws =>
      refine Iff.trans ?_ (iff_of_eq (list.injEq ..)).symm
      exact list_beq_iff_map_eq (fun _ _ => Value.beq_iff_canonical_eq) vs ws
    | _ => exact iff_of_false Bool.false_ne_true fun h => nomatch h
  | pairs es =>
    cases b with
    | pairs fs =>
      refine Iff.trans ?_ (iff_of_eq (pairs.injEq ..)).symm
      exact list_beq_iff_map_eq (fun _ _ => Value.beq_entry_iff) es fs
    | _ => exact iff_of_false Bool.false_ne_true fun h => nomatch h
  | count m =>
    cases b with
    | count n => exact (beq_iff_eq (a := m)).trans (iff_of_eq (count.injEq ..)).symm
    | _ => exact iff_of_false Bool.false_ne_true fun h => nomatch h

/-! ### Maps with the same entries -/

namespace Dict

variable {m n : Dict Value}

/-- **Two maps have the same entries**, whatever their order policies. -/
structure Same (m n : Dict Value) : Prop where
  /-- The first map is well-formed. -/
  left : m.WellFormed
  /-- The second map is well-formed. -/
  right : n.WellFormed
  /-- In their canonical forms the entries are the same, up to their order. -/
  perm : m.image.Perm n.image

namespace Same

/-- Maps with the same entries are equal. -/
theorem beq (h : m.Same n) : (m == n) = true :=
  (h.left.beq_iff_perm h.right).mpr h.perm

theorem size_eq (h : m.Same n) : m.size = n.size := by
  have hlength := h.perm.length_eq
  rwa [image, image, List.length_map, List.length_map] at hlength

/-- A key is present in both maps or in neither. -/
theorem contains_eq (h : m.Same n) (key : Value) : m.contains key = n.contains key := by
  rw [Bool.eq_iff_iff, h.left.contains_iff_image, h.right.contains_iff_image]
  exact (h.perm.map _).mem_iff

/-- At a key stand equal values. -/
theorem map_get?_eq (h : m.Same n) (key : Value) :
    (m.get? key).map Value.canonical = (n.get? key).map Value.canonical :=
  (h.left.beq_iff_get? h.right).mp h.beq key

/-- A selector sees the same elements. -/
theorem view_eq (h : m.Same n) :
    (View.ofDict m).canonical = (View.ofDict n).canonical := by
  rw [View.canonical_ofDict, View.canonical_ofDict, h.left.sortedImage_eq h.right h.perm]

theorem insert (h : m.Same n) (key value : Value) :
    (m.insert key value).Same (n.insert key value) where
  left := h.left.insert key value
  right := h.right.insert key value
  perm :=
    have hothers := (h.perm.filter fun e => !(e.1 == key)).cons (Value.canonicalEntry (key, value))
    (h.left.image_insert key value).trans (hothers.trans (h.right.image_insert key value).symm)

theorem insertMany (h : m.Same n) (pairs : List (Value × Value)) :
    (m.insertMany pairs).Same (n.insertMany pairs) := by
  induction pairs generalizing m n with
  | nil => exact h
  | cons e pairs ih => exact ih (h.insert e.1 e.2)

theorem clear (m n : Dict Value) : m.clear.Same n.clear where
  left := .clear m
  right := .clear n
  perm := .refl _

theorem setOrder (h : m.Same n) (order : MapOrder) :
    (m.setOrder order).Same (n.setOrder order) where
  left := h.left.setOrder order
  right := h.right.setOrder order
  perm := ((m.setOrder_perm order).map _).trans (h.perm.trans ((n.setOrder_perm order).map _).symm)

end Same

/-- What is left of a map when selected entries are removed are the elements that were
not selected, in their canonical forms. -/
theorem image_erasePositions_perm {selector : Selector} {inverted : Bool} {s : Selection}
    (hs : (View.ofDict m).select selector inverted = .ok s) :
    (m.erasePositions s.positions).image.Perm
      (s.canonical.others.map fun e => (e.key, e.value)) := by
  have hkept := ((View.faithful_ofDict m).survivors_perm hs).map Value.canonicalEntry
  rw [List.map_map] at hkept
  rw [Selection.canonical, List.map_map]
  exact hkept

/-- **Removing what equal selections pick** leaves the same entries. -/
theorem Same.erasePositions (h : m.Same n) {selector : Selector} {inverted : Bool}
    {s t : Selection} (hs : (View.ofDict m).select selector inverted = .ok s)
    (ht : (View.ofDict n).select selector inverted = .ok t) (heq : s.canonical = t.canonical) :
    (m.erasePositions s.positions).Same (n.erasePositions t.positions) where
  left := h.left.erasePositions _
  right := h.right.erasePositions _
  perm := by
    have hleft := image_erasePositions_perm hs
    rw [heq] at hleft
    exact hleft.trans (image_erasePositions_perm ht).symm

end Dict

/-! ### Single operations -/

namespace MapOp

variable {m n : Dict Value}

/-- **Two results agree**: they are equal answers, or the same error. -/
def Agree : Except Error (Option OpResult) → Except Error (Option OpResult) → Prop
  | .ok a, .ok b => (a == b) = true
  | .error e, .error f => e = f
  | _, _ => False

theorem Agree.refl (r : Except Error (Option OpResult)) : Agree r r := by
  rcases r with e | _ | a
  · rfl
  · rfl
  · exact OpResult.beq_iff_canonical_eq.mpr rfl

/-- Answers that have the same canonical form agree. -/
theorem Agree.of_canonical {a b : Option OpResult}
    (h : a.map OpResult.canonical = b.map OpResult.canonical) : Agree (.ok a) (.ok b) := by
  cases a with
  | none =>
    cases b with
    | none => rfl
    | some b => cases h
  | some a =>
    cases b with
    | none => cases h
    | some b => exact OpResult.beq_iff_canonical_eq.mpr (Option.some.inj h)

/-- **Two attempts agree**: their results do, and the maps afterwards have the same
entries. -/
structure SameStep (a b : Attempt (Dict Value) (Option OpResult)) : Prop where
  /-- The answers are equal, or the errors the same. -/
  agree : Agree a.result b.result
  /-- The maps have the same entries. -/
  same : a.state.Same b.state

theorem SameStep.done (answer : Option OpResult) (h : m.Same n) :
    SameStep (.done answer m) (.done answer n) where
  agree := .refl _
  same := h

theorem SameStep.fail (error : Error) (h : m.Same n) :
    SameStep (.fail error m) (.fail error n) where
  agree := .refl _
  same := h

/-- Attempts that need the same agree when they go on to agree. -/
theorem SameStep.needing {α : Type} (h : m.Same n) {need need' : Except Error α}
    (hneed : need = need') {next next' : α → Attempt (Dict Value) (Option OpResult)}
    (hnext : ∀ a, SameStep (next a) (next' a)) :
    SameStep (.needing m need next) (.needing n need' next') := by
  subst hneed
  cases need with
  | error e => exact .fail e h
  | ok a => exact hnext a

/-- A policy lets a write address a key of both maps or of neither. -/
theorem accept_eq (h : m.Same n) (key : Value) (policy : MapPolicy) :
    accept m key policy = accept n key policy := by
  rw [accept, accept, h.contains_eq key]

/-- A policy lets the same items in. -/
theorem acceptItems_eq (h : m.Same n) (policy : MapPolicy) (items : List (Value × Value)) :
    acceptItems m policy items = acceptItems n policy items := by
  induction items with
  | nil => rw [acceptItems, acceptItems]
  | cons item rest ih => rw [acceptItems, acceptItems, accept_eq h, ih]

/-- A sum is a matter of canonical forms. -/
theorem add_canonical (current delta : Value) :
    current.canonical.add delta = current.add delta := by
  cases current with
  | map m =>
    rw [Value.canonical_map]
    cases delta <;> rfl
  | _ => rw [Value.canonical] <;> (cases delta <;> rfl)

/-- The sums at a key are the same. -/
theorem sumAt_eq (h : m.Same n) (key amount : Value) : sumAt m key amount = sumAt n key amount := by
  have hget := h.map_get?_eq key
  rw [sumAt, sumAt]
  cases hm : m.get? key with
  | none =>
    cases hn : n.get? key with
    | none => rfl
    | some w =>
      rw [hm, hn] at hget
      cases hget
  | some v =>
    cases hn : n.get? key with
    | none =>
      rw [hm, hn] at hget
      cases hget
    | some w =>
      rw [hm, hn] at hget
      have hcanonical : v.canonical = w.canonical := Option.some.inj hget
      dsimp only
      rw [← add_canonical v, hcanonical, add_canonical]

theorem sameStep_addTo (h : m.Same n) (key : Value) (amount : Except Error Value)
    (policy : MapPolicy) : SameStep (addTo m key amount policy) (addTo n key amount policy) := by
  refine .needing h (accept_eq h key policy) fun accepted => ?_
  cases accepted with
  | false => exact .done none h
  | true =>
    refine .needing h (congrArg _ (funext (sumAt_eq h key))) fun sum => ?_
    exact .done _ (h.insert key sum)

/-- Reports on the elements that a selector picks in maps with the same entries are both
the same error, or both reports on equal selections. -/
theorem select_cases (h : m.Same n) (selector : Selector) (returnType : ReturnType) :
    (∃ e, (View.ofDict m).selectAndReport selector returnType = .error e ∧
        (View.ofDict n).selectAndReport selector returnType = .error e) ∨
      ∃ s t a b, (View.ofDict m).selectAndReport selector returnType = .ok (s, a) ∧
        (View.ofDict n).selectAndReport selector returnType = .ok (t, b) ∧
        s.canonical = t.canonical ∧ a.map OpResult.canonical = b.map OpResult.canonical := by
  have heq := ((View.ofDict m).selectAndReport_canonical selector returnType).symm.trans
    ((congrArg (·.selectAndReport selector returnType) h.view_eq).trans
      ((View.ofDict n).selectAndReport_canonical selector returnType))
  rcases hm : (View.ofDict m).selectAndReport selector returnType with e | ⟨s, a⟩
  · rcases hn : (View.ofDict n).selectAndReport selector returnType with f | ⟨t, b⟩
    · rw [hm, hn] at heq
      exact Or.inl ⟨e, rfl, (Except.error.inj heq) ▸ rfl⟩
    · rw [hm, hn] at heq
      cases heq
  · rcases hn : (View.ofDict n).selectAndReport selector returnType with f | ⟨t, b⟩
    · rw [hm, hn] at heq
      cases heq
    · rw [hm, hn] at heq
      obtain ⟨hselection, hanswer⟩ := Prod.mk.inj (Except.ok.inj heq)
      exact Or.inr ⟨s, t, a, b, rfl, rfl, hselection, hanswer⟩

/-- **An operation agrees** on maps with the same entries, and leaves them so. -/
theorem sameStep_apply (h : m.Same n) (op : MapOp) : SameStep (op.apply m) (op.apply n) := by
  cases op with
  | setPolicy policy => exact .done none (h.setOrder policy.order)
  | put key value policy =>
    refine .needing h (accept_eq h key policy) fun accepted => ?_
    cases accepted with
    | false => exact .done none h
    | true => exact .done none (h.insert key value)
  | putItems items policy =>
    refine .needing h (acceptItems_eq h policy items) fun accepted => ?_
    exact .done none (h.insertMany _)
  | increment key delta policy => exact sameStep_addTo h key _ policy
  | decrement key delta policy => exact sameStep_addTo h key _ policy
  | clear => exact .done none (.clear m n)
  | size =>
    rw [apply, apply, h.size_eq]
    exact .done _ h
  | getBy selector returnType =>
    rw [apply, apply]
    rcases select_cases h selector returnType with
      ⟨e, hm, hn⟩ | ⟨s, t, a, b, hm, hn, -, hanswer⟩
    · rw [hm, hn]
      exact .fail e h
    · rw [hm, hn]
      exact ⟨.of_canonical hanswer, h⟩
  | removeBy selector returnType =>
    rw [apply, apply]
    rcases select_cases h selector returnType with
      ⟨e, hm, hn⟩ | ⟨s, t, a, b, hm, hn, hselection, hanswer⟩
    · rw [hm, hn]
      exact .fail e h
    · have hs := (View.selectAndReport_eq_ok_iff.mp hm).1
      have ht := (View.selectAndReport_eq_ok_iff.mp hn).1
      rw [hm, hn]
      exact ⟨.of_canonical hanswer, h.erasePositions hs ht hselection⟩

/-! ### Operations one after another -/

/-- **Applies operations one after another**: what each of them comes to, on the map that
the ones before it have left. -/
def run (m : Dict Value) : List MapOp → List (Attempt (Dict Value) (Option OpResult))
  | [] => []
  | op :: ops => op.apply m :: run (op.apply m).state ops

theorem forall₂_sameStep_run (h : m.Same n) (ops : List MapOp) :
    List.Forall₂ SameStep (run m ops) (run n ops) := by
  induction ops generalizing m n with
  | nil => exact .nil
  | cons op ops ih =>
    have hstep := sameStep_apply h op
    exact .cons hstep (ih hstep.same)

/-- **The order policy does not show.** Operations that are applied one after another to
two equal maps answer the same at every step, or fail with the same error, and leave
equal maps behind. -/
theorem run_agrees (hm : m.WellFormed) (hn : n.WellFormed) (heq : (m == n) = true)
    (ops : List MapOp) :
    List.Forall₂ (fun a b => Agree a.result b.result ∧ (a.state == b.state) = true)
      (run m ops) (run n ops) := by
  have hsame : m.Same n := ⟨hm, hn, (hm.beq_iff_perm hn).mp heq⟩
  exact (forall₂_sameStep_run hsame ops).imp fun _ _ hstep => ⟨hstep.agree, hstep.same.beq⟩

/-- A map as it was filled and the same entries in the order of their keys: a sum and the
removal of the first entry agree. -/
theorem run_agrees_filled_and_sorted :
    let filled : Dict Value := ⟨.unordered, [(.integer 2, .string "b"), (.integer 1, .integer 5)]⟩
    let sorted : Dict Value := ⟨.keyOrdered, [(.integer 1, .integer 5), (.integer 2, .string "b")]⟩
    let ops : List MapOp :=
      [.increment (.integer 1) (.integer 3) {}, .removeBy (.index 0) ⟨.keyValue, false⟩]
    filled.WellFormed ∧ sorted.WellFormed ∧ (filled == sorted) = true ∧
      List.Forall₂ (fun a b => Agree a.result b.result ∧ (a.state == b.state) = true)
        (run filled ops) (run sorted ops) := by
  intro filled sorted ops
  have hfilled : filled.WellFormed := ⟨by decide, nofun⟩
  have hsorted : sorted.WellFormed := ⟨by decide, fun _ => by decide⟩
  have heq : (filled == sorted) = true := (hfilled.beq_iff_perm hsorted).mpr (.swap _ _ _)
  exact ⟨hfilled, hsorted, heq, run_agrees hfilled hsorted heq ops⟩

end MapOp

end RecordStore
