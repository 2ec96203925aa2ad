import Mathlib.Data.List.Perm.Basic
import RecordStore.Proofs.Collection.Denied

/-!
# Lists without repetitions

A write into a list may ask that its values are not in the list yet. What it lets in is then
fresh (`RecordStore.ListOp.Fresh`): different from what is in the list and from what came earlier
in the same write. This file shows that a list without repetitions stays one under such writes
(`RecordStore.ListOp.apply_distinct`), with one exception.

The exception are nulls. A write to a position behind the end fills the list up with them, and
the policy looks at the values that a write brings, not at what fills the list up. So nulls can
meet (`RecordStore.ListOp.NullsMeet`): several that fill up, or one of them and one that was in
the list or is brought. Nothing else can stand twice.
-/

namespace RecordStore

/-- Only null is equal to null. -/
theorem Value.eq_null_of_beq {v : Value} (h : (v == .null) = true) : v = .null := by
  have hkind : v.kind = .null := kind_eq_of_compare (beq_iff_compare_eq.mp h)
  rcases v <;> first | rfl | cases hkind

namespace ListOp

variable {items values accepted after : List Value} {policy : ListPolicy} {index : Int64}
  {op : ListOp}

/-! ### Repetitions -/

/-- **A list is without repetitions** when no two of its values are equal. -/
def Distinct (items : List Value) : Prop := items.Pairwise fun v w => (v == w) = false

instance : Decidable (Distinct items) :=
  inferInstanceAs (Decidable (items.Pairwise fun v w => (v == w) = false))

/-- **Only nulls are repeated** in a list when values of it that are equal are nulls. -/
def OnlyNullsRepeat (items : List Value) : Prop :=
  items.Pairwise fun v w => (v == w) = true → v = .null ∧ w = .null

/-- The order of the values has no say. -/
theorem Distinct.perm (h : Distinct items) (hperm : items.Perm after) : Distinct after :=
  (hperm.pairwise_iff fun hvw => (Value.beq_symm _ _).trans hvw).mp h

theorem OnlyNullsRepeat.perm (h : OnlyNullsRepeat items) (hperm : items.Perm after) :
    OnlyNullsRepeat after := by
  refine (hperm.pairwise_iff fun {v w} hvw hwv => ?_).mp h
  exact (hvw ((Value.beq_symm v w).trans hwv)).symm

theorem Distinct.onlyNullsRepeat (h : Distinct items) : OnlyNullsRepeat items := by
  refine h.imp fun {v w} hvw heq => ?_
  rw [hvw] at heq
  cases heq

/-! ### What is let in -/

/-- **Values are fresh** for a list when none of them is in the list and no two of them are
equal. -/
structure Fresh (items accepted : List Value) : Prop where
  /-- No two of the values are equal. -/
  distinct : Distinct accepted
  /-- None of the values is in the list. -/
  absent : ∀ v ∈ accepted, items.contains v = false

/-- A list does not hold what it holds no equal of. -/
theorem contains_eq_false_iff {v : Value} :
    items.contains v = false ↔ ∀ w ∈ items, (w == v) = false := by
  rw [Bool.eq_false_iff, Ne, List.contains_iff_exists_mem_beq]
  constructor
  · intro h w hw
    rw [Bool.eq_false_iff]
    exact fun heq => h ⟨w, hw, (Value.beq_symm v w).trans heq⟩
  · rintro h ⟨w, hw, heq⟩
    rw [Value.beq_symm, h w hw] at heq
    cases heq

/-- One more value is let in when it is in neither of the two lists. -/
theorem Fresh.cons {v : Value} (h : Fresh items accepted) (hitems : items.contains v = false)
    (haccepted : accepted.contains v = false) : Fresh items (v :: accepted) where
  distinct := by
    refine List.pairwise_cons.mpr ⟨fun w hw => ?_, h.distinct⟩
    exact (Value.beq_symm v w).trans (contains_eq_false_iff.mp haccepted w hw)
  absent := List.forall_mem_cons.mpr ⟨hitems, h.absent⟩

/-- Going through the values keeps those let in so far fresh. -/
theorem Fresh.acceptUnique {result : List Value} (hfresh : Fresh items accepted)
    (h : accept.acceptUnique items policy accepted values = .ok (some result)) :
    Fresh items result := by
  induction values generalizing accepted with
  | nil =>
    obtain rfl : accepted.reverse = result := Option.some_inj.mp (Except.ok.inj h)
    refine ⟨hfresh.distinct.perm (List.reverse_perm _).symm, fun v hv => ?_⟩
    exact hfresh.absent v (List.mem_reverse.mp hv)
  | cons value rest ih =>
    rw [accept.acceptUnique] at h
    split at h
    · -- a denied value is left out, or nothing is let in at all
      split at h
      · split at h
        · exact ih hfresh h
        · cases h
      · cases h
    · rename_i hnew
      obtain ⟨hitems, haccepted⟩ := Bool.or_eq_false_iff.mp (eq_false_of_ne_true hnew)
      exact ih (hfresh.cons hitems haccepted) h

/-- **What is let in is fresh** where values are to be unique. -/
theorem Fresh.of_accept (hunique : policy.addUnique = true)
    (h : accept items values policy = .ok (some accepted)) : Fresh items accepted := by
  rw [accept, if_pos hunique] at h
  exact Fresh.acceptUnique ⟨.nil, fun v hv => absurd hv List.not_mem_nil⟩ h

/-- Fresh values behind values of the list repeat nothing. -/
theorem Fresh.distinct_append {kept : List Value} (h : Fresh items accepted)
    (hitems : Distinct items) (hkept : kept.Sublist items) : Distinct (kept ++ accepted) := by
  refine List.pairwise_append.mpr ⟨hitems.sublist hkept, h.distinct, fun v hv w hw => ?_⟩
  exact contains_eq_false_iff.mp (h.absent w hw) v (hkept.subset hv)

/-! ### Filling up -/

/-- Nulls may as well stand in front. -/
theorem filled_perm (items accepted : List Value) (filled : Nat) :
    (List.replicate filled Value.null ++ (items ++ accepted)).Perm
      (items ++ List.replicate filled Value.null ++ accepted) := by
  rw [← List.append_assoc]
  exact List.perm_append_comm.append_right accepted

/-- Nulls in between repeat nothing but nulls. -/
theorem onlyNullsRepeat_filled (hitems : Distinct (items ++ accepted)) (filled : Nat) :
    OnlyNullsRepeat (items ++ List.replicate filled Value.null ++ accepted) := by
  refine OnlyNullsRepeat.perm ?_ (filled_perm items accepted filled)
  refine List.pairwise_append.mpr ⟨?_, hitems.onlyNullsRepeat, fun v hv w _ heq => ?_⟩
  · exact List.pairwise_replicate.mpr (Or.inr fun _ => ⟨rfl, rfl⟩)
  · obtain rfl := List.eq_of_mem_replicate hv
    exact ⟨rfl, Value.eq_null_of_beq ((Value.beq_symm w .null).trans heq)⟩

/-- **Filling up repeats nothing** exactly when it takes a single null, and there is no other. -/
theorem distinct_filled_iff (hitems : Distinct (items ++ accepted)) {filled : Nat}
    (hpos : 0 < filled) :
    Distinct (items ++ List.replicate filled Value.null ++ accepted) ↔
      filled = 1 ∧ (items ++ accepted).contains .null = false := by
  have hperm := filled_perm items accepted filled
  rw [contains_eq_false_iff]
  constructor
  · intro h
    obtain ⟨hnulls, -, hothers⟩ := List.pairwise_append.mp (h.perm hperm.symm)
    refine ⟨?_, fun w hw => ?_⟩
    · have hself : (Value.null == Value.null) = true := rfl
      rcases List.pairwise_replicate.mp hnulls with hle | hne
      · omega
      · rw [hself] at hne
        cases hne
    · have hnull : Value.null ∈ List.replicate filled Value.null :=
        List.mem_replicate.mpr ⟨Nat.ne_of_gt hpos, rfl⟩
      exact (Value.beq_symm w .null).trans (hothers .null hnull w hw)
  · rintro ⟨rfl, hnone⟩
    refine Distinct.perm (List.pairwise_cons.mpr ⟨fun w hw => ?_, hitems⟩) hperm
    exact (Value.beq_symm .null w).trans (hnone w hw)

/-! ### What a write leaves -/

/-- The number of places between the end of a list and a position behind it. -/
def gap (items : List Value) (index : Int64) : Nat := index.toInt.toNat - items.length

/-- **A write gathers** values of the list, nulls that fill it up, and fresh ones of the values
that it brings, in some order. -/
inductive Gathers (items values : List Value) : (filled : Nat) → (after : List Value) → Prop where
  | intro {kept accepted after : List Value} {filled : Nat} (hkept : kept.Sublist items)
      (hfresh : Fresh items accepted) (hbrought : ∀ v ∈ accepted, v ∈ values)
      (hperm : (kept ++ List.replicate filled Value.null ++ accepted).Perm after) :
      Gathers items values filled after

/-- A write may fill nothing up. -/
theorem Gathers.unfilled {kept : List Value} (hkept : kept.Sublist items)
    (hfresh : Fresh items accepted) (hbrought : ∀ v ∈ accepted, v ∈ values)
    (hperm : (kept ++ accepted).Perm after) : Gathers items values 0 after := by
  refine .intro hkept hfresh hbrought ?_
  rwa [List.replicate_zero, List.append_nil]

/-- A write that changes nothing gathers what is there. -/
theorem Gathers.unchanged : Gathers items values 0 items := by
  have hnone : Fresh items [] := ⟨.nil, nofun⟩
  exact .unfilled (.refl _) hnone nofun (.of_eq (List.append_nil _))

theorem Gathers.onlyNullsRepeat {filled : Nat} (h : Gathers items values filled after)
    (hitems : Distinct items) : OnlyNullsRepeat after := by
  obtain ⟨hkept, hfresh, -, hperm⟩ := h
  exact (onlyNullsRepeat_filled (hfresh.distinct_append hitems hkept) filled).perm hperm

/-- Without filling up nothing is repeated. -/
theorem Gathers.distinct (h : Gathers items values 0 after) (hitems : Distinct items) :
    Distinct after := by
  obtain ⟨hkept, hfresh, -, hperm⟩ := h
  rw [List.replicate_zero, List.append_nil] at hperm
  exact (hfresh.distinct_append hitems hkept).perm hperm

/-- A single null repeats nothing where there is no other. -/
theorem Gathers.distinct_of_single (h : Gathers items values 1 after) (hitems : Distinct items)
    (hnone : items.contains .null = false) (hbrings : values.contains .null = false) :
    Distinct after := by
  obtain ⟨hkept, hfresh, hbrought, hperm⟩ := h
  refine Distinct.perm ?_ hperm
  refine (distinct_filled_iff (hfresh.distinct_append hitems hkept) Nat.one_pos).mpr ⟨rfl, ?_⟩
  rw [contains_eq_false_iff] at hnone hbrings ⊢
  intro w hw
  rcases List.mem_append.mp hw with hw | hw
  · exact hnone w (hkept.subset hw)
  · exact hbrings w (hbrought w hw)

/-- Making a position addressable leaves the list alone, or closes the gap. -/
theorem padTo_cases (items : List Value) (index : Int64) (policy : ListPolicy) :
    (padTo items index policy).state = items ∨
      (0 < gap items index ∧ padTo items index policy =
        .done (some (items.length + gap items index))
          (items ++ List.replicate (gap items index) Value.null)) := by
  rw [padTo]
  dsimp only
  split
  · exact Or.inl rfl
  · split
    · exact Or.inl rfl
    · rename_i hbehind
      split
      · split <;> exact Or.inl rfl
      · split
        · exact Or.inl rfl
        · have hposition : index.toInt.toNat = items.length + gap items index := by
            rw [gap]
            omega
          refine Or.inr ⟨?_, ?_⟩
          · omega
          · rw [← gap, ← hposition]

/-- Values that are put anywhere stand as well at the end. -/
theorem insert_perm (items accepted : List Value) (position : Nat) :
    (items ++ accepted).Perm (items.take position ++ accepted ++ items.drop position) := by
  have hsplit := List.take_append_drop position items
  have hperm : (items.take position ++ items.drop position ++ accepted).Perm
      (items.take position ++ accepted ++ items.drop position) := by
    rw [List.append_assoc, List.append_assoc]
    exact List.perm_append_comm.append_left _
  rwa [hsplit] at hperm

/-- **What a write to a position leaves**: it fills nothing up, or it closes the gap and the list
is another one afterwards. -/
def Leaves (items values : List Value) (gap : Nat) (after : List Value) : Prop :=
  Gathers items values 0 after ∨ (0 < gap ∧ after ≠ items ∧ Gathers items values gap after)

/-- A list that was filled up is another one. -/
theorem Leaves.of_filled {filled : Nat} (hpos : 0 < filled) (hfresh : Fresh items accepted)
    (hbrought : ∀ v ∈ accepted, v ∈ values)
    (hperm : (items ++ List.replicate filled Value.null ++ accepted).Perm after) :
    Leaves items values filled after := by
  refine Or.inr ⟨hpos, ?_, .intro (.refl _) hfresh hbrought hperm⟩
  rintro rfl
  have hlength := hperm.length_eq
  rw [List.length_append, List.length_append, List.length_replicate] at hlength
  omega

theorem addItems_leaves (hunique : policy.addUnique = true) :
    Gathers items values 0 (addItems items values policy).state := by
  rw [addItems]
  rcases haccept : accept items values policy with e | _ | accepted
  · exact .unchanged
  · exact .unchanged
  · exact .unfilled (.refl _) (.of_accept hunique haccept) (mem_of_accept haccept) (.refl _)

theorem insertAt_leaves (hunique : policy.addUnique = true) :
    Leaves items values (gap items index) (insertAt items index values policy).state := by
  rw [insertAt]
  rcases haccept : accept items values policy with e | _ | accepted
  · exact Or.inl .unchanged
  · exact Or.inl .unchanged
  · have hfresh := Fresh.of_accept hunique haccept
    have hbrought := mem_of_accept haccept
    dsimp only [Attempt.needing]
    rcases padTo_cases items index policy with hsame | ⟨hpos, hfilled⟩
    · rw [Attempt.andThen, hsame]
      rcases (padTo items index policy).result with e | _ | position
      · exact Or.inl .unchanged
      · exact Or.inl .unchanged
      · exact Or.inl (.unfilled (.refl _) hfresh hbrought (insert_perm items accepted position))
    · rw [hfilled]
      exact .of_filled hpos hfresh hbrought (insert_perm _ accepted _)

theorem setAt_leaves {value : Value} (hunique : policy.addUnique = true) :
    Leaves items [value] (gap items index) (setAt items index value policy).state := by
  rw [setAt]
  rcases haccept : accept items [value] policy with e | _ | _ | ⟨first, rest⟩
  · exact Or.inl .unchanged
  · exact Or.inl .unchanged
  · exact Or.inl .unchanged
  · have hfresh : Fresh items [first] := by
      have hall := Fresh.of_accept hunique haccept
      have habsent := hall.absent first List.mem_cons_self
      exact ⟨List.pairwise_singleton _ _, List.forall_mem_singleton.mpr habsent⟩
    have hbrought : ∀ v ∈ [first], v ∈ [value] :=
      List.forall_mem_singleton.mpr (mem_of_accept haccept first List.mem_cons_self)
    dsimp only [Attempt.needing]
    rcases padTo_cases items index policy with hsame | ⟨hpos, hfilled⟩
    · rw [Attempt.andThen, hsame]
      rcases (padTo items index policy).result with e | _ | position
      · exact Or.inl .unchanged
      · exact Or.inl .unchanged
      · dsimp only [Attempt.needing]
        split
        · rename_i hlt
          refine Or.inl (.unfilled (items.eraseIdx_sublist position) hfresh hbrought ?_)
          exact List.perm_append_comm.trans (List.set_perm_cons_eraseIdx hlt first).symm
        · exact Or.inl (.unfilled (.refl _) hfresh hbrought (.refl _))
    · rw [hfilled]
      refine .of_filled hpos hfresh hbrought ?_
      have hend : ¬items.length + gap items index <
          (items ++ List.replicate (gap items index) Value.null).length := by
        rw [List.length_append, List.length_replicate]
        exact Nat.lt_irrefl _
      dsimp only [Attempt.andThen, Attempt.done, Attempt.needing]
      rw [if_neg hend]

/-! ### Lists without repetitions -/

/-- The number of places between the end of a list and the position that a write goes to, if
that is behind the end. -/
def gapTo (op : ListOp) (items : List Value) : Nat := op.position?.elim 0 (gap items)

/-- **A write leaves** what it gathers. -/
theorem apply_leaves (items : List Value) (hpolicy : op.policy? = some policy)
    (hunique : policy.addUnique = true) :
    Leaves items op.values (op.gapTo items) (op.apply items).state := by
  cases op with
  | append _ _ | merge _ _ =>
    obtain rfl := Option.some_inj.mp hpolicy
    exact Or.inl (addItems_leaves hunique)
  | insert _ _ _ | insertItems _ _ _ =>
    obtain rfl := Option.some_inj.mp hpolicy
    exact insertAt_leaves hunique
  | set _ _ _ =>
    obtain rfl := Option.some_inj.mp hpolicy
    exact setAt_leaves hunique
  | _ => cases hpolicy

/-- **Nulls meet** in the list that a write leaves: it has filled the list up, with several nulls
or with one where the list or the values hold another. -/
structure NullsMeet (items : List Value) (op : ListOp) : Prop where
  /-- The list is another one afterwards. -/
  changed : (op.apply items).state ≠ items
  /-- The write goes to a position behind the end. -/
  behind : 0 < op.gapTo items
  /-- A single null that fills up finds another one. -/
  another : op.gapTo items = 1 → items.contains .null = true ∨ op.values.contains .null = true

/-- **A write of unique values repeats nothing but nulls**, and nothing at all in a list without
repetitions unless it fills the list up and nulls meet in it. That holds whether the write
succeeds or fails. -/
theorem apply_distinct (hitems : Distinct items) (hpolicy : op.policy? = some policy)
    (hunique : policy.addUnique = true) :
    OnlyNullsRepeat (op.apply items).state ∧
      (¬op.NullsMeet items → Distinct (op.apply items).state) := by
  rcases apply_leaves items hpolicy hunique with h | ⟨hbehind, hchanged, h⟩
  · exact ⟨h.onlyNullsRepeat hitems, fun _ => h.distinct hitems⟩
  · refine ⟨h.onlyNullsRepeat hitems, fun hmeet => ?_⟩
    have hsingle : op.gapTo items = 1 ∧
        ¬(items.contains .null = true ∨ op.values.contains .null = true) := by
      by_contra hne
      exact hmeet ⟨hchanged, hbehind, fun hone => not_not.mp fun hnone => hne ⟨hone, hnone⟩⟩
    obtain ⟨hone, hnone⟩ := hsingle
    obtain ⟨hlist, hbrings⟩ := not_or.mp hnone
    rw [hone] at h
    exact h.distinct_of_single hitems (eq_false_of_ne_true hlist) (eq_false_of_ne_true hbrings)

/-- Of three values one is in the list, as a map with another order policy, and two are equal:
what is left is put behind the null that fills the list up. -/
theorem apply_distinct_insertItems :
    let items : List Value := [.map ⟨.keyOrdered, [(.integer 1, .null)]⟩, .integer 7]
    let policy : ListPolicy := { addUnique := true, noFail := true, keepRest := true }
    let op : ListOp := .insertItems 3
      [.map ⟨.keyValueOrdered, [(.integer 1, .null)]⟩, .integer 8, .integer 8] policy
    Distinct items ∧ ¬op.NullsMeet items ∧
      op.apply items = .done none (items ++ [.null, .integer 8]) ∧
      Distinct (op.apply items).state := by
  intro items policy op
  have hitems : Distinct items := by decide
  have hmeet : ¬op.NullsMeet items := fun h => absurd (h.another rfl) (by decide)
  have hpolicy : op.policy? = some policy := rfl
  exact ⟨hitems, hmeet, rfl, (apply_distinct hitems hpolicy rfl).2 hmeet⟩

/-- **Filling up repeats nulls** also where values are to be unique. -/
theorem filling_up_repeats_null :
    let op : ListOp := .insert 3 (.integer 2) { addUnique := true, noFail := true }
    Distinct [.integer 1] ∧
      op.apply [.integer 1] = .done none [.integer 1, .null, .null, .integer 2] ∧
      ¬Distinct (op.apply [.integer 1]).state := by
  exact ⟨by decide, rfl, by decide⟩

end ListOp

end RecordStore
