import RecordStore.Proofs.Collection.Denied

/-!
# Values that are put at a position

A write to a position of a list puts its values there, and the values behind it move on, but for
one that is replaced (`RecordStore.ListOp.taken`). Behind the end of the list the same is done
once the list has been filled up with nulls. This file says what such a write comes to, for
every position (`RecordStore.ListOp.placed_exactly`), as long as the policy does not ask for
values that are not in the list yet.

All three of the writes are one (`RecordStore.ListOp.apply_eq_splice`): the list is filled up as
far as the position, and what is left then is a cut and a paste. So whatever fails does so in
filling up, and there it fails before the list is changed; and no more than
`RecordStore.maxPadding` places are ever filled up (`RecordStore.ListOp.padTo_leaves`).
-/

namespace RecordStore

namespace ListOp

variable {items padded values : List Value} {value : Value} {policy : ListPolicy} {index : Int64}
  {op : ListOp}

/-! ### Filling up -/

theorem padTo_of_neg (h : index.toInt < 0) :
    padTo items index policy = .fail (.param .negativePosition) items := by
  rw [padTo, if_pos h]

/-- A position behind the end is passed over where that is not allowed, or fails. -/
theorem padTo_of_insertBounded (hbounded : policy.insertBounded = true)
    (hlt : (items.length : Int) < index.toInt) :
    padTo items index policy =
      if policy.noFail then .done none items
      else .fail (.notApplicable (.pastEnd index.toInt.toNat items.length)) items := by
  cases hnoFail : policy.noFail with
  | true => exact padTo_of_bounded hbounded hnoFail hlt
  | false =>
    have hindex : ¬index.toInt < 0 := by omega
    have hposition : ¬index.toInt.toNat ≤ items.length := by omega
    rw [padTo, if_neg hindex]
    dsimp only
    rw [if_neg hposition, if_pos hbounded, hnoFail]

/-- **What filling up leaves**: the list with nulls behind it, no more of them than may be, and
none if it fails. The position that it finds is in the list then, or is its end. -/
theorem padTo_leaves (items : List Value) (index : Int64) (policy : ListPolicy) :
    ∃ gap ≤ maxPadding, (padTo items index policy).state = items ++ List.replicate gap .null ∧
      (∀ e, (padTo items index policy).result = .error e → gap = 0) ∧
      ∀ position, (padTo items index policy).result = .ok (some position) →
        position ≤ items.length + gap := by
  rcases Int.lt_or_le index.toInt 0 with hneg | hindex
  · rw [padTo_of_neg hneg]
    exact ⟨0, Nat.zero_le _, (List.append_nil items).symm, fun _ _ => rfl, nofun⟩
  rcases Int.lt_or_le items.length index.toInt with hlt | hle
  · cases hbounded : policy.insertBounded with
    | true =>
      rw [padTo_of_insertBounded hbounded hlt]
      refine ⟨0, Nat.zero_le _, ?_, fun _ _ => rfl, ?_⟩
      · split <;> exact (List.append_nil items).symm
      · split <;> exact nofun
    | false =>
      rw [padTo_of_lt hbounded hlt]
      split
      · exact ⟨0, Nat.zero_le _, (List.append_nil items).symm, fun _ _ => rfl, nofun⟩
      · rename_i hfew
        refine ⟨_, Nat.le_of_not_lt hfew, rfl, nofun, ?_⟩
        rintro _ ⟨⟩
        omega
  · rw [padTo_of_le hindex hle]
    refine ⟨0, Nat.zero_le _, (List.append_nil items).symm, fun _ _ => rfl, ?_⟩
    rintro _ ⟨⟩
    omega

/-- The position that filling up finds is one of the filled list, or its end. -/
theorem padTo_position_le {position : Nat}
    (h : (padTo items index policy).result = .ok (some position)) :
    position ≤ (padTo items index policy).state.length := by
  obtain ⟨gap, -, hstate, -, hposition⟩ := padTo_leaves items index policy
  rw [hstate, List.length_append, List.length_replicate]
  exact hposition position h

/-! ### One write -/

/-- The number of values that a write takes away at its position: one that is replaced. -/
def taken : ListOp → Nat
  | set .. => 1
  | _ => 0

/-- **Some values in place of others**: those at a position, as many as are taken away. -/
def splice (padded : List Value) (position taken : Nat) (values : List Value) : List Value :=
  padded.take position ++ values ++ padded.drop (position + taken)

/-- At the end of a list there is nothing to take away. -/
theorem splice_of_eq_length {position : Nat} (h : position = padded.length) (taken : Nat)
    (values : List Value) : splice padded position taken values = padded ++ values := by
  rw [h, splice, List.take_length, List.drop_of_length_le (Nat.le_add_right _ _), List.append_nil]

/-- Replacing a value, or adding one at the end, takes away what is there. -/
theorem splice_one {position : Nat} (h : position ≤ padded.length) :
    (if position < padded.length then padded.set position value else padded ++ [value]) =
      splice padded position 1 [value] := by
  split
  · rename_i hlt
    rw [splice, List.set_eq_take_append_cons_drop, if_pos hlt, List.append_assoc,
      List.singleton_append]
  · exact (splice_of_eq_length (by omega) 1 [value]).symm

theorem length_splice_le (padded : List Value) (position taken : Nat) (values : List Value) :
    (splice padded position taken values).length ≤ padded.length + values.length := by
  rw [splice, List.length_append, List.length_append, List.length_take, List.length_drop]
  omega

/-- Filling up, and then some values in place of others. -/
def fillAndSplice (items : List Value) (index : Int64) (policy : ListPolicy) (taken : Nat)
    (values : List Value) : Attempt (List Value) (Option OpResult) :=
  (padTo items index policy).andThen fun position padded =>
    .done none (position.elim padded fun p => splice padded p taken values)

/-- A policy that does not ask for values that are not in the list lets all of them in. -/
theorem accept_of_not_addUnique (hunique : policy.addUnique = false) :
    accept items values policy = .ok (some values) := by
  rw [accept, hunique]
  rfl

theorem insertAt_eq_splice (hunique : policy.addUnique = false) :
    (insertAt items index values policy).map (fun _ => none) =
      fillAndSplice items index policy 0 values := by
  rw [insertAt, accept_of_not_addUnique hunique, fillAndSplice]
  obtain ⟨_ | _ | position, padded⟩ := padTo items index policy <;> rfl

theorem setAt_eq_splice (hunique : policy.addUnique = false) :
    (setAt items index value policy).map (fun _ => none) =
      fillAndSplice items index policy 1 [value] := by
  have hposition := @padTo_position_le items policy index
  rw [setAt, accept_of_not_addUnique hunique, fillAndSplice]
  generalize padTo items index policy = filled at hposition ⊢
  obtain ⟨_ | _ | position, padded⟩ := filled
  · rfl
  · rfl
  · have hle : position ≤ padded.length := hposition rfl
    change Attempt.map _ (if position < padded.length then _ else _) = Attempt.done none _
    rw [Option.elim_some, ← splice_one hle]
    split <;> rfl

/-- **The writes to a position are one**, apart from the value that is replaced. -/
theorem apply_eq_splice (hposition : op.position? = some index) (hpolicy : op.policy? = some policy)
    (hunique : policy.addUnique = false) :
    op.apply items = fillAndSplice items index policy op.taken op.values := by
  cases op with
  | insert _ _ _ | insertItems _ _ _ =>
    obtain rfl := Option.some_inj.mp hposition
    obtain rfl := Option.some_inj.mp hpolicy
    exact insertAt_eq_splice hunique
  | set _ _ _ =>
    obtain rfl := Option.some_inj.mp hposition
    obtain rfl := Option.some_inj.mp hpolicy
    exact setAt_eq_splice hunique
  | _ => cases hposition

/-- A write to a position leaves the list where it fails, and lets it grow by no more than the
nulls that may fill it up and the values that are put there. -/
theorem fillAndSplice_leaves (items : List Value) (index : Int64) (policy : ListPolicy)
    (taken : Nat) (values : List Value) :
    (∀ e, (fillAndSplice items index policy taken values).result = .error e →
        (fillAndSplice items index policy taken values).state = items) ∧
      (fillAndSplice items index policy taken values).state.length ≤
        items.length + maxPadding + values.length := by
  obtain ⟨gap, hgap, hstate, hfail, -⟩ := padTo_leaves items index policy
  have hlength : (padTo items index policy).state.length ≤ items.length + maxPadding := by
    rw [hstate, List.length_append, List.length_replicate]
    exact Nat.add_le_add_left hgap _
  rw [fillAndSplice]
  generalize padTo items index policy = filled at hstate hfail hlength ⊢
  obtain ⟨e | _ | position, padded⟩ := filled
  · refine ⟨fun _ _ => ?_, Nat.le_add_right_of_le hlength⟩
    obtain rfl : gap = 0 := hfail e rfl
    exact hstate.trans (List.append_nil items)
  · exact ⟨nofun, Nat.le_add_right_of_le hlength⟩
  · refine ⟨nofun, Nat.le_trans (length_splice_le padded position taken values) ?_⟩
    exact Nat.add_le_add_right hlength _

/-- Behind the end of the list, the values stand behind the nulls that fill the gap, if there
are not too many of them. -/
theorem fillAndSplice_of_gap {i taken : Nat} (hbounded : policy.insertBounded = false)
    (hi : index.toInt = i) (hlt : items.length < i) :
    fillAndSplice items index policy taken values =
      if i - items.length ≤ maxPadding then
        .done none (items ++ List.replicate (i - items.length) .null ++ values)
      else .fail (.param (.paddingTooLong i items.length)) items := by
  rw [fillAndSplice, padTo_of_lt hbounded (by omega), hi, Int.toNat_natCast]
  by_cases hfew : i - items.length ≤ maxPadding
  · have hend : i = (items ++ List.replicate (i - items.length) Value.null).length := by
      rw [List.length_append, List.length_replicate]
      omega
    rw [if_neg (Nat.not_lt.mpr hfew), if_pos hfew]
    exact congrArg (Attempt.done none) (splice_of_eq_length hend taken values)
  · rw [if_pos (Nat.lt_of_not_le hfew), if_neg hfew]
    rfl

/-! ### The law of positions -/

/-- **Values are put exactly at their position**, by each write to a position whose policy lets
all values in. A negative position is a bad parameter. In the list or at its end, the values
stand in front of the position, and a value that is replaced is gone. Behind the end, the write
is not applicable, or skipped, if the policy keeps it in bounds; otherwise nulls fill the gap, and
a gap of more than 65536 places is a bad parameter. A write that fails leaves the list, and no
write lets it grow by more than that many places and the values. -/
theorem placed_exactly (op : ListOp) (items : List Value) (hposition : op.position? = some index)
    (hpolicy : op.policy? = some policy) (hunique : policy.addUnique = false) :
    (index.toInt < 0 → op.apply items = .fail (.param .negativePosition) items) ∧
      (∀ i : Nat, index.toInt = i → i ≤ items.length → op.apply items =
        .done none (items.take i ++ op.values ++ items.drop (i + op.taken))) ∧
      (∀ i : Nat, index.toInt = i → items.length < i → policy.insertBounded = true →
        op.apply items =
          if policy.noFail then .done none items
          else .fail (.notApplicable (.pastEnd i items.length)) items) ∧
      (∀ i : Nat, index.toInt = i → items.length < i → policy.insertBounded = false →
        op.apply items =
          if i - items.length ≤ 65536 then
            .done none (items ++ List.replicate (i - items.length) .null ++ op.values)
          else .fail (.param (.paddingTooLong i items.length)) items) ∧
      (∀ e, (op.apply items).result = .error e → (op.apply items).state = items) ∧
      (op.apply items).state.length ≤ items.length + 65536 + op.values.length := by
  have happly : op.apply items = fillAndSplice items index policy op.taken op.values :=
    apply_eq_splice hposition hpolicy hunique
  rw [happly]
  refine ⟨fun hneg => ?_, fun i hi hle => ?_, fun i hi hlt hbounded => ?_,
    fun i hi hlt hbounded => ?_, fillAndSplice_leaves items index policy op.taken op.values⟩
  · rw [fillAndSplice, padTo_of_neg hneg]
    rfl
  · rw [fillAndSplice, padTo_of_le (by omega) (by omega), hi, Int.toNat_natCast]
    rfl
  · rw [fillAndSplice, padTo_of_insertBounded hbounded (by omega), hi, Int.toNat_natCast]
    split <;> rfl
  · exact fillAndSplice_of_gap hbounded hi hlt

/-- Replacing a value in the list, putting two values behind a gap of two places, and an insertion
that the policy keeps in bounds. -/
theorem placed_exactly_three :
    let items : List Value := [.integer 1, .string "a", .null]
    (set 1 (.integer 7) {}).apply items = .done none [.integer 1, .integer 7, .null] ∧
      (insertItems 5 [.integer 8, .integer 9] {}).apply items =
        .done none [.integer 1, .string "a", .null, .null, .null, .integer 8, .integer 9] ∧
      (insert 4 (.integer 7) { insertBounded := true }).apply items =
        .fail (.notApplicable (.pastEnd 4 3)) items ∧
      ((insert 4 (.integer 7) { insertBounded := true }).apply items).state.length ≤
        3 + 65536 + 1 := by
  intro items
  have hset := placed_exactly (.set 1 (.integer 7) {}) items rfl rfl rfl
  have hbehind := placed_exactly (.insertItems 5 [.integer 8, .integer 9] {}) items rfl rfl rfl
  have hbounded :=
    placed_exactly (.insert 4 (.integer 7) { insertBounded := true }) items rfl rfl rfl
  exact ⟨hset.2.1 1 rfl (by decide), hbehind.2.2.2.1 5 rfl (by decide) rfl,
    hbounded.2.2.1 4 rfl (by decide) rfl, hbounded.2.2.2.2.2⟩

end ListOp

end RecordStore
