import RecordStore.Proofs.Engine.Outcome

/-!
# Calls do not look at user keys

A user key comes into a call with the key of the record. It may go into the record, when
the policy asks for that, and it comes out of the call with the record. Nothing in
between looks at it: a call that is given keys without user keys answers the same, with
the user keys left out (`RecordStore.Engine.operate_digestOnly`).

What this rests on is that the key of the call and the key that the record was stored
with are the same but for their user keys. Otherwise a key that is sent would replace the
one in the record by a key of another set.
-/

namespace RecordStore

/-! ### Without user keys -/

/-- Keys are the same but for their user keys when the rest of them is. -/
theorem Key.digestOnly_eq_iff {k l : Key} :
    k.digestOnly = l.digestOnly ↔ k.ns = l.ns ∧ k.set = l.set ∧ k.digest = l.digest := by
  simp [digestOnly]

/-- The record without the user key in its key. -/
def Record.digestOnly (r : Record) : Record := { r with key := r.key.digestOnly }

/-- The outcome without the user key in the key of its record. -/
def Outcome.digestOnly (o : Outcome) : Outcome :=
  { o with record := o.record.map Record.digestOnly }

namespace Engine

variable {engine : Engine} {existing : Option Record} {key : Key} {ops : List Operation}
  {policy : WritePolicy} {now : UInt64}

/-- A policy looks at whether there is a record, and at its generation. -/
theorem checkPolicy_digestOnly (plan : Plan) (existing : Option Record) (policy : WritePolicy) :
    checkPolicy plan (existing.map Record.digestOnly) policy =
      checkPolicy plan existing policy := by
  cases existing <;> rfl

theorem finalRecord_digestOnly (engine : Engine) (plan : Plan) (record : Record) (live : Bool)
    (policy : WritePolicy) (now : UInt64) :
    engine.finalRecord plan record.digestOnly live policy now =
      (engine.finalRecord plan record live policy now).map Record.digestOnly := by
  unfold finalRecord
  split
  · rfl
  · split
    · rfl
    · by_cases hempty : record.bins.isEmpty = true
      · rw [if_pos hempty, if_pos (show record.digestOnly.bins.isEmpty = true from hempty)]
        rfl
      · rw [if_neg hempty, if_neg (show ¬record.digestOnly.bins.isEmpty = true from hempty)]
        rfl

/-- **A call starts from the same record** but for its user key, whether or not it is given
the user keys. -/
theorem startingRecord_digestOnly (plan : Plan) (policy : WritePolicy)
    (h : ∀ record, existing = some record → record.key.digestOnly = key.digestOnly) :
    startingRecord plan (existing.map Record.digestOnly) key.digestOnly policy =
      (startingRecord plan existing key policy).digestOnly := by
  unfold startingRecord
  cases existing with
  | none =>
    have hstored : storedKey key.digestOnly policy = (storedKey key policy).digestOnly := by
      unfold storedKey
      split <;> rfl
    dsimp only [Option.map_none]
    rw [hstored]
    split <;> rfl
  | some record =>
    have hkey : record.key.digestOnly = key.digestOnly := h record rfl
    -- no user key is sent, so that the record keeps its key
    have hkept : ¬(policy.key = .send ∧ key.digestOnly.userKey.isSome = true) := by
      simp [Key.digestOnly]
    have hsent : ({ record with key } : Record).digestOnly = record.digestOnly := by
      rw [Record.digestOnly, Record.digestOnly, hkey]
    dsimp only [Option.map_some]
    rw [if_neg hkept]
    by_cases hsend : policy.key = .send ∧ key.userKey.isSome = true
    · rw [if_pos hsend, ← hsent]
      split <;> rfl
    · rw [if_neg hsend]
      split <;> rfl

/-- **A call without user keys** comes to what the call comes to, without user keys. -/
theorem operate_digestOnly
    (h : ∀ record, existing = some record → record.key.digestOnly = key.digestOnly) :
    engine.operate (existing.map Record.digestOnly) key.digestOnly ops policy now =
      (engine.operate existing key ops policy now).map Outcome.digestOnly := by
  unfold operate
  cases Plan.check ops with
  | error e => rfl
  | ok plan =>
    have hbins : (startingRecord plan existing key policy).digestOnly.bins =
        (startingRecord plan existing key policy).bins := rfl
    have hsome : (existing.map Record.digestOnly).isSome = existing.isSome := Option.isSome_map
    simp only [bind, Except.bind, checkPolicy_digestOnly, startingRecord_digestOnly plan policy h,
      hbins, hsome]
    cases checkPolicy plan existing policy with
    | error e => rfl
    | ok _ =>
      dsimp only
      cases engine.run (startingRecord plan existing key policy).bins ops with
      | error e => rfl
      | ok phase =>
        refine congrArg Except.ok ?_
        dsimp only [Outcome.digestOnly]
        rw [← finalRecord_digestOnly]
        rfl

/-- **The key of a record that a writing call leaves** is the key of the call but for the user
key, if the key of the record that was there is. -/
theorem key_digestOnly_operate {outcome : Outcome} {record : Record}
    (hok : engine.operate existing key ops policy now = .ok outcome) (hwrote : outcome.wrote)
    (hrecord : outcome.record = some record)
    (h : ∀ record, existing = some record → record.key.digestOnly = key.digestOnly) :
    record.key.digestOnly = key.digestOnly := by
  obtain ⟨plan, phase, -, -, -, rfl⟩ := record_of_operate hok hwrote hrecord
  change (startingRecord plan existing key policy).key.digestOnly = _
  rcases startingRecord_key plan existing key policy with hkey | hkey | ⟨record, hsome, hkey⟩
  · rw [hkey]
  · rw [hkey]
    rfl
  · rw [hkey]
    exact h record hsome

end Engine

end RecordStore
