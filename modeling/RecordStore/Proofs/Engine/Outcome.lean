import RecordStore.Engine.Operate
import RecordStore.Proofs.Engine.Plan

/-!
# What a call on one record leaves

A call that succeeds has passed its checks and both of its phases, and its
outcome is put together from what they answer
(`RecordStore.Engine.operate_eq_ok_iff`). From there this file reads off what the
store relies on: a record that is to be kept has a bin
(`RecordStore.Engine.isEmpty_of_operate`) and one write more than the record before
it (`RecordStore.Engine.generation_of_operate`), and a touch deletes nothing
(`RecordStore.Engine.operate_touch`).
-/

namespace RecordStore

namespace Engine

variable {engine : Engine} {existing : Option Record} {key : Key} {ops : List Operation}
  {policy : WritePolicy} {now : UInt64} {outcome : Outcome}

/-- The outcome of a call whose plan and whose phases are known. -/
def outcomeOf (engine : Engine) (plan : Plan) (phase : Phase) (existing : Option Record)
    (key : Key) (policy : WritePolicy) (now : UInt64) : Outcome where
  record :=
    engine.finalRecord plan { startingRecord plan existing key policy with bins := phase.bins }
      existing.isSome policy now
  results := resultsByBin phase.slots
  ordered := phase.slots.map (·.2)
  wrote := plan.hasWrite

/-- **A call succeeds** exactly when its plan, its policy and both of its phases
do. -/
theorem operate_eq_ok_iff :
    engine.operate existing key ops policy now = .ok outcome ↔
      ∃ plan phase, Plan.check ops = .ok plan ∧ checkPolicy plan existing policy = .ok () ∧
        engine.run (startingRecord plan existing key policy).bins ops = .ok phase ∧
        outcome = engine.outcomeOf plan phase existing key policy now := by
  simp only [operate, bind_eq_ok_iff]
  constructor
  · rintro ⟨plan, hplan, ⟨⟩, hpolicy, phase, hrun, houtcome⟩
    exact ⟨plan, phase, hplan, hpolicy, hrun, (Except.ok.inj houtcome).symm⟩
  · rintro ⟨plan, phase, hplan, hpolicy, hrun, rfl⟩
    exact ⟨plan, hplan, (), hpolicy, phase, hrun, rfl⟩

/-- A call writes when one of its operations does. -/
theorem wrote_eq (h : engine.operate existing key ops policy now = .ok outcome) :
    outcome.wrote = ops.any Operation.isWrite := by
  obtain ⟨plan, phase, hplan, -, -, rfl⟩ := operate_eq_ok_iff.mp h
  obtain ⟨-, -, -, -, rfl⟩ := Plan.check_eq_ok_iff.mp hplan
  change (!(ops.filter Operation.isWrite).isEmpty) = _
  rw [Bool.eq_iff_iff, Bool.not_eq_true', List.isEmpty_eq_false_iff_exists_mem, List.any_eq_true]
  exact exists_congr fun op => List.mem_filter

/-- **A call that writes has met the expectation of its policy**; a missing record has
generation zero. -/
theorem generation_checked (h : engine.operate existing key ops policy now = .ok outcome)
    (hwrote : outcome.wrote) :
    policy.generation.check (existing.elim 0 Record.generation) = .ok () := by
  obtain ⟨plan, phase, -, hpolicy, -, rfl⟩ := operate_eq_ok_iff.mp h
  have hplan : plan.hasWrite = true := hwrote
  rw [checkPolicy, if_pos hplan] at hpolicy
  by_cases hmissing : (plan.recordLevel.isSome && existing.isNone) = true
  · rw [if_pos hmissing] at hpolicy
    cases hpolicy
  · rw [if_neg hmissing] at hpolicy
    exact (check_bind_eq_ok_iff.mp hpolicy).2

/-- A call starts with the metadata of the record, if there is one. -/
theorem startingRecord_metadata (plan : Plan) (existing : Option Record) (key : Key)
    (policy : WritePolicy) :
    (startingRecord plan existing key policy).metadata = existing.elim {} Record.metadata := by
  cases existing with
  | none => rw [startingRecord]; split <;> rfl
  | some record =>
    rw [startingRecord]
    split <;> split <;> rfl

/-- The void time that a write sets, given the record that is there. -/
def voidTimeAfter (engine : Engine) (existing : Option Record) (ttl : Expiration)
    (now : UInt64) : Option UInt64 :=
  ttl.resolve now engine.defaultTtl (existing.bind fun record => record.metadata.voidTime)
    existing.isSome

/-- **The record that a writing call leaves** is the one that it started from, with the
bins that its operations have left and the marks of one more write. -/
theorem record_of_operate {record : Record}
    (h : engine.operate existing key ops policy now = .ok outcome) (hwrote : outcome.wrote)
    (hrecord : outcome.record = some record) :
    ∃ plan phase, Plan.check ops = .ok plan ∧
      engine.run (startingRecord plan existing key policy).bins ops = .ok phase ∧
      phase.bins.isEmpty = false ∧
      record = { startingRecord plan existing key policy with bins := phase.bins }.stamp
        (engine.voidTimeAfter existing (lifetime plan policy) now) now := by
  obtain ⟨plan, phase, hcheck, -, hrun, rfl⟩ := operate_eq_ok_iff.mp h
  have hplan : plan.hasWrite = true := hwrote
  have hvoid : (startingRecord plan existing key policy).metadata.voidTime =
      existing.bind fun record => record.metadata.voidTime := by
    rw [startingRecord_metadata]
    cases existing <;> rfl
  simp only [outcomeOf, finalRecord, hplan, Bool.not_true, Bool.false_eq_true, if_false,
    hvoid] at hrecord
  split at hrecord
  · cases hrecord
  · split at hrecord
    · cases hrecord
    · rename_i hbins
      exact ⟨plan, phase, hcheck, hrun, eq_false_of_ne_true hbins,
        (Option.some_inj.mp hrecord).symm⟩

/-- **A record that a writing call leaves has a bin.** -/
theorem isEmpty_of_operate {record : Record}
    (h : engine.operate existing key ops policy now = .ok outcome) (hwrote : outcome.wrote)
    (hrecord : outcome.record = some record) : record.bins.isEmpty = false := by
  obtain ⟨plan, phase, -, -, hbins, rfl⟩ := record_of_operate h hwrote hrecord
  exact hbins

/-- **The key of the record that a call starts from** is the key of the call, without its user
key or with it, or the key of the record that was there. -/
theorem startingRecord_key (plan : Plan) (existing : Option Record) (key : Key)
    (policy : WritePolicy) :
    (startingRecord plan existing key policy).key = key ∨
      (startingRecord plan existing key policy).key = key.digestOnly ∨
      ∃ record, existing = some record ∧
        (startingRecord plan existing key policy).key = record.key := by
  cases existing with
  | none =>
    have hstored : storedKey key policy = key ∨ storedKey key policy = key.digestOnly := by
      rw [storedKey]
      split
      · exact Or.inl rfl
      · exact Or.inr rfl
    rw [startingRecord]
    split <;> exact hstored.imp_right Or.inl
  | some record =>
    rw [startingRecord]
    split <;> split
    · exact Or.inl rfl
    · exact Or.inr (Or.inr ⟨record, rfl, rfl⟩)
    · exact Or.inl rfl
    · exact Or.inr (Or.inr ⟨record, rfl, rfl⟩)

/-- **A record that a writing call leaves has one write more** than the record before it;
a missing record has none. -/
theorem generation_of_operate {record : Record}
    (h : engine.operate existing key ops policy now = .ok outcome) (hwrote : outcome.wrote)
    (hrecord : outcome.record = some record) :
    record.generation = existing.elim 0 Record.generation + 1 := by
  obtain ⟨plan, phase, -, -, -, rfl⟩ := record_of_operate h hwrote hrecord
  change (startingRecord plan existing key policy).metadata.generation + 1 = _
  rw [startingRecord_metadata]
  cases existing <;> rfl

/-- **A touch** needs a record, and leaves it as it is but for its metadata. -/
theorem operate_touch (engine : Engine) (record : Record) (key : Key) (ttl : Expiration)
    (now : UInt64) :
    engine.operate (some record) key [.touch (some ttl)] {} now =
      .ok
        { record :=
            if record.bins.isEmpty then none
            else some (record.stamp
              (ttl.resolve now engine.defaultTtl record.metadata.voidTime true) now)
          results := Named.empty
          ordered := [none]
          wrote := true } := by
  rfl

end Engine

end RecordStore
