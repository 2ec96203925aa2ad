import RecordStore.Proofs.Engine.Outcome

/-!
# New records

What a new record is, is worked out twice: by the creation of a record that has not been written
yet (`RecordStore.Engine.createRecord`), and by a call on a key without a record. This file shows
that the second goes through the first. A call that writes, and not to the record as a whole,
makes the checks of a creation before it does anything else, and then runs its operations on
the record that the creation answers (`RecordStore.Engine.operate_none_eq`). So the two refuse the
same policies for the same reasons, and where a record is left, its key and its void time are
those of the creation (`RecordStore.Engine.creation_agrees`).

A touch or a delete is left out because it never makes a record: it fails where there is none,
whatever its policy says.
-/

namespace RecordStore

namespace Plan

/-- **The plan of a legal list** with a write and with no write on the record as a whole. -/
theorem eq_of_writes {ops : List Operation} {plan : Plan} (h : check ops = .ok plan)
    (hwrite : ∃ op ∈ ops, op.isWrite = true) (hbins : ∀ op ∈ ops, op.isRecordLevel = false) :
    plan = ⟨true, none⟩ := by
  obtain ⟨-, -, -, -, rfl⟩ := check_eq_ok_iff.mp h
  obtain ⟨op, hop, hclass⟩ := hwrite
  have hwrites : (writesOf ops).isEmpty = false :=
    List.isEmpty_eq_false_iff_exists_mem.mpr ⟨op, mem_writesOf.mpr ⟨hop, hclass⟩⟩
  have hlevel : recordLevelOf ops = none := by
    refine List.find?_eq_none.mpr fun op hop => ?_
    rw [hbins op (mem_writesOf.mp (List.mem_reverse.mp hop)).1]
    exact Bool.false_ne_true
  rw [hwrites, hlevel, Bool.not_false]

end Plan

namespace Engine

variable {engine : Engine} {key : Key} {ops : List Operation} {policy : WritePolicy}
  {now : UInt64} {record : Record} {outcome : Outcome}

/-! ### Creations -/

/-- The record that a creation answers if it is not refused. -/
def shellOf (engine : Engine) (key : Key) (policy : WritePolicy) (now : UInt64) : Record where
  key := storedKey key policy
  bins := Named.empty
  metadata := { voidTime := policy.ttl.resolve now engine.defaultTtl none false }

/-- The checks of a write on a key without a record, which has generation zero. -/
theorem checkPolicy_none (policy : WritePolicy) :
    checkPolicy ⟨true, none⟩ none policy =
      policy.action.check false >>= fun _ => policy.generation.check 0 :=
  rfl

/-- **A creation is refused by the checks of a write** on a key without a record, and by nothing
else. -/
theorem createRecord_eq (engine : Engine) (key : Key) (policy : WritePolicy) (now : UInt64) :
    engine.createRecord key policy now =
      (checkPolicy ⟨true, none⟩ none policy).map fun _ => engine.shellOf key policy now := by
  rw [createRecord, checkPolicy_none]
  cases policy.action.check false with
  | error e => rfl
  | ok => cases policy.generation.check 0 <;> rfl

/-! ### Calls on a key without a record -/

/-- **What a call makes of a created record**, with the bins and answers of its operations. -/
def outcomeFrom (shell : Record) (phase : Phase) (now : UInt64) : Outcome where
  record :=
    if phase.bins.isEmpty then none
    else some ({ shell with bins := phase.bins }.stamp shell.metadata.voidTime now)
  results := resultsByBin phase.slots
  ordered := phase.slots.map (·.2)
  wrote := true

/-- A call starts from the record that a creation answers, but for its void time. -/
theorem startingRecord_none (key : Key) (policy : WritePolicy) :
    startingRecord ⟨true, none⟩ none key policy = Record.shell (storedKey key policy) := by
  rw [startingRecord]
  split <;> rfl

/-- **A call on a key without a record** creates one and runs its operations on it. -/
theorem operate_none_eq (hplan : Plan.check ops = .ok ⟨true, none⟩) :
    engine.operate none key ops policy now =
      engine.createRecord key policy now >>= fun shell =>
        engine.run shell.bins ops >>= fun phase => .ok (outcomeFrom shell phase now) := by
  rw [operate, hplan, createRecord_eq]
  change checkPolicy ⟨true, none⟩ none policy >>= _ = _
  rw [startingRecord_none]
  cases checkPolicy ⟨true, none⟩ none policy with
  | error e => rfl
  | ok =>
    change (engine.run Named.empty ops >>= _) = engine.run Named.empty ops >>= _
    cases engine.run Named.empty ops <;> rfl

/-- A call leaves a created record with the bins of its operations and the marks of its first
write. -/
theorem record_of_operate_none (hplan : Plan.check ops = .ok ⟨true, none⟩)
    (h : engine.operate none key ops policy now = .ok outcome)
    (hrecord : outcome.record = some record) :
    ∃ shell phase, engine.createRecord key policy now = .ok shell ∧
      engine.run shell.bins ops = .ok phase ∧
      record = { shell with bins := phase.bins }.stamp shell.metadata.voidTime now := by
  rw [operate_none_eq hplan] at h
  obtain ⟨shell, hshell, h⟩ := bind_eq_ok_iff.mp h
  obtain ⟨phase, hrun, h⟩ := bind_eq_ok_iff.mp h
  obtain rfl := Except.ok.inj h
  rw [outcomeFrom] at hrecord
  split at hrecord
  · cases hrecord
  · exact ⟨shell, phase, hshell, hrun, (Option.some_inj.mp hrecord).symm⟩

/-- **Creations and calls agree on what a new record is.** For a legal list of operations with a
write, and with no write on the record as a whole, a creation is refused exactly when the checks
of the policy refuse the call on a key without a record, and then both fail with the same error.
If it is not refused, whatever fails in the call fails in its operations, which run on the
created record. And a record that the call leaves has the key and the void time of the created
one, and one write more. -/
theorem creation_agrees (engine : Engine) (key : Key) (policy : WritePolicy) (now : UInt64)
    {plan : Plan} (hplan : Plan.check ops = .ok plan) (hwrite : ∃ op ∈ ops, op.isWrite = true)
    (hbins : ∀ op ∈ ops, op.isRecordLevel = false) :
    (∀ e, engine.createRecord key policy now = .error e ↔
        checkPolicy plan none policy = .error e) ∧
      (∀ e, engine.createRecord key policy now = .error e →
        engine.operate none key ops policy now = .error e) ∧
      (∀ shell, engine.createRecord key policy now = .ok shell → ∀ e,
        engine.operate none key ops policy now = .error e ↔
          engine.run shell.bins ops = .error e) ∧
      ∀ outcome record, engine.operate none key ops policy now = .ok outcome →
        outcome.record = some record →
          ∃ shell, engine.createRecord key policy now = .ok shell ∧ record.key = shell.key ∧
            record.metadata.voidTime = shell.metadata.voidTime ∧
            record.generation = shell.generation + 1 := by
  obtain rfl := Plan.eq_of_writes hplan hwrite hbins
  refine ⟨fun e => ?_, fun e he => ?_, fun shell hshell e => ?_, fun outcome record h hrecord => ?_⟩
  · rw [createRecord_eq]
    cases checkPolicy ⟨true, none⟩ none policy <;> simp [Except.map]
  · rw [operate_none_eq hplan, he]
    rfl
  · rw [operate_none_eq hplan, hshell]
    change (engine.run shell.bins ops >>= _) = _ ↔ _
    rw [bind_eq_error_iff]
    simp
  · obtain ⟨shell, phase, hshell, -, rfl⟩ := record_of_operate_none hplan h hrecord
    exact ⟨shell, hshell, rfl, rfl, rfl⟩

/-- A policy that lets no record be created; one with a lifetime of ten seconds and a user key,
under which a call leaves a record; and a call that fails in its operations. -/
theorem creation_agrees_three_calls :
    let key : Key := ⟨"test", "demo", some (.integer 7), ⟨List.replicate 20 0, rfl⟩⟩
    let write : Operation := .write "n" (.integer 1)
    let read : Operation := .read "n"
    let engine : Engine := { defaultTtl := 60 }
    let policy : WritePolicy := { ttl := .after 10, key := .send }
    engine.createRecord key { action := .replace } 5 = .error .recordNotFound ∧
      engine.operate none key [write, read] { action := .replace } 5 = .error .recordNotFound ∧
      (∃ outcome record shell, engine.operate none key [write, read] policy 5 = .ok outcome ∧
        outcome.record = some record ∧ engine.createRecord key policy 5 = .ok shell ∧
        record.key = shell.key ∧ record.metadata.voidTime = shell.metadata.voidTime ∧
        record.generation = shell.generation + 1) ∧
      ∃ shell, engine.createRecord key {} 5 = .ok shell ∧
        engine.run shell.bins [.list "l" (.insert 70000 .null {})] =
          .error (.param (.paddingTooLong 70000 0)) := by
  intro key write read engine policy
  have hplan : Plan.check [write, read] = .ok ⟨true, none⟩ := rfl
  have hwrite : ∃ op ∈ [write, read], op.isWrite = true := ⟨write, List.mem_cons_self, rfl⟩
  have hbins : ∀ op ∈ [write, read], op.isRecordLevel = false := by simp [write, read]; decide
  obtain ⟨-, hrefused, -, -⟩ :=
    creation_agrees engine key { action := .replace } 5 hplan hwrite hbins
  obtain ⟨-, -, -, hleft⟩ := creation_agrees engine key policy 5 hplan hwrite hbins
  obtain ⟨shell, hshell, hagree⟩ := hleft _ _ rfl rfl
  refine ⟨rfl, hrefused _ rfl, ⟨_, _, shell, rfl, rfl, hshell, hagree⟩, ?_⟩
  let insert : Operation := .list "l" (.insert 70000 .null {})
  have hplanInsert : Plan.check [insert] = .ok ⟨true, none⟩ := rfl
  obtain ⟨-, -, hrun, -⟩ := creation_agrees engine key {} 5 hplanInsert
    ⟨insert, List.mem_cons_self, rfl⟩ (by simp [insert]; decide)
  exact ⟨_, rfl, (hrun _ rfl _).mp rfl⟩

end Engine

end RecordStore
