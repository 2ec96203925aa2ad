import RecordStore.Proofs.Engine.Outcome
import RecordStore.Proofs.Engine.Phases

/-!
# Writes first, then reads

A call with operations of both classes does what two calls would do one after the other:
one with its writes, and one with its reads on the record that the first one leaves
(`RecordStore.Engine.writes_then_reads`). What makes this true is that the bins which the
reads look at are those of the record that is left. The stamp of a write and the policy of
the call change the key and the metadata of that record, and reads look at neither.

The exception is a call that deletes its record, since then nothing is left to read. Its
reads look at the record that was there.
-/

namespace RecordStore

namespace Engine

variable {engine : Engine} {existing : Option Record} {key : Key} {ops : List Operation}
  {policy : WritePolicy} {now : UInt64} {bins : Bins} {outcome : Outcome} {record : Record}

/-! ### The phases of one class -/

/-- Where no write is about a bin the bins are as they were. -/
theorem Written.of_unaddressed (engine : Engine) (bins : Bins)
    (h : ∀ op ∈ ops, op.isWrite = true → op.bin? = none) : engine.Written bins ops bins where
  addressed op hop hclass bin hbin := by
    rw [h op hop hclass] at hbin
    cases hbin
  others _ _ := rfl

theorem Written.readsOf (engine : Engine) (bins : Bins) (ops : List Operation) :
    engine.Written bins (Plan.readsOf ops) bins :=
  .of_unaddressed engine bins fun op hop hclass => by
    rw [(Plan.mem_readsOf.mp hop).2] at hclass
    cases hclass

/-- The writes of a call run by themselves, to the same bins. -/
theorem Phase.Runs.writesOf {phase : Phase} (h : phase.Runs engine bins ops) :
    Phase.Runs engine bins (Plan.writesOf ops)
      ⟨phase.bins, (Plan.writesOf ops).map fun op => (op, engine.answer bins op)⟩ where
  writes op hop := h.writes op (Plan.mem_writesOf.mp hop).1
  reads op hop hclass := by
    rw [(Plan.mem_writesOf.mp hop).2] at hclass
    cases hclass
  written := h.written.congr fun op hclass =>
    ⟨fun hop => Plan.mem_writesOf.mpr ⟨hop, hclass⟩, fun hop => (Plan.mem_writesOf.mp hop).1⟩
  slots_eq := List.map_congr_left fun op hop => by rw [if_pos (Plan.mem_writesOf.mp hop).2]

/-- The reads of a call run by themselves on the bins after its writes. -/
theorem Phase.Runs.readsOf {phase : Phase} (h : phase.Runs engine bins ops) :
    Phase.Runs engine phase.bins (Plan.readsOf ops)
      ⟨phase.bins, (Plan.readsOf ops).map fun op => (op, engine.answer phase.bins op)⟩ where
  writes op hop hclass := by
    rw [(Plan.mem_readsOf.mp hop).2] at hclass
    cases hclass
  reads op hop := h.reads op (Plan.mem_readsOf.mp hop).1
  written := .readsOf engine phase.bins ops
  slots_eq := List.map_congr_left fun op _ => by rw [ite_self]

/-- Writes that run, and reads that run on what the writes have left, run together. -/
theorem Phase.Runs.of_classes {written read : Phase}
    (hwrites : written.Runs engine bins (Plan.writesOf ops))
    (hreads : read.Runs engine written.bins (Plan.readsOf ops)) :
    Phase.Runs engine bins ops
      ⟨written.bins,
        ops.map fun op => (op, engine.answer (if op.isWrite then bins else written.bins) op)⟩ where
  writes op hop hclass := hwrites.writes op (Plan.mem_writesOf.mpr ⟨hop, hclass⟩) hclass
  reads op hop hclass := by
    have hbins : read.bins = written.bins := hreads.written.unique (.readsOf engine _ ops)
    have hread := hreads.reads op (Plan.mem_readsOf.mpr ⟨hop, hclass⟩) hclass
    rwa [hbins] at hread
  written := hwrites.written.congr fun op hclass =>
    ⟨fun hop => (Plan.mem_writesOf.mp hop).1, fun hop => Plan.mem_writesOf.mpr ⟨hop, hclass⟩⟩
  slots_eq := rfl

/-! ### The slots of one class -/

/-- **The slots of the operations of one class**, in the order of the operations. -/
def slotsOf (writes : Bool) (ops : List Operation) (ordered : List (Option OpResult)) :
    List (Option OpResult) :=
  ((ops.zip ordered).filter fun e => e.1.isWrite = writes).map (·.2)

theorem slotsOf_map (writes : Bool) (ops : List Operation) (slot : Operation → Option OpResult) :
    slotsOf writes ops (ops.map slot) = (ops.filter fun op => op.isWrite = writes).map slot := by
  have hzip : ops.zip (ops.map slot) = ops.map fun op => (op, slot op) := by
    rw [List.zip_map_right, List.zip_eq_zipWith, List.zipWith_self, List.map_map]
    rfl
  rw [slotsOf, hzip, List.filter_map, List.map_map]
  rfl

theorem Phase.Runs.slotsOf_writes {phase : Phase} (h : phase.Runs engine bins ops) :
    slotsOf true ops (phase.slots.map (·.2)) = (Plan.writesOf ops).map (engine.answer bins) := by
  have hfilter : (ops.filter fun op => op.isWrite = true) = Plan.writesOf ops :=
    List.filter_congr fun op _ => Bool.decide_eq_true
  rw [h.slots_eq, List.map_map, slotsOf_map, hfilter]
  refine List.map_congr_left fun op hop => ?_
  rw [Function.comp_apply, if_pos (Plan.mem_writesOf.mp hop).2]

theorem Phase.Runs.slotsOf_reads {phase : Phase} (h : phase.Runs engine bins ops) :
    slotsOf false ops (phase.slots.map (·.2)) =
      (Plan.readsOf ops).map (engine.answer phase.bins) := by
  have hfilter : (ops.filter fun op => op.isWrite = false) = Plan.readsOf ops :=
    List.filter_congr fun op _ => Bool.decide_eq_false
  rw [h.slots_eq, List.map_map, slotsOf_map, hfilter]
  refine List.map_congr_left fun op hop => ?_
  rw [Function.comp_apply, (Plan.mem_readsOf.mp hop).2]
  rfl

/-! ### Calls of one class -/

/-- A call that only reads, or is about the record as a whole, starts from the bins of the
record. -/
theorem bins_startingRecord {plan : Plan}
    (h : plan.hasWrite = false ∨ plan.recordLevel.isSome = true) :
    (startingRecord plan (some record) key policy).bins = record.bins := by
  have hkeep : (plan.hasWrite && plan.recordLevel.isNone && policy.action.replacesBins) =
      false := by
    rcases h with h | h
    · rw [h, Bool.false_and, Bool.false_and]
    · rw [Option.isNone_eq_false_iff.mpr h, Bool.and_false, Bool.false_and]
  rw [startingRecord]
  simp only [hkeep, Bool.false_eq_true, if_false]
  split <;> rfl

/-- A record that a call leaves has the bins that the operations have left. -/
theorem bins_of_finalRecord {plan : Plan} {live : Bool} {final : Record}
    (h : engine.finalRecord plan record live policy now = some final) :
    final.bins = record.bins := by
  rw [finalRecord] at h
  split at h
  · rw [Option.some_inj.mp h]
  · split at h
    · cases h
    · simp only at h
      split at h
      · cases h
      · rw [← Option.some_inj.mp h, Record.stamp]

/-- **Operations answer some slots** on a record that is there or missing, whatever the key,
the policy and the time of the call. -/
def Answers (engine : Engine) (existing : Option Record) (ops : List Operation)
    (slots : List (Option OpResult)) : Prop :=
  ∀ (key : Key) (policy : WritePolicy) (now : UInt64), ∃ outcome,
    engine.operate existing key ops policy now = .ok outcome ∧ outcome.ordered = slots

/-- The reads of a call answer on a record with the bins after its writes what they answer
in the call. -/
theorem Phase.Runs.answers {phase : Phase} {plan : Plan} (h : phase.Runs engine bins ops)
    (hcheck : Plan.check ops = .ok plan) (hne : Plan.readsOf ops ≠ [])
    (hbins : record.bins = phase.bins) :
    engine.Answers (some record) (Plan.readsOf ops)
      (slotsOf false ops (phase.slots.map (·.2))) := by
  intro key policy now
  have hreads := Plan.check_readsOf hcheck hne
  obtain ⟨-, -, hdistinct, -⟩ := Plan.check_eq_ok_iff.mp hreads
  have hstart : (startingRecord ⟨false, none⟩ (some record) key policy).bins = phase.bins :=
    (bins_startingRecord (Or.inl rfl)).trans hbins
  have hrun := (congrArg (engine.run · (Plan.readsOf ops)) hstart).trans
    ((run_eq_ok_iff hdistinct).mpr h.readsOf)
  refine ⟨_, operate_eq_ok_iff.mpr ⟨_, _, hreads, rfl, hrun, rfl⟩, ?_⟩
  rw [h.slotsOf_reads, outcomeOf, List.map_map]
  rfl

/-- **The writes of a call** leave by themselves what the call leaves, and answer the same. -/
theorem operate_writesOf (h : engine.operate existing key ops policy now = .ok outcome)
    (hne : Plan.writesOf ops ≠ []) :
    ∃ written, engine.operate existing key (Plan.writesOf ops) policy now = .ok written ∧
      written.record = outcome.record ∧ written.ordered = slotsOf true ops outcome.ordered := by
  obtain ⟨plan, phase, hcheck, hpolicy, hrun, rfl⟩ := operate_eq_ok_iff.mp h
  have hwrites := Plan.check_writesOf hcheck hne
  obtain ⟨-, -, hdistinct, -⟩ := Plan.check_eq_ok_iff.mp hcheck
  obtain ⟨-, -, hdistinct', -⟩ := Plan.check_eq_ok_iff.mp hwrites
  have hruns := (run_eq_ok_iff hdistinct).mp hrun
  refine ⟨_, operate_eq_ok_iff.mpr
    ⟨plan, _, hwrites, hpolicy, (run_eq_ok_iff hdistinct').mpr hruns.writesOf, rfl⟩, rfl, ?_⟩
  rw [outcomeOf, outcomeOf, hruns.slotsOf_writes, List.map_map]
  rfl

/-- **The reads of a call** answer the same on the record that the call leaves. -/
theorem answers_readsOf (h : engine.operate existing key ops policy now = .ok outcome)
    (hrecord : outcome.record = some record) (hne : Plan.readsOf ops ≠ []) :
    engine.Answers (some record) (Plan.readsOf ops) (slotsOf false ops outcome.ordered) := by
  obtain ⟨plan, phase, hcheck, -, hrun, rfl⟩ := operate_eq_ok_iff.mp h
  obtain ⟨-, -, hdistinct, -⟩ := Plan.check_eq_ok_iff.mp hcheck
  exact ((run_eq_ok_iff hdistinct).mp hrun).answers hcheck hne (bins_of_finalRecord hrecord)

/-- **A call succeeds** if its writes do, and its reads on the record that they leave. -/
theorem operate_of_classes {written read : Outcome} {key' : Key} {policy' : WritePolicy}
    {now' : UInt64}
    (hwrites : engine.operate existing key (Plan.writesOf ops) policy now = .ok written)
    (hrecord : written.record = some record)
    (hreads : engine.operate (some record) key' (Plan.readsOf ops) policy' now' = .ok read) :
    ∃ outcome, engine.operate existing key ops policy now = .ok outcome ∧
      outcome.record = some record := by
  obtain ⟨plan, phase, hcheck, hpolicy, hrun, rfl⟩ := operate_eq_ok_iff.mp hwrites
  obtain ⟨plan', phase', hcheck', -, hrun', -⟩ := operate_eq_ok_iff.mp hreads
  have hcheckAll := Plan.check_of_classes hcheck hcheck'
  obtain ⟨-, -, hdistinct, -⟩ := Plan.check_eq_ok_iff.mp hcheck
  obtain ⟨-, -, hdistinct', -, rfl⟩ := Plan.check_eq_ok_iff.mp hcheck'
  obtain ⟨-, -, hdistinctAll, -⟩ := Plan.check_eq_ok_iff.mp hcheckAll
  -- the reads have run on the bins of the record, which are those after the writes
  have hreadOnly : (!(Plan.writesOf (Plan.readsOf ops)).isEmpty) = false := by
    rw [Plan.writesOf_readsOf]
    rfl
  rw [bins_startingRecord (Or.inl hreadOnly), bins_of_finalRecord hrecord] at hrun'
  have hruns := ((run_eq_ok_iff hdistinct).mp hrun).of_classes ((run_eq_ok_iff hdistinct').mp hrun')
  exact ⟨_, operate_eq_ok_iff.mpr
    ⟨plan, _, hcheckAll, hpolicy, (run_eq_ok_iff hdistinctAll).mpr hruns, rfl⟩, hrecord⟩

/-! ### Calls that delete -/

/-- A call about a record as a whole needs a record. -/
theorem isSome_of_checkPolicy {plan : Plan} (h : checkPolicy plan existing policy = .ok ())
    (hwrite : plan.hasWrite = true) (hlevel : plan.recordLevel.isSome = true) :
    existing.isSome = true := by
  cases existing with
  | some record => rfl
  | none =>
    rw [checkPolicy, if_pos hwrite, hlevel] at h
    cases h

/-- A delete is the only write of a legal list. -/
theorem writesOf_eq_of_delete {plan : Plan} (hcheck : Plan.check ops = .ok plan)
    (hdelete : .delete ∈ ops) :
    Plan.writesOf ops = [.delete] ∧ plan.hasWrite = true ∧ plan.recordLevel.isSome = true := by
  obtain ⟨-, -, -, hsingle, rfl⟩ := Plan.check_eq_ok_iff.mp hcheck
  have hmem : Operation.delete ∈ Plan.writesOf ops := Plan.mem_writesOf.mpr ⟨hdelete, rfl⟩
  have hlevel : (Plan.recordLevelOf ops).isSome = true :=
    List.find?_isSome.mpr ⟨.delete, List.mem_reverse.mpr hmem, rfl⟩
  obtain ⟨op, hop⟩ : ∃ op, Plan.writesOf ops = [op] :=
    List.length_eq_one_iff.mp (Nat.le_antisymm (hsingle hlevel) (List.length_pos_of_mem hmem))
  rw [hop] at hmem ⊢
  obtain rfl := List.mem_singleton.mp hmem
  exact ⟨rfl, rfl, hlevel⟩

/-- **The reads of a call that deletes its record** answer the same on the record before. -/
theorem answers_readsOf_of_delete
    (h : engine.operate existing key ops policy now = .ok outcome) (hdelete : .delete ∈ ops)
    (hne : Plan.readsOf ops ≠ []) :
    engine.Answers existing (Plan.readsOf ops) (slotsOf false ops outcome.ordered) := by
  obtain ⟨plan, phase, hcheck, hpolicy, hrun, rfl⟩ := operate_eq_ok_iff.mp h
  obtain ⟨hwrites, hwrite, hlevel⟩ := writesOf_eq_of_delete hcheck hdelete
  obtain ⟨record, rfl⟩ := Option.isSome_iff_exists.mp (isSome_of_checkPolicy hpolicy hwrite hlevel)
  obtain ⟨-, -, hdistinct, -⟩ := Plan.check_eq_ok_iff.mp hcheck
  rw [bins_startingRecord (Or.inr hlevel)] at hrun
  have hruns := (run_eq_ok_iff hdistinct).mp hrun
  have hbins : record.bins = phase.bins := by
    refine Written.unique (.of_unaddressed engine record.bins fun op hop hclass => ?_) hruns.written
    have hmem := Plan.mem_writesOf.mpr ⟨hop, hclass⟩
    rw [hwrites] at hmem
    obtain rfl := List.mem_singleton.mp hmem
    rfl
  exact hruns.answers hcheck hne hbins

/-! ### Whole calls -/

/-- **A call is its writes followed by its reads.** If it leaves a record, its writes alone
leave the same record and answer the same, and its reads answer the same on that record,
under any policy. If its writes leave a record and its reads succeed on it, the call leaves
that record. And if it deletes its record, its reads answer what they answer on the record
before. -/
theorem writes_then_reads (engine : Engine) (existing : Option Record) (key : Key)
    (ops : List Operation) (policy : WritePolicy) (now : UInt64) :
    (∀ outcome record, engine.operate existing key ops policy now = .ok outcome →
        outcome.record = some record →
          (Plan.writesOf ops ≠ [] → ∃ written,
            engine.operate existing key (Plan.writesOf ops) policy now = .ok written ∧
              written.record = some record ∧
              written.ordered = slotsOf true ops outcome.ordered) ∧
          (Plan.readsOf ops ≠ [] → engine.Answers (some record) (Plan.readsOf ops)
            (slotsOf false ops outcome.ordered))) ∧
      (∀ written record key' policy' now' read,
        engine.operate existing key (Plan.writesOf ops) policy now = .ok written →
        written.record = some record →
        engine.operate (some record) key' (Plan.readsOf ops) policy' now' = .ok read →
          ∃ outcome, engine.operate existing key ops policy now = .ok outcome ∧
            outcome.record = some record) ∧
      ∀ outcome, engine.operate existing key ops policy now = .ok outcome →
        .delete ∈ ops → Plan.readsOf ops ≠ [] →
          engine.Answers existing (Plan.readsOf ops) (slotsOf false ops outcome.ordered) := by
  refine ⟨?_, ?_, fun outcome => answers_readsOf_of_delete⟩
  · intro outcome record h hrecord
    refine ⟨fun hne => ?_, answers_readsOf h hrecord⟩
    obtain ⟨written, hwritten, hsame, hslots⟩ := operate_writesOf h hne
    exact ⟨written, hwritten, hsame.trans hrecord, hslots⟩
  · intro written record key' policy' now' read
    exact operate_of_classes

/-- A read that stands in front of an increment sees it, in the call and on the record that
the call leaves; in front of a delete it sees the record before. -/
theorem read_before_increment :
    let key : Key := ⟨"test", "demo", none, ⟨List.replicate 20 0, rfl⟩⟩
    let record : Record := ⟨key, Named.ofList [("n", .integer 1)], { generation := 1 }⟩
    let read : Operation := .read "n"
    let engine : Engine := {}
    (∃ outcome left,
      engine.operate (some record) key [read, .increment "n" (.integer 2)] {} 5 = .ok outcome ∧
        outcome.record = some left ∧ outcome.ordered = [some (.scalar (.integer 3)), none] ∧
        engine.Answers (some left) [read] [some (.scalar (.integer 3))]) ∧
      engine.Answers (some record) [read] [some (.scalar (.integer 1))] := by
  intro key record read engine
  obtain ⟨hleft, -, -⟩ :=
    writes_then_reads engine (some record) key [read, .increment "n" (.integer 2)] {} 5
  obtain ⟨-, -, hdeleted⟩ := writes_then_reads engine (some record) key [read, .delete] {} 5
  refine ⟨⟨_, _, rfl, rfl, rfl, (hleft _ _ rfl rfl).2 ?_⟩, hdeleted _ rfl ?_ ?_⟩
  · exact List.cons_ne_nil _ _
  · exact List.mem_cons_of_mem _ List.mem_cons_self
  · exact List.cons_ne_nil _ _

end Engine

end RecordStore
