import RecordStore.Proofs.Engine.Outcome
import RecordStore.Proofs.Engine.Phases

/-!
# What a put leaves

A call that only stores values in bins (`RecordStore.Engine.OnlyWrites`) cannot fail behind its
checks, and what it leaves is said bin by bin (`RecordStore.Engine.OnlyWrites.spec`). The policy
decides which bins it starts from (`RecordStore.Engine.putBase`).

A put is such a call, with one write for each of its bins (`RecordStore.Engine.putOps`): a bin
holds afterwards what the put writes there, or nothing if that is null, or what was there before
(`RecordStore.Engine.Written.get?_put`).

The second half is about time. The void time that a write sets is after the write
(`RecordStore.Expiration.lt_resolve`), so that nobody can put a record which is gone at
once. Two things would break this and are ruled out: a lifetime of zero seconds, which has
no wire form, and the last moment that time can express.
-/

namespace RecordStore

/-! ### Bins -/

namespace Bins

/-- **What a bin holds after a put** over some bins: what the put writes there, where null
is nothing, or what it held. -/
def afterPut (base puts : Bins) (name : String) : Option Value :=
  match puts.get? name with
  | some value => if value.isNull then none else some value
  | none => base.get? name

/-- A write leaves what it writes in its bin; null leaves nothing. -/
theorem get?_write_self (bins : Bins) (name : String) (value : Value) :
    (bins.write name value).get? name = if value.isNull then none else some value := by
  rw [write]
  split
  · rw [Named.get?_erase, if_pos rfl]
  · rw [Named.get?_insert, if_pos rfl]

end Bins

namespace Engine

variable {engine : Engine} {existing : Option Record} {key : Key} {bins base : Bins}
  {policy : WritePolicy} {now : UInt64} {outcome : Outcome}

/-! ### Calls that only store values -/

/-- **Operations that only store values** in bins. -/
def OnlyWrites (ops : List Operation) : Prop := ∀ op ∈ ops, ∃ name value, op = .write name value

/-- **The bins that a write starts from**: those of the record that is there, or none if
there is no record or the policy drops them. -/
def putBase (existing : Option Record) (policy : WritePolicy) : Bins :=
  if policy.action.replacesBins then Named.empty else existing.elim Named.empty Record.bins

theorem bins_startingRecord_put {plan : Plan} (h : plan = ⟨true, none⟩)
    (existing : Option Record) (key : Key) (policy : WritePolicy) :
    (startingRecord plan existing key policy).bins = putBase existing policy := by
  have hdrop : (plan.hasWrite && plan.recordLevel.isNone && policy.action.replacesBins) =
      policy.action.replacesBins := by
    rw [h]
    rfl
  unfold startingRecord putBase
  simp only [hdrop]
  split
  · rfl
  · cases existing with
    | none => rfl
    | some record =>
      dsimp only
      split <;> rfl

/-- **The record that a put leaves** with some bins: it has the marks of one more write. -/
def putRecord (engine : Engine) (existing : Option Record) (key : Key) (policy : WritePolicy)
    (now : UInt64) (bins : Bins) : Record where
  key := (startingRecord ⟨true, none⟩ existing key policy).key
  bins := bins
  metadata :=
    { generation := existing.elim 0 Record.generation + 1
      voidTime := engine.voidTimeAfter existing policy.ttl now
      lastUpdateTime := now }

namespace OnlyWrites

variable {ops : List Operation} {plan : Plan}

theorem writesOf_eq (hops : OnlyWrites ops) : Plan.writesOf ops = ops := by
  refine List.filter_eq_self.mpr fun op hop => ?_
  obtain ⟨name, value, rfl⟩ := hops op hop
  rfl

theorem recordLevelOf_eq (hops : OnlyWrites ops) : Plan.recordLevelOf ops = none := by
  rw [Plan.recordLevelOf, hops.writesOf_eq]
  refine List.find?_eq_none.mpr fun op hop => ?_
  obtain ⟨name, value, rfl⟩ := hops op (List.mem_reverse.mp hop)
  exact Bool.false_ne_true

/-- Such a call writes, and is not about the record as a whole. -/
theorem plan_eq (hops : OnlyWrites ops) (h : Plan.check ops = .ok plan) : plan = ⟨true, none⟩ := by
  obtain ⟨hne, -, -, -, rfl⟩ := Plan.check_eq_ok_iff.mp h
  rw [hops.recordLevelOf_eq, hops.writesOf_eq, List.isEmpty_eq_false_iff.mpr hne]
  rfl

/-- **Behind its checks nothing fails.** -/
theorem exists_outcome (hops : OnlyWrites ops) (hplan : Plan.check ops = .ok plan)
    (hpolicy : checkPolicy plan existing policy = .ok ()) :
    ∃ outcome, engine.operate existing key ops policy now = .ok outcome := by
  obtain ⟨-, -, hdistinct, -⟩ := Plan.check_eq_ok_iff.mp hplan
  have hspec := engine.run_spec (startingRecord plan existing key policy).bins hdistinct
  cases hrun : engine.run (startingRecord plan existing key policy).bins ops with
  | ok phase => exact ⟨_, operate_eq_ok_iff.mpr ⟨plan, phase, hplan, hpolicy, hrun, rfl⟩⟩
  | error e =>
    rw [hrun] at hspec
    rcases hspec with ⟨op, hop, -, herror⟩ | ⟨written, -, op, hop, hread, -⟩
    · obtain ⟨name, value, rfl⟩ := hops op hop
      cases herror
    · obtain ⟨name, value, rfl⟩ := hops op hop
      cases hread

/-- **What such a call leaves**: no record if there are no bins after its writes, and otherwise a
record with these bins. -/
theorem spec (hops : OnlyWrites ops)
    (h : engine.operate existing key ops policy now = .ok outcome) :
    outcome.wrote = true ∧ ∃ after : Bins,
      engine.Written (putBase existing policy) ops after ∧
      outcome.record =
        if after.isEmpty then none else some (engine.putRecord existing key policy now after) := by
  obtain ⟨plan, phase, hcheck, -, hrun, rfl⟩ := operate_eq_ok_iff.mp h
  obtain ⟨-, -, hdistinct, -⟩ := Plan.check_eq_ok_iff.mp hcheck
  obtain rfl := hops.plan_eq hcheck
  have hwritten := ((run_eq_ok_iff hdistinct).mp hrun).written
  rw [bins_startingRecord_put rfl] at hwritten
  refine ⟨rfl, phase.bins, hwritten, ?_⟩
  have hmetadata := startingRecord_metadata ⟨true, none⟩ existing key policy
  simp only [outcomeOf, finalRecord, Bool.not_true, Bool.false_eq_true, if_false, Record.stamp,
    hmetadata, lifetime, putRecord, voidTimeAfter]
  cases existing <;> rfl

end OnlyWrites

/-! ### Puts -/

/-- The operations of a put, one for each bin. -/
def putOps (bins : Bins) : List Operation := bins.entries.map fun e => .write e.1 e.2

/-- Every operation of a put is a write of one of its bins. -/
theorem mem_putOps {op : Operation} :
    op ∈ putOps bins ↔ ∃ name value, bins.get? name = some value ∧ op = .write name value := by
  rw [putOps, List.mem_map]
  constructor
  · rintro ⟨⟨name, value⟩, hmem, rfl⟩
    exact ⟨name, value, Named.get?_eq_some_iff.mpr hmem, rfl⟩
  · rintro ⟨name, value, hget, rfl⟩
    exact ⟨(name, value), Named.get?_eq_some_iff.mp hget, rfl⟩

theorem onlyWrites_putOps (bins : Bins) : OnlyWrites (putOps bins) := fun op hop => by
  obtain ⟨name, value, -, rfl⟩ := mem_putOps.mp hop
  exact ⟨name, value, rfl⟩

/-- **The bins after the writes of a put**, bin by bin. -/
theorem Written.get?_put {written : Bins} (h : engine.Written base (putOps bins) written)
    (name : String) : written.get? name = base.afterPut bins name := by
  rw [Bins.afterPut]
  cases hget : bins.get? name with
  | some value =>
    have hop := mem_putOps.mpr ⟨name, value, hget, rfl⟩
    rw [h.addressed _ hop rfl name rfl]
    exact base.get?_write_self name value
  | none =>
    refine h.others name fun op hop _ hbin => ?_
    obtain ⟨other, value, hother, rfl⟩ := mem_putOps.mp hop
    obtain rfl := Option.some_inj.mp hbin
    rw [hother] at hget
    cases hget

end Engine

/-! ### The void time of a record that was just written -/

/-- A record is not expired as long as its void time is to come. -/
theorem Metadata.isExpired_eq_false_iff {m : Metadata} {now : UInt64} :
    m.isExpired now = false ↔ ∀ void, m.voidTime = some void → now < void := by
  rw [isExpired]
  cases m.voidTime with
  | none => simp
  | some void => simp

namespace Expiration

variable {now : UInt64}

/-- Time goes on in milliseconds, and stops at its greatest value. -/
theorem toNat_voidAfter (now : UInt64) (seconds : UInt32) :
    (voidAfter now seconds).toNat =
      min (now.toNat + 1000 * seconds.toNat) (UInt64.size - 1) := by
  have hbound : min (now.toNat + seconds.toNat * millisPerSecond) (UInt64.size - 1) <
      UInt64.size := Nat.lt_of_le_of_lt (Nat.min_le_right _ _) (by decide)
  rw [voidAfter, UInt64.toNat_ofNat_of_lt' hbound, millisPerSecond, Nat.mul_comm]

/-- Some seconds later is later, but for the end of time. -/
theorem lt_voidAfter (hnow : now.toNat + 1 < UInt64.size) {seconds : UInt32}
    (hseconds : seconds ≠ 0) : now < voidAfter now seconds := by
  have hpositive : 0 < seconds.toNat :=
    Nat.pos_of_ne_zero fun hzero => hseconds (UInt32.toNat_inj.mp hzero)
  rw [UInt64.lt_iff_toNat_lt, toNat_voidAfter]
  omega

/-- **A void time that a write sets is after the write**, if that of the record before it
is. -/
theorem lt_resolve {e : Expiration} (hnow : now.toNat + 1 < UInt64.size) (he : e ≠ .after 0)
    {default : UInt32} {current : Option UInt64} {live : Bool}
    (hcurrent : ∀ void, current = some void → now < void) {void : UInt64}
    (h : e.resolve now default current live = some void) : now < void := by
  have hdefault : (if default = 0 then none else some (voidAfter now default)) = some void →
      now < void := by
    intro hvoid
    split at hvoid
    · cases hvoid
    · rename_i hpositive
      rw [← Option.some_inj.mp hvoid]
      exact lt_voidAfter hnow hpositive
  cases e with
  | after seconds =>
    rw [← Option.some_inj.mp h]
    exact lt_voidAfter hnow fun hzero => he (hzero ▸ rfl)
  | namespaceDefault => exact hdefault h
  | never => cases h
  | unchanged =>
    cases live with
    | true => exact hcurrent void h
    | false => exact hdefault h

end Expiration

end RecordStore
