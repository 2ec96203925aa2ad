import Mathlib.Data.List.FinRange
import RecordStore.Proofs.Engine.Outcome
import RecordStore.Proofs.Engine.Phases
import RecordStore.Proofs.Engine.Plan

/-!
# The order of operations

The operations of a call may be put in any other order: the call succeeds as before,
it leaves the same record, and each operation answers what it answered
(`RecordStore.Engine.operate_reordered`).

Both halves of the reason have been proved before. The check of the operations and
the plan do not depend on the order (`RecordStore.Plan.check_of_perm`), and neither
do the two phases (`RecordStore.Engine.Phase.Runs.reorder`). What does depend on it
is which error is reported when more than one thing is wrong, and the answer that is
kept for a bin with several answers.
-/

namespace RecordStore

namespace Engine

variable {engine : Engine} {existing : Option Record} {key : Key} {ops ops' : List Operation}
  {policy : WritePolicy} {now : UInt64}

/-- **What a call answers depends on the operations alone**, and not on where they
stand. -/
theorem operate_of_perm {outcome : Outcome} (hperm : ops.Perm ops')
    (h : engine.operate existing key ops policy now = .ok outcome) :
    ∃ (outcome' : Outcome) (slot : Operation → Option OpResult),
      engine.operate existing key ops' policy now = .ok outcome' ∧
        outcome'.record = outcome.record ∧ outcome'.wrote = outcome.wrote ∧
        outcome.ordered = ops.map slot ∧ outcome'.ordered = ops'.map slot := by
  obtain ⟨plan, phase, hplan, hpolicy, hrun, rfl⟩ := operate_eq_ok_iff.mp h
  have hplan' := Plan.check_of_perm hperm hplan
  obtain ⟨-, -, hdistinct, -, -⟩ := Plan.check_eq_ok_iff.mp hplan
  obtain ⟨-, -, hdistinct', -, -⟩ := Plan.check_eq_ok_iff.mp hplan'
  let bins := (startingRecord plan existing key policy).bins
  have hruns := engine.run_spec bins hdistinct
  rw [hrun] at hruns
  obtain ⟨phase', hrun', hbins, hslots⟩ := hruns.reorder (fun op => hperm.mem_iff) hdistinct'
  let slot := fun op : Operation => engine.answer (if op.isWrite then bins else phase.bins) op
  refine ⟨engine.outcomeOf plan phase' existing key policy now, slot,
    operate_eq_ok_iff.mpr ⟨plan, phase', hplan', hpolicy, hrun', rfl⟩, ?_, rfl, ?_, ?_⟩
  · rw [outcomeOf, outcomeOf, hbins]
  · rw [outcomeOf, hruns.slots_eq, List.map_map]
    rfl
  · rw [outcomeOf, hslots, List.map_map]
    rfl

/-- **Two calls agree up to the order** of their operations: both fail, or both leave
the same record, and the slot of each operation of the second call holds what the
first one answered to it. -/
inductive AgreeUpTo {n : Nat} (order : Equiv.Perm (Fin n)) :
    Except Error Outcome → Except Error Outcome → Prop where
  /-- Both succeed. -/
  | success {outcome outcome' : Outcome} (hrecord : outcome'.record = outcome.record)
      (hwrote : outcome'.wrote = outcome.wrote) (hlength : outcome.ordered.length = n)
      (hlength' : outcome'.ordered.length = n)
      (hslots : ∀ i : Fin n, outcome'.ordered[i.val]? = outcome.ordered[(order i).val]?) :
      AgreeUpTo order (.ok outcome) (.ok outcome')
  /-- Both fail. -/
  | failure (error error' : Error) : AgreeUpTo order (.error error) (.error error')

/-- **A call does not depend on the order of its operations.** Whatever the record,
the policy and the time, the call with the operations in another order agrees with
the call, up to that order. -/
theorem operate_reordered (engine : Engine) (existing : Option Record) (key : Key)
    (ops : List Operation) (policy : WritePolicy) (now : UInt64)
    (order : Equiv.Perm (Fin ops.length)) :
    AgreeUpTo order (engine.operate existing key ops policy now)
      (engine.operate existing key (List.ofFn fun i => ops[order i]) policy now) := by
  have hperm : (List.ofFn fun i => ops[order i]).Perm ops := by
    have hget := order.ofFn_comp_perm ops.get
    rwa [List.ofFn_get] at hget
  cases h : engine.operate existing key ops policy now with
  | ok outcome =>
    obtain ⟨outcome', slot, h', hrecord, hwrote, hordered, hordered'⟩ :=
      operate_of_perm hperm.symm h
    rw [h']
    refine .success hrecord hwrote (by simp [hordered]) (by simp [hordered']) fun i => ?_
    simp [hordered, hordered']
  | error error =>
    cases h' : engine.operate existing key (List.ofFn fun i => ops[order i]) policy now with
    | ok outcome' =>
      -- then the call would succeed with its operations put back in order
      obtain ⟨outcome, -, hback, -⟩ := operate_of_perm hperm h'
      rw [h] at hback
      cases hback
    | error error' => exact .failure error error'

end Engine

end RecordStore
