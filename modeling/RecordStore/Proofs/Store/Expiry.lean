import Mathlib.Data.List.Forall2
import RecordStore.Proofs.Store.Steps

/-!
# Expiry, early and late

A store may drop its expired records at once or never: nobody can tell. The file
compares two runs of the same calls. In one of them sweeps stand between the
calls, wherever and as often as one likes (`RecordStore.Store.Step`); in the other
there are none, and expired records stay until a call happens to remove them.

The stores of the two runs are alike at all times
(`RecordStore.Store.Alike`), because a sweep leaves a store that is alike, and a
call leaves stores alike that were alike before (`RecordStore.Store.Alike.call`).
That is the invariant which carries the induction over the run. Two verbs can tell
the difference, and they can only by the number they answer: a truncation and a
sweep count what they remove (`RecordStore.Store.Call.Agrees`).
-/

namespace RecordStore

namespace Store

variable {s s' : Store} {now t : UInt64}

/-! ### One call on two stores -/

/-- **Two answers to a call agree.** They are the same, up to the number of removed
records where the call answers one. -/
def Call.Agrees (call : Call) (a b : Except Error Answer) : Prop :=
  match call with
  | .truncate .. | .reapExpired => a.map (fun _ => ()) = b.map fun _ => ()
  | _ => a = b

theorem Call.Agrees.of_eq {call : Call} {a b : Except Error Answer} (h : a = b) :
    call.Agrees a b := by
  subst h
  unfold Call.Agrees
  split <;> rfl

/-- A truncation agrees on any two stores: whether it fails is a matter of its
threshold. What it keeps does not depend on what is expired. -/
theorem Alike.truncate (h : Alike now s s') (set : Option String) (before : Option UInt64) :
    (Call.truncate set before).Agrees ((Call.truncate set before).run s now).result
        ((Call.truncate set before).run s' now).result ∧
      Alike now ((Call.truncate set before).run s now).state
        ((Call.truncate set before).run s' now).state := by
  simp only [Call.Agrees, Call.run, Store.truncate]
  cases before.filter (now < ·) with
  | some before => exact ⟨rfl, h⟩
  | none => exact ⟨rfl, h.filter _⟩

/-- **A call on stores that are alike** gets answers that agree, and leaves the
stores alike. -/
theorem Alike.call (h : Alike now s s') (call : Call) :
    call.Agrees (call.run s now).result (call.run s' now).result ∧
      Alike now (call.run s now).state (call.run s' now).state := by
  cases call.form with
  | reads hstate hresult =>
    rw [hstate, hstate]
    exact ⟨.of_eq (hresult s s' now (h.readsAlike (UInt64.le_refl now))), h⟩
  | onRecord single hsingle =>
    have hengine : s.engine = s'.engine := by rw [engine, engine, h.settings_eq]
    obtain ⟨hresult, hstate⟩ := h.run single.key (single.ask s.engine now)
    rw [Call.run_single hsingle, Call.run_single hsingle, RecordCall.run, RecordCall.run, ← hengine]
    exact ⟨.of_eq (congrArg (·.bind single.answer) hresult), hstate⟩
  | truncates set before hcall =>
    subst hcall
    exact h.truncate set before
  | sweeps hcall =>
    subst hcall
    exact ⟨rfl, (Alike.reapExpired s now).trans (h.trans (Alike.reapExpired s' now).symm)⟩

/-! ### Runs with sweeps in between -/

/-- A step of a run with sweeps in between. -/
inductive Step where
  /-- A call of the run. -/
  | call (call : Call) (now : UInt64)
  /-- A sweep that was put in. -/
  | sweep (now : UInt64)

namespace Step

/-- When the step is taken. -/
def time : Step → UInt64
  | .call _ now | .sweep now => now

/-- The step as a call with its time; a sweep drops every expired record. -/
def entry : Step → Call × UInt64
  | .call c now => (c, now)
  | .sweep now => (.reapExpired, now)

/-- The call of the run that the step is. -/
def call? : Step → Option (Call × UInt64)
  | .call c now => some (c, now)
  | .sweep _ => none

end Step

/-- The answers to the calls of a run, without those to its sweeps. -/
def answersOfCalls : List Step → List (Except Error Answer) → List (Except Error Answer)
  | .call _ _ :: steps, answer :: answers => answer :: answersOfCalls steps answers
  | .sweep _ :: steps, _ :: answers => answersOfCalls steps answers
  | _, _ => []

/-- The invariant of the two runs: the stores are alike at the time of the last
step, and no step is taken before it. -/
theorem Alike.replay (steps : List Step) (h : Alike now s s')
    (hstart : ∀ step ∈ steps, now ≤ step.time)
    (hordered : steps.Pairwise fun a b => a.time ≤ b.time) :
    List.Forall₂ (fun (call : Call × UInt64) (answers : _ × _) =>
        call.1.Agrees answers.1 answers.2)
      (steps.filterMap Step.call?)
      ((Store.replay s (steps.filterMap Step.call?)).1.zip
        (answersOfCalls steps (Store.replay s' (steps.map Step.entry)).1)) := by
  induction steps generalizing now s s' with
  | nil => exact .nil
  | cons step steps ih =>
    obtain ⟨hfirst, hrest⟩ := List.pairwise_cons.mp hordered
    have hnow : Alike step.time s s' := h.mono (hstart step List.mem_cons_self)
    cases step with
    | call call t =>
      obtain ⟨hagrees, hstate⟩ := hnow.call call
      exact .cons hagrees (ih hstate hfirst hrest)
    | sweep t =>
      -- the run without sweeps does not move, and need not
      exact ih (hnow.trans (Alike.reapExpired s' t).symm) hfirst hrest

/-- **Nobody can tell whether expired records are dropped early or late.** Of a run in
which time does not go back, take the sweeps away that were put in: every call
gets an answer with them and an answer without them, and the two agree. -/
theorem sweeps_are_unseen (s : Store) (steps : List Step)
    (hordered : steps.Pairwise fun a b => a.time ≤ b.time) :
    let calls := steps.filterMap Step.call?
    let lazy := (replay s calls).1
    let eager := answersOfCalls steps (replay s (steps.map Step.entry)).1
    ∀ (i : Nat) (call : Call) (now : UInt64), calls[i]? = some (call, now) →
      ∃ a b, lazy[i]? = some a ∧ eager[i]? = some b ∧ call.Agrees a b := by
  intro calls lazy eager i call now hcall
  have hruns := (Alike.refl 0 s).replay steps (fun step _ => UInt64.zero_le) hordered
  obtain ⟨hlength, hagrees⟩ := List.forall₂_iff_get.mp hruns
  obtain ⟨hi, hget⟩ := List.getElem?_eq_some_iff.mp hcall
  have hi' : i < (lazy.zip eager).length := hlength ▸ hi
  have hlazy : i < lazy.length := List.lt_length_left_of_zip hi'
  have heager : i < eager.length := List.lt_length_right_of_zip hi'
  refine ⟨lazy[i], eager[i], List.getElem?_eq_getElem hlazy, List.getElem?_eq_getElem heager, ?_⟩
  have hpair : (lazy.zip eager)[i] = (lazy[i], eager[i]) := List.getElem_zip
  have hagree : calls[i].1.Agrees (lazy.zip eager)[i].1 (lazy.zip eager)[i].2 :=
    hagrees i hi hi'
  rw [hpair, hget] at hagree
  exact hagree

/-- A record that lives for ten seconds is swept in one run and lingers in the
other; only the truncation that removes it there counts differently. -/
theorem only_truncate_counts_the_sweep :
    let key : Key := ⟨"test", "demo", none, ⟨List.replicate 20 0, rfl⟩⟩
    let bins : Bins := Named.ofList [("n", .integer 1)]
    let steps : List Step :=
      [.call (.put key bins { ttl := .after 10 }) 0, .sweep 5000, .call (.get key) 5000,
        .sweep 20000, .call (.truncate none none) 20000, .call .size 20000]
    let lazy := (replay (empty {}) (steps.filterMap Step.call?)).1
    let eager := answersOfCalls steps (replay (empty {}) (steps.map Step.entry)).1
    lazy[2]? = some (.ok (.count 1)) ∧ eager[2]? = some (.ok (.count 0)) ∧
      ∃ a b, lazy[3]? = some a ∧ eager[3]? = some b ∧ Call.size.Agrees a b := by
  intro key bins steps lazy eager
  refine ⟨rfl, rfl, ?_⟩
  exact sweeps_are_unseen (empty {}) steps (by decide) 3 .size 20000 rfl

end Store

end RecordStore
