import RecordStore.Proofs.Engine.Outcome
import RecordStore.Proofs.Store.Steps

/-!
# Calls that fail

A call that fails may have changed the store: the record that it is about is
dropped, if it is expired, before the engine is asked. This file shows that
nothing else happens and that nobody can see it
(`RecordStore.Store.failed_call_leaves_no_trace`).

One verb is not safe by its shape alone. A touch fails *after* its write when the
write leaves no record, and a touch of a record without bins would leave none. It
never comes to that, because a store that has a history holds no such record
(`RecordStore.Store.Reachable.filled`).
-/

namespace RecordStore

namespace Store

variable {s : Store} {now : UInt64}

/-! ### Records without bins -/

/-- No record of the store is without bins. -/
def Filled (s : Store) : Prop := ∀ e ∈ s.records, e.2.bins.isEmpty = false

/-- No call leaves a record without bins. -/
theorem Filled.run (h : s.Filled) (call : Call) (now : UInt64) : (call.run s now).state.Filled := by
  intro e he
  rcases Call.mem_run he with he | ⟨single, -, outcome, -, hask, hwrote, -, hrecord⟩
  · exact h e he
  · exact Engine.isEmpty_of_operate (RecordCall.operate_of_ask hask) hwrote hrecord

/-- **A store with a history holds no record without bins.** -/
theorem Reachable.filled (h : s.Reachable) : s.Filled := by
  obtain ⟨settings, history, rfl⟩ := h
  exact replay_invariant (Q := fun _ => True) (fun call s now _ hs => hs.run call now) history
    (fun _ _ => trivial) fun e he => absurd he List.not_mem_nil

/-- A touch that gets an outcome leaves a record. -/
theorem Filled.isSome_of_touch (h : s.Filled) {key : Key} {ttl : Expiration} {outcome : Outcome}
    (hoperate : s.engine.operate (s.live? key.digest now) key [.touch (some ttl)] {} now =
      .ok outcome) : outcome.record.isSome := by
  cases hlive : s.live? key.digest now with
  | none =>
    rw [hlive] at hoperate
    cases hoperate
  | some record =>
    have hbins : record.bins.isEmpty = false := h _ (mem_of_live? hlive)
    rw [hlive, Engine.operate_touch] at hoperate
    obtain rfl := Except.ok.inj hoperate
    simp [hbins]

/-- **A touch that has written answers.** -/
theorem Filled.touch_answers (h : s.Filled) {key : Key} {ttl : Expiration} {outcome : Outcome}
    (hoperate : (s.operate key [.touch (some ttl)] {} now).result = .ok outcome) :
    ∃ m, (s.touch key ttl now).result = .ok m := by
  have hsome := h.isSome_of_touch (run_result_eq_ok_iff.mp hoperate).2
  obtain ⟨record, hrecord⟩ := Option.isSome_iff_exists.mp hsome
  refine ⟨record.metadata, Attempt.mapResult_result_eq_ok_iff.mpr ⟨outcome, hoperate, ?_⟩⟩
  rw [metadataOf, hrecord]

/-- An outcome that the engine has for a call on one record is answered. -/
theorem Filled.answers (h : s.Filled) {call : RecordCall} (hanswers : call.Answers)
    {outcome : Outcome}
    (hask : call.ask s.engine now (s.live? call.key.digest now) = .ok outcome) :
    ∃ a, call.answer outcome = .ok a := by
  rcases hanswers with hall | ⟨ttl, hops, hpolicy, hsome⟩
  · exact hall outcome
  · have hoperate := RecordCall.operate_of_ask hask
    rw [hops, hpolicy] at hoperate
    exact hsome outcome (h.isSome_of_touch hoperate)

/-! ### What a failure leaves -/

/-- **A call that fails** leaves the store, or the store without one record that is
expired. -/
theorem Filled.state_of_failed (h : s.Filled) {call : Call} {e : Error}
    (hfail : (call.run s now).result = .error e) :
    (call.run s now).state = s ∨ ∃ digest, (call.run s now).state = s.reap digest now := by
  cases call.form with
  | reads hstate _ => exact Or.inl (hstate s now)
  | onRecord single hsingle =>
    rw [Call.run_single hsingle] at hfail ⊢
    rcases Attempt.mapResult_result_eq_error_iff.mp hfail with hrunfail | ⟨outcome, hok, herror⟩
    · exact (run_failed hrunfail).imp_right fun hreap => ⟨single.key.digest, hreap⟩
    · -- the engine has an outcome, so the call has an answer
      obtain ⟨a, hanswer⟩ := h.answers (Call.answers_single hsingle) (run_result_eq_ok_iff.mp hok).2
      rw [hanswer] at herror
      cases herror
  | truncates set before hcall =>
    subst hcall
    refine Or.inl ?_
    simp only [Call.run, Store.truncate] at hfail ⊢
    split at hfail
    · rfl
    · cases hfail
  | sweeps hcall =>
    subst hcall
    cases hfail

/-- **A call that fails leaves no trace.** It leaves the store as it is, up to one
expired record, so that from its time on every read answers what it would have
answered without the call. In particular no call fails after its write: a touch
that has written answers. -/
theorem failed_call_leaves_no_trace (h : s.Reachable) :
    (∀ (call : Call) (now : UInt64) (e : Error), (call.run s now).result = .error e →
      ((call.run s now).state = s ∨ ∃ digest, (call.run s now).state = s.reap digest now) ∧
        ∀ t, now ≤ t → ReadsAlike (call.run s now).state s t) ∧
      ∀ (key : Key) (ttl : Expiration) (now : UInt64) (outcome : Outcome),
        (s.operate key [.touch (some ttl)] {} now).result = .ok outcome →
          ∃ m, (s.touch key ttl now).result = .ok m := by
  refine ⟨fun call now e hfail => ?_, fun key ttl now outcome => h.filled.touch_answers⟩
  have hstate := h.filled.state_of_failed hfail
  refine ⟨hstate, fun t ht => ?_⟩
  rcases hstate with hsame | ⟨digest, hreap⟩
  · rw [hsame]
    exact (Alike.refl now s).readsAlike ht
  · rw [hreap]
    exact (Alike.reap s digest now).readsAlike ht

/-- An update of a record that has expired in the meantime fails, drops the record,
and is not seen; a touch of the record in time is answered. -/
theorem failed_update_leaves_no_trace :
    let key : Key := ⟨"test", "demo", none, ⟨List.replicate 20 0, rfl⟩⟩
    let bins : Bins := Named.ofList [("n", .integer 1)]
    let s := (replay (empty {}) [(.put key bins { ttl := .after 10 }, 0)]).2
    let update : Call := .put key bins { action := .update }
    (update.run s 20000).result = .error .recordNotFound ∧
      (update.run s 20000).state = s.reap key.digest 20000 ∧
      ReadsAlike (update.run s 20000).state s 30000 ∧
      ∃ m, (s.touch key .never 5000).result = .ok m := by
  intro key bins s update
  have hs : s.Reachable := ⟨{}, [(.put key bins { ttl := .after 10 }, 0)], rfl⟩
  have htrace := failed_call_leaves_no_trace hs
  exact ⟨rfl, rfl, (htrace.1 update 20000 .recordNotFound rfl).2 30000 (by decide),
    htrace.2 key .never 5000 _ rfl⟩

end Store

end RecordStore
