import RecordStore.Proofs.Attempt
import RecordStore.Proofs.Store.Sweep

/-!
# The steps of a store

There are many verbs and few things that they do. This file sorts the calls of a
store into four forms (`RecordStore.Store.Call.form`): a call reads; or it is a
call on one record, which the engine answers; or it truncates; or it drops the
expired records. What holds of all calls is proved from there by four cases and
never by going through the verbs again.

The records after a call are accounted for in the same way
(`RecordStore.Store.Call.mem_run`): every one of them was there before the call or
has just been left by the call. What every call keeps is then true of every store that
has a history (`RecordStore.Store.replay_invariant`).
-/

namespace RecordStore

namespace Store

/-! ### Calls on one record -/

/-- **A call on one record**, as what it asks of the engine and how it answers. -/
structure RecordCall where
  /-- The key of the record. -/
  key : Key
  /-- What may be wrong with the call before the engine looks at it. -/
  guard : Except Error Unit
  /-- The operations. -/
  ops : List Operation
  /-- The policy. -/
  policy : WritePolicy
  /-- The answer. -/
  answer : Outcome → Except Error Answer

namespace RecordCall

/-- What the call asks of the engine. -/
def ask (call : RecordCall) (engine : Engine) (now : UInt64) (existing : Option Record) :
    Except Error Outcome := do
  call.guard
  engine.operate existing call.key call.ops call.policy now

/-- The call at a time. -/
def run (call : RecordCall) (s : Store) (now : UInt64) : Attempt Store Answer :=
  (s.run call.key (call.ask s.engine now) now).mapResult call.answer

/-- An outcome comes from the engine. -/
theorem operate_of_ask {call : RecordCall} {engine : Engine} {now : UInt64}
    {existing : Option Record} {outcome : Outcome}
    (h : call.ask engine now existing = .ok outcome) :
    engine.operate existing call.key call.ops call.policy now = .ok outcome :=
  (check_bind_eq_ok_iff.mp h).2

/-- Every outcome has an answer; or the call is a touch, and every outcome that
leaves a record has one. -/
def Answers (call : RecordCall) : Prop :=
  (∀ outcome, ∃ a, call.answer outcome = .ok a) ∨
    ∃ ttl, call.ops = [.touch (some ttl)] ∧ call.policy = {} ∧
      ∀ outcome, outcome.record.isSome → ∃ a, call.answer outcome = .ok a

end RecordCall

/-! ### The call on one record that a verb is -/

/-- The call that asks for operations and answers every outcome. -/
def RecordCall.ofOps (key : Key) (ops : List Operation) (policy : WritePolicy)
    (answer : Outcome → Answer) : RecordCall :=
  ⟨key, .ok (), ops, policy, fun outcome => .ok (answer outcome)⟩

theorem RecordCall.run_ofOps (key : Key) (ops : List Operation) (policy : WritePolicy)
    (answer : Outcome → Answer) (s : Store) (now : UInt64) :
    (RecordCall.ofOps key ops policy answer).run s now =
      (s.operate key ops policy now).map answer :=
  (Attempt.map_eq_mapResult ..).symm

/-- The operation of a verb on a list; the list policy is the default one. -/
def ListVerb.op : ListVerb → ListOp
  | append value => .append value {}
  | merge values => .merge values {}
  | insert index value => .insert index value {}
  | insertItems index values => .insertItems index values {}
  | set index value => .set index value {}
  | pop index => .pop index
  | popRange index count => .popRange index count
  | remove index => .remove index
  | removeRange index count => .removeRange index count
  | trim index count => .trim index count
  | clear => .clear
  | get index => .get index
  | getRange index count => .getRange index count
  | size => .size

/-- How a verb on a list answers. -/
def ListVerb.answer : ListVerb → Option OpResult → Answer
  | pop _ | get _ => .value ∘ valueOf
  | popRange .. | getRange .. => .values ∘ itemsOf
  | size => .count ∘ countOf
  | _ => fun _ => .nothing

/-- The policy of a verb on a list; reading looks at none. -/
def ListVerb.policy (verb : ListVerb) (policy : WritePolicy) : WritePolicy :=
  match verb with
  | get _ | getRange .. | size => {}
  | _ => policy

theorem ListVerb.run_eq (verb : ListVerb) (s : Store) (key : Key) (bin : String)
    (policy : WritePolicy) (now : UInt64) :
    verb.run s key bin policy now =
      (s.listOp key bin verb.op (verb.policy policy) now).map verb.answer := by
  cases verb <;> exact Attempt.map_map ..

/-- **The call on one record that a call is**, unless it is about many records or only
reads. -/
def Call.single? : Call → Option RecordCall
  | put key bins policy =>
    some ⟨key, if bins.isEmpty then .error (.param .noBins) else .ok (),
      bins.entries.map fun e => .write e.1 e.2, policy, fun _ => .ok .nothing⟩
  | touch key ttl =>
    -- the one verb that may find no answer in an outcome
    some ⟨key, .ok (), [.touch (some ttl)], {}, fun o => (metadataOf o).map .metadata⟩
  | remove key policy => some (.ofOps key [.delete] policy fun _ => .nothing)
  | removeBins key bins policy =>
    some (.ofOps key (bins.map (.write · .null)) policy fun _ => .nothing)
  | append key bin value policy => some (.ofOps key [.append bin value] policy fun _ => .nothing)
  | prepend key bin value policy => some (.ofOps key [.prepend bin value] policy fun _ => .nothing)
  | increment key bin delta policy =>
    some (.ofOps key [.increment bin delta] policy fun _ => .nothing)
  | operate key ops policy => some (.ofOps key ops policy .outcome)
  | operateOrdered key ops policy => some (.ofOps key ops policy fun o => .slots o.ordered)
  | onList key bin verb policy =>
    some (.ofOps key [.list bin verb.op] (verb.policy policy) fun o =>
      verb.answer (o.ordered.getLastD none))
  | get _ | select .. | metadata _ | getMany .. | metadataMany _ | truncate .. | reapExpired
  | size => none

/-- **A call runs as the call on one record that it is.** -/
theorem Call.run_single {call : Call} {single : RecordCall} (h : call.single? = some single)
    (s : Store) (now : UInt64) : call.run s now = single.run s now := by
  cases call with
  | put key bins policy =>
    cases h
    -- that there are bins is asked of the engine, but before it looks at the operations
    have hask : (s.engine.put · key bins policy now) = RecordCall.ask
        ⟨key, if bins.isEmpty then .error (.param .noBins) else .ok (),
          bins.entries.map fun e => .write e.1 e.2, policy, fun _ => .ok .nothing⟩
        s.engine now := by
      funext existing
      rw [Engine.put, RecordCall.ask]
      by_cases hempty : bins.isEmpty <;> simp only [hempty] <;> rfl
    rw [Call.run, Store.put, hask, Attempt.forget, Attempt.map_map, Attempt.map_eq_mapResult]
    rfl
  | touch key ttl =>
    cases h
    rw [Call.run, Store.touch, Attempt.map_eq_mapResult, Attempt.mapResult_mapResult]
    have hanswer : (fun o => (metadataOf o).bind fun m => .ok (Answer.metadata m)) =
        fun o => (metadataOf o).map .metadata := by
      funext o
      cases metadataOf o <;> rfl
    rw [hanswer]
    rfl
  | operate key ops policy =>
    cases h
    rw [RecordCall.run_ofOps, Call.run]
  | onList key bin verb policy =>
    cases h
    rw [RecordCall.run_ofOps, Call.run, ListVerb.run_eq, Store.listOp, Store.operateOrdered,
      Attempt.map_map, Attempt.map_map]
    rfl
  | remove key policy | removeBins key bins policy | append key bin value policy
  | prepend key bin value policy | increment key bin delta policy
  | operateOrdered key ops policy =>
    cases h
    rw [RecordCall.run_ofOps]
    exact Attempt.map_map ..
  | _ => cases h

/-- Outcomes are answered, or they are those of a touch. -/
theorem Call.answers_single {call : Call} {single : RecordCall}
    (h : call.single? = some single) : single.Answers := by
  cases call with
  | touch key ttl =>
    cases h
    refine Or.inr ⟨ttl, rfl, rfl, fun o ho => ?_⟩
    obtain ⟨record, hrecord⟩ := Option.isSome_iff_exists.mp ho
    exact ⟨.metadata record.metadata, by simp [metadataOf, hrecord, Except.map]⟩
  | _ =>
    cases h
    try exact Or.inl fun _ => ⟨_, rfl⟩

/-! ### The forms of calls -/

/-- **What a call does**, whatever its verb. -/
inductive Call.Form (call : Call) : Prop where
  /-- It reads, and answers the same where nothing can be read that differs. -/
  | reads (hstate : ∀ s now, (call.run s now).state = s)
      (hresult : ∀ s s' now, ReadsAlike s s' now →
        (call.run s now).result = (call.run s' now).result)
  /-- It is a call on one record. -/
  | onRecord (single : RecordCall) (hsingle : call.single? = some single)
  /-- It removes many records. -/
  | truncates (set : Option String) (before : Option UInt64) (hcall : call = .truncate set before)
  /-- It drops every expired record. -/
  | sweeps (hcall : call = .reapExpired)

/-- **Every call has one of the four forms.** -/
theorem Call.form (call : Call) : call.Form := by
  cases call with
  | get key =>
    exact .reads (fun _ _ => rfl) fun s s' now h => by rw [Call.run, Call.run, h.get]
  | select key bins =>
    exact .reads (fun _ _ => rfl) fun s s' now h => by rw [Call.run, Call.run, h.select]
  | metadata key =>
    exact .reads (fun _ _ => rfl) fun s s' now h => by rw [Call.run, Call.run, h.metadata]
  | getMany keys bins =>
    refine .reads (fun _ _ => rfl) fun s s' now h => ?_
    rw [Call.run, Call.run, h.getMany, Attempt.done, Attempt.done]
  | metadataMany keys =>
    refine .reads (fun _ _ => rfl) fun s s' now h => ?_
    rw [Call.run, Call.run, h.metadataMany, Attempt.done, Attempt.done]
  | truncate set before => exact .truncates set before rfl
  | reapExpired => exact .sweeps rfl
  | size =>
    refine .reads (fun _ _ => rfl) fun s s' now h => ?_
    rw [Call.run, Call.run, h.size, Attempt.done, Attempt.done]
  | _ => exact .onRecord _ rfl

/-! ### The records after a call -/

/-- The record that a store shows under a digest is kept there. -/
theorem mem_of_live? {s : Store} {digest : Digest} {now : UInt64} {record : Record}
    (h : s.live? digest now = some record) : (digest, record) ∈ s.records :=
  find?_eq_some_iff.mp (Option.filter_eq_some_iff.mp h).1

theorem checkNamespace_eq_ok_iff {s : Store} {key : Key} :
    s.checkNamespace key = .ok () ↔ key.ns = s.settings.ns := by
  rw [checkNamespace]
  split <;> simp [*]

theorem get_of_live? {s : Store} {key : Key} {now : UInt64} {record : Option Record}
    (hns : s.checkNamespace key = .ok ()) (h : s.live? key.digest now = record) :
    s.get key now = record.elim (.error .recordNotFound) .ok := by
  rw [get, hns, h]
  cases record <;> rfl

/-- What is read under a key is the record that the store shows. -/
theorem get_eq_ok_iff {s : Store} {key : Key} {t : UInt64} {record : Record} :
    s.get key t = .ok record ↔
      s.checkNamespace key = .ok () ∧ s.live? key.digest t = some record := by
  rw [get, check_bind_eq_ok_iff]
  cases s.live? key.digest t with
  | none => simp [throw, throwThe, MonadExceptOf.throw]
  | some found => simp [pure, Except.pure]

/-- A call on one record answers the outcome that it gets on the record that the
store shows. -/
theorem run_result_eq_ok_iff {s : Store} {key : Key}
    {ask : Option Record → Except Error Outcome} {now : UInt64} {outcome : Outcome} :
    (s.run key ask now).result = .ok outcome ↔
      s.checkNamespace key = .ok () ∧ ask (s.live? key.digest now) = .ok outcome := by
  rw [run_eq]
  cases s.checkNamespace key with
  | error e => simp [Attempt.fail]
  | ok _ =>
    cases hask : ask (s.live? key.digest now) with
    | error e => simp [Attempt.fail]
    | ok outcome' => simp [Attempt.done]

theorem mem_insert {s : Store} {digest : Digest} {record : Record} {e : Digest × Record}
    (h : e ∈ (s.insert digest record).records) : e = (digest, record) ∨ e ∈ s.records :=
  (List.mem_cons.mp h).imp_right fun h => (List.mem_filter.mp h).1

theorem mem_reap {s : Store} {digest : Digest} {now : UInt64} {e : Digest × Record}
    (h : e ∈ (s.reap digest now).records) : e ∈ s.records := by
  rw [reap] at h
  split at h
  · exact (List.mem_filter.mp h).1
  · exact h

theorem mem_commit {s : Store} {digest : Digest} {outcome : Outcome} {e : Digest × Record}
    (h : e ∈ (s.commit digest outcome).records) :
    e ∈ s.records ∨ (outcome.wrote ∧ e.1 = digest ∧ outcome.record = some e.2) := by
  rw [commit] at h
  split at h
  · rename_i hwrote
    cases hrecord : outcome.record with
    | none =>
      rw [hrecord] at h
      exact Or.inl (List.mem_filter.mp h).1
    | some record =>
      rw [hrecord] at h
      rcases mem_insert h with rfl | h
      · exact Or.inr ⟨hwrote, rfl, rfl⟩
      · exact Or.inl h
  · exact Or.inl h

/-- **A call leaves a record**, under the digest of its key: the engine has an outcome
for it which is to be kept. -/
def RecordCall.Leaves (call : RecordCall) (s : Store) (now : UInt64) (e : Digest × Record) :
    Prop :=
  ∃ outcome, s.checkNamespace call.key = .ok () ∧
    call.ask s.engine now (s.live? call.key.digest now) = .ok outcome ∧
    outcome.wrote ∧ e.1 = call.key.digest ∧ outcome.record = some e.2

theorem RecordCall.mem_run {call : RecordCall} {s : Store} {now : UInt64} {e : Digest × Record}
    (h : e ∈ (call.run s now).state.records) : e ∈ s.records ∨ call.Leaves s now e := by
  change e ∈ (s.run call.key (call.ask s.engine now) now).state.records at h
  rw [run_eq] at h
  cases hns : s.checkNamespace call.key with
  | error _ =>
    rw [hns] at h
    exact Or.inl h
  | ok _ =>
    rw [hns] at h
    cases hask : call.ask s.engine now (s.live? call.key.digest now) with
    | error _ =>
      rw [hask] at h
      exact Or.inl (mem_reap h)
    | ok outcome =>
      rw [hask] at h
      refine (mem_commit h).imp mem_reap fun ⟨hwrote, hdigest, hrecord⟩ => ?_
      exact ⟨outcome, hns, hask, hwrote, hdigest, hrecord⟩

/-- **Every record after a call was there before, or the call has just left it.** -/
theorem Call.mem_run {call : Call} {s : Store} {now : UInt64} {e : Digest × Record}
    (h : e ∈ (call.run s now).state.records) :
    e ∈ s.records ∨ ∃ single, call.single? = some single ∧ single.Leaves s now e := by
  cases call.form with
  | reads hstate _ => exact Or.inl (hstate s now ▸ h)
  | onRecord single hsingle =>
    rw [run_single hsingle] at h
    exact (RecordCall.mem_run h).imp_right fun hleaves => ⟨single, hsingle, hleaves⟩
  | truncates set before hcall =>
    subst hcall
    refine Or.inl ?_
    simp only [Call.run, Store.truncate] at h
    split at h
    · exact h
    · exact (List.mem_filter.mp h).1
  | sweeps hcall =>
    subst hcall
    exact Or.inl (List.mem_filter.mp h).1

/-! ### Histories -/

/-- **What every call keeps, every history keeps**, if its calls are such that they keep
it. -/
theorem replay_invariant {P : Store → Prop} {Q : Call → Prop}
    (hstep : ∀ (call : Call) (s : Store) (now : UInt64), Q call → P s → P (call.run s now).state)
    (history : List (Call × UInt64)) (hcalls : ∀ entry ∈ history, Q entry.1) {s : Store}
    (h : P s) : P (replay s history).2 := by
  induction history generalizing s with
  | nil => exact h
  | cons entry rest ih =>
    obtain ⟨hcall, hrest⟩ := List.forall_mem_cons.mp hcalls
    exact ih hrest (hstep entry.1 s entry.2 hcall h)

/-- **A store with a history**: what calls have made of a store without records. -/
def Reachable (s : Store) : Prop :=
  ∃ (settings : StoreSettings) (history : List (Call × UInt64)),
    (replay (empty settings) history).2 = s

end Store

end RecordStore
