import RecordStore.Proofs.Engine.Identity
import RecordStore.Proofs.Store.WellFormed

/-!
# The digest is the identity of a record

Two keys with one digest are the same key as far as a store goes, whatever their user keys
are. This file runs a history twice, once as it is and once with every user key left out
(`RecordStore.Store.replay_answers_digestOnly`): each call answers the same both times, except that
the records and the keys in its answer come without user keys the second time.

The store of the second run is the store of the first without its user keys
(`RecordStore.Store.digestOnly`), after every call. One call keeps it so because every
record is stored with a key that some call was made with, and keys with one digest are in
one set (`RecordStore.Store.Keyed`); with two sets under one digest, a key that is sent would
move the record from one set into the other, for a truncation to see.
-/

namespace RecordStore

namespace Store

variable {s : Store} {now : UInt64}

/-! ### Stores without user keys -/

/-- **The store with its records without user keys.** -/
def digestOnly (s : Store) : Store where
  settings := s.settings
  records := s.records.map fun e => (e.1, e.2.digestOnly)
  distinct := by
    rw [List.map_map]
    exact s.distinct

theorem find?_digestOnly (s : Store) (digest : Digest) :
    s.digestOnly.find? digest = (s.find? digest).map Record.digestOnly := by
  ext record
  simp only [find?_eq_some_iff, Option.map_eq_some_iff, digestOnly, List.mem_map]
  constructor
  · rintro ⟨⟨digest, kept⟩, he, ⟨⟩⟩
    exact ⟨kept, he, rfl⟩
  · rintro ⟨kept, he, rfl⟩
    exact ⟨(digest, kept), he, rfl⟩

/-- A test that does not look at user keys. -/
theorem filter_digestOnly (s : Store) {keep : Digest × Record → Bool}
    (hkeep : ∀ e, keep (e.1, e.2.digestOnly) = keep e) :
    s.digestOnly.filter keep = (s.filter keep).digestOnly := by
  refine eq_of_records rfl ?_
  have hcomp : (keep ∘ fun e : Digest × Record => (e.1, e.2.digestOnly)) = keep := funext hkeep
  simp only [filter, digestOnly, List.filter_map, hcomp]

theorem erase_digestOnly (s : Store) (digest : Digest) :
    s.digestOnly.erase digest = (s.erase digest).digestOnly :=
  s.filter_digestOnly fun _ => rfl

theorem insert_digestOnly (s : Store) (digest : Digest) (record : Record) :
    s.digestOnly.insert digest record.digestOnly = (s.insert digest record).digestOnly := by
  refine eq_of_records rfl ?_
  simp only [insert, erase_digestOnly]
  rfl

theorem live?_digestOnly (s : Store) (digest : Digest) (now : UInt64) :
    s.digestOnly.live? digest now = (s.live? digest now).map Record.digestOnly := by
  rw [live?, live?, find?_digestOnly, Option.filter_map]
  rfl

theorem reap_digestOnly (s : Store) (digest : Digest) (now : UInt64) :
    s.digestOnly.reap digest now = (s.reap digest now).digestOnly := by
  have hany : (s.digestOnly.find? digest).any (fun record => record.metadata.isExpired now) =
      (s.find? digest).any fun record => record.metadata.isExpired now := by
    rw [find?_digestOnly, Option.any_map]
    rfl
  rw [reap, reap, hany, erase_digestOnly]
  split <;> rfl

theorem commit_digestOnly (s : Store) (digest : Digest) (outcome : Outcome) :
    s.digestOnly.commit digest outcome.digestOnly = (s.commit digest outcome).digestOnly := by
  rw [commit, commit]
  cases hwrote : outcome.wrote with
  | false => simp [Outcome.digestOnly, hwrote]
  | true =>
    cases hrecord : outcome.record with
    | none => simp [Outcome.digestOnly, hwrote, hrecord, erase_digestOnly]
    | some record => simp [Outcome.digestOnly, hwrote, hrecord, insert_digestOnly]

theorem keepOnly_digestOnly (s : Store) {keep : Record → Bool}
    (hkeep : ∀ record, keep record.digestOnly = keep record) :
    s.digestOnly.keepOnly keep = ((s.keepOnly keep).1, (s.keepOnly keep).2.digestOnly) := by
  rw [keepOnly, keepOnly, filter_digestOnly s fun e => hkeep e.2]
  simp [digestOnly]

/-! ### Calls without user keys -/

/-- **The answer without user keys.** -/
def Answer.digestOnly : Answer → Answer
  | .record r => .record r.digestOnly
  | .records entries =>
    .records (entries.map fun e => (e.1.digestOnly, e.2.map Record.digestOnly))
  | .metadataList entries => .metadataList (entries.map fun e => (e.1.digestOnly, e.2))
  | .outcome o => .outcome o.digestOnly
  | .nothing => .nothing
  | .metadata m => .metadata m
  | .slots results => .slots results
  | .value v => .value v
  | .values vs => .values vs
  | .count n => .count n

/-- **The call with its keys without user keys.** -/
def Call.digestOnly : Call → Call
  | put key bins policy => .put key.digestOnly bins policy
  | get key => .get key.digestOnly
  | select key bins => .select key.digestOnly bins
  | metadata key => .metadata key.digestOnly
  | getMany keys bins => .getMany (keys.map Key.digestOnly) bins
  | metadataMany keys => .metadataMany (keys.map Key.digestOnly)
  | touch key ttl => .touch key.digestOnly ttl
  | remove key policy => .remove key.digestOnly policy
  | removeBins key bins policy => .removeBins key.digestOnly bins policy
  | append key bin value policy => .append key.digestOnly bin value policy
  | prepend key bin value policy => .prepend key.digestOnly bin value policy
  | increment key bin delta policy => .increment key.digestOnly bin delta policy
  | operate key ops policy => .operate key.digestOnly ops policy
  | operateOrdered key ops policy => .operateOrdered key.digestOnly ops policy
  | onList key bin verb policy => .onList key.digestOnly bin verb policy
  | truncate set before => .truncate set before
  | reapExpired => .reapExpired
  | size => .size

/-- The keys that a call is made with. -/
def Call.keys : Call → List Key
  | put key _ _ | get key | select key _ | metadata key | touch key _ | remove key _
  | removeBins key _ _ | append key _ _ _ | prepend key _ _ _ | increment key _ _ _
  | operate key _ _ | operateOrdered key _ _ | onList key _ _ _ => [key]
  | getMany keys _ | metadataMany keys => keys
  | truncate .. | reapExpired | size => []

/-- The call on one record, with its key without the user key. -/
def RecordCall.digestOnly (call : RecordCall) : RecordCall :=
  { call with key := call.key.digestOnly }

theorem Call.single?_digestOnly (call : Call) :
    call.digestOnly.single? = call.single?.map RecordCall.digestOnly := by
  cases call <;> rfl

theorem Call.key_mem_of_single? {call : Call} {single : RecordCall}
    (h : call.single? = some single) : single.key ∈ call.keys := by
  cases call <;> cases h <;> exact List.mem_singleton_self _

/-- An outcome without user keys is answered without user keys. -/
theorem Call.answer_digestOnly {call : Call} {single : RecordCall}
    (h : call.single? = some single) (outcome : Outcome) :
    single.answer outcome.digestOnly = (single.answer outcome).map Answer.digestOnly := by
  cases call with
  | touch key ttl =>
    cases h
    have hmetadata : metadataOf outcome.digestOnly = metadataOf outcome := by
      rw [metadataOf, metadataOf, Outcome.digestOnly]
      cases outcome.record <;> rfl
    change (metadataOf outcome.digestOnly).map Answer.metadata = _
    rw [hmetadata]
    cases hanswer : metadataOf outcome <;> simp [hanswer, Except.map, Answer.digestOnly]
  | onList key bin verb policy =>
    cases h
    cases verb <;> rfl
  | _ =>
    cases h
    try rfl

/-! ### One call -/

theorem get_digestOnly (s : Store) (key : Key) (now : UInt64) :
    s.digestOnly.get key.digestOnly now = (s.get key now).map Record.digestOnly := by
  have hns : s.digestOnly.checkNamespace key.digestOnly = s.checkNamespace key := rfl
  have hlive : s.digestOnly.live? key.digestOnly.digest now =
      (s.live? key.digest now).map Record.digestOnly := live?_digestOnly ..
  rw [Store.get, Store.get, hns, hlive]
  cases s.checkNamespace key with
  | error e => rfl
  | ok _ => cases s.live? key.digest now <;> rfl

theorem select_digestOnly (s : Store) (key : Key) (bins : List String) (now : UInt64) :
    s.digestOnly.select key.digestOnly bins now =
      (s.select key bins now).map Record.digestOnly := by
  rw [Store.select, Store.select, get_digestOnly]
  cases bins.forM checkBinName with
  | error e => rfl
  | ok _ => cases s.get key now <;> rfl

theorem metadata_digestOnly (s : Store) (key : Key) (now : UInt64) :
    s.digestOnly.metadata key.digestOnly now = s.metadata key now := by
  rw [Store.metadata, Store.metadata, get_digestOnly]
  cases s.get key now <;> rfl

theorem RecordCall.ask_digestOnly {single : RecordCall} {existing : Option Record}
    (engine : Engine) (now : UInt64)
    (h : ∀ record, existing = some record → record.key.digestOnly = single.key.digestOnly) :
    single.digestOnly.ask engine now (existing.map Record.digestOnly) =
      (single.ask engine now existing).map Outcome.digestOnly := by
  obtain ⟨key, guard, ops, policy, answer⟩ := single
  cases guard with
  | error e => rfl
  | ok _ => exact Engine.operate_digestOnly h

/-- **A call on one record** answers the same without user keys, and leaves the same store
without them, if the record that the store shows was stored with the key of the call. -/
theorem RecordCall.run_digestOnly {single : RecordCall}
    (hanswer : ∀ outcome,
      single.answer outcome.digestOnly = (single.answer outcome).map Answer.digestOnly)
    (hkey : s.checkNamespace single.key = .ok () → ∀ record,
      s.live? single.key.digest now = some record →
        record.key.digestOnly = single.key.digestOnly) :
    single.digestOnly.run s.digestOnly now =
      ((single.run s now).map Answer.digestOnly).within Store.digestOnly := by
  have hns : s.digestOnly.checkNamespace single.digestOnly.key = s.checkNamespace single.key := rfl
  have hdigest : single.digestOnly.key.digest = single.key.digest := rfl
  have hengine : s.digestOnly.engine = s.engine := rfl
  rw [RecordCall.run, RecordCall.run, run_eq, run_eq, hns, hdigest, hengine, live?_digestOnly]
  cases hcheck : s.checkNamespace single.key with
  | error e => rfl
  | ok _ =>
    rw [ask_digestOnly s.engine now (hkey hcheck), reap_digestOnly]
    cases single.ask s.engine now (s.live? single.key.digest now) with
    | error e => rfl
    | ok outcome =>
      have hresult : single.digestOnly.answer outcome.digestOnly =
          (single.answer outcome).map Answer.digestOnly := hanswer outcome
      simp only [Except.map, Attempt.done, Attempt.mapResult, Attempt.within, Attempt.map,
        commit_digestOnly, Except.bind, hresult]

/-- **A call without user keys** answers what the call answers, without user keys, and leaves
the store that the call leaves, without them. -/
theorem Call.run_digestOnly {call : Call}
    (hkeys : ∀ key ∈ call.keys, s.checkNamespace key = .ok () → ∀ record,
      s.live? key.digest now = some record → record.key.digestOnly = key.digestOnly) :
    call.digestOnly.run s.digestOnly now =
      ((call.run s now).map Answer.digestOnly).within Store.digestOnly := by
  cases hsingle : call.single? with
  | some single =>
    have hdigest : call.digestOnly.single? = some single.digestOnly := by
      rw [single?_digestOnly, hsingle]
      rfl
    rw [run_single hsingle, run_single hdigest]
    exact RecordCall.run_digestOnly (answer_digestOnly hsingle)
      (hkeys _ (key_mem_of_single? hsingle))
  | none =>
    cases call with
    | get key =>
      simp only [digestOnly, Call.run, get_digestOnly]
      cases s.get key now <;> rfl
    | select key bins =>
      simp only [digestOnly, Call.run, select_digestOnly]
      cases s.select key bins now <;> rfl
    | metadata key =>
      simp only [digestOnly, Call.run, metadata_digestOnly]
      cases s.metadata key now <;> rfl
    | getMany keys bins =>
      simp only [digestOnly, Call.run, Store.getMany, List.map_map]
      cases bins <;> simp [Attempt.done, Attempt.map, Attempt.within, Except.map, Answer.digestOnly,
        get_digestOnly, select_digestOnly]
    | metadataMany keys =>
      simp only [digestOnly, Call.run, Store.metadataMany, List.map_map]
      simp [Attempt.done, Attempt.map, Attempt.within, Except.map, Answer.digestOnly,
        metadata_digestOnly]
    | truncate set before =>
      simp only [digestOnly, Call.run, Store.truncate]
      cases before.filter (now < ·) with
      | some before => rfl
      | none =>
        dsimp only
        rw [keepOnly_digestOnly s fun record => rfl]
        rfl
    | reapExpired =>
      simp only [digestOnly, Call.run, Store.reapExpired]
      rw [keepOnly_digestOnly s fun record => rfl]
      rfl
    | size =>
      have hsize : s.digestOnly.size now = s.size now := by
        rw [Store.size, Store.size, Store.digestOnly, List.countP_map]
        rfl
      simp only [digestOnly, Call.run, hsize]
      rfl
    | _ => cases hsingle

/-! ### A history of calls -/

variable {keys : List Key}

/-- Keys with one digest are in one set. -/
def OneSet (keys : List Key) : Prop :=
  ∀ k ∈ keys, ∀ l ∈ keys, k.digest = l.digest → k.set = l.set

instance (keys : List Key) : Decidable (OneSet keys) :=
  inferInstanceAs (Decidable (∀ k ∈ keys, ∀ l ∈ keys, k.digest = l.digest → k.set = l.set))

/-- **Every record is stored with one of some keys** of the namespace, but for the user key. -/
def Keyed (keys : List Key) (s : Store) : Prop :=
  ∀ e ∈ s.records, ∃ key ∈ keys, key.ns = s.settings.ns ∧ key.digest = e.1 ∧
    e.2.key.digestOnly = key.digestOnly

/-- The record that a store shows for a key was stored with that key. -/
theorem Keyed.key_eq (h : s.Keyed keys) (hset : OneSet keys) {key : Key} (hkey : key ∈ keys)
    (hns : s.checkNamespace key = .ok ()) {record : Record}
    (hlive : s.live? key.digest now = some record) :
    record.key.digestOnly = key.digestOnly := by
  obtain ⟨stored, hstored, hstoredNs, hdigest, heq⟩ := h _ (mem_of_live? hlive)
  rw [heq, Key.digestOnly_eq_iff]
  exact ⟨hstoredNs.trans (checkNamespace_eq_ok_iff.mp hns).symm,
    hset stored hstored key hkey hdigest, hdigest⟩

/-- **No call stores a record with another key.** -/
theorem Keyed.run (h : s.Keyed keys) (hset : OneSet keys) {call : Call}
    (hcall : ∀ key ∈ call.keys, key ∈ keys) (now : UInt64) :
    (call.run s now).state.Keyed keys := by
  intro e he
  rw [settings_run]
  rcases Call.mem_run he with he | ⟨single, hsingle, outcome, hns, hask, hwrote, hdigest, hrecord⟩
  · exact h e he
  · have hmem := hcall _ (Call.key_mem_of_single? hsingle)
    refine ⟨single.key, hmem, checkNamespace_eq_ok_iff.mp hns, hdigest.symm, ?_⟩
    exact Engine.key_digestOnly_operate (RecordCall.operate_of_ask hask) hwrote hrecord
      fun _ hlive => h.key_eq hset hmem hns hlive

theorem Keyed.replay_digestOnly (hset : OneSet keys) (history : List (Call × UInt64))
    (hcalls : ∀ entry ∈ history, ∀ key ∈ entry.1.keys, key ∈ keys) (h : s.Keyed keys) :
    replay s.digestOnly (history.map fun entry => (entry.1.digestOnly, entry.2)) =
      ((replay s history).1.map (·.map Answer.digestOnly), (replay s history).2.digestOnly) := by
  induction history generalizing s with
  | nil => rfl
  | cons entry rest ih =>
    obtain ⟨hcall, hrest⟩ := List.forall_mem_cons.mp hcalls
    obtain ⟨call, now⟩ := entry
    have hfirst : call.digestOnly.run s.digestOnly now =
        ((call.run s now).map Answer.digestOnly).within Store.digestOnly :=
      Call.run_digestOnly fun key hkey hns _ => h.key_eq hset (hcall key hkey) hns
    simp only [List.map_cons, replay, hfirst]
    simp only [Attempt.map, Attempt.within, ih hrest (h.run hset hcall now)]

/-- **The digest is the identity of a record.** If keys with one digest are in one set, then
a history without user keys answers what the history answers: each of its calls succeeds or
fails in the same way, and only the user keys are missing from the answers. -/
theorem replay_answers_digestOnly (settings : StoreSettings) (history : List (Call × UInt64))
    (hset : OneSet (history.flatMap fun entry => entry.1.keys)) :
    (replay (empty settings) (history.map fun entry => (entry.1.digestOnly, entry.2))).1 =
      (replay (empty settings) history).1.map (·.map Answer.digestOnly) := by
  have hkeyed : (empty settings).Keyed (history.flatMap fun entry => entry.1.keys) :=
    fun e he => absurd he List.not_mem_nil
  have hcalls : ∀ entry ∈ history, ∀ key ∈ entry.1.keys,
      key ∈ history.flatMap fun entry => entry.1.keys := fun entry hentry key hkey =>
    List.mem_flatMap.mpr ⟨entry, hentry, hkey⟩
  exact congrArg Prod.fst (hkeyed.replay_digestOnly hset history hcalls)

/-- A record that is written with a user key, written again with another one under the same
digest, read, and truncated with its set. -/
theorem replay_answers_digestOnly_sent :
    let alice : Key := ⟨"test", "users", some (.string "alice"), ⟨List.replicate 20 0, rfl⟩⟩
    let bob : Key := { alice with userKey := some (.string "bob") }
    let bins : Bins := Named.ofList [("n", .integer 1)]
    let history : List (Call × UInt64) :=
      [(.put alice bins { key := .send }, 0), (.put bob bins { key := .send }, 10),
        (.get alice, 20), (.truncate (some "users") none, 30)]
    OneSet (history.flatMap fun entry => entry.1.keys) ∧
      (replay (empty {}) (history.map fun entry => (entry.1.digestOnly, entry.2))).1 =
        (replay (empty {}) history).1.map (·.map Answer.digestOnly) := by
  intro alice bob bins history
  have hset : OneSet (history.flatMap fun entry => entry.1.keys) := by decide
  exact ⟨hset, replay_answers_digestOnly {} history hset⟩

end Store

end RecordStore
