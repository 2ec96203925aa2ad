import RecordStore.Embedded
import RecordStore.Service.Handler
import RecordStore.Proofs.Named
import RecordStore.Proofs.Store.WellFormed

/-!
# A store that is served, and the same store embedded

A service may have a single store, under the name of its namespace
(`RecordStore.Service.serving`), and a program may hold the same store by itself. Both
know the nine verbs of `RecordStore.Handle.Verb`. They read a request in different ways:
the service reads all fields of the structure first, the program looks them up one by one,
and not always in the same order. Which error is reported may therefore differ, and the
service refuses some requests that the program takes.

A request that the service answers is answered alike by the program
(`RecordStore.Service.handle_then_call`). There are three steps to it. What an optional
field says to the service is what it says to the program. The checks of a verb are the same
up to their order. And what runs on the store is the same, once the namespace of the key is
found to be the one that is served.
-/

namespace RecordStore

/-! ### Optional fields -/

section Optional

variable {α : Type} {request : Json} {sent : Option Json}

/-- An optional field is absent or `null`, or it is something else that can be read. -/
theorem Json.optional_cases {read : Json → Option α} {a : Option α}
    (h : Json.optional read sent = some a) :
    ((sent = none ∨ sent = some .null) ∧ a = none) ∨
      ∃ j b, sent = some j ∧ j ≠ .null ∧ read j = some b ∧ a = some b := by
  rw [Json.optional.eq_def] at h
  split at h
  · exact Or.inl ⟨Or.inl rfl, (Option.some.inj h).symm⟩
  · exact Or.inl ⟨Or.inr rfl, (Option.some.inj h).symm⟩
  · rename_i j hnull
    obtain ⟨b, hread, ha⟩ := Option.map_eq_some_iff.mp h
    exact Or.inr ⟨j, b, rfl, hnull, hread, ha.symm⟩

theorem WritePolicy.ofRequest_optional {policy : Option Json}
    (h : Json.optional some sent = some policy) : ofRequest sent = ofRequest policy := by
  rcases Json.optional_cases h with ⟨rfl | rfl, rfl⟩ | ⟨j, b, rfl, -, hread, rfl⟩
  · rfl
  · rfl
  · rw [Option.some.inj hread]

namespace Handle

theorem lifetimeOf_eq {ttl : Option Int64}
    (h : Json.optional Json.toInt64? (request.field? "ttl") = some ttl) :
    lifetimeOf request = ttl.elim (.ok .namespaceDefault) Expiration.ofInt64 := by
  rw [lifetimeOf]
  rcases Json.optional_cases h with ⟨hsent | hsent, rfl⟩ | ⟨j, n, hsent, hj, hread, rfl⟩
  · rw [hsent]
    rfl
  · rw [hsent]
    rfl
  · rw [hsent]
    simp only [hread]
    rfl

theorem thresholdOf_eq {before : Option UInt64}
    (h : Json.optional Json.toUInt64? (request.field? "before") = some before) :
    thresholdOf request = .ok before := by
  rw [thresholdOf]
  rcases Json.optional_cases h with ⟨hsent | hsent, rfl⟩ | ⟨j, n, hsent, hj, hread, rfl⟩
  · rw [hsent]
  · rw [hsent]
  · rw [hsent]
    simp only [hread]

theorem binNamesOf_eq {bins : Option Json}
    (h : Json.optional some (request.field? "bins") = some bins) :
    binNamesOf request = bins.mapM Codec.parseBinNames := by
  rw [binNamesOf]
  rcases Json.optional_cases h with ⟨hsent | hsent, rfl⟩ | ⟨j, n, hsent, hj, hread, rfl⟩
  · rw [hsent]
    rfl
  · rw [hsent]
    rfl
  · rw [hsent]
    obtain rfl := Option.some.inj hread
    simp only [Option.mapM_some]
    rfl

theorem orderedOf_eq {ordered : Bool}
    (h : (request.field? "ordered").elim (some false) Json.toBool? = some ordered) :
    ((request.field? "ordered").bind Json.toBool?).getD false = ordered := by
  cases hsent : request.field? "ordered" with
  | none =>
    rw [hsent] at h
    exact Option.some.inj h
  | some j =>
    rw [hsent] at h
    rw [Option.bind_some, show j.toBool? = some ordered from h, Option.getD_some]

/-- A set that was read as a text, or was not sent, stands for itself. -/
theorem setOf_eq {set : Option String}
    (h : Json.optional Json.toText? (request.field? "set") = some set) :
    (request.field? "set").bind Json.toText? = set := by
  rcases Json.optional_cases h with ⟨hsent | hsent, rfl⟩ | ⟨j, n, hsent, hj, hread, rfl⟩
  · rw [hsent]
    rfl
  · rw [hsent]
    rfl
  · rw [hsent, Option.bind_some, hread]

end Handle

end Optional

/-! ### Requests that are objects

The parts of a structure are the fields of the object, so that a request that was read
says what stands in each field. -/

namespace Request

variable {fields : Fields Json} {request : Request}

theorem onKey_of_ofJson? {verb : KeyVerb}
    (h : ofJson? (.onKey verb) (.object fields) = some request) :
    ∃ key policy, fields.get? "key" = some key ∧
      Json.optional some (fields.get? "policy") = some policy ∧
      request = .onKey verb key policy := by
  obtain ⟨key, hkey, h⟩ := Option.bind_eq_some_iff.mp h
  obtain ⟨policy, hpolicy, h⟩ := Option.bind_eq_some_iff.mp h
  exact ⟨key, policy, hkey, hpolicy, (Option.some.inj h).symm⟩

theorem onBins_of_ofJson? {verb : BinsVerb}
    (h : ofJson? (.onBins verb) (.object fields) = some request) :
    ∃ key bins policy, fields.get? "key" = some key ∧ fields.get? "bins" = some bins ∧
      Json.optional some (fields.get? "policy") = some policy ∧
      request = .onBins verb key bins policy := by
  obtain ⟨key, hkey, h⟩ := Option.bind_eq_some_iff.mp h
  obtain ⟨bins, hbins, h⟩ := Option.bind_eq_some_iff.mp h
  obtain ⟨policy, hpolicy, h⟩ := Option.bind_eq_some_iff.mp h
  exact ⟨key, bins, policy, hkey, hbins, hpolicy, (Option.some.inj h).symm⟩

theorem touch_of_ofJson? (h : ofJson? .touch (.object fields) = some request) :
    ∃ key ttl, fields.get? "key" = some key ∧
      Json.optional Json.toInt64? (fields.get? "ttl") = some ttl ∧
      request = .touch key ttl := by
  obtain ⟨key, hkey, h⟩ := Option.bind_eq_some_iff.mp h
  obtain ⟨ttl, httl, h⟩ := Option.bind_eq_some_iff.mp h
  exact ⟨key, ttl, hkey, httl, (Option.some.inj h).symm⟩

theorem operate_of_ofJson? (h : ofJson? .operate (.object fields) = some request) :
    ∃ key ops policy ordered, fields.get? "key" = some key ∧ fields.get? "ops" = some ops ∧
      Json.optional some (fields.get? "policy") = some policy ∧
      (fields.get? "ordered").elim (some false) Json.toBool? = some ordered ∧
      request = .operate key ops policy ordered := by
  obtain ⟨ordered, hordered, h⟩ := Option.bind_eq_some_iff.mp h
  obtain ⟨key, hkey, h⟩ := Option.bind_eq_some_iff.mp h
  obtain ⟨ops, hops, h⟩ := Option.bind_eq_some_iff.mp h
  obtain ⟨policy, hpolicy, h⟩ := Option.bind_eq_some_iff.mp h
  exact ⟨key, ops, policy, ordered, hkey, hops, hpolicy, hordered, (Option.some.inj h).symm⟩

theorem batch_of_ofJson? {verb : BatchVerb}
    (h : ofJson? (.batch verb) (.object fields) = some request) :
    ∃ keys bins, fields.get? "keys" = some (.array keys) ∧
      Json.optional some (fields.get? "bins") = some bins ∧
      request = .batch verb keys bins := by
  obtain ⟨sent, hsent, h⟩ := Option.bind_eq_some_iff.mp h
  obtain ⟨keys, hkeys, h⟩ := Option.bind_eq_some_iff.mp h
  obtain ⟨bins, hbins, h⟩ := Option.bind_eq_some_iff.mp h
  cases sent with
  | array items =>
    obtain rfl := Option.some.inj hkeys
    exact ⟨items, bins, hsent, hbins, (Option.some.inj h).symm⟩
  | _ => cases hkeys

theorem truncate_of_ofJson? (h : ofJson? .truncate (.object fields) = some request) :
    ∃ ns set before, Json.optional Json.toText? (fields.get? "set") = some set ∧
      Json.optional Json.toUInt64? (fields.get? "before") = some before ∧
      request = .truncate ns set before := by
  obtain ⟨sent, _, h⟩ := Option.bind_eq_some_iff.mp h
  obtain ⟨ns, _, h⟩ := Option.bind_eq_some_iff.mp h
  obtain ⟨set, hset, h⟩ := Option.bind_eq_some_iff.mp h
  obtain ⟨before, hbefore, h⟩ := Option.bind_eq_some_iff.mp h
  exact ⟨ns, set, before, hset, hbefore, (Option.some.inj h).symm⟩

/-- **The keys of a batch of reads are in a namespace**, as far as they can be read. -/
def Within (codec : Codec) (ns : String) : Request → Prop
  | .batch .getMany keys _ => ∀ j ∈ keys, ∀ key, codec.parseKey j = .ok key → key.ns = ns
  | _ => True

end Request

/-! ### The service of one store -/

namespace Service

variable {α : Type} {codec : Codec} {store : Store} {ns : String}

/-- **The service of one store**, under the name of its namespace. -/
def serving (codec : Codec) (store : Store) : Service where
  stores := Named.ofList [(store.settings.ns, store)]
  codec

theorem get?_serving (codec : Codec) (store : Store) (ns : String) :
    (serving codec store).stores.get? ns =
      if ns = store.settings.ns then some store else none :=
  Named.get?_insert Named.empty store.settings.ns store ns

/-- Putting a store of the same namespace in the place of the one that is served. -/
theorem insert_serving {after : Store} (h : after.settings = store.settings) :
    { serving codec store with
      stores := (serving codec store).stores.insert store.settings.ns after } =
      serving codec after := by
  have hstores : (serving codec store).stores.insert store.settings.ns after =
      (serving codec after).stores := by
    refine Named.ext_get? fun name => ?_
    rw [Named.get?_insert, get?_serving, get?_serving, h]
    split
    · rfl
    · rfl
  rw [hstores]
  rfl

theorem onStore_serving (h : ns = store.settings.ns) (read : Store → Except Error α) :
    (serving codec store).onStore ns read = read store := by
  rw [onStore, get?_serving, if_pos h]

/-- A record is read as the store that is served shows it. -/
theorem get_serving {key : Key} {now : UInt64} (h : key.ns = store.settings.ns) :
    (serving codec store).onStore key.ns (·.get key now) =
      (store.live? key.digest now).elim (.error .recordNotFound) .ok := by
  rw [onStore_serving h, Store.get_of_live? (Store.checkNamespace_eq_ok_iff.mpr h) rfl]

/-- What is read from the service is read from its store. -/
theorem read_of_onStore {read : Store → Except Error α} {a : α}
    (h : (serving codec store).onStore ns read = .ok a) : read store = .ok a := by
  by_cases hns : ns = store.settings.ns
  · rwa [onStore_serving hns] at h
  · rw [onStore, get?_serving, if_neg hns] at h
    cases h

/-! ### Answers that agree -/

/-- **A program answers what the service answers**, and leaves the store as the service
does, if the service has an answer. -/
def Follows (codec : Codec) (own : Handle.Answer) (served : Answer) : Prop :=
  ∀ j, served.result = .ok j → own.result = .ok j ∧ served.state = serving codec own.state

/-- Reading leaves everything as it is. -/
theorem Follows.of_read {own served : Except Error Json}
    (h : ∀ j, served = .ok j → own = .ok j) :
    Follows codec ⟨own, store⟩ ⟨served, serving codec store⟩ :=
  fun j hj => ⟨h j hj, rfl⟩

/-- Checks that find the same may come in any order. -/
theorem Follows.needing {own served : Except Error α} {next : α → Handle.Answer}
    {next' : α → Answer} (h : ∀ a, served = .ok a → own = .ok a)
    (hnext : ∀ a, Follows codec (next a) (next' a)) :
    Follows codec (.needing store own next) (.needing (serving codec store) served next') := by
  intro j hj
  cases served with
  | ok a =>
    rw [h a rfl]
    exact hnext a j hj
  | error e => cases hj

/-- What runs on the store of a namespace runs on the store that is served, or not at
all. -/
theorem Follows.withStore {run : Store → Attempt Store α}
    (hsettings : (run store).state.settings = store.settings) (render : α → Json) :
    Follows codec ((run store).map render)
      (((serving codec store).withStore ns run).map render) := by
  intro j hj
  rw [Service.withStore, get?_serving] at hj ⊢
  by_cases hns : ns = store.settings.ns
  · subst hns
    rw [if_pos rfl] at hj ⊢
    exact ⟨hj, insert_serving hsettings⟩
  · rw [if_neg hns] at hj
    cases hj

end Service

/-! ### Verb by verb -/

namespace Handle

open Service

variable {codec : Codec} {store : Store} {request key bins ops : Json}
  {policy : Option Json} {now : UInt64}

theorem needField_eq {name : String} {j : Json} (h : request.field? name = some j) :
    needField request name = .ok j := by
  rw [needField, h]

theorem needKey_eq (h : request.field? "key" = some key) :
    needKey codec request = codec.parseKey key := by
  rw [needKey, needField_eq h]
  rfl

theorem needKeys_eq {keys : List Json} (h : request.field? "keys" = some (.array keys)) :
    needKeys codec request = keys.mapM codec.parseKey := by
  rw [needKeys, needField_eq h]
  rfl

theorem put_follows (hkey : request.field? "key" = some key)
    (hbins : request.field? "bins" = some bins)
    (hpolicy : Json.optional some (request.field? "policy") = some policy) :
    Follows codec (put codec store request now)
      ((serving codec store).put key bins policy now) := by
  rw [put, needKey_eq hkey, needField_eq hbins, WritePolicy.ofRequest_optional hpolicy]
  refine .needing (fun a ha => ha) ?_
  rintro ⟨key, bins, policy⟩
  exact .withStore (Store.settings_run (.put key bins policy) store now) _

theorem get_follows (hkey : request.field? "key" = some key) :
    Follows codec ⟨get codec store request now, store⟩
      ⟨(serving codec store).get key now, serving codec store⟩ := by
  refine .of_read fun j h => ?_
  obtain ⟨key, hparse, h⟩ := bind_eq_ok_iff.mp h
  obtain ⟨record, hrecord, h⟩ := bind_eq_ok_iff.mp h
  rw [get, needKey_eq hkey]
  exact bind_eq_ok_iff.mpr ⟨key, hparse, bind_eq_ok_iff.mpr ⟨record, read_of_onStore hrecord, h⟩⟩

theorem select_follows (hkey : request.field? "key" = some key)
    (hbins : request.field? "bins" = some bins) :
    Follows codec ⟨select codec store request now, store⟩
      ⟨(serving codec store).select key bins now, serving codec store⟩ := by
  refine .of_read fun j h => ?_
  obtain ⟨key, hparse, h⟩ := bind_eq_ok_iff.mp h
  obtain ⟨names, hnames, h⟩ := bind_eq_ok_iff.mp h
  obtain ⟨record, hrecord, h⟩ := bind_eq_ok_iff.mp h
  rw [select, needKey_eq hkey, needField_eq hbins]
  exact bind_eq_ok_iff.mpr ⟨bins, rfl, bind_eq_ok_iff.mpr ⟨names, hnames, bind_eq_ok_iff.mpr
    ⟨key, hparse, bind_eq_ok_iff.mpr ⟨record, read_of_onStore hrecord, h⟩⟩⟩⟩

theorem metadata_follows (hkey : request.field? "key" = some key) :
    Follows codec ⟨metadata codec store request now, store⟩
      ⟨(serving codec store).metadata key now, serving codec store⟩ := by
  refine .of_read fun j h => ?_
  obtain ⟨key, hparse, h⟩ := bind_eq_ok_iff.mp h
  obtain ⟨metadata, hmetadata, h⟩ := bind_eq_ok_iff.mp h
  rw [Handle.metadata, needKey_eq hkey]
  exact bind_eq_ok_iff.mpr
    ⟨key, hparse, bind_eq_ok_iff.mpr ⟨metadata, read_of_onStore hmetadata, h⟩⟩

theorem remove_follows (hkey : request.field? "key" = some key)
    (hpolicy : Json.optional some (request.field? "policy") = some policy) :
    Follows codec (remove codec store request now)
      ((serving codec store).remove key policy now) := by
  rw [remove, needKey_eq hkey, WritePolicy.ofRequest_optional hpolicy]
  refine .needing (fun a ha => swap_checks ha) ?_
  rintro ⟨key, policy⟩
  exact .withStore (Store.settings_run (.remove key policy) store now) _

theorem touch_follows {ttl : Option Int64} (hkey : request.field? "key" = some key)
    (httl : Json.optional Json.toInt64? (request.field? "ttl") = some ttl) :
    Follows codec (touch codec store request now)
      ((serving codec store).touch key ttl now) := by
  rw [touch, needKey_eq hkey, lifetimeOf_eq httl]
  refine .needing (fun a ha => swap_checks ha) ?_
  rintro ⟨key, ttl⟩
  exact .withStore (Store.settings_run (.touch key ttl) store now) _

theorem operate_follows {ordered : Bool} (hkey : request.field? "key" = some key)
    (hops : request.field? "ops" = some ops)
    (hpolicy : Json.optional some (request.field? "policy") = some policy)
    (hordered : (request.field? "ordered").elim (some false) Json.toBool? = some ordered) :
    Follows codec (operate codec store request now)
      ((serving codec store).operate key ops policy ordered now) := by
  rw [operate, needKey_eq hkey, needField_eq hops, WritePolicy.ofRequest_optional hpolicy]
  refine .needing (fun a ha => ha) ?_
  rintro ⟨key, ops, policy⟩
  rw [orderedOf_eq hordered]
  exact .withStore (Store.settings_run (.operate key ops policy) store now) _

theorem getMany_follows {keys : List Json} {names : Option Json}
    (hkeys : request.field? "keys" = some (.array keys))
    (hnames : Json.optional some (request.field? "bins") = some names)
    (hwithin : ∀ j ∈ keys, ∀ key, codec.parseKey j = .ok key → key.ns = store.settings.ns) :
    Follows codec ⟨getMany codec store request now, store⟩
      ⟨(serving codec store).getMany keys names now, serving codec store⟩ := by
  refine .of_read fun j h => ?_
  obtain ⟨parsed, hparsed, h⟩ := bind_eq_ok_iff.mp h
  obtain ⟨bins, hbins, h⟩ := bind_eq_ok_iff.mp h
  obtain ⟨-, hparsed⟩ := ite_error_eq_ok_iff.mp hparsed
  have hserved : ∀ key ∈ parsed, key.ns = store.settings.ns := by
    intro key hmem
    obtain ⟨j, hj, hparse⟩ := exists_of_mem_mapM hparsed hmem
    exact hwithin j hj key hparse
  rw [getMany, needKeys_eq hkeys, binNamesOf_eq hnames]
  refine bind_eq_ok_iff.mpr ⟨parsed, hparsed, bind_eq_ok_iff.mpr ⟨bins, hbins, ?_⟩⟩
  rw [← h, Store.getMany]
  dsimp only
  rw [List.map_map]
  refine congrArg (fun entries => Except.ok (Json.array entries)) (List.map_congr_left ?_)
  intro key hmem
  rw [onStore_serving (hserved key hmem)]
  cases bins with
  | none => rfl
  | some bins => rfl

theorem truncate_follows {ns : String} {set : Option String} {before : Option UInt64}
    (hset : Json.optional Json.toText? (request.field? "set") = some set)
    (hbefore : Json.optional Json.toUInt64? (request.field? "before") = some before) :
    Follows codec (truncate store request now)
      ((serving codec store).truncate ns set before now) := by
  rw [truncate, thresholdOf_eq hbefore, setOf_eq hset]
  exact .withStore (Store.settings_run (.truncate set before) store now) _

/-- The verb of the service that does what a verb of a program does. -/
def Verb.served : Verb → ServiceVerb
  | .put => .onBins .put
  | .get => .onKey .get
  | .select => .onBins .select
  | .exists => .onKey .exists
  | .remove => .onKey .remove
  | .touch => .touch
  | .operate => .operate
  | .getMany => .batch .getMany
  | .truncate => .truncate

/-- **Every verb agrees**, on every object that is a request to the service. -/
theorem run_follows {verb : Verb} {fields : Fields Json} {request : Request}
    (hrequest : Request.ofJson? verb.served (.object fields) = some request)
    (hwithin : request.Within codec store.settings.ns) :
    Follows codec (run codec store verb (.object fields) now)
      ((serving codec store).handle request now) := by
  cases verb with
  | put =>
    obtain ⟨key, bins, policy, hkey, hbins, hpolicy, rfl⟩ := Request.onBins_of_ofJson? hrequest
    exact put_follows hkey hbins hpolicy
  | get =>
    obtain ⟨key, policy, hkey, -, rfl⟩ := Request.onKey_of_ofJson? hrequest
    exact get_follows hkey
  | select =>
    obtain ⟨key, bins, policy, hkey, hbins, -, rfl⟩ := Request.onBins_of_ofJson? hrequest
    exact select_follows hkey hbins
  | «exists» =>
    obtain ⟨key, policy, hkey, -, rfl⟩ := Request.onKey_of_ofJson? hrequest
    exact metadata_follows hkey
  | remove =>
    obtain ⟨key, policy, hkey, hpolicy, rfl⟩ := Request.onKey_of_ofJson? hrequest
    exact remove_follows hkey hpolicy
  | touch =>
    obtain ⟨key, ttl, hkey, httl, rfl⟩ := Request.touch_of_ofJson? hrequest
    exact touch_follows hkey httl
  | operate =>
    obtain ⟨key, ops, policy, ordered, hkey, hops, hpolicy, hordered, rfl⟩ :=
      Request.operate_of_ofJson? hrequest
    exact operate_follows hkey hops hpolicy hordered
  | getMany =>
    obtain ⟨keys, bins, hkeys, hbins, rfl⟩ := Request.batch_of_ofJson? hrequest
    exact getMany_follows hkeys hbins hwithin
  | truncate =>
    obtain ⟨ns, set, before, hset, hbefore, rfl⟩ := Request.truncate_of_ofJson? hrequest
    exact truncate_follows hset hbefore

end Handle

/-- **What the service answers, an embedded store answers**: take a service whose only
store is the one that a program holds, with the same codec. If the service reads a request
from an object, and answers it, then the program answers the object with the status of
success and the same result, whatever the text that it was sent in, and the store is the
same afterwards in both. -/
theorem Service.handle_then_call {codec : Codec} {store : Store} {verb : Handle.Verb}
    {fields : Fields Json} {request : Request} {now : UInt64} {j : Json}
    (hrequest : Request.ofJson? verb.served (.object fields) = some request)
    (hwithin : request.Within codec store.settings.ns)
    (hserved : ((serving codec store).handle request now).result = .ok j) :
    ∃ after, ((serving codec store).handle request now).state = serving codec after ∧
      Handle.run codec store verb (.object fields) now = .done j after ∧
      ∀ text, Json.ofText? text = some (.object fields) →
        Handle.call (some ⟨store, codec⟩) verb (some text) now =
          (Json.renderStructure [("status", .integer 0), ("ok", j)], some ⟨after, codec⟩) := by
  obtain ⟨hresult, hstate⟩ := Handle.run_follows hrequest hwithin j hserved
  have hrun : Handle.run codec store verb (.object fields) now =
      .done j (Handle.run codec store verb (.object fields) now).state := by
    rw [Attempt.done, ← hresult]
  refine ⟨_, hstate, hrun, ?_⟩
  intro text htext
  rw [Handle.call, Handle.readRequest, htext]
  dsimp only
  rw [hrun]
  rfl

/-- A record is put, with `null` in the place of a policy, and then read in a batch, where the
entry for a record that is not there is a result like any other. -/
theorem Service.stored_record_then_call :
    let text := "\x7b\"key\":\x7b\"ns\":\"test\",\"key\":1\x7d,\"bins\":" ++
      "\x7b\"n\":7\x7d,\"policy\":null\x7d"
    let sent (n : Int) : Json := .object ⟨[("key", .integer n), ("ns", .string "test")]⟩
    let bins : Json := .object ⟨[("n", .integer 7)]⟩
    let key (n : Int64) : Key := ⟨"test", "", some (.integer n), Digest.compute "" (.integer n)⟩
    let record : Record := ⟨(key 1).digestOnly, Named.ofList [("n", .integer 7)], ⟨1, none, 1000⟩⟩
    ∃ stored : Store, stored.records = [((key 1).digest, record)] ∧
      ((serving {} (Store.empty {})).handle (.onBins .put (sent 1) bins none) 1000).state =
        serving {} stored ∧
      Handle.call (some ⟨Store.empty {}, {}⟩) .put (some text) 1000 =
        ("\x7b\"status\":0,\"ok\":null\x7d", some ⟨stored, {}⟩) ∧
      Handle.run {} stored .getMany
          (.object ⟨[("bins", .null), ("keys", .array [sent 1, sent 2])]⟩) 2000 =
        .done
          (.array
            [Codec.entryToJson {} (key 1) (.ok (Codec.recordToJson {} record 2000)),
              Codec.entryToJson {} (key 2) (.error .recordNotFound)])
          stored := by
  intro text sent bins key record
  -- the put
  let fields : Fields Json := ⟨[("bins", bins), ("key", sent 1), ("policy", .null)]⟩
  have htext : Json.ofText? text = some (.object fields) := by
    have hchars : text.toList =
        ['\x7b', '"', 'k', 'e', 'y', '"', ':', '\x7b', '"', 'n', 's', '"', ':', '"', 't', 'e', 's',
          't', '"', ',', '"', 'k', 'e', 'y', '"', ':', '1', '\x7d', ',', '"', 'b', 'i', 'n', 's',
          '"', ':', '\x7b', '"', 'n', '"', ':', '7', '\x7d', ',', '"', 'p', 'o', 'l', 'i', 'c',
          'y', '"', ':', 'n', 'u', 'l', 'l', '\x7d'] := by
      decide +kernel
    rw [Json.ofText?, Json.Source.ofText?, hchars]
    rfl
  have hput : Request.ofJson? Handle.Verb.put.served (.object fields) =
      some (.onBins .put (sent 1) bins none) := rfl
  have hwritten :
      ((serving {} (Store.empty {})).handle (.onBins .put (sent 1) bins none) 1000).result =
        .ok .null := rfl
  have hreply : Json.renderStructure [("status", .integer 0), ("ok", .null)] =
      "\x7b\"status\":0,\"ok\":null\x7d" := by
    decide +kernel
  obtain ⟨stored, hstate, hrun, hcall⟩ := handle_then_call hput trivial hwritten
  have hstored : stored = (Handle.run {} (Store.empty {}) .put (.object fields) 1000).state := by
    rw [hrun]
    rfl
  have hrecords : stored.records = [((key 1).digest, record)] := by
    rw [hstored]
    rfl
  have hns : stored.settings.ns = "test" := by
    rw [hstored]
    rfl
  -- the batch
  have hget : Request.ofJson? Handle.Verb.getMany.served
      (.object ⟨[("bins", .null), ("keys", .array [sent 1, sent 2])]⟩) =
      some (.batch .getMany [sent 1, sent 2] none) := rfl
  have hwithin : (Request.batch .getMany [sent 1, sent 2] none).Within {} stored.settings.ns := by
    rw [hns]
    intro j hj parsed hparsed
    rcases List.mem_pair.mp hj with rfl | rfl
    · obtain rfl := Except.ok.inj hparsed
      rfl
    · obtain rfl := Except.ok.inj hparsed
      rfl
  have hfound : (serving {} stored).onStore (key 1).ns (·.get (key 1) 2000) = .ok record := by
    rw [get_serving hns.symm, Store.live?, Store.find?, hrecords, List.lookup_cons_self]
    rfl
  have hmissing : (serving {} stored).onStore (key 2).ns (·.get (key 2) 2000) =
      .error .recordNotFound := by
    have hother : ((key 2).digest == (key 1).digest) = false := by decide +kernel
    rw [get_serving hns.symm, Store.live?, Store.find?, hrecords, List.lookup_cons, hother]
    rfl
  have hread : ((serving {} stored).handle (.batch .getMany [sent 1, sent 2] none) 2000).result =
      .ok (.array
        [Codec.entryToJson {} (key 1) (.ok (Codec.recordToJson {} record 2000)),
          Codec.entryToJson {} (key 2) (.error .recordNotFound)]) := by
    refine bind_eq_ok_iff.mpr ⟨[key 1, key 2], rfl, bind_eq_ok_iff.mpr ⟨none, rfl, ?_⟩⟩
    rw [List.map_cons, List.map_singleton]
    dsimp only
    rw [hfound, hmissing]
    rfl
  obtain ⟨after, -, hdone, -⟩ := handle_then_call hget hwithin hread
  have hafter : stored = after := congrArg Attempt.state hdone
  refine ⟨stored, hrecords, hstate, ?_, ?_⟩
  · rw [hcall text htext, hreply]
  · rw [hdone, hafter]

end RecordStore
