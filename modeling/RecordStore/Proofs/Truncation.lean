import RecordStore.Embedded
import RecordStore.Proofs.Store.Steps

/-!
# Truncations

A truncation removes the records that it is about (`RecordStore.Store.Concerns`) and leaves
all others as they are, whoever looks and whenever (`RecordStore.Store.truncate_exact`).
The number that it answers is another matter. It counts what is in the store, and an expired
record is in the store until something drops it, although nobody can see it. So the number
of records that readers lose is answered exactly when no such record goes
(`RecordStore.Store.lingering`).

A program that embeds the store sends the set and the threshold as fields of a request
(`RecordStore.Handle.truncation_exact`). They are looked up in different ways: a threshold
that is no time is an error, while a set that is no text is no set, and neither has a request
that is no object. Such a request is taken for one about all sets, unless its threshold is
refused.
-/

namespace RecordStore

namespace Store

variable {s : Store} {set : Option String} {before : Option UInt64} {now : UInt64}

/-! ### What is removed -/

/-- **A truncation is about a record**: the record is of the set, if one is named, and was
last written before the threshold, if there is one. -/
def Concerns (set : Option String) (before : Option UInt64) (record : Record) : Prop :=
  (∀ name ∈ set, record.key.set = name) ∧
    ∀ threshold ∈ before, record.metadata.lastUpdateTime < threshold

theorem matchesTruncation_iff {record : Record} :
    matchesTruncation set before record = true ↔ Concerns set before record := by
  simp [matchesTruncation, Concerns, Option.all_eq_true]

instance (set : Option String) (before : Option UInt64) (record : Record) :
    Decidable (Concerns set before record) :=
  decidable_of_iff _ matchesTruncation_iff

/-- A truncation whose threshold is after the present fails and removes nothing. -/
theorem truncate_of_future {threshold : UInt64} (h : threshold ∈ before) (hnow : now < threshold) :
    s.truncate set before now = .fail (.param (.thresholdInFuture threshold)) s := by
  have hfilter : before.filter (now < ·) = some threshold :=
    Option.filter_eq_some_iff.mpr ⟨h, decide_eq_true hnow⟩
  rw [truncate, hfilter]

/-- Any other truncation removes the records that it is about, and counts them. -/
theorem truncate_of_due (h : ∀ threshold ∈ before, threshold ≤ now) :
    s.truncate set before now =
      .done (s.records.countP fun e => matchesTruncation set before e.2)
        (s.filter fun e => !matchesTruncation set before e.2) := by
  have hfilter : before.filter (now < ·) = none := by
    rw [Option.filter_eq_none_iff]
    intro threshold hthreshold hlt
    exact UInt64.not_le.mpr (of_decide_eq_true hlt) (h threshold hthreshold)
  have hsplit := List.length_eq_countP_add_countP (fun e => matchesTruncation set before e.2)
    (l := s.records)
  have hrest : (s.records.filter fun e => !matchesTruncation set before e.2).length =
      s.records.countP fun e => decide ¬matchesTruncation set before e.2 = true := by
    rw [← List.countP_eq_length_filter]
    simp
  rw [truncate, hfilter]
  refine congrArg (Attempt.done · _) ?_
  change s.records.length - (s.records.filter fun e => !matchesTruncation set before e.2).length = _
  omega

/-! ### What is seen of it -/

/-- Of the records that are kept readers see those that they have seen before. -/
theorem get_filter_eq_ok_iff (s : Store) (keep : Record → Bool) {key : Key} {t : UInt64}
    {record : Record} :
    (s.filter fun e => keep e.2).get key t = .ok record ↔
      s.get key t = .ok record ∧ keep record = true := by
  have hns : (s.filter fun e => keep e.2).checkNamespace key = s.checkNamespace key := rfl
  rw [get_eq_ok_iff, get_eq_ok_iff, hns, live?, live?, find?_filter, and_assoc]
  refine and_congr_right fun _ => ?_
  simp only [Option.filter_eq_some_iff]
  exact and_right_comm

/-- **The expired records that a truncation removes.** Nobody could see them. -/
def lingering (s : Store) (set : Option String) (before : Option UInt64) (now : UInt64) : Nat :=
  s.records.countP fun e => e.2.metadata.isExpired now && matchesTruncation set before e.2

/-- A record that is removed was seen before, or has been expired. -/
theorem countP_add_size_filter (s : Store) (set : Option String) (before : Option UInt64)
    (now : UInt64) :
    (s.records.countP fun e => matchesTruncation set before e.2) +
        (s.filter fun e => !matchesTruncation set before e.2).size now =
      s.size now + s.lingering set before now := by
  have hremoved := List.length_eq_countP_add_countP
    (fun e : Digest × Record => !e.2.metadata.isExpired now)
    (l := s.records.filter fun e => matchesTruncation set before e.2)
  have hseen := List.countP_eq_countP_filter_add s.records
    (fun e => !e.2.metadata.isExpired now) fun e => matchesTruncation set before e.2
  have hlingering : s.lingering set before now =
      (s.records.filter fun e => matchesTruncation set before e.2).countP
        fun e => decide ¬(!e.2.metadata.isExpired now) = true := by
    rw [lingering, List.countP_filter]
    simp
  rw [hlingering, size, size, List.countP_eq_length_filter]
  change _ + (s.records.filter fun e => !matchesTruncation set before e.2).countP _ = _
  omega

/-- **A truncation removes what it is about**, and nothing if its threshold is after the
present. Whatever the time, a reader finds after it those records that were there before and
that it is not about, and finds them unchanged. The number that is answered is the number of
records that readers have lost at the time of the truncation, together with those that had
expired by then: it is right exactly if there is no such record. -/
theorem truncate_exact (s : Store) (set : Option String) (before : Option UInt64)
    (now : UInt64) :
    (∀ threshold ∈ before, now < threshold →
        s.truncate set before now = .fail (.param (.thresholdInFuture threshold)) s) ∧
      ((∀ threshold ∈ before, threshold ≤ now) → ∃ removed after,
        s.truncate set before now = .done removed after ∧
          (∀ key t record, after.get key t = .ok record ↔
            s.get key t = .ok record ∧ ¬Concerns set before record) ∧
          removed + after.size now = s.size now + s.lingering set before now ∧
          (removed + after.size now = s.size now ↔
            ∀ e ∈ s.records, e.2.metadata.isExpired now → ¬Concerns set before e.2)) := by
  refine ⟨fun threshold => truncate_of_future, fun hdue => ?_⟩
  have hcount := s.countP_add_size_filter set before now
  refine ⟨_, _, truncate_of_due hdue, fun key t record => ?_, hcount, ?_⟩
  · rw [s.get_filter_eq_ok_iff fun record => !matchesTruncation set before record,
      ← matchesTruncation_iff]
    simp
  · have hnone : s.lingering set before now = 0 ↔
        ∀ e ∈ s.records, e.2.metadata.isExpired now → ¬Concerns set before e.2 := by
      rw [lingering, List.countP_eq_zero]
      refine forall₂_congr fun e _ => ?_
      rw [Bool.and_eq_true, matchesTruncation_iff, not_and]
    rw [← hnone]
    omega

/-- A truncation of a set before a threshold: one of its records is old enough and goes, one
is not, and an expired record of another set stays where nobody sees it. -/
theorem truncate_exact_beside_expired :
    let old : Key := ⟨"test", "demo", none, ⟨List.replicate 20 0, rfl⟩⟩
    let young : Key := ⟨"test", "demo", none, ⟨List.replicate 20 1, rfl⟩⟩
    let expired : Key := ⟨"test", "other", none, ⟨List.replicate 20 2, rfl⟩⟩
    let bins : Bins := Named.ofList [("n", .integer 1)]
    let s := (replay (empty {}) [(.put old bins {}, 0), (.put young bins {}, 50),
      (.put expired bins { ttl := .after 1 }, 0)]).2
    s.Reachable ∧ s.size 5000 = 2 ∧ (∀ threshold ∈ some (10 : UInt64), threshold ≤ 5000) ∧
      ∃ after, s.truncate (some "demo") (some 10) 5000 = .done 1 after ∧
        (∀ record, after.get old 5000 ≠ .ok record) ∧
        (∀ record, after.get young 5000 = .ok record ↔ s.get young 5000 = .ok record) ∧
        1 + after.size 5000 = s.size 5000 := by
  intro old young expired bins s
  have hdue : ∀ threshold ∈ some (10 : UInt64), threshold ≤ 5000 := by
    rintro threshold ⟨⟩
    decide
  have hone : (s.truncate (some "demo") (some 10) 5000).result.toOption = some 1 := by
    decide +kernel
  have hrecords : ∀ e ∈ s.records, (e.1 = old.digest → Concerns (some "demo") (some 10) e.2) ∧
      (e.1 = young.digest → ¬Concerns (some "demo") (some 10) e.2) ∧
      (e.2.metadata.isExpired 5000 → ¬Concerns (some "demo") (some 10) e.2) := by
    decide +kernel
  have hkept : ∀ key record, s.get key 5000 = .ok record → (key.digest, record) ∈ s.records :=
    fun key record h => mem_of_live? (get_eq_ok_iff.mp h).2
  obtain ⟨removed, after, hdone, hget, -, hcount⟩ :=
    (truncate_exact s (some "demo") (some 10) 5000).2 hdue
  rw [hdone] at hone
  obtain rfl : removed = 1 := Option.some.inj hone
  refine ⟨⟨{}, _, rfl⟩, by decide +kernel, hdue, after, hdone, fun record h => ?_,
    fun record => ?_, ?_⟩
  · obtain ⟨hold, hspared⟩ := (hget old 5000 record).mp h
    exact hspared ((hrecords _ (hkept old record hold)).1 rfl)
  · rw [hget, and_iff_left_iff_imp]
    exact fun hyoung => (hrecords _ (hkept young record hyoung)).2.1 rfl
  · exact hcount.mpr fun e he => (hrecords e he).2.2

/-- **An expired record is counted** by the truncation that removes it, although there was
nothing to be seen before and after. -/
theorem truncate_counts_lingering :
    let key : Key := ⟨"test", "demo", none, ⟨List.replicate 20 0, rfl⟩⟩
    let bins : Bins := Named.ofList [("n", .integer 1)]
    let s := (replay (empty {}) [(.put key bins { ttl := .after 1 }, 0)]).2
    s.Reachable ∧ s.size 5000 = 0 ∧ (s.truncate none none 5000).result = .ok 1 ∧
      (s.truncate none none 5000).state.size 5000 = 0 :=
  ⟨⟨{}, _, rfl⟩, rfl, rfl, rfl⟩

end Store

/-! ### Requests -/

namespace Handle

variable {s : Store} {request : Json} {now : UInt64}

/-- A field is absent, or it is `null`. -/
def Unsent (request : Json) (name : String) : Prop :=
  request.field? name = none ∨ request.field? name = some .null

/-- **A request for a truncation is well-formed.** -/
structure WellFormedTruncation (request : Json) : Prop where
  /-- It is an object. -/
  object : ∃ fields, request = .object fields
  /-- The set is a text, if there is one. -/
  set : Unsent request "set" ∨ ∃ name, request.field? "set" = some (.string name)
  /-- The threshold is a time, if there is one. -/
  before : Unsent request "before" ∨
    ∃ time : UInt64, request.field? "before" = some (.integer time.toNat)

/-- **The threshold of a request has come**, or there is none. -/
def Due (request : Json) (now : UInt64) : Prop :=
  Unsent request "before" ∨
    ∃ time : UInt64, request.field? "before" = some (.integer time.toNat) ∧ time ≤ now

/-- **A request is about a record**: the record is of the set, if that is a text, and was
last written before the threshold, if that is a time. -/
def Sought (request : Json) (record : Record) : Prop :=
  (∀ name, request.field? "set" = some (.string name) → record.key.set = name) ∧
    ∀ time : UInt64, request.field? "before" = some (.integer time.toNat) →
      record.metadata.lastUpdateTime < time

/-- **A call is refused**: the reply carries an error, the status of which is not zero, and
the handle is what it was. -/
def Refused (handle : Option Handle) (called : String × Option Handle) : Prop :=
  (∃ e : Error, called.1 = reply (.error e) ∧ e.status.code ≠ 0) ∧ called.2 = handle

/-! ### Fields of a request -/

theorem sentSet_eq_some_iff {name : String} :
    (request.field? "set").bind Json.toText? = some name ↔
      request.field? "set" = some (.string name) := by
  rw [Option.bind_eq_some_iff]
  constructor
  · rintro ⟨j, hsent, hread⟩
    cases j with
    | string s => rw [hsent, ← Option.some.inj hread]
    | _ => cases hread
  · exact fun hsent => ⟨_, hsent, rfl⟩

theorem toUInt64?_eq_some_iff {j : Json} {time : UInt64} :
    j.toUInt64? = some time ↔ j = .integer time.toNat := by
  cases j with
  | integer n => rw [Json.toUInt64?, Word.uint64?_eq_some_iff, Json.integer.injEq, eq_comm]
  | _ => simp [Json.toUInt64?]

/-- The threshold of a request is nothing, or a time, or it is refused. -/
theorem thresholdOf_cases (request : Json) :
    (Unsent request "before" ∧ thresholdOf request = .ok none) ∨
      (∃ time : UInt64, request.field? "before" = some (.integer time.toNat) ∧
        thresholdOf request = .ok (some time)) ∨
      ((¬Unsent request "before" ∧
          ∀ time : UInt64, request.field? "before" ≠ some (.integer time.toNat)) ∧
        thresholdOf request = .error (.param .thresholdNotTime)) := by
  by_cases hunsent : Unsent request "before"
  · refine Or.inl ⟨hunsent, ?_⟩
    rw [thresholdOf]
    rcases hunsent with hsent | hsent
    · rw [hsent]
    · rw [hsent]
  · rw [Unsent, not_or] at hunsent
    obtain ⟨j, hsent⟩ := Option.ne_none_iff_exists'.mp hunsent.1
    have hnull : j ≠ .null := fun h => hunsent.2 (h ▸ hsent)
    refine Or.inr ?_
    cases hread : j.toUInt64? with
    | some time =>
      refine Or.inl ⟨time, ?_, ?_⟩
      · rw [hsent, toUInt64?_eq_some_iff.mp hread]
      · rw [thresholdOf, hsent]
        simp only [hread]
    | none =>
      refine Or.inr ⟨⟨not_or.mpr hunsent, fun time htime => ?_⟩, ?_⟩
      · rw [hsent, Option.some_inj, ← toUInt64?_eq_some_iff, hread] at htime
        cases htime
      · rw [thresholdOf, hsent]
        simp only [hread]

/-- A request sends one threshold at most. -/
theorem sentTime_unique {time other : UInt64}
    (h : request.field? "before" = some (.integer time.toNat))
    (hother : request.field? "before" = some (.integer other.toNat)) : other = time := by
  rw [h, Option.some_inj, ← toUInt64?_eq_some_iff, toUInt64?_eq_some_iff.mpr rfl] at hother
  exact (Option.some.inj hother).symm

/-- What the threshold that was read says of the one that was sent. -/
theorem mem_threshold_iff {before : Option UInt64} (hread : thresholdOf request = .ok before)
    {time : UInt64} : time ∈ before ↔ request.field? "before" = some (.integer time.toNat) := by
  rcases thresholdOf_cases request with ⟨hunsent, hok⟩ | ⟨sent, hsent, hok⟩ | ⟨-, herror⟩
  · rw [hok] at hread
    obtain rfl := Except.ok.inj hread
    rcases hunsent with hsent | hsent
    · simp [hsent]
    · simp [hsent]
  · rw [hok] at hread
    obtain rfl := Except.ok.inj hread
    rw [Option.mem_some_iff]
    exact ⟨fun h => h ▸ hsent, fun h => (sentTime_unique hsent h).symm⟩
  · rw [herror] at hread
    cases hread

theorem due_iff : Due request now ↔
    ∃ before, thresholdOf request = .ok before ∧ ∀ threshold ∈ before, threshold ≤ now := by
  constructor
  · intro hdue
    rcases thresholdOf_cases request with ⟨-, hread⟩ | ⟨time, hsent, hread⟩ | ⟨hneither, -⟩
    · exact ⟨none, hread, nofun⟩
    · refine ⟨some time, hread, fun threshold hthreshold => ?_⟩
      obtain rfl := Option.mem_some_iff.mp hthreshold
      rcases hdue with hunsent | ⟨other, hother, hle⟩
      · rw [Unsent, hsent] at hunsent
        simp at hunsent
      · exact sentTime_unique hsent hother ▸ hle
    · rcases hdue with hunsent | ⟨time, hsent, -⟩
      · exact absurd hunsent hneither.1
      · exact absurd hsent (hneither.2 time)
  · rintro ⟨before, hread, hdue⟩
    rcases thresholdOf_cases request with ⟨hunsent, -⟩ | ⟨time, hsent, -⟩ | ⟨-, herror⟩
    · exact Or.inl hunsent
    · exact Or.inr ⟨time, hsent, hdue time ((mem_threshold_iff hread).mpr hsent)⟩
    · rw [herror] at hread
      cases hread

/-- What can be wrong with a request whose threshold has come. -/
theorem object_or_set_of_malformed (h : ¬WellFormedTruncation request) (hdue : Due request now) :
    (∀ fields, request ≠ .object fields) ∨
      ¬Unsent request "set" ∧ ∀ name, request.field? "set" ≠ some (.string name) := by
  by_cases hobject : ∃ fields, request = .object fields
  · have hset : ¬(Unsent request "set" ∨ ∃ name, request.field? "set" = some (.string name)) :=
      fun hset => h ⟨hobject, hset, hdue.imp_right fun ⟨time, hsent, _⟩ => ⟨time, hsent⟩⟩
    rw [not_or, not_exists] at hset
    exact Or.inr hset
  · exact Or.inl (not_exists.mp hobject)

/-- A truncation is about the records that the request is about. -/
theorem concerns_iff_sought {before : Option UInt64} (hread : thresholdOf request = .ok before)
    {record : Record} :
    Store.Concerns ((request.field? "set").bind Json.toText?) before record ↔
      Sought request record := by
  simp only [Store.Concerns, Sought, mem_threshold_iff hread, Option.mem_def,
    sentSet_eq_some_iff]

/-! ### Answers to a request -/

/-- A request whose threshold has not come is refused, or the threshold is no time. -/
theorem truncate_of_not_due (s : Store) (h : ¬Due request now) :
    ∃ cause, truncate s request now = .fail (.param cause) s := by
  rw [truncate]
  cases hread : thresholdOf request with
  | error e =>
    rcases thresholdOf_cases request with ⟨-, hok⟩ | ⟨time, -, hok⟩ | ⟨-, herror⟩
    · cases hok.symm.trans hread
    · cases hok.symm.trans hread
    · obtain rfl := Except.error.inj (herror.symm.trans hread)
      exact ⟨_, rfl⟩
  | ok before =>
    rw [due_iff, not_exists] at h
    obtain ⟨threshold, hfuture⟩ := Classical.not_forall.mp fun hdue => h before ⟨hread, hdue⟩
    obtain ⟨hthreshold, hlt⟩ := Classical.not_imp.mp hfuture
    rw [Attempt.needing, Store.truncate_of_future hthreshold (UInt64.not_le.mp hlt)]
    exact ⟨_, rfl⟩

/-- Any other request removes the records that it is about. -/
theorem truncate_of_due (s : Store) (h : Due request now) :
    ∃ (removed : Nat) (after : Store), truncate s request now = .done (.integer removed) after ∧
      ∀ e, e ∈ after.records ↔ e ∈ s.records ∧ ¬Sought request e.2 := by
  obtain ⟨before, hread, hdue⟩ := due_iff.mp h
  rw [truncate, hread, Attempt.needing, Store.truncate_of_due hdue]
  refine ⟨_, _, rfl, fun e => ?_⟩
  refine List.mem_filter.trans (and_congr_right fun _ => ?_)
  rw [Bool.not_eq_true', ← Bool.not_eq_true, Store.matchesTruncation_iff,
    concerns_iff_sought hread]

/-! ### Replies -/

/-- How the text of a structure with a status begins. -/
theorem renderStructure_status (code : Int) (name : String) (j : Json) :
    ∃ rest, Json.renderStructure [("status", .integer code), (name, j)] =
      "\x7b\"status\":" ++ (toString code ++ rest) := by
  have hname : Json.renderString "status" = "\"status\"" := by decide +kernel
  have hfront : "\x7b\"status\":" = "\x7b" ++ ("\"status\"" ++ ":") := rfl
  rw [hfront, Json.renderStructure, Json.renderFields, Json.renderFields, Json.render, hname,
    String.intercalate_cons_cons]
  simp only [String.append_assoc]
  exact ⟨_, rfl⟩

/-- Of all statuses only success is written with a zero in front. -/
theorem exists_head?_code {status : Status} (h : status.code ≠ 0) :
    ∃ c, (toString status.code).toList.head? = some c ∧ c ≠ '0' := by
  cases status with
  | ok => exact absurd rfl h
  | _ => exact ⟨_, rfl, by decide⟩

theorem code_ne_zero (e : Error) : e.status.code ≠ 0 := by
  cases e <;> simp [Error.status, Status.code]

/-- The reply to a call that succeeds is the reply to no error: already the statuses differ. -/
theorem reply_ok_ne_error (j : Json) (e : Error) : reply (.ok j) ≠ reply (.error e) := by
  intro h
  obtain ⟨rest, hok⟩ := renderStructure_status Status.ok.code "ok" j
  obtain ⟨rest', herror⟩ := renderStructure_status e.status.code "error" (.string e.message)
  rw [reply, reply, hok, herror, String.append_right_inj] at h
  have hzero : (toString Status.ok.code).toList.head? = some '0' := rfl
  obtain ⟨c, hc, hne⟩ := exists_head?_code (code_ne_zero e)
  have hfront := congrArg (fun text => text.toList.head?) h
  simp only [String.toList_append, List.head?_append, hzero, hc, Option.some_or,
    Option.some_inj] at hfront
  exact hne hfront.symm

theorem refused_error (handle : Option Handle) (e : Error) :
    Refused handle (reply (.error e), handle) :=
  ⟨⟨e, rfl, code_ne_zero e⟩, rfl⟩

/-! ### Calls -/

variable {h : Handle} {text : Option String}

/-- A call that can be read is the answer to the request. -/
theorem call_truncate (hread : readRequest text = .ok request) :
    call (some h) .truncate text now =
      (reply (truncate h.store request now).result,
        some { h with store := (truncate h.store request now).state }) := by
  rw [call, hread]
  rfl

/-- **A request is refused** if its threshold is, and for nothing else. -/
theorem refused_iff_not_due (hread : readRequest text = .ok request) :
    Refused (some h) (call (some h) .truncate text now) ↔ ¬Due request now := by
  rw [call_truncate hread]
  constructor
  · rintro ⟨⟨e, hreply, -⟩, -⟩ hdue
    obtain ⟨removed, after, hdone, -⟩ := truncate_of_due h.store hdue
    rw [hdone] at hreply
    exact reply_ok_ne_error _ e hreply
  · intro hdue
    obtain ⟨cause, hfail⟩ := truncate_of_not_due h.store hdue
    rw [hfail]
    exact refused_error (some h) _

/-- **The records that a call removes** are those that the request is about, if its threshold
has come. -/
theorem mem_call_truncate_iff (hread : readRequest text = .ok request) (now : UInt64) :
    ∃ after, (call (some h) .truncate text now).2 = some after ∧
      ∀ e, e ∈ after.store.records ↔
        e ∈ h.store.records ∧ ¬(Due request now ∧ Sought request e.2) := by
  rw [call_truncate hread]
  refine ⟨_, rfl, fun e => ?_⟩
  by_cases hdue : Due request now
  · obtain ⟨removed, after, hdone, hmem⟩ := truncate_of_due h.store hdue
    simp only [hdue, true_and]
    rw [hdone]
    exact hmem e
  · obtain ⟨cause, hfail⟩ := truncate_of_not_due h.store hdue
    rw [hfail]
    simp [hdue, Attempt.fail]

/-- **What a request for a truncation comes to**, whatever its text. Without a handle, and if
the text is no JSON, it is refused. Otherwise it is refused exactly if its threshold is no
time or is after the present, so that a malformed request gets through when its threshold has
come and it is no object, or has a set that is no text. The records that go are those that the
request is about. If the set is a text they are all of that set; if it is not, there is no set
to be of. -/
theorem truncation_exact (handle : Option Handle) (text : Option String) (now : UInt64) :
    let called := call handle .truncate text now
    ((∀ h request, handle = some h → readRequest text ≠ .ok request) → Refused handle called) ∧
      ∀ h request, handle = some h → readRequest text = .ok request →
        (Refused handle called ↔ ¬Due request now) ∧
          (¬WellFormedTruncation request → Refused handle called ∨ Due request now ∧
            ((∀ fields, request ≠ .object fields) ∨ ¬Unsent request "set" ∧
              ∀ name, request.field? "set" ≠ some (.string name))) ∧
          ∃ after, called.2 = some after ∧
            (∀ e, e ∈ after.store.records ↔
              e ∈ h.store.records ∧ ¬(Due request now ∧ Sought request e.2)) ∧
            ∀ name, request.field? "set" = some (.string name) →
              ∀ e ∈ h.store.records, e ∉ after.store.records → e.2.key.set = name := by
  intro called
  refine ⟨fun hnone => ?_, ?_⟩
  · cases handle with
    | none => exact refused_error none _
    | some h =>
      cases hread : readRequest text with
      | error e =>
        have hcalled : called = (reply (.error e), some h) := by
          change call (some h) .truncate text now = _
          rw [call, hread]
        rw [hcalled]
        exact refused_error (some h) e
      | ok request => exact absurd hread (hnone h request rfl)
  · rintro h request rfl hread
    have hrefused : Refused (some h) called ↔ ¬Due request now := refused_iff_not_due hread
    obtain ⟨after, hafter, hmem⟩ := mem_call_truncate_iff (h := h) hread now
    refine ⟨hrefused, fun hmalformed => ?_, after, hafter, hmem, fun name hname e he hgone => ?_⟩
    · by_cases hdue : Due request now
      · exact Or.inr ⟨hdue, object_or_set_of_malformed hmalformed hdue⟩
      · exact Or.inl (hrefused.mpr hdue)
    · rw [hmem, not_and, Classical.not_not] at hgone
      exact (hgone he).2.1 name hname

/-- A request with a threshold that is a word is refused, and one with a set and no threshold
removes the set. -/
theorem truncation_exact_of_word :
    let key : Key := ⟨"test", "demo", none, ⟨List.replicate 20 0, rfl⟩⟩
    let s := (Store.replay (.empty {}) [(.put key (Named.ofList [("n", .integer 1)]) {}, 0)]).2
    let h : Handle := ⟨s, {}⟩
    let worded := "\x7b\"before\":\"soon\"\x7d"
    let plain := "\x7b\"set\":\"demo\"\x7d"
    s.Reachable ∧ Refused (some h) (call (some h) .truncate (some worded) 1000) ∧
      ∃ after, (call (some h) .truncate (some plain) 1000).2 = some after ∧
        after.store.records = [] := by
  intro key s h worded plain
  have hworded : readRequest (some worded) = .ok (.object ⟨[("before", .string "soon")]⟩) := by
    have hchars : worded.toList = ['\x7b', '"', 'b', 'e', 'f', 'o', 'r', 'e', '"', ':', '"', 's',
        'o', 'o', 'n', '"', '\x7d'] := by
      decide +kernel
    rw [readRequest, Json.ofText?, Json.Source.ofText?, hchars]
    rfl
  have hplain : readRequest (some plain) = .ok (.object ⟨[("set", .string "demo")]⟩) := by
    have hchars : plain.toList = ['\x7b', '"', 's', 'e', 't', '"', ':', '"', 'd', 'e', 'm', 'o',
        '"', '\x7d'] := by
      decide +kernel
    rw [readRequest, Json.ofText?, Json.Source.ofText?, hchars]
    rfl
  have hrefused := ((truncation_exact (some h) (some worded) 1000).2 h _ rfl hworded).1
  obtain ⟨-, -, after, hafter, hmem, -⟩ :=
    (truncation_exact (some h) (some plain) 1000).2 h _ rfl hplain
  refine ⟨⟨{}, _, rfl⟩, hrefused.mpr ?_, after, hafter, ?_⟩
  · rintro ((hsent | hsent) | ⟨time, hsent, -⟩) <;> cases hsent
  · have hsets : ∀ e ∈ s.records, e.2.key.set = "demo" := by decide +kernel
    refine List.eq_nil_iff_forall_not_mem.mpr fun e he => ?_
    obtain ⟨hold, hspared⟩ := (hmem e).mp he
    refine hspared ⟨Or.inl (Or.inl rfl), fun name hname => ?_, fun time htime => by cases htime⟩
    cases hname
    exact hsets e hold

/-- **A set that is a number is no set**, so such a request removes all sets. -/
theorem truncation_of_numbered_set :
    let key : Key := ⟨"test", "demo", none, ⟨List.replicate 20 0, rfl⟩⟩
    let s := (Store.replay (.empty {}) [(.put key (Named.ofList [("n", .integer 1)]) {}, 0)]).2
    let h : Handle := ⟨s, {}⟩
    let text := "\x7b\"set\":5\x7d"
    let request : Json := .object ⟨[("set", .integer 5)]⟩
    let called := call (some h) .truncate (some text) 1000
    s.Reachable ∧ s.size 1000 = 1 ∧ readRequest (some text) = .ok request ∧
      ¬WellFormedTruncation request ∧ called.1 = reply (.ok (.integer 1)) ∧
      ¬Refused (some h) called ∧ ∃ after, called.2 = some after ∧ after.store.records = [] := by
  intro key s h text request called
  have hread : readRequest (some text) = .ok request := by
    have hchars : text.toList = ['\x7b', '"', 's', 'e', 't', '"', ':', '5', '\x7d'] := by
      decide +kernel
    rw [readRequest, Json.ofText?, Json.Source.ofText?, hchars]
    rfl
  have hcalled : called = _ := call_truncate hread
  refine ⟨⟨{}, _, rfl⟩, by decide +kernel, hread, fun hformed => ?_, ?_, ?_, ?_⟩
  · rcases hformed.set with (hsent | hsent) | ⟨name, hsent⟩ <;> cases hsent
  · rw [hcalled]
    rfl
  · rw [hcalled]
    rintro ⟨⟨e, hreply, -⟩, -⟩
    exact reply_ok_ne_error (.integer 1) e hreply
  · rw [hcalled]
    exact ⟨_, rfl, by decide +kernel⟩

end Handle

end RecordStore
