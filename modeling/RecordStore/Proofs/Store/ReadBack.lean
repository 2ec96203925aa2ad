import RecordStore.Proofs.Engine.Put
import RecordStore.Proofs.Store.WellFormed

/-!
# Reading what was put

A put that succeeds can be read back at once: the record has the bins that the put has
written and those that it has left alone, it was updated at the time of the put, and it
has one write more than the record before it; and if no bin is left, there is no record
(`RecordStore.Store.read_after_put`). A record that is expired counts as missing here,
although the store may still hold it.

Between the engine, which says what a put leaves (`RecordStore.Engine.OnlyWrites.spec`), and the
reader stands the store. It keeps what is left under the digest of the key, and nothing
else moves (`RecordStore.Store.live?_run_of_ne`). What it keeps is shown, because a write
does not set a void time that has come already.
-/

namespace RecordStore

namespace Store

variable {s : Store} {key : Key} {now t : UInt64} {digest other : Digest}

/-! ### Other digests -/

theorem find?_erase_of_ne (s : Store) (h : other ≠ digest) :
    (s.erase digest).find? other = s.find? other := by
  rw [erase, find?_filter]
  cases s.find? other with
  | none => rfl
  | some record => simp [Option.filter, h]

theorem find?_insert_of_ne (s : Store) (h : other ≠ digest) (record : Record) :
    (s.insert digest record).find? other = s.find? other := by
  rw [← find?_erase_of_ne s h]
  exact (lookup_cons_eq_ite ..).trans (if_neg h)

theorem find?_reap_of_ne (s : Store) (h : other ≠ digest) (now : UInt64) :
    (s.reap digest now).find? other = s.find? other := by
  rw [reap]
  split
  · exact s.find?_erase_of_ne h
  · rfl

theorem find?_commit_of_ne (s : Store) (h : other ≠ digest) (outcome : Outcome) :
    (s.commit digest outcome).find? other = s.find? other := by
  rw [commit]
  split
  · cases outcome.record with
    | none => exact s.find?_erase_of_ne h
    | some record => exact s.find?_insert_of_ne h record
  · rfl

/-- **A call on one record moves no other record**, whether it succeeds or fails. -/
theorem live?_run_of_ne (s : Store) (h : other ≠ key.digest)
    (ask : Option Record → Except Error Outcome) (now t : UInt64) :
    (s.run key ask now).state.live? other t = s.live? other t := by
  have hfind : (s.run key ask now).state.find? other = s.find? other := by
    rw [run_eq]
    split
    · rfl
    · split
      · exact s.find?_reap_of_ne h now
      · exact (find?_commit_of_ne _ h _).trans (s.find?_reap_of_ne h now)
  rw [live?, live?, hfind]

/-! ### The digest of the call -/

/-- What a store shows under a digest after a write is what the write has left there,
unless that is expired. -/
theorem live?_run {ask : Option Record → Except Error Outcome} {outcome : Outcome}
    (h : (s.run key ask now).result = .ok outcome) (hwrote : outcome.wrote) (t : UInt64) :
    (s.run key ask now).state.live? key.digest t =
      outcome.record.filter fun record => !record.metadata.isExpired t := by
  rw [live?, find?_run h hwrote]

/-- A put that succeeds is one that the engine answers on the record that the store shows. -/
theorem put_result_eq_ok_iff {bins : Bins} {policy : WritePolicy} :
    (s.put key bins policy now).result = .ok () ↔
      ∃ outcome, (s.run key (s.engine.put · key bins policy now) now).result = .ok outcome := by
  rw [put, Attempt.forget, Attempt.map_eq_mapResult, Attempt.mapResult_result_eq_ok_iff]
  simp

/-- A record that is live has a void time that is to come, if any. -/
theorem lt_voidTime_of_live? {void : UInt64}
    (h : (s.live? digest now).bind (fun record => record.metadata.voidTime) = some void) :
    now < void := by
  obtain ⟨record, hlive, hvoid⟩ := Option.bind_eq_some_iff.mp h
  have hexpired := (Option.filter_eq_some_iff.mp hlive).2
  rw [Bool.not_eq_true'] at hexpired
  exact Metadata.isExpired_eq_false_iff.mp hexpired void hvoid

/-- **The record that a store shows after a call that only stores values** is the one that the
call has left. It is shown, since its void time is to come. -/
theorem live?_run_of_onlyWrites {ops : List Operation} {policy : WritePolicy}
    {ask : Option Record → Except Error Outcome} {outcome : Outcome}
    (hops : Engine.OnlyWrites ops) (hnow : now.toNat + 1 < UInt64.size)
    (httl : policy.ttl ≠ .after 0) (hrun : (s.run key ask now).result = .ok outcome)
    (houtcome : s.engine.operate (s.live? key.digest now) key ops policy now = .ok outcome) :
    let before := s.live? key.digest now
    ∃ kept : Bins, s.engine.Written (Engine.putBase before policy) ops kept ∧
      (s.run key ask now).state.live? key.digest now =
        if kept.isEmpty then none else some (s.engine.putRecord before key policy now kept) := by
  intro before
  obtain ⟨hwrote, kept, hkept, hrecord⟩ := hops.spec houtcome
  have hfresh : (s.engine.putRecord before key policy now kept).metadata.isExpired now = false :=
    Metadata.isExpired_eq_false_iff.mpr fun _ hvoid =>
      Expiration.lt_resolve hnow httl (fun _ => lt_voidTime_of_live?) hvoid
  refine ⟨kept, hkept, (live?_run hrun hwrote now).trans ?_⟩
  rw [hrecord]
  split
  · rfl
  · rw [Option.filter_some, hfresh]
    rfl

/-- **The record that a store shows after a put.** -/
theorem live?_put {bins : Bins} {policy : WritePolicy} (hnow : now.toNat + 1 < UInt64.size)
    (httl : policy.ttl ≠ .after 0) (hput : (s.put key bins policy now).result = .ok ()) :
    let before := s.live? key.digest now
    ∃ kept : Bins, (∀ name, kept.get? name = (Engine.putBase before policy).afterPut bins name) ∧
      (s.put key bins policy now).state.live? key.digest now =
        if kept.isEmpty then none else some (s.engine.putRecord before key policy now kept) := by
  intro before
  obtain ⟨outcome, hrun⟩ := put_result_eq_ok_iff.mp hput
  have houtcome := (ite_error_eq_ok_iff.mp (run_result_eq_ok_iff.mp hrun).2).2
  obtain ⟨kept, hwritten, hlive⟩ :=
    live?_run_of_onlyWrites (Engine.onlyWrites_putOps bins) hnow httl hrun houtcome
  exact ⟨kept, hwritten.get?_put, hlive⟩

/-! ### Reading back -/

/-- **A put is read back.** When a put succeeds, with a lifetime that is not zero and before
the last moment of time, a reader finds the bins that the put has written, apart from those
where it has written null, over the bins that it started from. They were updated just now,
and their record has one write more than the one before, if there was one that was not
expired. If no bin is left the reader finds no record. Under every other digest the reader
finds, at any time, what would be there without the put. -/
theorem read_after_put {bins : Bins} {policy : WritePolicy}
    (hnow : now.toNat + 1 < UInt64.size) (httl : policy.ttl ≠ .after 0)
    (hgeneration : ((s.live? key.digest now).elim 0 Record.generation).toNat + 1 < UInt64.size)
    (hput : (s.put key bins policy now).result = .ok ()) :
    let before := s.live? key.digest now
    let after := (s.put key bins policy now).state
    let expected := (Engine.putBase before policy).afterPut bins
    ((∀ name, expected name = none) → after.get key now = .error .recordNotFound) ∧
      ((∃ name, expected name ≠ none) → ∃ record, after.get key now = .ok record ∧
        (∀ name, record.bins.get? name = expected name) ∧
        record.metadata.lastUpdateTime = now ∧
        record.generation.toNat = (before.elim 0 Record.generation).toNat + 1) ∧
      ∀ other : Key, other.digest ≠ key.digest → ∀ t,
        after.get other t = s.get other t ∧
          (∀ names, after.select other names t = s.select other names t) ∧
          after.metadata other t = s.metadata other t := by
  intro before after expected
  obtain ⟨kept, hkept, hlive⟩ := live?_put hnow httl hput
  have hsettings : after.settings = s.settings := settings_runOn s key _ now
  have hns : after.checkNamespace key = .ok () := by
    obtain ⟨outcome, hrun⟩ := put_result_eq_ok_iff.mp hput
    rw [checkNamespace, hsettings]
    exact (run_result_eq_ok_iff.mp hrun).1
  have hget := get_of_live? hns hlive
  have hempty : kept.isEmpty = true ↔ ∀ name, expected name = none :=
    Named.isEmpty_iff_get?.trans (forall_congr' fun name => by rw [hkept])
  refine ⟨fun hnone => ?_, fun hsome => ?_, fun other hother t => ?_⟩
  · rwa [if_pos (hempty.mpr hnone)] at hget
  · obtain ⟨name, hname⟩ := hsome
    rw [if_neg fun h => hname (hempty.mp h name)] at hget
    exact ⟨_, hget, hkept, rfl, toNat_add_one_of_lt hgeneration⟩
  · exact reads_of_live? hsettings (live?_run_of_ne s hother _ now t)

/-- A put over a record that is live: the bin that is written null is gone, the bin that is
not mentioned is there, and another record is as it was. -/
theorem read_after_put_update :
    let key : Key := ⟨"test", "demo", none, ⟨List.replicate 20 0, rfl⟩⟩
    let other : Key := ⟨"test", "demo", none, ⟨List.replicate 20 1, rfl⟩⟩
    let first : Bins := Named.ofList [("a", .integer 1), ("b", .integer 2)]
    let second : Bins := Named.ofList [("a", .null), ("c", .integer 3)]
    let s := (replay (empty {}) [(.put key first { ttl := .after 10 }, 0),
      (.put other first {}, 0)]).2
    let after := (s.put key second { ttl := .after 1 } 5000).state
    s.Reachable ∧ (s.put key second { ttl := .after 1 } 5000).result = .ok () ∧
      (∃ record, after.get key 5000 = .ok record ∧ record.bins.get? "a" = none ∧
        record.bins.get? "b" = some (.integer 2) ∧ record.bins.get? "c" = some (.integer 3) ∧
        record.generation.toNat = 2) ∧
      after.get other 5000 = s.get other 5000 := by
  intro key other first second s after
  have hput : (s.put key second { ttl := .after 1 } 5000).result = .ok () := rfl
  have hbase : Engine.putBase (s.live? key.digest 5000) { ttl := .after 1 } = first := rfl
  have hcount : (s.live? key.digest 5000).elim 0 Record.generation = 1 := by decide +kernel
  obtain ⟨-, hread, hother⟩ :=
    read_after_put (by decide) (by decide) (by rw [hcount]; decide) hput
  rw [hbase, hcount] at hread
  obtain ⟨record, hget, hbins, -, hgeneration⟩ := hread ⟨"b", by decide +kernel⟩
  refine ⟨⟨{}, _, rfl⟩, hput, ⟨record, hget, hbins "a", hbins "b", hbins "c", hgeneration⟩, ?_⟩
  exact (hother other (by decide) 5000).1

end Store

end RecordStore
