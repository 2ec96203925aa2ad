import RecordStore.Proofs.Store.Steps

/-!
# What a store shows of a key

There are many ways to look at a record: it is read whole, or some of its bins are, or its
metadata, by itself or among others; it is counted; and every call that is about the record
begins by looking at it. They all see the same (`RecordStore.Store.Shows`), which is the record
that is live under the digest of the key (`RecordStore.Store.shows_live?`). So a record that is
expired is missing for all of them from the same moment on, and for a call that writes there is
no difference between an expired record and none.
-/

namespace RecordStore

namespace Store

variable {s : Store} {key : Key} {t : UInt64} {shown : Option Record}

/-- **What a store shows of a key** at a time: a record, or none. -/
structure Shows (s : Store) (key : Key) (t : UInt64) (shown : Option Record) : Prop where
  /-- The record is read. -/
  get : s.get key t = shown.elim (.error .recordNotFound) .ok
  /-- Some of its bins are read, if their names are valid. -/
  select : ∀ names : List String, names.forM checkBinName = .ok () →
    s.select key names t = shown.elim (.error .recordNotFound) fun record =>
      .ok (record.select names)
  /-- Its metadata is read. -/
  metadata : s.metadata key t = shown.elim (.error .recordNotFound) fun record =>
    .ok record.metadata
  /-- The record is read among others. -/
  getMany : ∀ (keys : List Key) (i : Nat), keys[i]? = some key →
    (s.getMany keys none t)[i]? = some (key, shown.elim (.error .recordNotFound) .ok)
  /-- Some of its bins are read among those of others. -/
  selectMany : ∀ (keys : List Key) (names : List String) (i : Nat), keys[i]? = some key →
    names.forM checkBinName = .ok () →
    (s.getMany keys (some names) t)[i]? = some (key, shown.elim (.error .recordNotFound)
      fun record => .ok (record.select names))
  /-- Its metadata is read among that of others. -/
  metadataMany : ∀ (keys : List Key) (i : Nat), keys[i]? = some key →
    (s.metadataMany keys t)[i]? = some (key, shown.elim (.error .recordNotFound) fun record =>
      .ok record.metadata)
  /-- It is counted. -/
  size : s.size t = (s.erase key.digest).size t + shown.isSome.toNat
  /-- A call on one record is answered for it. -/
  answers : ∀ (call : Call) (single : RecordCall), call.single? = some single →
    single.key.ns = key.ns → single.key.digest = key.digest →
    (call.run s t).result = (single.ask s.engine t shown).bind single.answer
  /-- If there is none, such a call does what it would do if no record had ever been there. -/
  missing : shown = none → ∀ (call : Call) (single : RecordCall), call.single? = some single →
    single.key.ns = key.ns → single.key.digest = key.digest →
    call.run s t = call.run (s.erase key.digest) t

/-! ### Counting -/

/-- Of some records with different digests, the one under a digest counts by itself. -/
theorem countP_eq_add {records : List (Digest × Record)}
    (hdistinct : (records.map (·.1)).Nodup) (digest : Digest) (p : Record → Bool) :
    (records.countP fun e => p e.2) =
      ((records.filter (·.1 ≠ digest)).countP fun e => p e.2) +
        ((records.lookup digest).filter p).isSome.toNat := by
  induction records with
  | nil => rfl
  | cons e records ih =>
    obtain ⟨hnew, hrest⟩ := List.nodup_cons.mp hdistinct
    rw [List.countP_cons, lookup_cons_eq_ite]
    by_cases he : e.1 = digest
    · subst he
      have hothers : records.filter (·.1 ≠ e.1) = records :=
        List.filter_eq_self.mpr fun f hf =>
          decide_eq_true fun hdigest => hnew (List.mem_map.mpr ⟨f, hf, hdigest⟩)
      rw [List.filter_cons_of_neg (by simp), hothers, if_pos rfl, Option.filter_some]
      cases p e.2 <;> rfl
    · have hother : ¬digest = e.1 := Ne.symm he
      rw [List.filter_cons_of_pos (by simpa using he), List.countP_cons, if_neg hother, ih hrest,
        Nat.add_right_comm]

/-- **A live record counts once**, beside all others. -/
theorem size_eq_add (s : Store) (digest : Digest) (t : UInt64) :
    s.size t = (s.erase digest).size t + (s.live? digest t).isSome.toNat :=
  countP_eq_add s.distinct digest fun record => !record.metadata.isExpired t

/-! ### Calls -/

/-- A call on one record is answered for the record that is live. -/
theorem RecordCall.result_run {single : RecordCall}
    (hns : s.checkNamespace single.key = .ok ()) :
    (single.run s t).result =
      (single.ask s.engine t (s.live? single.key.digest t)).bind single.answer := by
  change (s.run single.key (single.ask s.engine t) t).result.bind single.answer = _
  rw [run_eq, hns]
  cases single.ask s.engine t (s.live? single.key.digest t) <;> rfl

/-- A call on one record that is not live is a call on none. -/
theorem RecordCall.run_absent {single : RecordCall}
    (hns : s.checkNamespace single.key = .ok ())
    (h : s.live? single.key.digest t = none) :
    single.run s t = single.run (s.erase single.key.digest) t := by
  have hfind := s.find?_erase_self single.key.digest
  have habsent : (s.erase single.key.digest).live? single.key.digest t = none := by
    rw [live?, hfind]
    rfl
  have hreap : (s.erase single.key.digest).reap single.key.digest t = s.erase single.key.digest :=
    (reap_of_absent habsent).trans (erase_of_find?_eq_none hfind)
  have hns' : (s.erase single.key.digest).checkNamespace single.key = .ok () := hns
  rw [RecordCall.run, RecordCall.run, run_eq, run_eq, hns, hns', h, habsent, hreap,
    reap_of_absent h]
  rfl

/-! ### Everybody sees the same -/

/-- **What a store shows of a key** is the record that is live under its digest. -/
theorem shows_live? (hns : s.checkNamespace key = .ok ()) :
    s.Shows key t (s.live? key.digest t) := by
  have hget := get_of_live? hns (Eq.refl (s.live? key.digest t))
  have hselect : ∀ names : List String, names.forM checkBinName = .ok () →
      s.select key names t = (s.live? key.digest t).elim (.error .recordNotFound) fun record =>
        .ok (record.select names) := fun names hnames => by
    rw [Store.select, hnames, hget]
    cases s.live? key.digest t <;> rfl
  have hmetadata : s.metadata key t =
      (s.live? key.digest t).elim (.error .recordNotFound) fun record => .ok record.metadata := by
    rw [Store.metadata, hget]
    cases s.live? key.digest t <;> rfl
  have hsame : ∀ single : RecordCall, single.key.ns = key.ns →
      s.checkNamespace single.key = .ok () := fun single h =>
    checkNamespace_eq_ok_iff.mpr (h.trans (checkNamespace_eq_ok_iff.mp hns))
  refine ⟨hget, hselect, hmetadata, fun keys i hi => ?_, fun keys names i hi hnames => ?_,
    fun keys i hi => ?_, s.size_eq_add key.digest t, fun call single hsingle hkey hdigest => ?_,
    fun habsent call single hsingle hkey hdigest => ?_⟩
  · rw [Store.getMany, List.getElem?_map, hi, ← hget]
    rfl
  · rw [Store.getMany, List.getElem?_map, hi, ← hselect names hnames]
    rfl
  · rw [Store.metadataMany, List.getElem?_map, hi, ← hmetadata]
    rfl
  · rw [Call.run_single hsingle, RecordCall.result_run (hsame single hkey), hdigest]
  · rw [← hdigest] at habsent ⊢
    rw [Call.run_single hsingle, Call.run_single hsingle,
      RecordCall.run_absent (hsame single hkey) habsent]

end Store

end RecordStore
