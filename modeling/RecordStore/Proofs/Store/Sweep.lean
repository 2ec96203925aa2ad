import RecordStore.Store.Call

/-!
# Stores without their expired records

An expired record stays in a store until something removes it: a write on its
digest, a truncation, a sweep. This file compares stores that differ in such
records only. `RecordStore.Store.sweep` is the store without them, and two stores
are *alike* at a time (`RecordStore.Store.Alike`) when they are equal once swept.

What makes the relation useful is that it holds from its time on: a record that
is expired stays expired (`RecordStore.Metadata.isExpired_mono`), so that stores
that are alike now are alike at every later time. Nothing that reads can tell
them apart then (`RecordStore.Store.Alike.readsAlike`), and a call on one record,
which begins with dropping that record if it is expired, answers the same on both
and leaves them alike (`RecordStore.Store.Alike.run`).
-/

namespace RecordStore

/-- **What is expired stays expired.** -/
theorem Metadata.isExpired_mono {m : Metadata} {now t : UInt64} (h : now ≤ t)
    (hexp : m.isExpired now) : m.isExpired t := by
  rw [Metadata.isExpired, Option.any_eq_true] at hexp ⊢
  obtain ⟨void, hvoid, hle⟩ := hexp
  refine ⟨void, hvoid, decide_eq_true ?_⟩
  exact UInt64.le_trans (of_decide_eq_true hle) h

namespace Store

variable {s s' : Store} {now t : UInt64}

/-! ### Records under digests -/

theorem eq_of_records (hsettings : s.settings = s'.settings) (hrecords : s.records = s'.records) :
    s = s' := by
  obtain ⟨settings, records, distinct⟩ := s
  obtain ⟨settings', records', distinct'⟩ := s'
  obtain rfl : settings = settings' := hsettings
  obtain rfl : records = records' := hrecords
  rfl

/-- The record under a digest is the one that is kept with it. -/
theorem find?_eq_some_iff {digest : Digest} {record : Record} :
    s.find? digest = some record ↔ (digest, record) ∈ s.records :=
  lookup_eq_some_iff_mem s.distinct

/-- A test on records passes over the record under a digest, or drops it. -/
theorem find?_filter (s : Store) (keep : Digest × Record → Bool) (digest : Digest) :
    (s.filter keep).find? digest = (s.find? digest).filter fun record => keep (digest, record) := by
  ext record
  rw [find?_eq_some_iff, Option.filter_eq_some_iff, find?_eq_some_iff]
  exact List.mem_filter

theorem filter_comm (s : Store) (p q : Digest × Record → Bool) :
    (s.filter p).filter q = (s.filter q).filter p := by
  refine eq_of_records rfl ?_
  change (s.records.filter p).filter q = (s.records.filter q).filter p
  rw [List.filter_filter, List.filter_filter]
  exact List.filter_congr fun e _ => Bool.and_comm _ _

/-! ### Sweeping -/

/-- **The store without the records that are expired at a time.** -/
def sweep (s : Store) (now : UInt64) : Store :=
  s.filter fun e => !e.2.metadata.isExpired now

@[simp] theorem sweep_settings (s : Store) (now : UInt64) :
    (s.sweep now).settings = s.settings := rfl

/-- Dropping every expired record sweeps. -/
theorem reapExpired_snd (s : Store) (now : UInt64) : (s.reapExpired now).2 = s.sweep now := rfl

theorem find?_sweep (s : Store) (now : UInt64) (digest : Digest) :
    (s.sweep now).find? digest = s.live? digest now :=
  s.find?_filter _ digest

theorem sweep_filter (s : Store) (keep : Digest × Record → Bool) (now : UInt64) :
    (s.filter keep).sweep now = (s.sweep now).filter keep :=
  s.filter_comm keep _

/-- A later sweep does what an earlier one has done. -/
theorem sweep_sweep (s : Store) (h : now ≤ t) : (s.sweep now).sweep t = s.sweep t := by
  refine eq_of_records rfl ?_
  change (s.records.filter _).filter _ = s.records.filter _
  rw [List.filter_filter]
  refine List.filter_congr fun e _ => ?_
  by_cases hexp : e.2.metadata.isExpired now
  · simp [Metadata.isExpired_mono h hexp]
  · simp [hexp]

/-- Dropping a record that is expired is part of sweeping. -/
theorem sweep_reap (s : Store) (digest : Digest) (h : now ≤ t) :
    (s.reap digest now).sweep t = s.sweep t := by
  rw [reap]
  split
  · rename_i hany
    obtain ⟨record, hfind, hexp⟩ := (Option.any_eq_true _ _).mp hany
    refine eq_of_records rfl ?_
    change (s.records.filter _).filter _ = s.records.filter _
    rw [List.filter_filter]
    refine List.filter_congr fun e he => ?_
    by_cases hdigest : e.1 = digest
    · -- the dropped record is the only one under the digest, and swept anyway
      have hrecord : e.2 = record := by
        have := find?_eq_some_iff.mpr (hdigest ▸ he : (digest, e.2) ∈ s.records)
        exact Option.some_inj.mp (this.symm.trans hfind)
      simp [hrecord, Metadata.isExpired_mono h hexp]
    · simp [hdigest]
  · rfl

/-- A write finds the record under its digest unless that is expired. -/
theorem find?_reap (s : Store) (digest : Digest) (now : UInt64) :
    (s.reap digest now).find? digest = s.live? digest now := by
  rw [reap, live?]
  split
  · rename_i hany
    obtain ⟨record, hfind, hexp⟩ := (Option.any_eq_true _ _).mp hany
    rw [erase, find?_filter, hfind]
    simp [Option.filter, hexp]
  · rename_i hany
    cases hfind : s.find? digest with
    | none => rfl
    | some record =>
      rw [hfind, Option.any_some] at hany
      simp [Option.filter, hany]

/-- A record that is live is not dropped. -/
theorem reap_of_live? {digest : Digest} {record : Record} (h : s.live? digest now = some record) :
    s.reap digest now = s := by
  obtain ⟨hfind, hexpired⟩ := Option.filter_eq_some_iff.mp h
  rw [Bool.not_eq_true'] at hexpired
  rw [reap, hfind, Option.any_some, hexpired]
  rfl

theorem find?_erase_self (s : Store) (digest : Digest) : (s.erase digest).find? digest = none := by
  rw [erase, find?_filter]
  cases s.find? digest with
  | none => rfl
  | some record => simp [Option.filter]

/-- There is nothing to drop where there is nothing. -/
theorem erase_of_find?_eq_none {digest : Digest} (h : s.find? digest = none) :
    s.erase digest = s := by
  refine eq_of_records rfl (List.filter_eq_self.mpr fun e he => decide_eq_true fun hdigest => ?_)
  have hfind : s.find? digest = some e.2 := find?_eq_some_iff.mpr (hdigest ▸ he)
  rw [h] at hfind
  cases hfind

/-- Where there is no live record, nothing is left. -/
theorem reap_of_absent {digest : Digest} (h : s.live? digest now = none) :
    s.reap digest now = s.erase digest := by
  cases hfind : s.find? digest with
  | none =>
    rw [reap, hfind, erase_of_find?_eq_none hfind]
    rfl
  | some record =>
    have hexpired : record.metadata.isExpired now = true := by
      rw [live?, hfind, Option.filter_some] at h
      simpa using h
    rw [reap, hfind, Option.any_some, if_pos hexpired]

/-! ### What can be read

Every reading verb looks at records through `RecordStore.Store.live?`, and counting
looks at those that are not expired; so a store shows at a time what it shows once
it is swept, at that time or before. -/

theorem size_sweep (s : Store) (h : now ≤ t) : (s.sweep now).size t = s.size t := by
  have hsize : ∀ s : Store, s.size t = (s.sweep t).records.length := fun s =>
    List.countP_eq_length_filter
  rw [hsize, hsize, sweep_sweep s h]

/-- **Two stores that no reading verb can tell apart** at a time. -/
structure ReadsAlike (s s' : Store) (t : UInt64) : Prop where
  /-- Records are the same. -/
  get : ∀ key, s.get key t = s'.get key t
  /-- Records with some of their bins are the same. -/
  select : ∀ key bins, s.select key bins t = s'.select key bins t
  /-- Metadata is the same. -/
  metadata : ∀ key, s.metadata key t = s'.metadata key t
  /-- Batches of records are the same. -/
  getMany : ∀ keys bins, s.getMany keys bins t = s'.getMany keys bins t
  /-- Batches of metadata are the same. -/
  metadataMany : ∀ keys, s.metadataMany keys t = s'.metadataMany keys t
  /-- There are as many records. -/
  size : s.size t = s'.size t

/-- **What is read of a key** depends on the record that the store shows under its digest. -/
theorem reads_of_live? (hsettings : s.settings = s'.settings) {key : Key}
    (hlive : s.live? key.digest t = s'.live? key.digest t) :
    s.get key t = s'.get key t ∧ (∀ bins, s.select key bins t = s'.select key bins t) ∧
      s.metadata key t = s'.metadata key t := by
  have hget : s.get key t = s'.get key t := by
    simp only [Store.get, checkNamespace, hsettings, hlive]
  exact ⟨hget, fun bins => by simp only [Store.select, hget], by simp only [Store.metadata, hget]⟩

/-- It is enough that the stores show the same records under each digest, and as
many of them. -/
theorem ReadsAlike.of_live? (hsettings : s.settings = s'.settings)
    (hlive : ∀ digest, s.live? digest t = s'.live? digest t) (hsize : s.size t = s'.size t) :
    ReadsAlike s s' t := by
  have hreads := fun key : Key => reads_of_live? hsettings (hlive key.digest)
  refine ⟨fun key => (hreads key).1, fun key => (hreads key).2.1, fun key => (hreads key).2.2,
    fun keys bins => ?_, fun keys => ?_, hsize⟩
  · refine List.map_congr_left fun key _ => ?_
    cases bins with
    | none => exact congrArg (key, ·) (hreads key).1
    | some bins => exact congrArg (key, ·) ((hreads key).2.1 bins)
  · exact List.map_congr_left fun key _ => congrArg (key, ·) (hreads key).2.2

/-! ### Stores that are alike -/

/-- Two stores are **alike** from a time on if they are equal once swept then. -/
def Alike (now : UInt64) (s s' : Store) : Prop := s.sweep now = s'.sweep now

namespace Alike

theorem refl (now : UInt64) (s : Store) : Alike now s s := rfl

theorem symm (h : Alike now s s') : Alike now s' s := Eq.symm h

theorem trans {s'' : Store} (h : Alike now s s') (h' : Alike now s' s'') : Alike now s s'' :=
  Eq.trans h h'

/-- **Stores that are alike stay alike as time goes on.** -/
theorem mono (h : Alike now s s') (ht : now ≤ t) : Alike t s s' := by
  rw [Alike, ← sweep_sweep s ht, ← sweep_sweep s' ht, h]

/-- Dropping one record that is expired makes no difference. -/
theorem reap (s : Store) (digest : Digest) (now : UInt64) : Alike now (s.reap digest now) s :=
  s.sweep_reap digest (UInt64.le_refl now)

/-- Dropping all of them makes none either. -/
theorem reapExpired (s : Store) (now : UInt64) : Alike now (s.reapExpired now).2 s := by
  rw [reapExpired_snd]
  exact s.sweep_sweep (UInt64.le_refl now)

theorem settings_eq (h : Alike now s s') : s.settings = s'.settings := by
  rw [← sweep_settings s now, h, sweep_settings]

theorem live? (h : Alike now s s') (digest : Digest) :
    s.live? digest now = s'.live? digest now := by
  rw [← find?_sweep, ← find?_sweep, h]

/-- **Nothing that reads can tell stores apart that are alike**, at their time or
later. -/
theorem readsAlike (h : Alike now s s') (ht : now ≤ t) : ReadsAlike s s' t := by
  refine .of_live? h.settings_eq (h.mono ht).live? ?_
  rw [← size_sweep s ht, ← size_sweep s' ht, h]

/-- Keeping the records that pass a test keeps stores alike. -/
theorem filter (h : Alike now s s') (keep : Digest × Record → Bool) :
    Alike now (s.filter keep) (s'.filter keep) := by
  rw [Alike, sweep_filter, sweep_filter, h]

theorem insert (h : Alike now s s') (digest : Digest) (record : Record) :
    Alike now (s.insert digest record) (s'.insert digest record) := by
  have hrest : ((s.erase digest).sweep now).records = ((s'.erase digest).sweep now).records :=
    congrArg Store.records (h.filter _)
  refine eq_of_records h.settings_eq ?_
  simp only [Store.sweep, Store.filter, Store.insert, List.filter_cons] at hrest ⊢
  rw [hrest]

theorem commit (h : Alike now s s') (digest : Digest) (outcome : Outcome) :
    Alike now (s.commit digest outcome) (s'.commit digest outcome) := by
  rw [Store.commit, Store.commit]
  cases outcome.wrote with
  | false => exact h
  | true =>
    cases outcome.record with
    | none => exact h.filter _
    | some record => exact h.insert digest record

end Alike

/-! ### Calls on one record -/

/-- What a call on one record comes to: it is run on the record if that is not
expired, and only what it leaves is kept. -/
theorem run_eq (s : Store) (key : Key) (ask : Option Record → Except Error Outcome)
    (now : UInt64) :
    s.run key ask now =
      match s.checkNamespace key with
      | .error e => .fail e s
      | .ok _ =>
        match ask (s.live? key.digest now) with
        | .error e => .fail e (s.reap key.digest now)
        | .ok outcome => .done outcome ((s.reap key.digest now).commit key.digest outcome) := by
  rw [run]
  cases s.checkNamespace key with
  | error e => rfl
  | ok _ =>
    rw [← find?_reap]
    dsimp only [Attempt.needing]
    cases ask ((s.reap key.digest now).find? key.digest) <;> rfl

/-- A call on one record that fails leaves the store, or the store without the
record if that is expired. -/
theorem run_failed {key : Key} {ask : Option Record → Except Error Outcome} {e : Error}
    (h : (s.run key ask now).result = .error e) :
    (s.run key ask now).state = s ∨ (s.run key ask now).state = s.reap key.digest now := by
  rw [run_eq] at h ⊢
  cases hns : s.checkNamespace key with
  | error e => exact Or.inl rfl
  | ok _ =>
    rw [hns] at h
    cases hask : ask (s.live? key.digest now) with
    | error e => exact Or.inr rfl
    | ok outcome =>
      rw [hask] at h
      cases h

/-- **A call on one record** answers the same on stores that are alike, and leaves
them alike. -/
theorem Alike.run (h : Alike now s s') (key : Key) (ask : Option Record → Except Error Outcome) :
    (s.run key ask now).result = (s'.run key ask now).result ∧
      Alike now (s.run key ask now).state (s'.run key ask now).state := by
  have hns : s.checkNamespace key = s'.checkNamespace key := by
    rw [checkNamespace, checkNamespace, h.settings_eq]
  have hreap : Alike now (s.reap key.digest now) (s'.reap key.digest now) :=
    (Alike.reap s key.digest now).trans (h.trans (Alike.reap s' key.digest now).symm)
  rw [run_eq, run_eq, hns, h.live? key.digest]
  cases s'.checkNamespace key with
  | error e => exact ⟨rfl, h⟩
  | ok _ =>
    cases ask (s'.live? key.digest now) with
    | error e => exact ⟨rfl, hreap⟩
    | ok outcome => exact ⟨rfl, hreap.commit key.digest outcome⟩

end Store

end RecordStore
