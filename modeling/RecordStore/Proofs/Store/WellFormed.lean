import RecordStore.Proofs.Engine.WellFormed
import RecordStore.Proofs.Store.Generation

/-!
# What is true of every record in a store

Calls whose values are well-formed never leave a record in a store that is not: the record
is kept under the digest of its own key, the key names the namespace of the store, there
is at least one bin, and every bin is well-formed (`RecordStore.Store.WellFormedRecord`).
This holds of every store that has a history of such calls
(`RecordStore.Store.wellFormed_replay`).

One step of the induction is a single call. It keeps the records that were there, or
leaves one record that the engine has answered, and what the engine answers is well-formed
if the record that it was asked about is.
-/

namespace RecordStore

namespace Store

variable {s : Store} {now : UInt64} {call : Call}

/-! ### Settings -/

theorem settings_reap (s : Store) (digest : Digest) (now : UInt64) :
    (s.reap digest now).settings = s.settings := by
  rw [reap]
  split <;> rfl

theorem settings_commit (s : Store) (digest : Digest) (outcome : Outcome) :
    (s.commit digest outcome).settings = s.settings := by
  rw [commit]
  split
  · split <;> rfl
  · rfl

/-- A call on one record changes no settings. -/
theorem settings_runOn (s : Store) (key : Key) (ask : Option Record → Except Error Outcome)
    (now : UInt64) : (s.run key ask now).state.settings = s.settings := by
  rw [run_eq]
  split
  · rfl
  · split
    · exact settings_reap ..
    · exact (settings_commit ..).trans (settings_reap ..)

/-- **No call changes the settings** of a store. -/
theorem settings_run (call : Call) (s : Store) (now : UInt64) :
    (call.run s now).state.settings = s.settings := by
  cases call.form with
  | reads hstate _ => rw [hstate]
  | onRecord single hsingle =>
    rw [Call.run_single hsingle]
    exact settings_runOn s single.key (single.ask s.engine now) now
  | truncates set before hcall =>
    subst hcall
    simp only [Call.run, Store.truncate]
    split <;> rfl
  | sweeps hcall =>
    subst hcall
    rfl

/-! ### Well-formed records -/

/-- **A record is well-formed** under a digest of a store with some settings. -/
structure WellFormedRecord (settings : StoreSettings) (e : Digest × Record) : Prop where
  /-- The record is kept under the digest of its own key. -/
  digest_eq : e.2.key.digest = e.1
  /-- The key names the namespace of the store. -/
  ns_eq : e.2.key.ns = settings.ns
  /-- There is a bin. -/
  filled : e.2.bins.entries ≠ []
  /-- Every bin is well-formed. -/
  bins : ∀ bin ∈ e.2.bins.entries, WellFormedBin bin

/-- **A call is well-formed** when every value that it brings is. -/
def Call.WellFormed (call : Call) : Prop :=
  ∀ single, call.single? = some single → ∀ op ∈ single.ops, ∀ v ∈ op.values, v.WellFormed

/-- Every record of the store is well-formed. -/
def WellFormed (s : Store) : Prop := ∀ e ∈ s.records, WellFormedRecord s.settings e

theorem WellFormed.empty (settings : StoreSettings) : (empty settings).WellFormed :=
  fun _ he => absurd he List.not_mem_nil

/-- A record that a well-formed call leaves is well-formed. -/
theorem WellFormed.of_leaves (h : s.WellFormed) {single : RecordCall}
    (hvalues : ∀ op ∈ single.ops, ∀ v ∈ op.values, v.WellFormed) {e : Digest × Record}
    (hleaves : single.Leaves s now e) : WellFormedRecord s.settings e := by
  obtain ⟨digest, record⟩ := e
  obtain ⟨outcome, hns, hask, hwrote, hdigest, hrecord⟩ := hleaves
  have hoperate := RecordCall.operate_of_ask hask
  have hns := checkNamespace_eq_ok_iff.mp hns
  have hexisting : ∀ existing, s.live? single.key.digest now = some existing →
      WellFormedRecord s.settings (single.key.digest, existing) := fun existing hlive =>
    h _ (mem_of_live? hlive)
  have hkey := Engine.key_operate hoperate hwrote hrecord fun existing hlive =>
    ⟨(hexisting existing hlive).digest_eq, (hexisting existing hlive).ns_eq.trans hns.symm⟩
  have hbins := Engine.wellFormed_operate hoperate hwrote hrecord hvalues fun existing hlive =>
    (hexisting existing hlive).bins
  have hfilled := Engine.isEmpty_of_operate hoperate hwrote hrecord
  exact ⟨hkey.1.trans hdigest.symm, hkey.2.trans hns, List.isEmpty_eq_false_iff.mp hfilled, hbins⟩

/-- **A well-formed call keeps a store well-formed.** -/
theorem WellFormed.run (h : s.WellFormed) (hcall : call.WellFormed) (now : UInt64) :
    (call.run s now).state.WellFormed := by
  intro e he
  rw [settings_run]
  rcases Call.mem_run he with he | ⟨single, hsingle, hleaves⟩
  · exact h e he
  · exact h.of_leaves (hcall single hsingle) hleaves

/-- **Every record of a store with a history is well-formed**, if the calls of the history
are; and it was written at least once, unless there were more writes than the counter can
count. -/
theorem wellFormed_replay (settings : StoreSettings) (history : List (Call × UInt64))
    (hcalls : ∀ entry ∈ history, entry.1.WellFormed) :
    ∀ e ∈ (replay (empty settings) history).2.records,
      WellFormedRecord settings e ∧
        ((empty settings).commits history < UInt64.size → 1 ≤ e.2.generation.toNat) := by
  have hstore : (replay (empty settings) history).2.WellFormed ∧
      (replay (empty settings) history).2.settings = settings := by
    refine replay_invariant (P := fun s => s.WellFormed ∧ s.settings = settings)
      (fun call s now hcall hs => ?_) history hcalls ⟨.empty settings, rfl⟩
    exact ⟨hs.1.run hcall now, (settings_run call s now).trans hs.2⟩
  intro e he
  refine ⟨hstore.2 ▸ hstore.1 e he, fun hfew => ?_⟩
  have hcounted := (Counted.empty settings).replay history (by rwa [Nat.zero_add])
  exact hcounted.positive e he

/-- A record with a map that is put into a store and then sorted. -/
theorem wellFormed_sorted_map :
    let key : Key := ⟨"test", "demo", none, ⟨List.replicate 20 0, rfl⟩⟩
    let filled : Value := .map ⟨.unordered, [(.integer 2, .null), (.integer 1, .null)]⟩
    let history : List (Call × UInt64) :=
      [(.put key (Named.ofList [("m", filled)]) {}, 0),
        (.operate key [.map "m" (.setPolicy { order := .keyOrdered })] {}, 10)]
    (replay (empty {}) history).2.records.length = 1 ∧
      ∀ e ∈ (replay (empty {}) history).2.records,
        WellFormedRecord {} e ∧ 1 ≤ e.2.generation.toNat := by
  intro key filled history
  have hfilled : filled.WellFormed := by
    refine .map ⟨by decide, nofun⟩ ?_ ?_
    · simp [Value.WellFormed.integer]
    · simp [Value.WellFormed.null]
  have hcalls : ∀ entry ∈ history, entry.1.WellFormed := by
    simp only [history, List.forall_mem_cons, List.not_mem_nil, false_imp_iff, implies_true, and_true]
    constructor
    · rintro single ⟨⟩ op hop v hv
      obtain rfl := List.mem_singleton.mp hop
      obtain rfl := List.mem_singleton.mp hv
      exact hfilled
    · rintro single ⟨⟩ op hop v hv
      obtain rfl := List.mem_singleton.mp hop
      cases hv
  have hcommits : (empty {}).commits history = 2 := by decide +kernel
  refine ⟨by decide +kernel, fun e he => ?_⟩
  obtain ⟨hrecord, hgeneration⟩ := wellFormed_replay {} history hcalls e he
  exact ⟨hrecord, hgeneration (Nat.lt_of_le_of_lt (Nat.le_of_eq hcommits) (by decide))⟩

end Store

end RecordStore
