import RecordStore.Proofs.Store.Shown
import RecordStore.Proofs.Store.WriteCount
import RecordStore.Proofs.Truncation

/-!
# How long a record is seen

A write sets the time from which its record is not seen any more, and no call moves that time
but another write on the record. As long as there is none, and no truncation of the record, what
the store shows of the key is the record of the write up to that time, and nothing from then on
(`RecordStore.Store.visible_lifetime`). What happens in the store meanwhile has no say in it:
not calls that fail, not writes on other records, and not whether the expired record has been
dropped already.

Two points have to be arranged:

* The lifetime of a write is that of its policy, unless it is a touch that brings its own
  (`RecordStore.Store.RecordCall.lifetime`), and is resolved against the record that was live
  before.
* A call that spares a record shows the same of it from its time on
  (`RecordStore.Store.Filled.live?_of_spared`); the calls after the write do so one by one
  (`RecordStore.Store.Stands.live?_before`).
-/

namespace RecordStore

/-! ### The lifetime that a call asks for -/

/-- The lifetime that an operation brings. -/
def Operation.lifetime? : Operation → Option Expiration
  | .touch ttl => ttl
  | _ => none

/-- An operation that brings a lifetime is a write on the record as a whole. -/
theorem Operation.isRecordLevel_of_lifetime? {op : Operation} {ttl : Expiration}
    (h : op.lifetime? = some ttl) : op.isWrite = true ∧ op.isRecordLevel = true := by
  cases op with
  | touch ttl => exact ⟨rfl, rfl⟩
  | _ => cases h

/-- Only writes bring a lifetime. -/
theorem Plan.findSome?_writesOf (ops : List Operation) :
    (writesOf ops).findSome? Operation.lifetime? = ops.findSome? Operation.lifetime? := by
  induction ops with
  | nil => rfl
  | cons op ops ih =>
    rw [writesOf, List.filter_cons, List.findSome?_cons]
    cases hlifetime : op.lifetime? with
    | none =>
      split
      · rw [List.findSome?_cons, hlifetime]
        exact ih
      · exact ih
    | some ttl =>
      rw [if_pos (Operation.isRecordLevel_of_lifetime? hlifetime).1, List.findSome?_cons, hlifetime]

/-- **The lifetime of a call** is the one that its touch brings, or that of its policy. -/
theorem Engine.lifetime_eq {ops : List Operation} {plan : Plan} (h : Plan.check ops = .ok plan)
    (policy : WritePolicy) :
    lifetime plan policy = (ops.findSome? Operation.lifetime?).getD policy.ttl := by
  obtain ⟨-, -, -, hsingle, rfl⟩ := Plan.check_eq_ok_iff.mp h
  rw [← Plan.findSome?_writesOf]
  cases hlevel : Plan.recordLevelOf ops with
  | none =>
    have hnone : (Plan.writesOf ops).findSome? Operation.lifetime? = none := by
      refine List.findSome?_eq_none_iff.mpr fun op hop => ?_
      refine Option.eq_none_iff_forall_ne_some.mpr fun ttl hlifetime => ?_
      have hnot := List.find?_eq_none.mp hlevel op (List.mem_reverse.mpr hop)
      exact hnot (Operation.isRecordLevel_of_lifetime? hlifetime).2
    rw [hnone]
    rfl
  | some op =>
    -- such a write is the only one
    have hlength : (Plan.writesOf ops).length ≤ 1 := hsingle (by rw [hlevel]; rfl)
    match hwrites : Plan.writesOf ops with
    | [] => simp [Plan.recordLevelOf, hwrites] at hlevel
    | [write] =>
      rw [Plan.recordLevelOf, hwrites] at hlevel
      obtain rfl := List.mem_singleton.mp (List.mem_of_find?_eq_some hlevel)
      cases op with
      | touch ttl => cases ttl <;> rfl
      | _ => rfl
    | _ :: _ :: _ => simp [hwrites] at hlength

namespace Metadata

variable {m : Metadata} {t : UInt64}

theorem isExpired_of_never (h : m.voidTime = none) : m.isExpired t = false := by
  rw [isExpired, h]
  rfl

/-- Void some seconds after a time is void from that millisecond on. -/
theorem isExpired_of_voidAfter {now : UInt64} {seconds : UInt32}
    (h : m.voidTime = some (Expiration.voidAfter now seconds))
    (hfits : now.toNat + 1000 * seconds.toNat < UInt64.size) :
    m.isExpired t = decide (now.toNat + 1000 * seconds.toNat ≤ t.toNat) := by
  have hvoid : (Expiration.voidAfter now seconds).toNat = now.toNat + 1000 * seconds.toNat := by
    rw [Expiration.toNat_voidAfter]
    omega
  rw [isExpired, h, Option.any_some]
  exact decide_eq_decide.mpr (UInt64.le_iff_toNat_le.trans (by rw [hvoid]))

end Metadata

namespace Store

/-- **The lifetime of a call on one record.** -/
def RecordCall.lifetime (call : RecordCall) : Expiration :=
  (call.ops.findSome? Operation.lifetime?).getD call.policy.ttl

variable {s : Store} {call : Call} {now t : UInt64} {digest : Digest} {settings : StoreSettings}
  {history : List (Call × UInt64)} {i j k : Nat} {single : RecordCall} {record : Record} {key : Key}

/-- A truncation that is carried out at a time takes a record. -/
def Call.Truncates (call : Call) (now : UInt64) (record : Record) : Prop :=
  ∃ set before, call = .truncate set before ∧ (∀ threshold ∈ before, threshold ≤ now) ∧
    Concerns set before record

/-! ### Calls that spare a record -/

/-- **A call that spares a record**, as it neither writes it nor truncates it, shows the same of
it from its time on. -/
theorem Filled.live?_of_spared (h : s.Filled) (hunwritten : call.commitsOn s now digest = false)
    (hspared : ∀ record, s.live? digest t = some record → ¬call.Truncates now record)
    (ht : now ≤ t) : (call.run s now).state.live? digest t = s.live? digest t := by
  rcases h.live?_of_not_commitsOn hunwritten ht with hsame | ⟨⟨set, before, rfl⟩, hgone⟩
  · exact hsame
  · by_cases hdue : ∀ threshold ∈ before, threshold ≤ now
    · -- the record has passed the test, so that it is not there only if it is expired
      refine hgone.trans (Eq.symm ?_)
      refine Option.eq_none_iff_forall_ne_some.mpr fun record hlive => ?_
      obtain ⟨hfind, hexpired⟩ := Option.filter_eq_some_iff.mp hlive
      have hkept : matchesTruncation set before record = false := by
        refine eq_false_of_ne_true fun hmatches => hspared record hlive ?_
        exact ⟨set, before, rfl, hdue, matchesTruncation_iff.mp hmatches⟩
      rw [Call.run, truncate_of_due hdue] at hgone
      change ((s.filter _).find? digest).filter _ = none at hgone
      rw [find?_filter, hfind, Option.filter_some, hkept] at hgone
      simp [Option.filter_some, hexpired] at hgone
    · -- its threshold is to come, so that it fails
      obtain ⟨threshold, hfuture⟩ := Classical.not_forall.mp hdue
      obtain ⟨hthreshold, hlt⟩ := Classical.not_imp.mp hfuture
      rw [Call.run, truncate_of_future hthreshold (UInt64.not_le.mp hlt)]
      rfl

/-! ### Writes that stand -/

/-- **A write stands.** A call of a history is a write on one record, succeeds and leaves a
record; and of the calls after it, up to some position, none is a write on that record which
succeeds, and none truncates it. -/
structure Stands (settings : StoreSettings) (history : List (Call × UInt64)) (i k : Nat)
    (now : UInt64) (single : RecordCall) (record : Record) : Prop where
  /-- The call is a call on one record. -/
  call : ∃ call, history[i]? = some (call, now) ∧ call.single? = some single
  /-- It is a write on that record, and succeeds. -/
  written : (empty settings).writesAt history single.key.digest i = true
  /-- It leaves a record. -/
  leaves : ((empty settings).before history (i + 1)).find? single.key.digest = some record
  /-- It has been made. -/
  made : i < k
  /-- No call after it writes the record. -/
  unwritten : ∀ j, i < j → j < k → (empty settings).writesAt history single.key.digest j = false
  /-- No call after it truncates the record. -/
  untruncated : ∀ j call time, i < j → j < k → history[j]? = some (call, time) →
    ¬call.Truncates time record

theorem settings_before (settings : StoreSettings) (history : List (Call × UInt64)) (k : Nat) :
    ((empty settings).before history k).settings = settings :=
  replay_invariant (P := fun s => s.settings = settings) (Q := fun _ => True)
    (fun call s now _ hs => (settings_run call s now).trans hs) _ (fun _ _ => trivial) rfl

namespace Stands

variable (h : Stands settings history i k now single record)

include h

/-- What the engine has answered. -/
theorem exists_outcome :
    ((empty settings).before history i).checkNamespace single.key = .ok () ∧
    ∃ outcome, ((empty settings).before history i).engine.operate
        (((empty settings).before history i).live? single.key.digest now) single.key single.ops
        single.policy now = .ok outcome ∧
      outcome.wrote = true ∧ outcome.record = some record := by
  obtain ⟨call, hcall, hsingle⟩ := h.call
  have hwritten := h.written
  have hleaves := h.leaves
  obtain ⟨-, hstate⟩ := replay_getElem? (s := empty settings) hcall
  rw [writesAt_eq _ _ hcall, Call.commitsOn_iff] at hwritten
  rw [hstate, Call.run_single hsingle] at hleaves
  obtain ⟨other, answer, hother, hwrites, -, hanswer⟩ := hwritten
  obtain rfl : other = single := Option.some_inj.mp (hother.symm.trans hsingle)
  rw [Call.run_single hsingle] at hanswer
  obtain ⟨outcome, hrun, -⟩ := Attempt.mapResult_result_eq_ok_iff.mp hanswer
  obtain ⟨hns, hask⟩ := run_result_eq_ok_iff.mp hrun
  have hoperate := RecordCall.operate_of_ask hask
  have hwrote : outcome.wrote = true := (Engine.wrote_eq hoperate).trans hwrites
  exact ⟨hns, outcome, hoperate, hwrote, (find?_run hrun hwrote).symm.trans hleaves⟩

/-- **The void time of the record** is that of the lifetime of the call. -/
theorem voidTime_eq : record.metadata.voidTime =
    single.lifetime.resolve now settings.defaultTtl
      ((((empty settings).before history i).live? single.key.digest now).bind
        fun record => record.metadata.voidTime)
      (((empty settings).before history i).live? single.key.digest now).isSome := by
  obtain ⟨-, outcome, hoperate, hwrote, hrecord⟩ := h.exists_outcome
  obtain ⟨plan, phase, hcheck, -, -, rfl⟩ := Engine.record_of_operate hoperate hwrote hrecord
  rw [RecordCall.lifetime, ← Engine.lifetime_eq hcheck]
  change Engine.voidTimeAfter _ _ _ _ = _
  rw [Engine.voidTimeAfter, engine, settings_before]

/-- A write that stands has stood before. -/
theorem of_le (hij : i < j) (hjk : j ≤ k) : Stands settings history i j now single record where
  call := h.call
  written := h.written
  leaves := h.leaves
  made := hij
  unwritten m him hmj := h.unwritten m him (Nat.lt_of_lt_of_le hmj hjk)
  untruncated m call time him hmj := h.untruncated m call time him (Nat.lt_of_lt_of_le hmj hjk)

/-- **The calls after the write spare the record**, one by one, so that what is shown of it once
they are made is what was shown of it right after the write. -/
theorem live?_before (hk : k ≤ history.length)
    (hmade : ∀ j call time, j < k → history[j]? = some (call, time) → time ≤ t) :
    ((empty settings).before history k).live? single.key.digest t =
      (some record).filter fun record => !record.metadata.isExpired t := by
  induction k with
  | zero => exact absurd h.made (Nat.not_lt_zero i)
  | succ k ih =>
    rcases Nat.lt_succ_iff_lt_or_eq.mp h.made with hik | rfl
    · obtain ⟨⟨call, time⟩, hcall⟩ : ∃ entry, history[k]? = some entry :=
        ⟨_, List.getElem?_eq_getElem hk⟩
      obtain ⟨-, hstate⟩ := replay_getElem? (s := empty settings) hcall
      have hearlier := ih (h.of_le hik (Nat.le_succ k)) (Nat.le_of_lt hk) fun j call time hjk =>
        hmade j call time (Nat.lt_succ_of_lt hjk)
      have hreachable : ((empty settings).before history k).Reachable :=
        ⟨settings, history.take k, rfl⟩
      have hunwritten := h.unwritten k hik (Nat.lt_succ_self k)
      rw [writesAt_eq _ _ hcall] at hunwritten
      have huntruncated : ∀ shown,
          ((empty settings).before history k).live? single.key.digest t = some shown →
            ¬call.Truncates time shown := by
        intro shown hshown
        rw [hearlier] at hshown
        obtain rfl := Option.some_inj.mp (Option.filter_eq_some_iff.mp hshown).1
        exact h.untruncated k call time hik (Nat.lt_succ_self k) hcall
      have htime := hmade k call time (Nat.lt_succ_self k) hcall
      rw [hstate, hreachable.filled.live?_of_spared hunwritten huntruncated htime, hearlier]
    · rw [live?, h.leaves]

/-- The write was made in the namespace of the store. -/
theorem checkNamespace_before (hns : key.ns = single.key.ns) (j : Nat) :
    ((empty settings).before history j).checkNamespace key = .ok () := by
  have hwritten := checkNamespace_eq_ok_iff.mp h.exists_outcome.1
  rw [settings_before] at hwritten
  rw [checkNamespace_eq_ok_iff, settings_before, hns, hwritten]

variable (hmoment : Moment history k t) (hns : key.ns = single.key.ns)
  (hdigest : key.digest = single.key.digest)

include hmoment hns hdigest

/-- **What is shown of the record** depends on whether it is expired, and on nothing else. -/
theorem shows : ((empty settings).before history k).Shows key t
    (if record.metadata.isExpired t then none else some record) := by
  have hlive := h.live?_before hmoment.le fun j call time hjk hcall => hmoment.call_le hcall hjk
  have hshown : ((empty settings).before history k).live? key.digest t =
      if record.metadata.isExpired t then none else some record := by
    rw [hdigest, hlive, Option.filter_some]
    cases record.metadata.isExpired t <;> rfl
  rw [← hshown]
  exact shows_live? (h.checkNamespace_before hns k)

theorem shows_of_never (hvoid : record.metadata.voidTime = none) :
    ((empty settings).before history k).Shows key t (some record) := by
  have hshows := h.shows hmoment hns hdigest
  rwa [Metadata.isExpired_of_never hvoid] at hshows

theorem shows_of_voidAfter {seconds : UInt32}
    (hvoid : record.metadata.voidTime = some (Expiration.voidAfter now seconds))
    (hfits : now.toNat + 1000 * seconds.toNat < UInt64.size) :
    ((empty settings).before history k).Shows key t
      (if t.toNat < now.toNat + 1000 * seconds.toNat then some record else none) := by
  have hshows := h.shows hmoment hns hdigest
  rw [Metadata.isExpired_of_voidAfter hvoid hfits] at hshows
  by_cases hlt : t.toNat < now.toNat + 1000 * seconds.toNat
  · rw [decide_eq_false (Nat.not_le.mpr hlt)] at hshows
    rwa [if_pos hlt]
  · rw [decide_eq_true (Nat.not_lt.mp hlt)] at hshows
    rwa [if_neg hlt]

/-- A record whose lifetime was not to be changed is seen as long as the record before it. -/
theorem shows_of_unchanged (hlifetime : single.lifetime = .unchanged) {old : Record}
    (hold : ((empty settings).before history i).get key now = .ok old) :
    ((empty settings).before history k).Shows key t
      (if (((empty settings).before history i).get key t).isOk then some record else none) := by
  have hshows := h.shows hmoment hns hdigest
  have hvoid := h.voidTime_eq
  have hlive := (get_eq_ok_iff.mp hold).2
  rw [hlifetime, ← hdigest, hlive] at hvoid
  have hexpired : record.metadata.isExpired t = old.metadata.isExpired t := by
    rw [Metadata.isExpired, hvoid]
    rfl
  have hlater : ((empty settings).before history i).live? key.digest t =
      (some old).filter fun record => !record.metadata.isExpired t := by
    rw [live?, (Option.filter_eq_some_iff.mp hlive).1]
  rw [get_of_live? (h.checkNamespace_before hns i) hlater, Option.filter_some]
  rw [hexpired] at hshows
  cases hold : old.metadata.isExpired t with
  | true => rwa [hold] at hshows
  | false => rwa [hold] at hshows

omit hmoment in
/-- By default the void time is that of the lifetime of the namespace, if it has one. -/
theorem voidTime_of_default (hlifetime : single.lifetime = .namespaceDefault ∨
      single.lifetime = .unchanged ∧
        ((empty settings).before history i).get key now = .error .recordNotFound) :
    record.metadata.voidTime =
      if settings.defaultTtl = 0 then none
      else some (Expiration.voidAfter now settings.defaultTtl) := by
  have hvoid := h.voidTime_eq
  rcases hlifetime with hlifetime | ⟨hlifetime, hmissing⟩
  · rwa [hlifetime] at hvoid
  · have habsent : ((empty settings).before history i).live? single.key.digest now = none := by
      refine Option.eq_none_iff_forall_ne_some.mpr fun old hlive => ?_
      rw [get_eq_ok_iff.mpr ⟨h.checkNamespace_before hns i, hdigest ▸ hlive⟩] at hmissing
      cases hmissing
    rwa [hlifetime, habsent] at hvoid

end Stands

/-- **How long a record is seen.** A write that leaves a record, and is followed by no other write
on it that succeeds and by no truncation of it, is seen by everyone who looks and whenever they
look, exactly as long as its lifetime says:

* for some seconds, those of the call or by default those of the namespace, up to the millisecond
  at which they are over, if time goes that far;
* forever, if the call says so, or by default if the namespace has no lifetime;
* or as long as the record is seen that was live before the write, if the call is not to change
  that; a new record then has the lifetime of the namespace. -/
theorem visible_lifetime (h : Stands settings history i k now single record)
    (hmoment : Moment history k t) (hns : key.ns = single.key.ns)
    (hdigest : key.digest = single.key.digest) :
    let earlier := (empty settings).before history i
    let s := (empty settings).before history k
    let fits := fun seconds : UInt32 => now.toNat + 1000 * seconds.toNat < UInt64.size
    let within := fun seconds : UInt32 =>
      if t.toNat < now.toNat + 1000 * seconds.toNat then some record else none
    (∀ seconds, single.lifetime = .after seconds → fits seconds → s.Shows key t (within seconds)) ∧
      (single.lifetime = .never → s.Shows key t (some record)) ∧
      (single.lifetime = .namespaceDefault ∨
          single.lifetime = .unchanged ∧ earlier.get key now = .error .recordNotFound →
        (settings.defaultTtl = 0 → s.Shows key t (some record)) ∧
          (settings.defaultTtl ≠ 0 → fits settings.defaultTtl →
            s.Shows key t (within settings.defaultTtl))) ∧
      ∀ old, single.lifetime = .unchanged → earlier.get key now = .ok old →
        s.Shows key t (if (earlier.get key t).isOk then some record else none) := by
  intro earlier s fits within
  have hvoid := h.voidTime_eq
  refine ⟨fun seconds hlifetime hfits => ?_, fun hlifetime => ?_, fun hlifetime => ?_,
    fun old hlifetime hold => h.shows_of_unchanged hmoment hns hdigest hlifetime hold⟩
  · rw [hlifetime] at hvoid
    exact h.shows_of_voidAfter hmoment hns hdigest hvoid hfits
  · rw [hlifetime] at hvoid
    exact h.shows_of_never hmoment hns hdigest hvoid
  · have hdefault := h.voidTime_of_default hns hdigest hlifetime
    refine ⟨fun hzero => ?_, fun hpositive hfits => ?_⟩
    · rw [if_pos hzero] at hdefault
      exact h.shows_of_never hmoment hns hdigest hdefault
    · rw [if_neg hpositive] at hdefault
      exact h.shows_of_voidAfter hmoment hns hdigest hdefault hfits

/-- A record that is to live for ten seconds is written at one second. A put that fails, a write on
another record, and a sweep make no difference, and neither does a touch that is not to change the
lifetime: the record is seen up to the last millisecond of its time, and not at its end. -/
theorem visible_lifetime_of_ten_seconds :
    let key : Key := ⟨"test", "demo", none, ⟨List.replicate 20 0, rfl⟩⟩
    let other : Key := ⟨"test", "demo", none, ⟨List.replicate 20 1, rfl⟩⟩
    let bins : Bins := Named.ofList [("n", .integer 1)]
    let history : List (Call × UInt64) :=
      [(.put key bins { ttl := .after 10 }, 1000), (.put key bins { action := .create }, 2000),
        (.put other bins {}, 2000), (.reapExpired, 3000)]
    let touched := history ++ [(.touch key .unchanged, 5000)]
    let s := ((empty {}).before history 4)
    let after := ((empty {}).before touched 5)
    (∃ record, s.get key 10999 = .ok record) ∧ s.get key 11000 = .error .recordNotFound ∧
      (∃ record, after.get key 10999 = .ok record) ∧
      after.get key 11000 = .error .recordNotFound := by
  intro key other bins history touched s after
  obtain ⟨record, hleaves⟩ : ∃ record,
      ((empty {}).before history 1).find? key.digest = some record :=
    Option.isSome_iff_exists.mp (by decide +kernel)
  have hstands : Stands {} history 0 4 1000
      ⟨key, .ok (), [.write "n" (.integer 1)], { ttl := .after 10 }, fun _ => .ok .nothing⟩
      record := by
    refine ⟨⟨_, rfl, rfl⟩, by decide +kernel, hleaves, by decide, fun j hij hjk => ?_,
      fun j call time _ _ hcall => ?_⟩
    · have hunwritten : ∀ j < 4, 0 < j → (empty {}).writesAt history key.digest j = false := by
        decide +kernel
      exact hunwritten j hjk hij
    · rintro ⟨set, before, rfl, -⟩
      simpa [history] using List.mem_of_getElem? hcall
  obtain ⟨record', hleaves'⟩ : ∃ record,
      ((empty {}).before touched 5).find? key.digest = some record :=
    Option.isSome_iff_exists.mp (by decide +kernel)
  have hstands' : Stands {} touched 4 5 5000
      ⟨key, .ok (), [.touch (some .unchanged)], {}, fun o => (metadataOf o).map .metadata⟩
      record' := by
    refine ⟨⟨_, rfl, rfl⟩, by decide +kernel, hleaves', by decide, fun j hij hjk => ?_,
      fun j call time hij hjk => ?_⟩
    · omega
    · omega
  have hfits : (1000 : UInt64).toNat + 1000 * (10 : UInt32).toNat < UInt64.size := by decide
  obtain ⟨old, hlive⟩ : ∃ old,
      ((empty {}).before touched 4).live? key.digest 5000 = some old :=
    Option.isSome_iff_exists.mp (by decide +kernel)
  have hold := get_eq_ok_iff.mpr ⟨rfl, hlive⟩
  have hseen : (((empty {}).before touched 4).get key 10999).isOk = true := by decide +kernel
  have hunseen : (((empty {}).before touched 4).get key 11000).isOk = false := by decide +kernel
  have hns : key.ns = key.ns := rfl
  have hdigest : key.digest = key.digest := rfl
  have hin := (visible_lifetime hstands (t := 10999) ⟨Nat.le_refl 4, by decide, by decide⟩ hns
    hdigest).1 10 rfl hfits
  have hout := (visible_lifetime hstands (t := 11000) ⟨Nat.le_refl 4, by decide, by decide⟩ hns
    hdigest).1 10 rfl hfits
  have hin' := (visible_lifetime hstands' (t := 10999) ⟨Nat.le_refl 5, by decide, by decide⟩ hns
    hdigest).2.2.2 old rfl hold
  have hout' := (visible_lifetime hstands' (t := 11000) ⟨Nat.le_refl 5, by decide, by decide⟩ hns
    hdigest).2.2.2 old rfl hold
  beta_reduce at hin hout
  rw [if_pos (by decide)] at hin
  rw [if_neg (by decide)] at hout
  rw [hseen, if_pos rfl] at hin'
  rw [hunseen, if_neg Bool.false_ne_true] at hout'
  exact ⟨⟨record, hin.get⟩, hout.get, ⟨record', hin'.get⟩, hout'.get⟩

end Store

end RecordStore
