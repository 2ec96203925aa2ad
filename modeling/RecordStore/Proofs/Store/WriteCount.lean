import RecordStore.Proofs.Store.Generation
import RecordStore.Proofs.Store.ReadBack

/-!
# Generations count writes

The generation of a live record is the number of writes on it since there was last no live
record under its digest (`RecordStore.Store.generation_counts_writes`). What a write does to the
bins has no say, and neither has what made the record go: a deletion, its last bin, a truncation,
or its void time.

Time comes into this twice. A record may go without a call, by the mere passing of time, so that
the history of a store has more moments than calls (`RecordStore.Store.Moment`). And a record
that has gone in this way does not come back, as long as time does not. So it is enough to look
at a record at the time of each call: a call that is no write on it which succeeds shows the
record as it was, or truncates (`RecordStore.Store.Filled.live?_of_not_commitsOn`), and one that
is adds one to what was shown (`RecordStore.Store.Call.generation_of_commitsOn`).
-/

namespace RecordStore

namespace Store

variable {s : Store} {now t t' : UInt64} {digest : Digest} {call : Call} {record : Record}
  {history : List (Call × UInt64)} {j k : Nat}

/-- A record that is live was so before, as long as nothing has been written. -/
theorem live?_of_le (hlive : s.live? digest t = some record) (h : now ≤ t) :
    s.live? digest now = some record := by
  obtain ⟨hfind, hexpired⟩ := Option.filter_eq_some_iff.mp hlive
  refine Option.filter_eq_some_iff.mpr ⟨hfind, ?_⟩
  rw [Bool.not_eq_true'] at hexpired ⊢
  refine eq_false_of_ne_true fun hexp => ?_
  exact ne_true_of_eq_false hexpired (Metadata.isExpired_mono h hexp)

/-! ### Writes on a digest -/

/-- Whether a call is a write on the record under a digest, and succeeds. -/
def Call.commitsOn (call : Call) (s : Store) (now : UInt64) (digest : Digest) : Bool :=
  call.single?.any (fun single => single.writes && single.key.digest = digest) &&
    (call.run s now).result.isOk

theorem Call.commitsOn_iff :
    call.commitsOn s now digest = true ↔ ∃ single answer, call.single? = some single ∧
      single.writes = true ∧ single.key.digest = digest ∧ (call.run s now).result = .ok answer := by
  rw [commitsOn, Bool.and_eq_true, Option.any_eq_true]
  constructor
  · rintro ⟨⟨single, hsingle, hwrites⟩, hok⟩
    obtain ⟨hwrites, hdigest⟩ := Bool.and_eq_true_iff.mp hwrites
    cases hresult : (call.run s now).result with
    | error e =>
      rw [hresult] at hok
      cases hok
    | ok answer => exact ⟨single, answer, hsingle, hwrites, of_decide_eq_true hdigest, rfl⟩
  · rintro ⟨single, answer, hsingle, hwrites, hdigest, hresult⟩
    refine ⟨⟨single, hsingle, Bool.and_eq_true_iff.mpr ⟨hwrites, decide_eq_true hdigest⟩⟩, ?_⟩
    rw [hresult]
    rfl

/-- **A write adds one** to the generation that was shown at its time, and to zero if there was
no live record. -/
theorem Call.generation_of_commitsOn (h : call.commitsOn s now digest = true)
    (hlive : (call.run s now).state.live? digest t = some record) :
    record.generation = (s.live? digest now).elim 0 Record.generation + 1 := by
  obtain ⟨single, answer, hsingle, hwrites, rfl, hanswer⟩ := commitsOn_iff.mp h
  have hfind := (Option.filter_eq_some_iff.mp hlive).1
  exact generation_of_writes hsingle hwrites hanswer hfind

/-- A call on one record that succeeds and does not write drops the record if it is expired, and
does nothing else. -/
theorem RecordCall.state_of_not_writes {single : RecordCall} {answer : Answer}
    (hwrites : single.writes = false) (hanswer : (single.run s now).result = .ok answer) :
    (single.run s now).state = s.reap single.key.digest now := by
  obtain ⟨outcome, hrun, -⟩ := Attempt.mapResult_result_eq_ok_iff.mp hanswer
  obtain ⟨hns, hask⟩ := run_result_eq_ok_iff.mp hrun
  have hwrote : outcome.wrote = false :=
    (Engine.wrote_eq (RecordCall.operate_of_ask hask)).trans hwrites
  change (s.run single.key (single.ask s.engine now) now).state = _
  rw [run_eq, hns, hask]
  change (s.reap single.key.digest now).commit single.key.digest outcome = _
  rw [commit, hwrote]
  rfl

/-- A test on records shows a record as it was, or drops it. -/
theorem live?_filter (s : Store) (keep : Digest × Record → Bool) (digest : Digest) (t : UInt64) :
    (s.filter keep).live? digest t = s.live? digest t ∨ (s.filter keep).live? digest t = none := by
  rw [live?, live?, find?_filter]
  cases s.find? digest with
  | none => exact Or.inr rfl
  | some record =>
    cases hkeep : keep (digest, record) with
    | true => exact Or.inl (by rw [Option.filter_some, hkeep, if_pos rfl])
    | false => exact Or.inr (by rw [Option.filter_some, hkeep]; rfl)

/-- **A call that is no write on a record which succeeds** shows the record from its time on as
it was, unless it truncates and the record goes. -/
theorem Filled.live?_of_not_commitsOn (h : s.Filled) (hnone : call.commitsOn s now digest = false)
    (ht : now ≤ t) :
    (call.run s now).state.live? digest t = s.live? digest t ∨
      (∃ set before, call = .truncate set before) ∧
        (call.run s now).state.live? digest t = none := by
  have hreap : ∀ digest', (s.reap digest' now).live? digest t = s.live? digest t :=
    fun digest' => ((Alike.reap s digest' now).mono ht).live? digest
  cases call.form with
  | reads hstate _ =>
    rw [hstate]
    exact Or.inl rfl
  | onRecord single hsingle =>
    refine Or.inl ?_
    cases hresult : (call.run s now).result with
    | error e =>
      rcases h.state_of_failed hresult with hsame | ⟨digest', hdropped⟩
      · rw [hsame]
      · rw [hdropped, hreap]
    | ok answer =>
      by_cases hdigest : single.key.digest = digest
      · have hwrites : single.writes = false := by
          by_contra hne
          refine absurd (Call.commitsOn_iff.mpr ?_) (ne_true_of_eq_false hnone)
          exact ⟨single, answer, hsingle, eq_true_of_ne_false hne, hdigest, hresult⟩
        rw [Call.run_single hsingle] at hresult ⊢
        rw [RecordCall.state_of_not_writes hwrites hresult, hreap]
      · rw [Call.run_single hsingle]
        exact live?_run_of_ne s (Ne.symm hdigest) _ now t
  | truncates set before hcall =>
    subst hcall
    simp only [Call.run, Store.truncate]
    split
    · exact Or.inl rfl
    · exact (live?_filter s _ digest t).imp_right fun hgone => ⟨⟨set, before, rfl⟩, hgone⟩
  | sweeps hcall =>
    subst hcall
    exact Or.inl (((Alike.reapExpired s now).mono ht).live? digest)

/-- **A call adds one** to the generation of the record that it shows, exactly if it is a write
on it which succeeds. A record that was not live counts from zero. -/
theorem Filled.toNat_generation_run (h : s.Filled) (ht : now ≤ t)
    (hpositive : 1 ≤ record.generation.toNat)
    (hlive : (call.run s now).state.live? digest t = some record) :
    record.generation.toNat =
      ((s.live? digest now).elim 0 Record.generation).toNat +
        (call.commitsOn s now digest).toNat := by
  cases hcommits : call.commitsOn s now digest with
  | true =>
    rw [Call.generation_of_commitsOn hcommits hlive] at hpositive ⊢
    exact toNat_add_one hpositive
  | false =>
    rcases h.live?_of_not_commitsOn hcommits ht with hsame | ⟨-, hgone⟩
    · rw [live?_of_le (hsame.symm.trans hlive) ht]
      rfl
    · rw [hgone] at hlive
      cases hlive

/-! ### Moments of a history -/

/-- **A moment of a history**: the first of its calls have been made by a time, and no other. -/
structure Moment (history : List (Call × UInt64)) (k : Nat) (t : UInt64) : Prop where
  /-- There are as many calls. -/
  le : k ≤ history.length
  /-- They have been made. -/
  made : ∀ entry ∈ history.take k, entry.2 ≤ t
  /-- The others have not. -/
  ahead : ∀ entry ∈ history.drop k, t ≤ entry.2

theorem drop_eq_cons (hcall : history[k]? = some (call, now)) :
    history.drop k = (call, now) :: history.drop (k + 1) := by
  obtain ⟨hlt, hget⟩ := List.getElem?_eq_some_iff.mp hcall
  rw [List.drop_eq_getElem_cons hlt, hget]

/-- Before a call is made there is a moment at its time. -/
theorem Moment.of_getElem? (hordered : history.Pairwise fun a b => a.2 ≤ b.2)
    (hcall : history[k]? = some (call, now)) : Moment history k now := by
  have hsplit := hordered
  rw [← List.take_append_drop k history, drop_eq_cons hcall, List.pairwise_append] at hsplit
  obtain ⟨-, hrest, hcross⟩ := hsplit
  refine ⟨Nat.le_of_lt (List.getElem?_eq_some_iff.mp hcall).1, ?_, ?_⟩
  · exact fun entry hmade => hcross entry hmade _ List.mem_cons_self
  · rw [drop_eq_cons hcall]
    intro entry hahead
    rcases List.mem_cons.mp hahead with rfl | hahead
    · exact UInt64.le_refl now
    · exact (List.pairwise_cons.mp hrest).1 entry hahead

/-- A call that has been made was made before. -/
theorem Moment.call_le (h : Moment history j t) (hcall : history[k]? = some (call, now))
    (hkj : k < j) : now ≤ t := by
  refine h.made (call, now) ?_
  have htake : (history.take j)[k]? = some (call, now) := by
    rw [List.getElem?_take_of_lt hkj, hcall]
  exact List.mem_of_getElem? htake

/-- A call that has not been made is made later. -/
theorem Moment.le_call (h : Moment history j t) (hcall : history[k]? = some (call, now))
    (hjk : j ≤ k) : t ≤ now := by
  refine h.ahead (call, now) ?_
  have hdrop : (history.drop j)[k - j]? = some (call, now) := by
    rw [List.getElem?_drop, Nat.add_sub_cancel' hjk, hcall]
  exact List.mem_of_getElem? hdrop

/-- Whether a call of a history is a write on the record under a digest, and succeeds. -/
def writesAt (s : Store) (history : List (Call × UInt64)) (digest : Digest) (k : Nat) : Bool :=
  history[k]?.any fun entry => entry.1.commitsOn (s.before history k) entry.2 digest

theorem writesAt_eq (s : Store) (digest : Digest) (hcall : history[k]? = some (call, now)) :
    s.writesAt history digest k = call.commitsOn (s.before history k) now digest := by
  rw [writesAt, hcall, Option.any_some]

/-- **The number of writes** on the record under a digest that succeed, among the calls of a
history from a position on and before another one. -/
def writesBetween (s : Store) (history : List (Call × UInt64)) (digest : Digest) (j k : Nat) :
    Nat :=
  (List.range' j (k - j)).countP (s.writesAt history digest)

theorem writesBetween_self (s : Store) (history : List (Call × UInt64)) (digest : Digest)
    (k : Nat) : s.writesBetween history digest k k = 0 := by
  rw [writesBetween, Nat.sub_self]
  rfl

theorem writesBetween_succ (s : Store) (history : List (Call × UInt64)) (digest : Digest)
    (h : j ≤ k) : s.writesBetween history digest j (k + 1) =
      s.writesBetween history digest j k + (s.writesAt history digest k).toNat := by
  rw [writesBetween, writesBetween, Nat.succ_sub h, List.range'_1_concat, List.countP_append,
    Nat.add_sub_cancel' h, List.countP_singleton]
  cases s.writesAt history digest k <;> rfl

/-- **The last moment without a live record** under a digest, before a moment at which there is
one. -/
structure LastAbsent (s : Store) (history : List (Call × UInt64)) (digest : Digest) (k : Nat)
    (now : UInt64) (j : Nat) (t : UInt64) : Prop where
  /-- Some calls have been made since. -/
  lt : j < k
  /-- It is a moment of the history. -/
  moment : Moment history j t
  /-- There is no live record. -/
  absent : (s.before history j).live? digest t = none
  /-- There is one at every moment since, once a call has been made. -/
  live : ∀ m t', j < m → m ≤ k → Moment history m t' → t' ≤ now →
    ((s.before history m).live? digest t').isSome

/-- There is none when a call is made that leaves a live record. -/
theorem LastAbsent.of_call {t₀ : UInt64} (hmoment : Moment history k t₀)
    (habsent : (s.before history k).live? digest t₀ = none)
    (hlive : (s.before history (k + 1)).live? digest now = some record) :
    s.LastAbsent history digest (k + 1) now k t₀ := by
  refine ⟨Nat.lt_succ_self k, hmoment, habsent, fun m t' hkm hmk _ ht' => ?_⟩
  obtain rfl : m = k + 1 := Nat.le_antisymm hmk hkm
  exact Option.isSome_of_eq_some (live?_of_le hlive ht')

/-- It stays the last one when the next call leaves a live record. -/
theorem LastAbsent.succ {t₀ : UInt64} (h : s.LastAbsent history digest k t₀ j t)
    (hcall : history[k]? = some (call, t₀))
    (hlive : (s.before history (k + 1)).live? digest now = some record) :
    s.LastAbsent history digest (k + 1) now j t := by
  refine ⟨Nat.lt_succ_of_lt h.lt, h.moment, h.absent, fun m t' hjm hmk hm ht' => ?_⟩
  rcases Nat.lt_or_eq_of_le hmk with hlt | rfl
  · have hmk : m ≤ k := Nat.le_of_lt_succ hlt
    exact h.live m t' hjm hmk hm (hm.le_call hcall hmk)
  · exact Option.isSome_of_eq_some (live?_of_le hlive ht')

/-- **The generation of a live record** is the number of writes on it since the last moment
without one: by induction on the number of calls that have been made. -/
theorem exists_lastAbsent {settings : StoreSettings}
    (hordered : history.Pairwise fun a b => a.2 ≤ b.2)
    (hwrites : (empty settings).commits history < UInt64.size) (digest : Digest) (k : Nat) :
    ∀ now record, Moment history k now →
      ((empty settings).before history k).live? digest now = some record →
        ∃ j t, (empty settings).LastAbsent history digest k now j t ∧
          record.generation.toNat = (empty settings).writesBetween history digest j k := by
  induction k with
  | zero =>
    intro now record _ hlive
    cases hlive
  | succ k ih =>
    intro now record hmoment hlive
    obtain ⟨⟨call, t₀⟩, hcall⟩ : ∃ entry, history[k]? = some entry :=
      ⟨_, List.getElem?_eq_getElem hmoment.le⟩
    have hbefore : Moment history k t₀ := .of_getElem? hordered hcall
    obtain ⟨-, hstate⟩ := replay_getElem? (s := empty settings) hcall
    obtain ⟨_, hcounted⟩ := Counted.before settings hwrites k
    obtain ⟨_, hcounted'⟩ := Counted.before settings hwrites (k + 1)
    have hpositive : 1 ≤ record.generation.toNat := hcounted'.positive _ (mem_of_live? hlive)
    have hgeneration := hcounted.filled.toNat_generation_run
      (hmoment.call_le hcall (Nat.lt_succ_self k)) hpositive (hstate ▸ hlive)
    rw [← writesAt_eq _ digest hcall] at hgeneration
    cases hearlier : ((empty settings).before history k).live? digest t₀ with
    | none =>
      -- the call has made the record, and is the only one that counts
      refine ⟨k, t₀, .of_call hbefore hearlier hlive, ?_⟩
      rw [hgeneration, hearlier, writesBetween_succ _ _ _ (Nat.le_refl k), writesBetween_self]
      rfl
    | some earlier =>
      obtain ⟨j, t, hlast, hcount⟩ := ih t₀ earlier hbefore hearlier
      refine ⟨j, t, hlast.succ hcall hlive, ?_⟩
      rw [hgeneration, hearlier, writesBetween_succ _ _ _ (Nat.le_of_lt hlast.lt), ← hcount]
      rfl

/-- **Generations count writes.** In a history in which time does not go back, and with fewer
writes than the counter can count, the generation of a record that is live at some moment is the
number of writes on it that have succeeded since the last moment without a live record under its
digest. A call that is no write on the record which succeeds, be it a read, a call that fails or
a call on other digests, shows the record as it was, unless it is a truncation, and the record
goes. -/
theorem generation_counts_writes {settings : StoreSettings}
    (hordered : history.Pairwise fun a b => a.2 ≤ b.2)
    (hwrites : (empty settings).commits history < UInt64.size) (digest : Digest) :
    (∀ k now record, Moment history k now →
      ((empty settings).before history k).live? digest now = some record →
        ∃ j t, (empty settings).LastAbsent history digest k now j t ∧
          record.generation.toNat = (empty settings).writesBetween history digest j k) ∧
      ∀ k call now, history[k]? = some (call, now) →
        (empty settings).writesAt history digest k = false → ∀ t, now ≤ t →
          ((empty settings).before history (k + 1)).live? digest t =
              ((empty settings).before history k).live? digest t ∨
            (∃ set threshold, call = .truncate set threshold) ∧
              ((empty settings).before history (k + 1)).live? digest t = none := by
  refine ⟨exists_lastAbsent hordered hwrites digest, fun k call now hcall hnone t ht => ?_⟩
  obtain ⟨n, hcounted⟩ := Counted.before settings hwrites k
  obtain ⟨-, hstate⟩ := replay_getElem? (s := empty settings) hcall
  rw [writesAt_eq _ digest hcall] at hnone
  rw [hstate]
  exact hcounted.filled.live?_of_not_commitsOn hnone ht

/-- A record that is put and touched, expires unseen, and is put once more; then a write that
expects another generation fails, and one that changes no bin succeeds. -/
theorem generation_counts_writes_after_expiry :
    let key : Key := ⟨"test", "demo", none, ⟨List.replicate 20 0, rfl⟩⟩
    let bins : Bins := Named.ofList [("n", .integer 1)]
    let history : List (Call × UInt64) :=
      [(.put key bins { ttl := .after 1 }, 0), (.touch key (.after 1), 500),
        (.put key bins {}, 2000), (.put key bins { generation := .equal 5 }, 3000),
        (.put key bins {}, 3000), (.get key, 4000)]
    (empty {}).commits history = 4 ∧
      (∃ record j t, ((empty {}).before history 6).live? key.digest 5000 = some record ∧
        (empty {}).LastAbsent history key.digest 6 5000 j t ∧ record.generation.toNat = 2 ∧
        (empty {}).writesBetween history key.digest j 6 = 2) ∧
      ((empty {}).before history 4).live? key.digest 3000 =
        ((empty {}).before history 3).live? key.digest 3000 := by
  intro key bins history
  have hcommits : (empty {}).commits history = 4 := by decide +kernel
  have hfew : (empty {}).commits history < UInt64.size :=
    Nat.lt_of_le_of_lt (Nat.le_of_eq hcommits) (by decide)
  obtain ⟨hcounts, hkeeps⟩ := generation_counts_writes (by decide) hfew key.digest
  have hmoment : Moment history 6 5000 := ⟨Nat.le_refl 6, by decide, by decide⟩
  have hgeneration : (((empty {}).before history 6).live? key.digest 5000).map
      (·.generation.toNat) = some 2 := by decide +kernel
  obtain ⟨record, hlive, htwo⟩ := Option.map_eq_some_iff.mp hgeneration
  obtain ⟨j, t, hlast, hcount⟩ := hcounts 6 5000 record hmoment hlive
  refine ⟨hcommits, ⟨record, j, t, hlive, hlast, htwo, hcount.symm.trans htwo⟩, ?_⟩
  have hfails : (empty {}).writesAt history key.digest 3 = false := by decide +kernel
  have hsame := hkeeps 3 _ 3000 rfl hfails 3000 (by decide)
  exact hsame.resolve_right fun ⟨⟨_, _, hcall⟩, _⟩ => nomatch hcall

end Store

end RecordStore
