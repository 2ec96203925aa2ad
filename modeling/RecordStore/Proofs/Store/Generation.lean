import RecordStore.Proofs.Store.Failure

/-!
# Generations prevent lost updates

A writer that has read a record can ask that its write succeeds only if the record still
has the generation that was read. This file shows what the writer gets: while the record
stays live, of all the writes that expect one and the same generation at most one
succeeds (`RecordStore.Store.no_lost_update`).

The reason is that the generation of a live record never falls and rises with every
write on it (`RecordStore.Store.Call.generation_le`). The counter starts anew only with a
new record, and it is a word of sixty-four bits; that it does not run over is the
invariant of the run (`RecordStore.Store.Counted`): every generation is at least one and
at most the number of writes so far.
-/

namespace RecordStore

namespace Store

variable {s : Store} {now : UInt64} {n : Nat}

/-! ### Counting writes -/

/-- Whether a call on one record is a write. -/
def RecordCall.writes (call : RecordCall) : Bool := call.ops.any Operation.isWrite

/-- Whether a call is a write on one record that succeeds. -/
def Call.commits (call : Call) (s : Store) (now : UInt64) : Bool :=
  call.single?.any RecordCall.writes && (call.run s now).result.isOk

/-- The number of writes in a history that succeed. -/
def commits (s : Store) : (history : List (Call × UInt64)) → Nat
  | [] => 0
  | (call, now) :: rest => (call.commits s now).toNat + commits (call.run s now).state rest

/-- A call that leaves a record is a write that succeeds. -/
theorem Filled.commits_of_leaves (h : s.Filled) {call : Call} {single : RecordCall}
    (hsingle : call.single? = some single) {e : Digest × Record} (hleaves : single.Leaves s now e) :
    call.commits s now = true := by
  obtain ⟨outcome, hns, hask, hwrote, -, -⟩ := hleaves
  have hwrites : single.writes = true :=
    (Engine.wrote_eq (RecordCall.operate_of_ask hask)).symm.trans hwrote
  obtain ⟨answer, hanswer⟩ := h.answers (Call.answers_single hsingle) hask
  have hresult : (call.run s now).result = .ok answer := by
    rw [Call.run_single hsingle, RecordCall.run, Attempt.mapResult_result_eq_ok_iff]
    exact ⟨outcome, run_result_eq_ok_iff.mpr ⟨hns, hask⟩, hanswer⟩
  rw [Call.commits, hsingle, hresult]
  exact Bool.and_eq_true_iff.mpr ⟨hwrites, rfl⟩

/-- The generation after a write is the one before it and one, if it is not zero. -/
theorem toNat_add_one {g : UInt64} (h : 1 ≤ (g + 1).toNat) : (g + 1).toNat = g.toNat + 1 := by
  have hadd := UInt64.toNat_add g 1
  have hlt := g.toNat_lt_size
  have hone : UInt64.toNat 1 = 1 := rfl
  have hsize : UInt64.size = 2 ^ 64 := rfl
  omega

/-- The generation after a write, as long as the counter does not run over. -/
theorem toNat_add_one_of_lt {g : UInt64} (h : g.toNat + 1 < UInt64.size) :
    (g + 1).toNat = g.toNat + 1 :=
  (UInt64.toNat_add g 1).trans (Nat.mod_eq_of_lt h)

/-- **Generations count writes**: every record has at least one, and none has more than
there were. -/
structure Counted (s : Store) (n : Nat) : Prop where
  /-- No record is without bins. -/
  filled : s.Filled
  /-- A record that is kept was written. -/
  positive : ∀ e ∈ s.records, 1 ≤ e.2.generation.toNat
  /-- A record was written no more often than there were writes. -/
  bounded : ∀ e ∈ s.records, e.2.generation.toNat ≤ n

theorem Counted.empty (settings : StoreSettings) : (empty settings).Counted 0 where
  filled _ he := absurd he List.not_mem_nil
  positive _ he := absurd he List.not_mem_nil
  bounded _ he := absurd he List.not_mem_nil

/-- A record that is left has a generation of one and at most one more than there was. -/
theorem Counted.generation_of_leaves (h : s.Counted n) (hn : n + 1 < UInt64.size)
    {single : RecordCall} {e : Digest × Record} (hleaves : single.Leaves s now e) :
    1 ≤ e.2.generation.toNat ∧ e.2.generation.toNat ≤ n + 1 := by
  obtain ⟨outcome, -, hask, hwrote, -, hrecord⟩ := hleaves
  have hgeneration := Engine.generation_of_operate (RecordCall.operate_of_ask hask) hwrote hrecord
  have hbefore : ((s.live? single.key.digest now).elim 0 Record.generation).toNat ≤ n := by
    cases hlive : s.live? single.key.digest now with
    | none => exact Nat.zero_le n
    | some record => exact h.bounded _ (mem_of_live? hlive)
  rw [hgeneration, toNat_add_one_of_lt (Nat.lt_of_le_of_lt (Nat.succ_le_succ hbefore) hn)]
  exact ⟨Nat.le_add_left 1 _, Nat.succ_le_succ hbefore⟩

/-- **A call counts itself** if it is a write that succeeds. -/
theorem Counted.run (h : s.Counted n) (call : Call) (now : UInt64)
    (hn : n + (call.commits s now).toNat < UInt64.size) :
    (call.run s now).state.Counted (n + (call.commits s now).toNat) := by
  have hrecords : ∀ e ∈ (call.run s now).state.records,
      1 ≤ e.2.generation.toNat ∧ e.2.generation.toNat ≤ n + (call.commits s now).toNat := by
    intro e he
    rcases Call.mem_run he with he | ⟨single, hsingle, hleaves⟩
    · exact ⟨h.positive e he, Nat.le_add_right_of_le (h.bounded e he)⟩
    · rw [h.filled.commits_of_leaves hsingle hleaves] at hn ⊢
      exact h.generation_of_leaves hn hleaves
  exact ⟨h.filled.run call now, fun e he => (hrecords e he).1, fun e he => (hrecords e he).2⟩

theorem Counted.replay (history : List (Call × UInt64)) (h : s.Counted n)
    (hn : n + s.commits history < UInt64.size) :
    (replay s history).2.Counted (n + s.commits history) := by
  induction history generalizing s n with
  | nil => exact h
  | cons entry rest ih =>
    obtain ⟨call, now⟩ := entry
    rw [commits, ← Nat.add_assoc] at hn ⊢
    exact ih (h.run call now (Nat.lt_of_le_of_lt (Nat.le_add_right _ _) hn)) hn

/-! ### The store before a call of a history -/

/-- The store that the calls of a history before a position have made. -/
def before (s : Store) (history : List (Call × UInt64)) (k : Nat) : Store :=
  (replay s (history.take k)).2

variable {history : List (Call × UInt64)} {call : Call}

/-- A call of a history is made on what the calls before it have made. -/
theorem replay_getElem? {k : Nat} (h : history[k]? = some (call, now)) :
    (replay s history).1[k]? = some (call.run (s.before history k) now).result ∧
      s.before history (k + 1) = (call.run (s.before history k) now).state := by
  induction history generalizing s k with
  | nil => cases h
  | cons entry rest ih =>
    cases k with
    | zero =>
      cases h
      exact ⟨rfl, rfl⟩
    | succ k => exact ih h

theorem commits_take_le (s : Store) (history : List (Call × UInt64)) (k : Nat) :
    s.commits (history.take k) ≤ s.commits history := by
  induction history generalizing s k with
  | nil => exact Nat.le_of_eq (congrArg s.commits List.take_nil)
  | cons entry rest ih =>
    cases k with
    | zero => exact Nat.zero_le _
    | succ k => exact Nat.add_le_add_left (ih _ k) _

/-- Before every call of a history with few writes, generations count writes. -/
theorem Counted.before (settings : StoreSettings)
    (hwrites : (Store.empty settings).commits history < UInt64.size) (k : Nat) :
    ∃ n, ((Store.empty settings).before history k).Counted n := by
  have htake := Nat.lt_of_le_of_lt (commits_take_le (Store.empty settings) history k) hwrites
  exact ⟨_, (Counted.empty settings).replay (history.take k) (by rwa [Nat.zero_add])⟩

/-! ### Generations of a live record -/

/-- What is under a digest after a write is what the write has left. -/
theorem find?_commit (s : Store) (digest : Digest) {outcome : Outcome} (h : outcome.wrote) :
    (s.commit digest outcome).find? digest = outcome.record := by
  rw [commit, if_pos h]
  cases outcome.record with
  | none => exact s.find?_erase_self digest
  | some record => exact find?_eq_some_iff.mpr List.mem_cons_self

/-- A call on one record that writes leaves the record of its outcome under its digest. -/
theorem find?_run {key : Key} {ask : Option Record → Except Error Outcome} {outcome : Outcome}
    (h : (s.run key ask now).result = .ok outcome) (hwrote : outcome.wrote) :
    (s.run key ask now).state.find? key.digest = outcome.record := by
  obtain ⟨hns, hask⟩ := run_result_eq_ok_iff.mp h
  rw [run_eq, hns, hask]
  exact find?_commit _ _ hwrote

/-- **The generation of a live record never falls.** -/
theorem Call.generation_le {digest : Digest} {record record' : Record}
    (hpositive : 1 ≤ record'.generation.toNat) (hlive : s.live? digest now = some record)
    (hafter : (call.run s now).state.find? digest = some record') :
    record.generation.toNat ≤ record'.generation.toNat := by
  rcases Call.mem_run (find?_eq_some_iff.mp hafter) with
    hmem | ⟨single, -, outcome, -, hask, hwrote, hdigest, hrecord⟩
  · -- the record is the one that was there
    have hfind := (Option.filter_eq_some_iff.mp hlive).1
    rw [find?_eq_some_iff.mpr hmem, Option.some_inj] at hfind
    exact Nat.le_of_eq (hfind ▸ rfl)
  · have hgeneration := Engine.generation_of_operate (RecordCall.operate_of_ask hask) hwrote hrecord
    obtain rfl : digest = single.key.digest := hdigest
    rw [hlive] at hgeneration
    have hgeneration : record'.generation = record.generation + 1 := hgeneration
    rw [hgeneration] at hpositive ⊢
    rw [toNat_add_one hpositive]
    exact Nat.le_succ _

/-- **A write leaves the next generation** under its digest; a missing record has generation
zero. -/
theorem Call.generation_of_writes {single : RecordCall} {answer : Answer} {record : Record}
    (hsingle : call.single? = some single) (hwrites : single.writes)
    (hanswer : (call.run s now).result = .ok answer)
    (hrecord : (call.run s now).state.find? single.key.digest = some record) :
    record.generation = (s.live? single.key.digest now).elim 0 Record.generation + 1 := by
  rw [run_single hsingle] at hanswer hrecord
  obtain ⟨outcome, hrun, -⟩ := Attempt.mapResult_result_eq_ok_iff.mp hanswer
  have hoperate := RecordCall.operate_of_ask (run_result_eq_ok_iff.mp hrun).2
  have hwrote : outcome.wrote = true := (Engine.wrote_eq hoperate).trans hwrites
  have hleft : outcome.record = some record := (find?_run hrun hwrote).symm.trans hrecord
  exact Engine.generation_of_operate hoperate hwrote hleft

/-- **A write that expects a generation** finds it, and what it leaves has the next one. -/
theorem Call.generation_of_commits {single : RecordCall} {answer : Answer} {g : UInt64}
    (hsingle : call.single? = some single) (hwrites : single.writes)
    (hpolicy : single.policy.generation = .equal g)
    (hanswer : (call.run s now).result = .ok answer) :
    (s.live? single.key.digest now).elim 0 Record.generation = g ∧
      ∀ record, (call.run s now).state.find? single.key.digest = some record →
        record.generation = g + 1 := by
  have hgeneration : (s.live? single.key.digest now).elim 0 Record.generation = g := by
    rw [run_single hsingle] at hanswer
    obtain ⟨outcome, hrun, -⟩ := Attempt.mapResult_result_eq_ok_iff.mp hanswer
    have hoperate := RecordCall.operate_of_ask (run_result_eq_ok_iff.mp hrun).2
    have hwrote : outcome.wrote = true := (Engine.wrote_eq hoperate).trans hwrites
    have hcheck := Engine.generation_checked hoperate hwrote
    rw [hpolicy, GenerationPolicy.check] at hcheck
    by_contra hne
    rw [if_neg hne] at hcheck
    cases hcheck
  refine ⟨hgeneration, fun record hrecord => ?_⟩
  rw [generation_of_writes hsingle hwrites hanswer hrecord, hgeneration]

/-! ### Lost updates -/

/-- **A call of a history commits an update** of the record under a digest: it is a write
that expects a generation, and it succeeds. -/
def UpdatesAt (s : Store) (history : List (Call × UInt64)) (digest : Digest) (g : UInt64)
    (i : Nat) : Prop :=
  ∃ (call : Call) (now : UInt64) (single : RecordCall) (answer : Answer),
    history[i]? = some (call, now) ∧ call.single? = some single ∧ single.writes = true ∧
      single.key.digest = digest ∧ single.policy.generation = .equal g ∧
      (replay s history).1[i]? = some (.ok answer)

/-- **There is no live record** under a digest when a call of a history is made: it was
deleted, emptied or truncated, or is expired at the time of the call. -/
def AbsentAt (s : Store) (history : List (Call × UInt64)) (digest : Digest) (k : Nat) : Prop :=
  ∃ (call : Call) (now : UInt64), history[k]? = some (call, now) ∧
    (s.before history k).live? digest now = none

/-- As long as the record stays live after an update, its generation is greater than the
one that the update has expected. -/
theorem UpdatesAt.generation_lt {digest : Digest} {g : UInt64} {i k : Nat}
    (hi : s.UpdatesAt history digest g i) (hik : i < k)
    (hpositive : ∀ m, ∀ e ∈ (s.before history m).records, 1 ≤ e.2.generation.toNat)
    (hlive : ∀ m, i < m → m < k → ¬s.AbsentAt history digest m) {record : Record}
    (hrecord : (s.before history k).find? digest = some record) (hk : k ≤ history.length) :
    g.toNat < record.generation.toNat := by
  induction k generalizing record with
  | zero => exact absurd hik (Nat.not_lt_zero i)
  | succ k ih =>
    have hone : 1 ≤ record.generation.toNat :=
      hpositive (k + 1) _ (find?_eq_some_iff.mp hrecord)
    rcases Nat.lt_succ_iff_lt_or_eq.mp hik with hik | rfl
    · -- the record was live before the last call, which has not lowered its generation
      obtain ⟨⟨call, now⟩, hcall⟩ : ∃ entry, history[k]? = some entry :=
        ⟨history[k], List.getElem?_eq_getElem hk⟩
      obtain ⟨-, hstate⟩ := replay_getElem? (s := s) hcall
      rw [hstate] at hrecord
      cases hbefore : (s.before history k).live? digest now with
      | none => exact absurd ⟨call, now, hcall, hbefore⟩ (hlive k hik (Nat.lt_succ_self k))
      | some earlier =>
        have hearlier := ih hik (fun m him hmk => hlive m him (Nat.lt_succ_of_lt hmk))
          (Option.filter_eq_some_iff.mp hbefore).1 (Nat.le_of_lt hk)
        exact Nat.lt_of_lt_of_le hearlier (Call.generation_le hone hbefore hrecord)
    · -- the record is the one that the update has left
      obtain ⟨call, now, single, answer, hcall, hsingle, hwrites, rfl, hpolicy, hanswer⟩ := hi
      obtain ⟨hresult, hstate⟩ := replay_getElem? (s := s) hcall
      rw [hstate] at hrecord
      rw [hanswer, Option.some_inj] at hresult
      have hgeneration := (Call.generation_of_commits hsingle hwrites hpolicy hresult.symm).2 _ hrecord
      rw [hgeneration] at hone ⊢
      rw [toNat_add_one hone]
      exact Nat.lt_succ_self _

/-- **No update is lost.** In a history with fewer writes than the counter can count, two
updates of one record that expect the same generation do not both succeed, unless there
was no live record at some moment after the first and before the second. -/
theorem no_lost_update {settings : StoreSettings} {history : List (Call × UInt64)}
    (hwrites : (empty settings).commits history < UInt64.size) {digest : Digest} {g : UInt64}
    {i j : Nat} (hij : i < j) (hi : (empty settings).UpdatesAt history digest g i)
    (hj : (empty settings).UpdatesAt history digest g j) :
    ∃ k, i < k ∧ k ≤ j ∧ (empty settings).AbsentAt history digest k := by
  by_contra hnone
  have hlive : ∀ k, i < k → k ≤ j → ¬(empty settings).AbsentAt history digest k :=
    fun k hik hkj habsent => hnone ⟨k, hik, hkj, habsent⟩
  have hpositive : ∀ m, ∀ e ∈ ((empty settings).before history m).records,
      1 ≤ e.2.generation.toNat := fun m => by
    obtain ⟨n, hcounted⟩ := Counted.before settings hwrites m
    exact hcounted.positive
  obtain ⟨call, now, single, answer, hcall, hsingle, hwrites, rfl, hpolicy, hanswer⟩ := hj
  obtain ⟨hresult, -⟩ := replay_getElem? (s := empty settings) hcall
  rw [hanswer, Option.some_inj] at hresult
  have hgeneration := (Call.generation_of_commits hsingle hwrites hpolicy hresult.symm).1
  cases hbefore : ((empty settings).before history j).live? single.key.digest now with
  | none => exact hlive j hij (Nat.le_refl j) ⟨call, now, hcall, hbefore⟩
  | some record =>
    have hfind := (Option.filter_eq_some_iff.mp hbefore).1
    have hlength := (List.getElem?_eq_some_iff.mp hcall).1
    have hlt := hi.generation_lt hij hpositive (fun k hik hkj => hlive k hik (Nat.le_of_lt hkj))
      hfind (Nat.le_of_lt hlength)
    rw [hbefore] at hgeneration
    have hgeneration : record.generation = g := hgeneration
    rw [hgeneration] at hlt
    exact Nat.lt_irrefl _ hlt

/-- Two puts that expect no record, with a removal between them: both succeed, and
between them there was no live record. -/
theorem puts_around_removal :
    let key : Key := ⟨"test", "demo", none, ⟨List.replicate 20 0, rfl⟩⟩
    let put : Call := .put key (Named.ofList [("n", .integer 1)]) { generation := .equal 0 }
    let history : List (Call × UInt64) := [(put, 0), (.remove key {}, 10), (put, 20)]
    (empty {}).commits history = 3 ∧ (empty {}).UpdatesAt history key.digest 0 0 ∧
      (empty {}).UpdatesAt history key.digest 0 2 ∧
      ∃ k, 0 < k ∧ k ≤ 2 ∧ (empty {}).AbsentAt history key.digest k := by
  intro key put history
  have hcommits : (empty {}).commits history = 3 := by decide +kernel
  have hfirst : (empty {}).UpdatesAt history key.digest 0 0 :=
    ⟨put, 0, _, .nothing, rfl, rfl, rfl, rfl, rfl, rfl⟩
  have hsecond : (empty {}).UpdatesAt history key.digest 0 2 :=
    ⟨put, 20, _, .nothing, rfl, rfl, rfl, rfl, rfl, rfl⟩
  have hfew : (empty {}).commits history < UInt64.size :=
    Nat.lt_of_le_of_lt (Nat.le_of_eq hcommits) (by decide)
  exact ⟨hcommits, hfirst, hsecond, no_lost_update hfew (by decide) hfirst hsecond⟩

end Store

end RecordStore
