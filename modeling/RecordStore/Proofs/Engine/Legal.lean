import RecordStore.Engine.Operate
import RecordStore.Proofs.Engine.Plan

/-!
# Which lists of operations are legal

A call checks its list of operations before it looks at the record. This file states the rule
behind the check without the check, as a rule on the positions of the list
(`RecordStore.Plan.Legal`): what stands at any two of them has to go together. The check accepts
the lists that keep this rule and no others, and its plan can be read off the list
(`RecordStore.Plan.check_iff_legal`). Reads are never in the way, whatever bins they address and
wherever they stand (`RecordStore.Plan.check_of_writesOf_eq`).

The check takes the writes of a list three times: for their bins, for a write on the record as a
whole, and to count them. The second part puts the three into one pass over the list, which keeps
a tally of the writes that it has met (`RecordStore.Plan.Tally`). It refuses at the same operation
and with the same error as the check (`RecordStore.Plan.check_eq_inOnePass`).
-/

namespace RecordStore

/-! ### Pairs of positions -/

/-- **Something holds of what stands at any two positions** of a list. -/
def AnyTwo {α : Type} (R : α → α → Prop) (l : List α) : Prop :=
  ∀ (i j : Nat) (a b : α), l[i]? = some a → l[j]? = some b → i ≠ j → R a b

section AnyTwo

variable {α : Type} {R : α → α → Prop} {p : α → Bool} {l : List α}

/-- What does not depend on the order of the two is as good as said of the earlier and the
later one. -/
theorem anyTwo_iff_pairwise (hsymm : ∀ a b, R a b → R b a) : AnyTwo R l ↔ l.Pairwise R := by
  rw [List.pairwise_iff_getElem]
  constructor
  · intro h i j hi hj hlt
    exact h i j _ _ (List.getElem?_eq_getElem hi) (List.getElem?_eq_getElem hj) (Nat.ne_of_lt hlt)
  · intro h i j a b ha hb hne
    obtain ⟨hi, rfl⟩ := List.getElem?_eq_some_iff.mp ha
    obtain ⟨hj, rfl⟩ := List.getElem?_eq_some_iff.mp hb
    rcases Nat.lt_or_gt_of_ne hne with hlt | hlt
    · exact h i j hi hj hlt
    · exact hsymm _ _ (h j i hj hi hlt)

/-- No two things in a list have a marked one among them when a marked one is all that there is. -/
theorem pairwise_unmarked_iff :
    (l.Pairwise fun a b => p a = false ∧ p b = false) ↔
      ((∃ a ∈ l, p a = true) → l.length ≤ 1) := by
  rcases l with _ | ⟨a, _ | ⟨b, l⟩⟩
  · simp
  · simp
  constructor
  · rintro h ⟨c, hc, hmark⟩
    obtain ⟨hfirst, -⟩ := List.pairwise_cons.mp h
    rcases List.mem_cons.mp hc with rfl | hc
    · rw [(hfirst b List.mem_cons_self).1] at hmark
      cases hmark
    · rw [(hfirst c hc).2] at hmark
      cases hmark
  · intro h
    have hnone : ∀ c ∈ a :: b :: l, p c = false := by
      intro c hc
      rw [Bool.eq_false_iff]
      intro hmark
      have hlength := h ⟨c, hc, hmark⟩
      simp at hlength
    exact List.pairwise_of_forall_mem_list fun c hc d hd => ⟨hnone c hc, hnone d hd⟩

end AnyTwo

theorem Operation.isWrite_of_isRecordLevel {op : Operation} (h : op.isRecordLevel = true) :
    op.isWrite = true := by
  cases op with
  | touch | delete => rfl
  | _ => cases h

/-- The writes on the record as a whole are touches and deletes. -/
theorem Operation.isRecordLevel_iff {op : Operation} :
    op.isRecordLevel = true ↔ op = .delete ∨ ∃ ttl, op = .touch ttl := by
  cases op <;> simp [isRecordLevel]

namespace Plan

variable {ops mixed : List Operation} {plan : Plan}

/-! ### The rule -/

/-- No two writes address one bin. -/
def WritesApart (ops : List Operation) : Prop :=
  AnyTwo (fun op other => op.isWrite = true → other.isWrite = true →
    ∀ bin, op.bin? = some bin → other.bin? ≠ some bin) ops

/-- A write on the record as a whole is the only write. -/
def LevelAlone (ops : List Operation) : Prop :=
  AnyTwo (fun op other => op.isRecordLevel = true → other.isWrite = false) ops

/-- **A list of operations is legal**, by what stands at its positions. -/
structure Legal (ops : List Operation) : Prop where
  /-- There is something to do. -/
  nonempty : ops ≠ []
  /-- Every operation passes its own check. -/
  valid : ∀ op ∈ ops, op.validate = .ok ()
  /-- No two writes address one bin. -/
  apart : WritesApart ops
  /-- A touch or a delete is the only write. -/
  alone : LevelAlone ops

/-- The bins of the writes repeat nothing when no two writes address one bin. -/
theorem nodup_bins_iff :
    ((writesOf ops).filterMap Operation.bin?).Nodup ↔ WritesApart ops := by
  rw [WritesApart, anyTwo_iff_pairwise, List.Nodup, List.pairwise_filterMap, writesOf,
    List.pairwise_filter]
  · refine List.Pairwise.iff ?_
    intro op other
    constructor
    · intro h hop hother bin hbin hbin'
      exact h hop hother bin hbin bin hbin' rfl
    · rintro h hop hother bin hbin _ hbin' rfl
      exact h hop hother bin hbin hbin'
  · intro op other h hother hop bin hbin' hbin
    exact h hop hother bin hbin hbin'

theorem isSome_recordLevelOf_iff :
    (recordLevelOf ops).isSome = true ↔ ∃ op ∈ writesOf ops, op.isRecordLevel = true := by
  rw [recordLevelOf, List.find?_isSome]
  exact exists_congr fun op => and_congr_left fun _ => List.mem_reverse

/-- Of two writes neither is on the record as a whole, if such a write stands alone. -/
theorem levelAlone_iff :
    LevelAlone ops ↔
      AnyTwo (fun op other => op.isWrite = true → other.isWrite = true →
        op.isRecordLevel = false ∧ other.isRecordLevel = false) ops := by
  constructor
  · intro h i j op other hi hj hne hop hother
    rw [← Bool.not_eq_true, ← Bool.not_eq_true]
    constructor
    · intro hlevel
      rw [h i j op other hi hj hne hlevel] at hother
      cases hother
    · intro hlevel
      rw [h j i other op hj hi hne.symm hlevel] at hop
      cases hop
  · intro h i j op other hi hj hne hlevel
    rw [← Bool.not_eq_true]
    intro hother
    have hnot := h i j op other hi hj hne (Operation.isWrite_of_isRecordLevel hlevel) hother
    rw [hlevel] at hnot
    cases hnot.1

/-- It stands alone when no more than one write goes with it. -/
theorem length_writesOf_le_iff :
    ((recordLevelOf ops).isSome = true → (writesOf ops).length ≤ 1) ↔ LevelAlone ops := by
  rw [levelAlone_iff, isSome_recordLevelOf_iff, ← pairwise_unmarked_iff, writesOf,
    List.pairwise_filter, anyTwo_iff_pairwise]
  intro op other h hother hop
  exact (h hop hother).symm

/-- The plan of a legal list tells whether there is a write. -/
theorem not_isEmpty_writesOf_iff :
    (!(writesOf ops).isEmpty) = true ↔ ∃ op ∈ ops, op.isWrite = true := by
  rw [Bool.not_eq_true', List.isEmpty_eq_false_iff_exists_mem]
  exact exists_congr fun op => mem_writesOf

/-- It has the write on the record as a whole, of which a legal list has one at most. -/
theorem Legal.recordLevelOf_eq_some_iff (h : Legal ops) {op : Operation} :
    recordLevelOf ops = some op ↔ op ∈ ops ∧ op.isRecordLevel = true := by
  constructor
  · intro hlevel
    rw [recordLevelOf] at hlevel
    have hmem := List.mem_reverse.mp (List.mem_of_find?_eq_some hlevel)
    exact ⟨(mem_writesOf.mp hmem).1, List.find?_some hlevel⟩
  · rintro ⟨hop, hlevel⟩
    have hmem : op ∈ writesOf ops :=
      mem_writesOf.mpr ⟨hop, Operation.isWrite_of_isRecordLevel hlevel⟩
    have hlength := length_writesOf_le_iff.mpr h.alone
      (isSome_recordLevelOf_iff.mpr ⟨op, hmem, hlevel⟩)
    obtain ⟨other, hwrites⟩ :=
      List.length_eq_one_iff.mp (Nat.le_antisymm hlength (List.length_pos_of_mem hmem))
    rw [hwrites, List.mem_singleton] at hmem
    rw [recordLevelOf, hwrites, ← hmem, List.reverse_singleton, List.find?_singleton, if_pos hlevel]

/-- The list of a plan keeps the rule, and the plan is the one of the list. -/
theorem check_eq_ok_iff_legal :
    check ops = .ok plan ↔ Legal ops ∧ plan = ⟨!(writesOf ops).isEmpty, recordLevelOf ops⟩ := by
  rw [check_eq_ok_iff, nodup_bins_iff, length_writesOf_le_iff]
  constructor
  · rintro ⟨hne, hvalid, hapart, halone, hplan⟩
    exact ⟨⟨hne, hvalid, hapart, halone⟩, hplan⟩
  · rintro ⟨⟨hne, hvalid, hapart, halone⟩, hplan⟩
    exact ⟨hne, hvalid, hapart, halone, hplan⟩

/-- **Reads are never in the way**: with the same writes and other valid reads, any number of
them in any places and on any bins, the plan is the same. -/
theorem check_of_writesOf_eq (hcheck : check ops = .ok plan) (hne : mixed ≠ [])
    (hwrites : writesOf mixed = writesOf ops)
    (hreads : ∀ op ∈ mixed, op.isWrite = false → op.validate = .ok ()) :
    check mixed = .ok plan := by
  obtain ⟨-, hvalid, hdistinct, hsingle, hplan⟩ := check_eq_ok_iff.mp hcheck
  have hlevel : recordLevelOf mixed = recordLevelOf ops := by
    rw [recordLevelOf, recordLevelOf, hwrites]
  rw [← hlevel, ← hwrites] at hsingle hplan
  rw [← hwrites] at hdistinct
  refine check_eq_ok_iff.mpr ⟨hne, ?_, hdistinct, hsingle, hplan⟩
  intro op hop
  rcases hclass : op.isWrite with _ | _
  · exact hreads op hop hclass
  · have hmem : op ∈ writesOf ops := hwrites ▸ mem_writesOf.mpr ⟨hop, hclass⟩
    exact hvalid op (mem_writesOf.mp hmem).1

/-- A call with operations that are refused looks at nothing else. -/
theorem operate_of_check_eq_error {e : Error} (h : check ops = .error e) (engine : Engine)
    (existing : Option Record) (key : Key) (policy : WritePolicy) (now : UInt64) :
    engine.operate existing key ops policy now = .error e := by
  rw [Engine.operate, h]
  rfl

/-! ### One pass over the list -/

/-- What one pass over a list of operations has seen of its writes. -/
structure Tally where
  /-- The bins that were written, the last one first. -/
  written : List String := []
  /-- How many writes there were. -/
  writes : Nat := 0
  /-- The last write on the record as a whole. -/
  recordLevel : Option Operation := none

namespace Tally

/-- The tally with one more write. -/
def count (tally : Tally) (op : Operation) : Tally where
  written := op.bin?.toList ++ tally.written
  writes := tally.writes + 1
  recordLevel := if op.isRecordLevel then some op else tally.recordLevel

/-- **One step of the pass**: a write is counted, unless its bin was written before. -/
def add (tally : Tally) (op : Operation) : Except Error Tally :=
  if op.isWrite then
    match op.bin? with
    | some bin =>
      if tally.written.contains bin then .error (.param (.binWrittenTwice bin))
      else .ok (tally.count op)
    | none => .ok (tally.count op)
  else .ok tally

/-- The tally with some more writes. -/
def countAll (tally : Tally) (writes : List Operation) : Tally where
  written := (writes.filterMap Operation.bin?).reverse ++ tally.written
  writes := tally.writes + writes.length
  recordLevel := (writes.reverse.find? Operation.isRecordLevel).or tally.recordLevel

theorem countAll_cons (tally : Tally) (op : Operation) (writes : List Operation) :
    tally.countAll (op :: writes) = (tally.count op).countAll writes := by
  have hlevel : (([op] : List Operation).find? Operation.isRecordLevel).or tally.recordLevel =
      (tally.count op).recordLevel := by
    rw [List.find?_singleton, count]
    rcases op.isRecordLevel with _ | _ <;> rfl
  rw [countAll, countAll, List.reverse_cons, List.find?_append, Option.or_assoc, hlevel,
    List.length_cons, count, Nat.add_right_comm, Nat.add_assoc]
  rcases hbin : op.bin? with _ | bin
  · rw [List.filterMap_cons_none hbin]
    rfl
  · rw [List.filterMap_cons_some hbin, List.reverse_cons, List.append_assoc]
    rfl

/-- **What the whole pass comes to**: it fails where the bins of the writes repeat something,
and otherwise counts all writes. -/
theorem foldlM_add (tally : Tally) (ops : List Operation) :
    ops.foldlM add tally =
      checkBins tally.written ((writesOf ops).filterMap Operation.bin?) >>= fun _ =>
        .ok (tally.countAll (writesOf ops)) := by
  induction ops generalizing tally with
  | nil =>
    have hempty : tally.countAll [] = tally := by
      rw [countAll]
      rfl
    rw [writesOf, List.filter_nil, hempty]
    rfl
  | cons op ops ih =>
    rw [List.foldlM_cons, add, writesOf]
    rcases hclass : op.isWrite with _ | _
    · rw [List.filter_cons_of_neg (by rw [hclass]; exact Bool.false_ne_true)]
      exact ih tally
    rw [List.filter_cons_of_pos hclass, countAll_cons]
    rcases hbin : op.bin? with _ | bin
    · rw [List.filterMap_cons_none hbin]
      have hwritten : (tally.count op).written = tally.written := by
        rw [count, hbin]
        rfl
      rw [← hwritten]
      exact ih (tally.count op)
    · rw [List.filterMap_cons_some hbin, checkBins]
      have hwritten : (tally.count op).written = bin :: tally.written := by
        rw [count, hbin]
        rfl
      rw [← hwritten, if_pos rfl]
      dsimp only
      split
      · rfl
      · exact ih (tally.count op)

end Tally

/-- **The check of a list in one pass** over its operations. -/
theorem check_eq_inOnePass (ops : List Operation) :
    check ops =
      if ops.isEmpty then .error (.param .noOperations)
      else
        ops.forM Operation.validate >>= fun _ =>
          ops.foldlM Tally.add {} >>= fun tally =>
            if tally.recordLevel.isSome && tally.writes > 1 then
              .error (.param .recordLevelNotAlone)
            else .ok ⟨tally.writes > 0, tally.recordLevel⟩ := by
  have hlevel : (({} : Tally).countAll (writesOf ops)).recordLevel = recordLevelOf ops :=
    Option.or_none
  have hcount : (({} : Tally).countAll (writesOf ops)).writes = (writesOf ops).length :=
    Nat.zero_add _
  have hsome : (!(writesOf ops).isEmpty) = decide ((writesOf ops).length > 0) := by
    cases writesOf ops <;> rfl
  have hpass : ∀ f : Tally → Except Error Plan,
      (ops.foldlM Tally.add {} >>= f) =
        checkBins [] ((writesOf ops).filterMap Operation.bin?) >>= fun _ =>
          f (({} : Tally).countAll (writesOf ops)) := by
    intro f
    rw [Tally.foldlM_add, bind_assoc]
    rfl
  rw [check_eq, hpass, hlevel, hcount, hsome]

/-! ### The check -/

/-- **The check accepts exactly the legal lists.** On one of them it finds out whether there is a
write, and which touch or delete there is; the reads have no part in that. A list that is not legal
it refuses with an error that is the error of every call with this list. -/
theorem check_iff_legal (ops : List Operation) :
    ((∃ plan, check ops = .ok plan) ↔ Legal ops) ∧
      (∀ plan, check ops = .ok plan →
        (plan.hasWrite = true ↔ ∃ op ∈ ops, op.isWrite = true) ∧
          (∀ op, plan.recordLevel = some op ↔ op ∈ ops ∧ (op = .delete ∨ ∃ ttl, op = .touch ttl)) ∧
          ∀ mixed, mixed ≠ [] → writesOf mixed = writesOf ops →
            (∀ op ∈ mixed, op.isWrite = false → op.validate = .ok ()) → check mixed = .ok plan) ∧
      (¬Legal ops → ∃ e, check ops = .error e ∧
        ∀ (engine : Engine) existing key policy now,
          engine.operate existing key ops policy now = .error e) := by
  have haccepts : (∃ plan, check ops = .ok plan) ↔ Legal ops := by
    constructor
    · rintro ⟨plan, hcheck⟩
      exact (check_eq_ok_iff_legal.mp hcheck).1
    · intro hlegal
      exact ⟨_, check_eq_ok_iff_legal.mpr ⟨hlegal, rfl⟩⟩
  refine ⟨haccepts, ?_, ?_⟩
  · intro plan hcheck
    obtain ⟨hlegal, hplan⟩ := check_eq_ok_iff_legal.mp hcheck
    refine ⟨?_, ?_, fun mixed hne hwrites hreads => check_of_writesOf_eq hcheck hne hwrites hreads⟩
    · rw [hplan]
      exact not_isEmpty_writesOf_iff
    · intro op
      rw [← Operation.isRecordLevel_iff, hplan]
      exact hlegal.recordLevelOf_eq_some_iff
  · intro hnot
    rcases hcheck : check ops with e | plan
    · exact ⟨e, rfl, operate_of_check_eq_error hcheck⟩
    · exact absurd (haccepts.mp ⟨plan, hcheck⟩) hnot

/-- A touch between reads, whose plan stays the same with other reads around it, and a list that
clears a map which it has just written. -/
theorem check_iff_legal_touch :
    let ops : List Operation := [.read "a", .touch none, .read "a"]
    let mixed : List Operation := [.touch none, .read "b", .read "b"]
    let twice : List Operation := [.write "a" .null, .read "b", .map "a" .clear]
    check ops = .ok ⟨true, some (.touch none)⟩ ∧ Legal ops ∧
      check mixed = .ok ⟨true, some (.touch none)⟩ ∧
      ¬Legal twice ∧ ∃ e, check twice = .error e ∧
        ∀ (engine : Engine) existing key policy now,
          engine.operate existing key twice policy now = .error e := by
  intro ops mixed twice
  have hcheck : check ops = .ok ⟨true, some (.touch none)⟩ := rfl
  have hreads : ∀ op ∈ mixed, op.isWrite = false → op.validate = .ok () := by
    simp only [mixed, List.forall_mem_cons]
    exact ⟨fun _ => rfl, fun _ => rfl, fun _ => rfl, List.forall_mem_nil _⟩
  have hrefused : check twice = .error (.param (.binWrittenTwice "a")) := rfl
  have hnot : ¬Legal twice := by
    intro hlegal
    obtain ⟨plan, hplan⟩ := (check_iff_legal twice).1.mpr hlegal
    rw [hrefused] at hplan
    cases hplan
  exact ⟨hcheck, (check_iff_legal ops).1.mp ⟨_, hcheck⟩,
    ((check_iff_legal ops).2.1 _ hcheck).2.2 mixed (List.cons_ne_nil _ _) rfl hreads, hnot,
    (check_iff_legal twice).2.2 hnot⟩

end Plan

end RecordStore
