import Mathlib.Data.List.Duplicate
import Mathlib.Data.List.Perm.Basic
import RecordStore.Engine.Plan
import RecordStore.Proofs.Attempt

/-!
# Legal lists of operations

The check of a list of operations goes through it several times. This file says
what it looks for (`RecordStore.Plan.check_eq_ok_iff`), that neither the verdict nor the
plan depends on the order of the operations (`RecordStore.Plan.check_of_perm`), and that
a list can be checked class by class (`RecordStore.Plan.check_of_classes`).
-/

namespace RecordStore

namespace Plan

variable {ops ops' : List Operation} {plan : Plan}

/-! ### Single checks -/

/-- Every operation passes its own check. -/
theorem forM_validate_iff (ops : List Operation) :
    ops.forM Operation.validate = .ok () ↔ ∀ op ∈ ops, op.validate = .ok () := by
  induction ops with
  | nil => simp [List.forM, pure, Except.pure]
  | cons op ops ih =>
    rw [List.forall_mem_cons, ← ih]
    change (op.validate >>= fun _ => ops.forM Operation.validate) = .ok () ↔ _
    exact check_bind_eq_ok_iff

/-- No bin stands twice, and none is among those that were written before. -/
theorem checkBins_eq_ok_iff {written bins : List String} :
    checkBins written bins = .ok () ↔ bins.Nodup ∧ ∀ bin ∈ bins, bin ∉ written := by
  induction bins generalizing written with
  | nil => simp [checkBins]
  | cons bin bins ih =>
    rw [checkBins]
    by_cases hbin : bin ∈ written
    · simp [hbin]
    · rw [if_neg (by simpa using hbin), ih, List.nodup_cons, List.forall_mem_cons]
      constructor
      · rintro ⟨hnodup, hnew⟩
        refine ⟨⟨fun hmem => hnew bin hmem List.mem_cons_self, hnodup⟩, hbin, fun b hb => ?_⟩
        exact fun hmem => hnew b hb (List.mem_cons_of_mem bin hmem)
      · rintro ⟨⟨hhead, hnodup⟩, -, hnew⟩
        refine ⟨hnodup, fun b hb hmem => ?_⟩
        rcases List.mem_cons.mp hmem with rfl | hmem
        · exact hhead hb
        · exact hnew b hb hmem

/-- If there is such a bin, one is reported. -/
theorem exists_of_checkBins {written bins : List String}
    (h : ¬(bins.Nodup ∧ ∀ bin ∈ bins, bin ∉ written)) :
    ∃ bin ∈ bins, (bin ∈ written ∨ List.Duplicate bin bins) ∧
      checkBins written bins = .error (.param (.binWrittenTwice bin)) := by
  induction bins generalizing written with
  | nil => exact absurd ⟨List.nodup_nil, nofun⟩ h
  | cons bin bins ih =>
    rw [checkBins]
    by_cases hbin : bin ∈ written
    · exact ⟨bin, List.mem_cons_self, Or.inl hbin, if_pos (by simpa using hbin)⟩
    · rw [if_neg (by simpa using hbin)]
      have hrest : ¬(bins.Nodup ∧ ∀ other ∈ bins, other ∉ bin :: written) := by
        rw [← checkBins_eq_ok_iff, checkBins, if_neg (by simpa using hbin)] at h
        rwa [← checkBins_eq_ok_iff]
      obtain ⟨other, hmem, hrepeated, herror⟩ := ih hrest
      refine ⟨other, List.mem_cons_of_mem bin hmem, ?_, herror⟩
      rcases hrepeated with hwritten | hduplicate
      · rcases List.mem_cons.mp hwritten with rfl | hwritten
        · exact Or.inr (.cons_mem hmem)
        · exact Or.inl hwritten
      · exact Or.inr (.cons_duplicate hduplicate)

/-! ### The whole check -/

/-- The write-class operations of a list. -/
def writesOf (ops : List Operation) : List Operation := ops.filter Operation.isWrite

/-- The write on the record as a whole; of several, the last. -/
def recordLevelOf (ops : List Operation) : Option Operation :=
  (writesOf ops).reverse.find? Operation.isRecordLevel

/-- The check as a row of checks. -/
theorem check_eq (ops : List Operation) :
    check ops =
      if ops.isEmpty then .error (.param .noOperations)
      else
        ops.forM Operation.validate >>= fun _ =>
          checkBins [] ((writesOf ops).filterMap Operation.bin?) >>= fun _ =>
            if (recordLevelOf ops).isSome && (writesOf ops).length > 1 then
              .error (.param .recordLevelNotAlone)
            else .ok ⟨!(writesOf ops).isEmpty, recordLevelOf ops⟩ :=
  rfl

/-- **A list of operations is legal** when it is not empty, every operation passes
its own check, no bin is written twice, and a write on the record as a whole is the
only write. -/
theorem check_eq_ok_iff :
    check ops = .ok plan ↔
      ops ≠ [] ∧ (∀ op ∈ ops, op.validate = .ok ()) ∧
        ((writesOf ops).filterMap Operation.bin?).Nodup ∧
        ((recordLevelOf ops).isSome → (writesOf ops).length ≤ 1) ∧
        plan = ⟨!(writesOf ops).isEmpty, recordLevelOf ops⟩ := by
  rw [check_eq, ite_error_eq_ok_iff, check_bind_eq_ok_iff, check_bind_eq_ok_iff,
    ite_error_eq_ok_iff, forM_validate_iff, checkBins_eq_ok_iff, List.isEmpty_iff]
  have hlevel : ¬((recordLevelOf ops).isSome && (writesOf ops).length > 1) = true ↔
      ((recordLevelOf ops).isSome → (writesOf ops).length ≤ 1) := by
    simp
  rw [hlevel, Except.ok.injEq, eq_comm (b := plan)]
  simp

/-- A list that would be legal, but for a bin that is written twice, is refused for that. -/
theorem exists_of_check (hne : ops ≠ []) (hvalid : ∀ op ∈ ops, op.validate = .ok ())
    (hrepeated : ¬((writesOf ops).filterMap Operation.bin?).Nodup) :
    ∃ bin, List.Duplicate bin ((writesOf ops).filterMap Operation.bin?) ∧
      check ops = .error (.param (.binWrittenTwice bin)) := by
  have hnot : ¬(((writesOf ops).filterMap Operation.bin?).Nodup ∧
      ∀ bin ∈ (writesOf ops).filterMap Operation.bin?, bin ∉ ([] : List String)) :=
    fun h => hrepeated h.1
  obtain ⟨bin, -, hbin, herror⟩ := exists_of_checkBins hnot
  refine ⟨bin, hbin.resolve_left List.not_mem_nil, ?_⟩
  rw [check_eq, if_neg (by simpa using hne), (forM_validate_iff ops).mpr hvalid, herror]
  rfl

/-! ### The order of the operations -/

/-- The writes of reordered operations are reordered. -/
theorem writesOf_perm (h : ops.Perm ops') : (writesOf ops).Perm (writesOf ops') :=
  h.filter Operation.isWrite

/-- Of a legal list the plan can be told without its order: if there is a write on
the record as a whole, there is no other write. -/
theorem recordLevelOf_perm (h : ops.Perm ops')
    (hsingle : (recordLevelOf ops).isSome → (writesOf ops).length ≤ 1) :
    recordLevelOf ops' = recordLevelOf ops := by
  have hwrites := writesOf_perm h
  cases hlevel : recordLevelOf ops with
  | none =>
    rw [recordLevelOf, List.find?_eq_none] at hlevel ⊢
    intro op hop
    exact hlevel op (by simpa [hwrites.mem_iff] using hop)
  | some op =>
    have hlength : (writesOf ops).length ≤ 1 := hsingle (by rw [hlevel]; rfl)
    -- it stands alone among the writes, and one operation has one order only
    have hsame : writesOf ops' = writesOf ops := by
      match hw : writesOf ops with
      | [] => rw [hw] at hwrites; exact hwrites.nil_eq.symm
      | [op] => rw [hw] at hwrites; exact hwrites.singleton_eq.symm
      | _ :: _ :: _ => simp [hw] at hlength
    rw [← hlevel, recordLevelOf, recordLevelOf, hsame]

/-- **Reordered operations have the same plan**, or none have one. -/
theorem check_of_perm (h : ops.Perm ops') (hcheck : check ops = .ok plan) :
    check ops' = .ok plan := by
  obtain ⟨hne, hvalid, hbins, hlevel, rfl⟩ := check_eq_ok_iff.mp hcheck
  have hwrites := writesOf_perm h
  have hlevel' := recordLevelOf_perm h hlevel
  have hempty : (writesOf ops').isEmpty = (writesOf ops).isEmpty := by
    rw [Bool.eq_iff_iff, List.isEmpty_iff_length_eq_zero, List.isEmpty_iff_length_eq_zero,
      hwrites.length_eq]
  refine check_eq_ok_iff.mpr ⟨?_, fun op hop => hvalid op (h.mem_iff.mpr hop), ?_, ?_, ?_⟩
  · rintro rfl
    exact hne h.eq_nil
  · exact (hwrites.filterMap Operation.bin?).nodup_iff.mp hbins
  · rw [hlevel', ← hwrites.length_eq]
    exact hlevel
  · rw [hlevel', hempty]

/-! ### The operations of one class -/

/-- The read-class operations of a list. -/
def readsOf (ops : List Operation) : List Operation := ops.filter fun op => !op.isWrite

theorem mem_writesOf {op : Operation} : op ∈ writesOf ops ↔ op ∈ ops ∧ op.isWrite = true :=
  List.mem_filter

theorem mem_readsOf {op : Operation} : op ∈ readsOf ops ↔ op ∈ ops ∧ op.isWrite = false := by
  rw [readsOf, List.mem_filter, Bool.not_eq_true']

theorem writesOf_writesOf (ops : List Operation) : writesOf (writesOf ops) = writesOf ops :=
  List.filter_eq_self.mpr fun _ hop => (mem_writesOf.mp hop).2

theorem recordLevelOf_writesOf (ops : List Operation) :
    recordLevelOf (writesOf ops) = recordLevelOf ops := by
  rw [recordLevelOf, writesOf_writesOf, recordLevelOf]

theorem writesOf_readsOf (ops : List Operation) : writesOf (readsOf ops) = [] := by
  refine List.filter_eq_nil_iff.mpr fun op hop => ?_
  rw [(mem_readsOf.mp hop).2]
  exact Bool.false_ne_true

/-- **The writes of a legal list** are legal by themselves, with the plan of the list. -/
theorem check_writesOf (h : check ops = .ok plan) (hne : writesOf ops ≠ []) :
    check (writesOf ops) = .ok plan := by
  obtain ⟨-, hvalid, hdistinct, hsingle, rfl⟩ := check_eq_ok_iff.mp h
  have hlevel := recordLevelOf_writesOf ops
  refine check_eq_ok_iff.mpr ⟨hne, fun op hop => hvalid op (mem_writesOf.mp hop).1, ?_, ?_, ?_⟩
  · rwa [writesOf_writesOf]
  · rwa [writesOf_writesOf, hlevel]
  · rw [writesOf_writesOf, hlevel]

/-- **The reads of a legal list** are legal by themselves, and write nothing. -/
theorem check_readsOf (h : check ops = .ok plan) (hne : readsOf ops ≠ []) :
    check (readsOf ops) = .ok ⟨false, none⟩ := by
  obtain ⟨-, hvalid, -⟩ := check_eq_ok_iff.mp h
  have hlevel : recordLevelOf (readsOf ops) = none := by
    rw [recordLevelOf, writesOf_readsOf]
    rfl
  refine check_eq_ok_iff.mpr ⟨hne, fun op hop => hvalid op (mem_readsOf.mp hop).1, ?_, ?_, ?_⟩
  · rw [writesOf_readsOf]
    exact List.nodup_nil
  · rw [hlevel]
    exact nofun
  · rw [writesOf_readsOf, hlevel]
    rfl

/-- A list whose writes and whose reads are legal is legal. -/
theorem check_of_classes {plan' : Plan} (hwrites : check (writesOf ops) = .ok plan)
    (hreads : check (readsOf ops) = .ok plan') : check ops = .ok plan := by
  obtain ⟨hne, hvalid, hdistinct, hsingle, hplan⟩ := check_eq_ok_iff.mp hwrites
  obtain ⟨-, hvalid', -⟩ := check_eq_ok_iff.mp hreads
  have hlevel := recordLevelOf_writesOf ops
  rw [writesOf_writesOf] at hdistinct hsingle hplan
  rw [hlevel] at hsingle hplan
  refine check_eq_ok_iff.mpr ⟨?_, fun op hop => ?_, hdistinct, hsingle, hplan⟩
  · rintro rfl
    exact hne rfl
  · cases hclass : op.isWrite with
    | true => exact hvalid op (mem_writesOf.mpr ⟨hop, hclass⟩)
    | false => exact hvalid' op (mem_readsOf.mpr ⟨hop, hclass⟩)

end Plan

end RecordStore
