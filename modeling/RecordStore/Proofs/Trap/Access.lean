import RecordStore.Proofs.Selection.Removal
import RecordStore.Proofs.Trap.Window

/-!
# Access to positions

Whoever addresses a list by positions has to stay inside of it, and a count must not go below
zero. In this file everything else is a *trap*, where a computation comes to `none`: looking up or
writing what is not there, a slice or an insertion that reaches beyond the end, a difference that
is negative, and counting on beyond the words. Each access comes with the condition on which it
meets no trap, and with what it comes to then.
-/

namespace RecordStore.Trap

variable {α β : Type} {xs : List α} {positions : List Nat}

/-! ### Numbers without a sign -/

/-- Adds to a position; a sum that leaves the words is a trap. -/
def add? (a b : Nat) : Option Nat := if a + b < UInt64.size then some (a + b) else none

/-- **Subtracts from a position**; a difference below zero is a trap. -/
def sub? (a b : Nat) : Option Nat := if b ≤ a then some (a - b) else none

/-! ### Looking up -/

/-- What stands at some positions, each together with its position. -/
def lookUp? (xs : List α) (positions : List Nat) : Option (List (α × Nat)) :=
  positions.mapM fun p => xs[p]?.map (·, p)

/-- The positions at which something stands that passes a test. -/
def filter? (xs : List α) (positions : List Nat) (test : α → Bool) : Option (List Nat) :=
  (lookUp? xs positions).map fun found => (found.filter fun e => test e.1).map (·.2)

/-- **Positions in the order of what stands there**; of equal things, the first stays first. -/
def sort? (xs : List α) (positions : List Nat) (le : α → α → Bool) : Option (List Nat) :=
  (lookUp? xs positions).map fun found => (found.mergeSort fun e f => le e.1 f.1).map (·.2)

/-- Steps of which none is a trap. -/
theorem mapM_eq_some {f : α → Option β} {g : α → β} {as : List α}
    (h : ∀ a ∈ as, f a = some (g a)) : as.mapM f = some (as.map g) := by
  induction as with
  | nil => rfl
  | cons a as ih =>
    rw [List.mapM_cons, h a List.mem_cons_self, ih fun b hb => h b (List.mem_cons_of_mem a hb)]
    rfl

section Found

variable {γ : Type} {es : List γ} {position : γ → Nat} {content : γ → α}

/-- **Things that stand at their positions are found** there. -/
theorem lookUp?_map (h : ∀ e ∈ es, xs[position e]? = some (content e)) :
    lookUp? xs (es.map position) = some (es.map fun e => (content e, position e)) := by
  rw [lookUp?, List.mapM_map]
  refine mapM_eq_some fun e he => ?_
  rw [Function.comp_apply, h e he]
  rfl

theorem filter?_map (h : ∀ e ∈ es, xs[position e]? = some (content e)) (test : α → Bool) :
    filter? xs (es.map position) test =
      some ((es.filter fun e => test (content e)).map position) := by
  rw [filter?, lookUp?_map h, Option.map_some, List.filter_map, List.map_map]
  rfl

theorem sort?_map (h : ∀ e ∈ es, xs[position e]? = some (content e)) (le : α → α → Bool) :
    sort? xs (es.map position) le =
      some ((es.mergeSort fun e f => le (content e) (content f)).map position) := by
  have hsort : (es.mergeSort fun e f => le (content e) (content f)).map
      (fun e => (content e, position e)) =
        (es.map fun e => (content e, position e)).mergeSort fun e f => le e.1 f.1 :=
    List.map_mergeSort fun _ _ _ _ => rfl
  rw [sort?, lookUp?_map h, Option.map_some, ← hsort, List.map_map]
  rfl

end Found

/-! ### Writing -/

/-- Writes to a position; one behind the end is a trap. -/
def set? (xs : List α) (position : Nat) (a : α) : Option (List α) :=
  if position < xs.length then some (xs.set position a) else none

/-- Writes to some positions, one after the other. -/
def setAll? (xs : List α) (writes : List (Nat × α)) : Option (List α) :=
  writes.foldlM (fun xs w => set? xs w.1 w.2) xs

/-- **Writing to different positions of a list**, each of them holds what was written to it. -/
theorem setAll?_eq_some {writes : List (Nat × α)} (hlt : ∀ w ∈ writes, w.1 < xs.length)
    (hnodup : (writes.map (·.1)).Nodup) :
    ∃ ys, setAll? xs writes = some ys ∧ ys.length = xs.length ∧
      (∀ w ∈ writes, ys[w.1]? = some w.2) ∧
      ∀ p, p ∉ writes.map (·.1) → ys[p]? = xs[p]? := by
  induction writes generalizing xs with
  | nil => exact ⟨xs, rfl, rfl, nofun, fun _ _ => rfl⟩
  | cons w writes ih =>
    obtain ⟨hw, hrest⟩ := List.nodup_cons.mp hnodup
    have hin := hlt w List.mem_cons_self
    have hltRest : ∀ v ∈ writes, v.1 < (xs.set w.1 w.2).length := by
      intro v hv
      rw [List.length_set]
      exact hlt v (List.mem_cons_of_mem w hv)
    obtain ⟨ys, hys, hlength, hwritten, hother⟩ := ih hltRest hrest
    refine ⟨ys, ?_, by rw [hlength, List.length_set], fun v hv => ?_, fun p hp => ?_⟩
    · rw [setAll?, List.foldlM_cons, set?, if_pos hin]
      exact hys
    · rcases List.mem_cons.mp hv with rfl | hv
      · rw [hother _ hw, List.getElem?_set_self hin]
      · exact hwritten v hv
    · rw [List.map_cons, List.mem_cons, not_or] at hp
      rw [hother p hp.2, List.getElem?_set_ne (Ne.symm hp.1)]

/-- **Marks** some of the positions before `n`. -/
def mark? (n : Nat) (positions : List Nat) : Option (List Bool) :=
  setAll? (List.replicate n false) (positions.map (·, true))

theorem mark?_eq_some {n : Nat} (hlt : ∀ p ∈ positions, p < n) (hnodup : positions.Nodup) :
    ∃ marks, mark? n positions = some marks ∧ marks.length = n ∧
      ∀ p < n, marks[p]? = some (positions.contains p) := by
  have hfst : (positions.map ((·, true) : Nat → Nat × Bool)).map (·.1) = positions := by
    rw [List.map_map]
    exact List.map_id _
  have hin : ∀ w ∈ positions.map ((·, true) : Nat → Nat × Bool),
      w.1 < (List.replicate n false).length := by
    intro w hw
    obtain ⟨p, hp, rfl⟩ := List.mem_map.mp hw
    rw [List.length_replicate]
    exact hlt p hp
  obtain ⟨marks, hmarks, hlength, hmarked, hother⟩ := setAll?_eq_some hin (by rwa [hfst])
  refine ⟨marks, hmarks, by rw [hlength, List.length_replicate], fun p hpn => ?_⟩
  by_cases hp : p ∈ positions
  · rw [hmarked _ (List.mem_map_of_mem hp), List.contains_iff_mem.mpr hp]
  · rw [hother p (by rwa [hfst]), List.getElem?_replicate, if_pos hpn,
      Bool.eq_false_iff.mpr (mt List.contains_iff_mem.mp hp)]

/-! ### Cutting -/

/-- **The part of a list in a window**; one whose ends are not in order, or that reaches beyond
the end, is a trap. -/
def slice? (xs : List α) (w : Window) : Option (List α) :=
  if w.first ≤ w.bound ∧ w.bound ≤ xs.length then some ((xs.take w.bound).drop w.first) else none

/-- **Takes a part out of a list**, and answers it and what is left. -/
def drain? (xs : List α) (w : Window) : Option (List α × List α) :=
  if w.first ≤ w.bound ∧ w.bound ≤ xs.length then
    some ((xs.take w.bound).drop w.first, xs.take w.first ++ xs.drop w.bound)
  else none

/-- Puts values in front of a position; one behind the end is a trap. -/
def insertAll? (xs : List α) (position : Nat) (values : List α) : Option (List α) :=
  if position ≤ xs.length then some (xs.take position ++ values ++ xs.drop position) else none

/-- Takes out what stands at a position. -/
def erase? (xs : List α) (position : Nat) : Option (List α) :=
  if position < xs.length then some (xs.eraseIdx position) else none

theorem slice?_of_within {w : Window} (h : w.Within xs.length) :
    slice? xs w = some ((xs.take w.bound).drop w.first) :=
  if_pos ⟨h.ordered, h.bounded⟩

theorem drain?_of_within {w : Window} (h : w.Within xs.length) :
    drain? xs w =
      some ((xs.take w.bound).drop w.first, xs.take w.first ++ xs.drop w.bound) :=
  if_pos ⟨h.ordered, h.bounded⟩

/-! ### Removing -/

/-- Goes through a list, counting the positions, and keeps what stands at those that are not
marked. -/
def retain? (marks : List Bool) : (position : Nat) → List α → Option (List α)
  | _, [] => some []
  | position, a :: as => do
    let marked ← marks[position]?
    let kept ← retain? marks (← add? position 1) as
    return if marked then kept else a :: kept

/-- **Removes what stands at some positions**, which are marked before. -/
def removeAll? (xs : List α) (positions : List Nat) : Option (List α) := do
  retain? (← mark? xs.length positions) 0 xs

/-- Where there is a mark for each position, counting stays in the words. -/
theorem retain?_eq {marks : List Bool} {position : Nat}
    (hlength : marks.length = position + xs.length) (hsize : marks.length < UInt64.size) :
    retain? marks position xs =
      some (((xs.zipIdx position).filter fun e => !(marks[e.2]?.getD false)).map (·.1)) := by
  induction xs generalizing position with
  | nil => rfl
  | cons a xs ih =>
    rw [List.length_cons] at hlength
    have hadd : add? position 1 = some (position + 1) := if_pos (by omega)
    have hmark : position < marks.length := by omega
    rw [retain?, List.getElem?_eq_getElem hmark, hadd]
    simp only [Option.bind_eq_bind, Option.bind_some]
    rw [ih (by omega), List.zipIdx_cons, List.filter_cons, List.getElem?_eq_getElem hmark]
    cases marks[position] <;> rfl

/-- **What is left are the survivors.** -/
theorem removeAll?_eq (hlt : ∀ p ∈ positions, p < xs.length) (hnodup : positions.Nodup)
    (hsize : xs.length < UInt64.size) :
    removeAll? xs positions = some (survivors xs positions.contains) := by
  obtain ⟨marks, hmarks, hlength, hmarked⟩ := mark?_eq_some hlt hnodup
  rw [removeAll?, hmarks, Option.bind_eq_bind, Option.bind_some,
    retain?_eq (by omega) (by omega), survivors]
  refine congrArg (fun l => some (List.map Prod.fst l)) (List.filter_congr fun e he => ?_)
  rw [hmarked e.2 (List.snd_lt_of_mem_zipIdx he)]
  rfl

end RecordStore.Trap
