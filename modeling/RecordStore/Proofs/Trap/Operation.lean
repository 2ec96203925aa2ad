import RecordStore.Proofs.Trap.MapOp

/-!
# Positions meet no trap

What the files before say about the single steps is put together here: no window, no selection and
no operation meets a trap, whatever its positions and counts
(`RecordStore.positions_meet_no_trap`). The number of elements is all that is asked of a container;
neither are the operations asked to pass their checks, nor the maps to be well-formed.
-/

namespace RecordStore

open Trap

/-! ### Everything together -/

/-- **Windows of `n` elements meet no trap**, and lie in their container. -/
structure Window.TrapFree (n : Nat) : Prop where
  /-- A position from either end. -/
  resolve : ∀ position, resolve? n position = some (resolve n position) ∧
    ∀ p ∈ Window.resolve n position, p < n
  /-- A range that is cut to the container. -/
  clip : ∀ first bound, clip? n first bound = some (clip n first.toInt bound.toInt) ∧
    (Window.clip n first.toInt bound.toInt).Within n
  /-- A start and a count. -/
  ofRange : ∀ start count, ofRange? n start count = some (ofRange n start count) ∧
    (Window.ofRange n start count).Within n
  /-- A rank and a count, from where a value stands. -/
  ofRelative : ∀ base ≤ n, ∀ rank count,
    ofRelative? n base rank count = some (ofRelative n base rank count) ∧
      (Window.ofRelative n base rank count).Within n
  /-- A forward range. -/
  forward : ∀ index count, forwardWord n index count = forward n index count ∧
    (Window.forward n index count).Within n

/-- **Selecting from a view of `n` elements meets no trap.** -/
structure View.TrapFree (v : View) (n : Nat) : Prop where
  /-- Every index, every rank and every position in store is one of `n`. -/
  places : ∀ e ∈ v.byIndex, e.index < n ∧ e.rank < n ∧ e.position < n
  /-- An index and a rank can be counted from the end. -/
  reversed : ∀ e ∈ v.byIndex, ((sub? n 1).bind fun last => sub? last e.index) =
      some (n - 1 - e.index) ∧
    ((sub? n 1).bind fun last => sub? last e.rank) = some (n - 1 - e.rank)
  /-- Selections and reports are worked out. -/
  selects : ∀ selector returnType, v.columns.selectAndReport? selector returnType =
    some ((v.selectAndReport selector returnType).map fun r => (r.1.picked, r.2))
  /-- What is selected is found in store. -/
  positions : ∀ selector inverted s, v.select selector inverted = .ok s →
    v.columns.positions? s.picked = some s.positions ∧ ∀ p ∈ s.positions, p < n

theorem Window.trapFree {n : Nat} (hn : (n : Int) ≤ maxPosition) : TrapFree n where
  resolve position := ⟨resolve?_eq hn position, fun _ hp => (resolve_eq_some_iff.mp hp).1⟩
  clip first bound := ⟨clip?_eq hn first bound, within_clip n _ _⟩
  ofRange start count := ⟨ofRange?_eq hn start count, within_clip n _ _⟩
  ofRelative _ hbase rank count := ⟨ofRelative?_eq hn hbase rank count, within_clip n _ _⟩
  forward index count := ⟨forwardWord_eq hn index count, within_forward n index count⟩

/-- A view that stands for its store meets no trap. -/
theorem View.Columned.trapFree {v : View} {entries : List (Value × Value)} {α : Type}
    {storage : List α} {content : Element → α} (h : v.Columned entries)
    (hfaithful : v.Faithful storage content) (hlength : entries.length = storage.length)
    (hn : (storage.length : Int) ≤ maxPosition) : v.TrapFree storage.length where
  places e he := by
    have hposition : e.position ∈ v.byIndex.map (·.position) := List.mem_map_of_mem he
    rw [hfaithful.positions_perm.mem_iff, List.mem_range] at hposition
    exact ⟨hlength ▸ h.index_lt he, hlength ▸ h.rank_lt he, hposition⟩
  reversed e he := by
    have hindex := h.index_lt he
    have hrank := h.rank_lt he
    have hlast : sub? storage.length 1 = some (storage.length - 1) := if_pos (by omega)
    rw [hlast]
    exact ⟨if_pos (by omega), if_pos (by omega)⟩
  selects := h.selectAndReport?_eq (by rwa [hlength])
  positions selector inverted s hs :=
    ⟨View.Columned.positions?_eq h.toShows fun e he => h.mem_of_select hs he,
      hfaithful.positions_lt hs⟩

/-- **Positions meet no trap.** In a list or a map of fewer than `2 ^ 63` elements, whatever the
positions and the counts: every window is worked out in words and lies in the container; every
index, rank and position in store is one of the container; and every operation, whether or not it
would pass its checks, comes to what it is said to do, with all of its accesses in bounds. -/
theorem positions_meet_no_trap :
    (∀ n : Nat, n < 2 ^ 63 → Window.TrapFree n) ∧
      (∀ items : List Value, items.length < 2 ^ 63 →
        (View.ofList items).TrapFree items.length ∧
          ∀ op : ListOp, op.run? items = some (op.apply items)) ∧
      ∀ m : Dict Value, m.entries.length < 2 ^ 63 →
        (View.ofDict m).TrapFree m.entries.length ∧
          ∀ op : MapOp, op.run? m = some (op.apply m) := by
  have hmax : ∀ n : Nat, n < 2 ^ 63 → (n : Int) ≤ maxPosition := fun n hn => by
    rw [maxPosition_eq]
    omega
  refine ⟨fun n hn => Window.trapFree (hmax n hn), fun items hn => ?_, fun m hn => ?_⟩
  · exact ⟨(View.columned_ofList items).trapFree (View.faithful_ofList items) (by simp) (hmax _ hn),
      ListOp.run?_eq (hmax _ hn)⟩
  · have hlength : (m.byKey.map (·.1)).length = m.entries.length := by
      rw [List.length_map, m.byKey_perm.length_eq, List.length_zipIdx]
    exact ⟨(View.columned_ofDict m).trapFree (View.faithful_ofDict m) hlength (hmax _ hn),
      MapOp.run?_eq (hmax _ hn)⟩

/-- The least and the greatest words for positions and counts, a trim that would not pass its
checks, and a removal of everything but one entry of a map that is in no order. -/
theorem positions_meet_no_trap_at_the_ends :
    let items : List Value := [.integer 3, .integer 1, .integer 2]
    let m : Dict Value := ⟨.unordered, [(.string "b", .null), (.string "a", .integer 1)]⟩
    Window.ofRange? 3 Int64.minValue (some 18446744073709551615) = some ⟨0, 2⟩ ∧
      Window.ofRelative? 3 3 Int64.maxValue (some 18446744073709551615) = some ⟨3, 3⟩ ∧
      (ListOp.trim (-1) 18446744073709551615).run? items = some (.done none []) ∧
      (ListOp.removeBy (.rankRange Int64.minValue none) ⟨.reverseRank, true⟩).run? items =
        some ((ListOp.removeBy (.rankRange Int64.minValue none) ⟨.reverseRank, true⟩).apply items) ∧
      (MapOp.removeBy (.index (-1)) ⟨.reverseIndex, true⟩).run? m =
        some ((MapOp.removeBy (.index (-1)) ⟨.reverseIndex, true⟩).apply m) := by
  intro items m
  obtain ⟨hwindows, hlists, hmaps⟩ := positions_meet_no_trap
  have hthree := hwindows 3 (by decide)
  have hitems := (hlists items (by decide)).2
  exact ⟨(hthree.ofRange _ _).1.trans (by decide),
    (hthree.ofRelative 3 (Nat.le_refl 3) _ _).1.trans (by decide), (hitems _).trans rfl, hitems _,
    (hmaps m (by decide)).2 _⟩

end RecordStore
