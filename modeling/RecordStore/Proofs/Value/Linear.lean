import RecordStore.Proofs.Selection.Canonical

/-!
# Values on one line

The order of values is defined through canonical forms, so that it is not plain to see
that it compares lists and maps the way it should. The first half of this file says so:
lists are compared item by item (`RecordStore.Value.compare_list`), and maps as the lists
of their entries in ascending order of the keys, where both the sorting and the comparing
are done by the order itself (`RecordStore.Value.compare_map`). A map ordered by key is
taken at its word, whether or not its entries do ascend.

The second half says that the order puts all values on one line
(`RecordStore.Value.linear_up_to_equality`): it goes both ways, it is transitive, and
values that are equal take the same place. Nothing is asked of the values. Maps may have
any order policy and list their entries in any order, even the same key twice, and
doubles may have any bit pattern.
-/

namespace RecordStore

/-! ### What the order compares -/

/-- What is computed from items is compared as the items are. -/
theorem compareLex_map {α β : Type} (cmp : β → β → Ordering) (f : α → β) (xs ys : List α) :
    List.compareLex cmp (xs.map f) (ys.map f) =
      List.compareLex (fun x y => cmp (f x) (f y)) xs ys := by
  induction xs generalizing ys with
  | nil =>
    cases ys with
    | nil => rfl
    | cons y ys => rfl
  | cons x xs ih =>
    cases ys with
    | nil => rfl
    | cons y ys =>
      rw [List.map_cons, List.map_cons, List.compareLex, List.compareLex, ih]

namespace Dict

/-- The entries in ascending order of the keys, as they are compared. -/
def sortedEntries (m : Dict Value) : List (Value × Value) := m.byKey.map (·.1)

/-- The entries of the canonical form are the canonical forms of the sorted entries. -/
theorem sortedImage_eq_map (m : Dict Value) :
    m.sortedImage = m.sortedEntries.map Value.canonicalEntry := by
  rw [sortedEntries, map_fst_byKey, sortedImage]
  split
  · rfl
  · exact sortEntries_image m

end Dict

namespace Value

variable {v w : Value}

/-- Values of different types stand in the order of their types. -/
theorem compare_of_kind_ne (h : v.kind ≠ w.kind) :
    Value.compare v w = compare v.kind.rank w.kind.rank := by
  have hcanonical : v.canonical.kind ≠ w.canonical.kind := by
    rwa [kind_canonical, kind_canonical]
  rw [Value.compare, compareCanonical_of_kind_ne hcanonical, kind_canonical, kind_canonical]

/-- **Lists are compared item by item**, a list before its continuations. -/
theorem compare_list (xs ys : List Value) :
    Value.compare (.list xs) (.list ys) = List.compareLex Value.compare xs ys := by
  rw [Value.compare, canonical, canonical, compareCanonical, compareItems_eq,
    canonicalItems_eq, canonicalItems_eq, compareLex_map]
  rfl

/-- **Maps are compared by their entries** in ascending order of the keys, the key of an
entry before its value. -/
theorem compare_map (m n : Dict Value) :
    Value.compare (.map m) (.map n) =
      List.compareLex (fun e f => (Value.compare e.1 f.1).then (Value.compare e.2 f.2))
        m.sortedEntries n.sortedEntries := by
  rw [Value.compare, canonical_map, canonical_map, compareCanonical, compareEntries_eq,
    Dict.sortedImage_eq_map, Dict.sortedImage_eq_map, compareLex_map]
  rfl

/-! ### Linear orders up to an equality -/

end Value

/-- **A comparison is linear up to an equality** when it puts everything on one line, and
what is equal takes the same place there. -/
structure LinearUpTo {α : Type} (cmp : α → α → Ordering) (eq : α → α → Bool) : Prop where
  /-- The comparison goes both ways. -/
  swap : ∀ a b, cmp a b = (cmp b a).swap
  /-- Before, equal to, and behind can each be passed on. -/
  trans : ∀ o a b c, cmp a b = o → cmp b c = o → cmp a c = o
  /-- So can not being behind. -/
  isLE_trans : ∀ a b c, (cmp a b).isLE → (cmp b c).isLE → (cmp a c).isLE
  /-- Everything is where it is. -/
  refl : ∀ a, cmp a a = .eq
  /-- Equal is what neither comes before the other. -/
  eq_iff : ∀ a b, eq a b = true ↔ cmp a b = .eq
  /-- What is equal compares in the same way with everything. -/
  congr : ∀ a b c, eq a b = true → cmp a c = cmp b c

/-- A comparison that is transitive and finds equal what is equal is linear up to it. -/
theorem LinearUpTo.of_transCmp {α : Type} {cmp : α → α → Ordering} {eq : α → α → Bool}
    [Std.TransCmp cmp] (heq : ∀ a b, eq a b = true ↔ cmp a b = .eq) : LinearUpTo cmp eq where
  swap _ _ := Std.OrientedCmp.eq_swap
  trans o a b c hab hbc := by
    rcases o with _ | _ | _
    · exact Std.TransCmp.lt_trans hab hbc
    · rwa [Std.TransCmp.congr_left hab]
    · exact Std.TransCmp.gt_trans hab hbc
  isLE_trans _ _ _ hab hbc := Std.TransCmp.isLE_trans hab hbc
  refl _ := Std.ReflCmp.compare_self
  eq_iff := heq
  congr a b _ hab := Std.TransCmp.congr_left ((heq a b).mp hab)

/-- Lists that compare as equal have the same length. -/
theorem length_eq_of_compareLex_eq {α : Type} {cmp : α → α → Ordering} {xs ys : List α}
    (h : List.compareLex cmp xs ys = .eq) : xs.length = ys.length := by
  induction xs generalizing ys with
  | nil =>
    cases ys with
    | nil => rfl
    | cons y ys => cases h
  | cons x xs ih =>
    cases ys with
    | nil => cases h
    | cons y ys =>
      rw [List.compareLex] at h
      rcases hxy : cmp x y with _ | _ | _
      · rw [hxy] at h
        cases h
      · rw [hxy] at h
        exact congrArg (· + 1) (ih h)
      · rw [hxy] at h
        cases h

namespace Dict

theorem length_sortedEntries (m : Dict Value) : m.sortedEntries.length = m.size := by
  rw [sortedEntries, List.length_map, m.byKey_perm.length_eq, List.length_zipIdx, size]

/-- The order of maps is the order of values, on the values that are maps. -/
instance : Std.TransCmp fun m n : Dict Value => Value.compare (.map m) (.map n) where
  eq_swap {m n} := by
    have hswap : Value.compare (.map m) (.map n) = (Value.compare (.map n) (.map m)).swap :=
      Std.OrientedCmp.eq_swap
    exact hswap
  isLE_trans {l m n} hlm hmn := by
    have hln : (Value.compare (.map l) (.map n)).isLE := Std.TransCmp.isLE_trans hlm hmn
    exact hln

/-- **Maps are equal** when neither comes before the other; that they have as many entries
follows. -/
theorem beq_iff_compare_eq (m n : Dict Value) :
    (m == n) = true ↔ Value.compare (.map m) (.map n) = .eq := by
  change (m.size == n.size && Value.compare (.map m) (.map n) == .eq) = true ↔ _
  rw [Bool.and_eq_true, beq_iff_eq, beq_iff_eq]
  refine ⟨fun h => h.2, fun h => ⟨?_, h⟩⟩
  rw [Value.compare_map] at h
  rw [← m.length_sortedEntries, ← n.length_sortedEntries]
  exact length_eq_of_compareLex_eq h

end Dict

namespace Value

/-- **The order of values is linear up to their equality**, and so is the order of maps
up to theirs; values of different types stand in the order of the types. -/
theorem linear_up_to_equality :
    LinearUpTo Value.compare (· == ·) ∧
      LinearUpTo (fun m n : Dict Value => Value.compare (.map m) (.map n)) (· == ·) ∧
      [Kind.null, .integer, .string, .list, .map, .bytes, .double, .geoJson].Pairwise fun k l =>
        ∀ v w : Value, v.kind = k → w.kind = l → Value.compare v w = .lt := by
  refine ⟨.of_transCmp fun _ _ => beq_iff_compare_eq, .of_transCmp Dict.beq_iff_compare_eq, ?_⟩
  have hranks : [Kind.null, .integer, .string, .list, .map, .bytes, .double, .geoJson].Pairwise
      fun k l => k.rank < l.rank := by decide
  refine hranks.imp ?_
  rintro k l hlt v w rfl rfl
  have hne : v.kind ≠ w.kind := fun heq => by
    rw [heq] at hlt
    exact Nat.lt_irrefl _ hlt
  rw [compare_of_kind_ne hne]
  exact Nat.compare_eq_lt.mpr hlt

/-- A map without order takes the place of the map with its entries sorted, one that is
ordered by key is taken at its word, and no integer is a double. -/
theorem linear_mixed_orders :
    let filled : Value := .map ⟨.unordered, [(.integer 2, .null), (.integer 1, .null)]⟩
    let sorted : Value := .map ⟨.keyValueOrdered, [(.integer 1, .null), (.integer 2, .null)]⟩
    let unsorted : Value := .map ⟨.keyOrdered, [(.integer 2, .null), (.integer 1, .null)]⟩
    (filled == sorted) = true ∧ (filled == unsorted) = false ∧
      Value.compare filled unsorted = Value.compare sorted unsorted ∧
      Value.compare (.integer 1) (.double (Double.ofInt64 1)) = .lt := by
  intro filled sorted unsorted
  obtain ⟨hlinear, -, hkinds⟩ := linear_up_to_equality
  have hequal : (filled == sorted) = true := by
    have hfilled : Dict.WellFormed ⟨.unordered, [(.integer 2, .null), (.integer 1, .null)]⟩ :=
      ⟨by decide, nofun⟩
    have hsorted :
        Dict.WellFormed ⟨.keyValueOrdered, [(.integer 1, .null), (.integer 2, .null)]⟩ :=
      ⟨by decide, fun _ => by decide⟩
    exact (hfilled.beq_iff_perm hsorted).mpr (.swap ..)
  have hcongr := hlinear.congr filled sorted unsorted hequal
  have hbehind : Value.compare sorted unsorted = .lt := rfl
  have hdifferent : (filled == unsorted) = false := by
    rw [Bool.eq_false_iff, Ne, hlinear.eq_iff, hcongr, hbehind]
    decide
  have hinteger := (List.pairwise_cons.mp (List.pairwise_cons.mp hkinds).2).1
  have hbefore := hinteger .double (by decide)
  exact ⟨hequal, hdifferent, hcongr, hbefore _ _ rfl rfl⟩

end Value

end RecordStore
