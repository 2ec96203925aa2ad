import Mathlib.Data.List.Basic
import RecordStore.Value.Order

/-!
# The laws of the order of values

Values are compared through their canonical forms, so two things are to be shown of
the comparison. By structure it is a linear order on canonical forms: it goes both ways,
it is transitive, and it tells different canonical forms apart. And two values are equal
exactly when their canonical forms are the same
(`RecordStore.Value.beq_iff_canonical_eq`), so that everything that looks at values
through `==` and `<` alone can be rewritten along canonical forms.

Values hold values to any depth, so the laws go by induction on one of the values that
are compared. What carries the induction is `RecordStore.ComparesWell`: how one value
compares with all others. It is closed under the ways in which values are built –
pairs, lists, and the line of the types.
-/

namespace RecordStore

/-! ### Induction over values -/

/-- **Induction over values**: a list or a map has a property if everything in it has. -/
@[elab_as_elim]
theorem Value.induction {motive : Value → Prop} (null : motive .null)
    (integer : ∀ n, motive (.integer n)) (double : ∀ x, motive (.double x))
    (string : ∀ s, motive (.string s)) (bytes : ∀ b, motive (.bytes b))
    (list : ∀ items : List Value, (∀ v ∈ items, motive v) → motive (.list items))
    (map : ∀ (order : MapOrder) (entries : List (Value × Value)),
      (∀ e ∈ entries, motive e.1 ∧ motive e.2) → motive (.map ⟨order, entries⟩))
    (geoJson : ∀ text, motive (.geoJson text)) (v : Value) : motive v :=
  -- one motive for values, and one for each type that values are nested in
  @Value.rec motive (fun items => ∀ v ∈ items, motive v) (fun m => motive (.map m))
    (fun entries => ∀ e ∈ entries, motive e.1 ∧ motive e.2)
    (fun e => motive e.1 ∧ motive e.2)
    null integer double string bytes list (fun _ h => h) geoJson
    (fun _ h => absurd h List.not_mem_nil)
    (fun _ _ hhead htail => List.forall_mem_cons.mpr ⟨hhead, htail⟩) map
    (fun _ h => absurd h List.not_mem_nil)
    (fun _ _ hhead htail => List.forall_mem_cons.mpr ⟨hhead, htail⟩)
    (fun _ _ hkey hvalue => ⟨hkey, hvalue⟩) v

/-! ### Comparing one thing with all others -/

/-- **One thing compares well** with all others. -/
structure ComparesWell {α : Type} (cmp : α → α → Ordering) (x : α) : Prop where
  /-- The comparison goes both ways. -/
  swap : ∀ y, cmp x y = (cmp y x).swap
  /-- What is equal to it compares as it does. -/
  congr : ∀ y z, cmp x y = .eq → cmp x z = cmp y z
  /-- It comes before whatever is not before something that it comes before. -/
  trans : ∀ y z, cmp x y = .lt → (cmp y z).isLE → cmp x z = .lt

namespace ComparesWell

variable {α β : Type} {cmp : α → α → Ordering}

theorem of_transCmp (cmp : α → α → Ordering) [Std.TransCmp cmp] (x : α) : ComparesWell cmp x where
  swap _ := Std.OrientedCmp.eq_swap
  congr _ _ h := Std.TransCmp.congr_left h
  trans _ _ hxy hyz := Std.TransCmp.lt_of_lt_of_isLE hxy hyz

/-- Comparing what is computed from things. -/
theorem comap {x : β} (f : β → α) (h : ComparesWell cmp (f x)) :
    ComparesWell (fun y z => cmp (f y) (f z)) x where
  swap y := h.swap (f y)
  congr y z := h.congr (f y) (f z)
  trans y z := h.trans (f y) (f z)

/-- Comparing one after the other. -/
theorem pair {cmp' : β → β → Ordering} {e : α × β} (hfst : ComparesWell cmp e.1)
    (hsnd : ComparesWell cmp' e.2) :
    ComparesWell (fun e f : α × β => (cmp e.1 f.1).then (cmp' e.2 f.2)) e where
  swap f := by rw [hfst.swap, hsnd.swap, Ordering.swap_then]
  congr f g h := by
    obtain ⟨hf, hs⟩ := Ordering.then_eq_eq.mp h
    rw [hfst.congr _ _ hf, hsnd.congr _ _ hs]
  trans f g hef hfg := by
    rcases h : cmp e.1 f.1 with _ | _ | _
    · -- decided by the first parts
      have hle : (cmp f.1 g.1).isLE := by
        cases hg : cmp f.1 g.1 <;> simp_all
      rw [hfst.trans _ _ h hle, Ordering.lt_then]
    · rw [h, Ordering.eq_then] at hef
      rw [hfst.congr _ _ h]
      rcases hg : cmp f.1 g.1 with _ | _ | _
      · rfl
      · rw [hg, Ordering.eq_then] at hfg
        rw [Ordering.eq_then, hsnd.trans _ _ hef hfg]
      · rw [hg] at hfg
        cases hfg
    · rw [h] at hef
      cases hef

/-- Comparing lists item by item. -/
theorem compareLex {xs : List α} (h : ∀ x ∈ xs, ComparesWell cmp x) :
    ComparesWell (List.compareLex cmp) xs := by
  induction xs with
  | nil =>
    refine ⟨fun ys => ?_, fun ys zs hys => ?_, fun ys zs hys hzs => ?_⟩
    · cases ys <;> rfl
    · cases ys with
      | nil => rfl
      | cons y ys => cases hys
    · cases zs with
      | nil =>
        cases ys with
        | nil => cases hys
        | cons y ys => cases hzs
      | cons z zs => rfl
  | cons x xs ih =>
    obtain ⟨hx, hxs⟩ := List.forall_mem_cons.mp h
    -- a list that is not empty is compared as the pair of its head and its tail
    have hpair : ComparesWell (fun e f : α × List α =>
        (cmp e.1 f.1).then (List.compareLex cmp e.2 f.2)) (x, xs) := pair hx (ih hxs)
    have hcons : ∀ a as b bs, List.compareLex cmp (a :: as) (b :: bs) =
        (cmp a b).then (List.compareLex cmp as bs) := fun a as b bs => by
      rw [List.compareLex]
      cases cmp a b <;> rfl
    refine ⟨fun ys => ?_, fun ys zs hys => ?_, fun ys zs hys hzs => ?_⟩
    · cases ys with
      | nil => rfl
      | cons y ys =>
        rw [hcons, hcons]
        exact hpair.swap (y, ys)
    · cases ys with
      | nil => cases hys
      | cons y ys =>
        cases zs with
        | nil => rfl
        | cons z zs =>
          rw [hcons] at hys ⊢
          rw [hcons]
          exact hpair.congr (y, ys) (z, zs) hys
    · cases ys with
      | nil => cases hys
      | cons y ys =>
        cases zs with
        | nil => cases hzs
        | cons z zs =>
          rw [hcons] at hys hzs ⊢
          exact hpair.trans (y, ys) (z, zs) hys hzs

end ComparesWell

/-- Lists that compare as equal are the same, if their items are. -/
theorem eq_of_compareLex_eq {α : Type} {cmp : α → α → Ordering} {xs ys : List α}
    (h : ∀ x ∈ xs, ∀ y ∈ ys, cmp x y = .eq → x = y) (heq : List.compareLex cmp xs ys = .eq) :
    xs = ys := by
  induction xs generalizing ys with
  | nil =>
    cases ys with
    | nil => rfl
    | cons y ys => cases heq
  | cons x xs ih =>
    cases ys with
    | nil => cases heq
    | cons y ys =>
      rw [List.compareLex] at heq
      cases hxy : cmp x y with
      | eq =>
        rw [hxy] at heq
        have hhead : x = y := h x List.mem_cons_self y List.mem_cons_self hxy
        have htail : xs = ys := ih (fun a ha b hb =>
          h a (List.mem_cons_of_mem x ha) b (List.mem_cons_of_mem y hb)) heq
        rw [hhead, htail]
      | lt =>
        rw [hxy] at heq
        cases heq
      | gt =>
        rw [hxy] at heq
        cases heq

variable {v w : Value}

namespace Value

/-! ### Comparing by structure -/

/-- Compares two entries, the key before the value. -/
def compareEntry (e f : Value × Value) : Ordering :=
  (compareCanonical e.1 f.1).then (compareCanonical e.2 f.2)

theorem compareItems_eq (xs ys : List Value) :
    compareItems xs ys = List.compareLex compareCanonical xs ys := by
  induction xs generalizing ys with
  | nil => cases ys <;> rw [compareItems] <;> rfl
  | cons x xs ih =>
    cases ys with
    | nil => rw [compareItems]; rfl
    | cons y ys =>
      rw [compareItems, List.compareLex, ih]
      cases compareCanonical x y <;> rfl

theorem compareEntries_eq (es fs : List (Value × Value)) :
    compareEntries es fs = List.compareLex compareEntry es fs := by
  induction es generalizing fs with
  | nil => cases fs <;> rw [compareEntries] <;> rfl
  | cons e es ih =>
    cases fs with
    | nil => rw [compareEntries]; rfl
    | cons f fs =>
      rw [compareEntries, List.compareLex, compareEntry, ih]
      cases compareCanonical e.1 f.1 <;> cases compareCanonical e.2 f.2 <;> rfl

/-- **Across types** the place of the types decides. -/
theorem compareCanonical_of_kind_ne (h : v.kind ≠ w.kind) :
    compareCanonical v w = compare v.kind.rank w.kind.rank := by
  cases v <;> cases w <;> first | rfl | exact absurd rfl h

theorem Kind.rank_injective {k l : Kind} (h : k.rank = l.rank) : k = l := by
  cases k <;> cases l <;> first | rfl | cases h

/-- Values of different types are never equal. -/
theorem kind_eq_of_compareCanonical (h : compareCanonical v w = .eq) : v.kind = w.kind := by
  by_contra hne
  rw [compareCanonical_of_kind_ne hne] at h
  exact hne (Kind.rank_injective (Nat.compare_eq_eq.mp h))

/-- A value that is not after another one has a type that is not after the other's. -/
theorem rank_le_of_isLE (h : (compareCanonical v w).isLE) : v.kind.rank ≤ w.kind.rank := by
  by_cases hkind : v.kind = w.kind
  · exact Nat.le_of_eq (congrArg Kind.rank hkind)
  · rw [compareCanonical_of_kind_ne hkind] at h
    exact Nat.isLE_compare.mp h

/-- A value compares well if what it is made of does: `wrap` makes all values of its
type, and these compare as what they are made of. -/
theorem comparesWell_of_kind {β : Type} {cmp : β → β → Ordering} (wrap : β → Value) {b : β}
    (hb : ComparesWell cmp b) (hkind : ∀ w, w.kind = (wrap b).kind → ∃ c, w = wrap c)
    (hcmp : ∀ c d, compareCanonical (wrap c) (wrap d) = cmp c d) :
    ComparesWell compareCanonical (wrap b) where
  swap w := by
    by_cases h : w.kind = (wrap b).kind
    · obtain ⟨c, rfl⟩ := hkind w h
      rw [hcmp, hcmp]
      exact hb.swap c
    · rw [compareCanonical_of_kind_ne h, compareCanonical_of_kind_ne (Ne.symm h)]
      exact Std.OrientedCmp.eq_swap
  congr w u hw := by
    have hwkind := kind_eq_of_compareCanonical hw
    obtain ⟨c, rfl⟩ := hkind w hwkind.symm
    by_cases h : u.kind = (wrap b).kind
    · obtain ⟨d, rfl⟩ := hkind u h
      rw [hcmp] at hw ⊢
      rw [hcmp]
      exact hb.congr c d hw
    · rw [compareCanonical_of_kind_ne (Ne.symm h), hwkind,
        compareCanonical_of_kind_ne (hwkind ▸ Ne.symm h)]
  trans w u hw hu := by
    have hrank := rank_le_of_isLE hu
    by_cases h : w.kind = (wrap b).kind
    · by_cases h' : u.kind = (wrap b).kind
      · obtain ⟨c, rfl⟩ := hkind w h
        obtain ⟨d, rfl⟩ := hkind u h'
        rw [hcmp] at hw hu ⊢
        exact hb.trans c d hw hu
      · -- the third value has a later type than the other two
        rw [h] at hrank
        have hne : (wrap b).kind.rank ≠ u.kind.rank := fun heq =>
          h' (Kind.rank_injective heq).symm
        rw [compareCanonical_of_kind_ne (Ne.symm h')]
        exact Nat.compare_eq_lt.mpr (by omega)
    · rw [compareCanonical_of_kind_ne (Ne.symm h)] at hw
      have hlt : (wrap b).kind.rank < u.kind.rank := by
        have := Nat.compare_eq_lt.mp hw
        omega
      have hne : (wrap b).kind ≠ u.kind := fun heq => by
        rw [heq] at hlt
        omega
      rw [compareCanonical_of_kind_ne hne]
      exact Nat.compare_eq_lt.mpr hlt

/-- **Every value compares well.** -/
theorem comparesWell (v : Value) : ComparesWell compareCanonical v := by
  induction v using Value.induction with
  | null =>
    -- there is nothing to compare within the type
    have hunit : ComparesWell (fun _ _ : Unit => Ordering.eq) () :=
      ⟨fun _ => rfl, fun _ _ _ => rfl, fun _ _ h => nomatch h⟩
    refine comparesWell_of_kind (fun _ : Unit => .null) hunit (fun w hw => ?_) fun _ _ => rfl
    cases w <;> first | exact ⟨(), rfl⟩ | cases hw
  | integer n =>
    refine comparesWell_of_kind .integer
      (.comap Int64.toInt (.of_transCmp compare n.toInt)) (fun w hw => ?_) fun _ _ => rfl
    cases w <;> first | exact ⟨_, rfl⟩ | cases hw
  | double x =>
    refine comparesWell_of_kind .double
      (.comap Double.rank (.of_transCmp compare x.rank)) (fun w hw => ?_) fun _ _ => rfl
    cases w <;> first | exact ⟨_, rfl⟩ | cases hw
  | string s =>
    refine comparesWell_of_kind .string (.of_transCmp compare s) (fun w hw => ?_)
      fun _ _ => rfl
    cases w <;> first | exact ⟨_, rfl⟩ | cases hw
  | bytes b =>
    refine comparesWell_of_kind .bytes (.of_transCmp compare b) (fun w hw => ?_)
      fun _ _ => rfl
    cases w <;> first | exact ⟨_, rfl⟩ | cases hw
  | list items ih =>
    refine comparesWell_of_kind .list (.compareLex ih) (fun w hw => ?_)
      fun xs ys => compareItems_eq xs ys
    cases w <;> first | exact ⟨_, rfl⟩ | cases hw
  | map order entries ih =>
    refine comparesWell_of_kind .map (b := ⟨order, entries⟩)
      (.comap Dict.entries (.compareLex fun e he => .pair (ih e he).1 (ih e he).2))
      (fun w hw => ?_) fun m n => compareEntries_eq m.entries n.entries
    cases w <;> first | exact ⟨_, rfl⟩ | cases hw
  | geoJson text =>
    refine comparesWell_of_kind .geoJson (.of_transCmp compare text) (fun w hw => ?_)
      fun _ _ => rfl
    cases w <;> first | exact ⟨_, rfl⟩ | cases hw

instance : Std.TransCmp compareCanonical where
  eq_swap {v w} := (comparesWell v).swap w
  isLE_trans {u v w} huv hvw := by
    cases h : compareCanonical u v with
    | lt =>
      rw [(comparesWell u).trans v w h hvw]
      rfl
    | eq =>
      rw [(comparesWell u).congr v w h]
      exact hvw
    | gt =>
      rw [h] at huv
      cases huv

/-! ### Canonical forms -/

/-- The canonical form of an entry. -/
def canonicalEntry (e : Value × Value) : Value × Value := (e.1.canonical, e.2.canonical)

theorem canonicalItems_eq (items : List Value) : canonicalItems items = items.map canonical := by
  induction items with
  | nil => rw [canonicalItems, List.map_nil]
  | cons v vs ih => rw [canonicalItems, ih, List.map_cons]

theorem canonicalEntries_eq (entries : List (Value × Value)) :
    canonicalEntries entries = entries.map canonicalEntry := by
  induction entries with
  | nil => rw [canonicalEntries, List.map_nil]
  | cons e es ih => rw [canonicalEntries, ih, List.map_cons, canonicalEntry]

end Value

namespace Dict

/-- **The image of a map**: its entries in their canonical forms, in storage order. -/
def image (m : Dict Value) : List (Value × Value) := m.entries.map Value.canonicalEntry

/-- The entries of the canonical form of a map. -/
def sortedImage (m : Dict Value) : List (Value × Value) :=
  if m.order.isKeyOrdered then m.image else Value.sortEntries m.image

theorem sortedImage_perm (m : Dict Value) : m.sortedImage.Perm m.image := by
  rw [sortedImage]
  split
  · exact .refl _
  · exact List.mergeSort_perm _ _

end Dict

namespace Value

theorem canonical_map (m : Dict Value) :
    canonical (.map m) = .map ⟨.keyOrdered, m.sortedImage⟩ := by
  rw [canonical, Dict.sortedImage, canonicalEntries_eq, Dict.image]

/-- **A canonical form is canonical.** -/
theorem canonical_canonical (v : Value) : v.canonical.canonical = v.canonical := by
  induction v using Value.induction with
  | list items ih =>
    rw [canonical, canonicalItems_eq, canonical, canonicalItems_eq, List.map_map]
    exact congrArg Value.list (List.map_congr_left ih)
  | map order entries ih =>
    let m : Dict Value := ⟨order, entries⟩
    have himage : ∀ e ∈ m.sortedImage, canonicalEntry e = e := by
      intro e he
      obtain ⟨f, hf, rfl⟩ := List.mem_map.mp (m.sortedImage_perm.mem_iff.mp he)
      exact Prod.ext (ih f hf).1 (ih f hf).2
    -- the order policy of the canonical form spares its entries a second sort
    have hsorted : Dict.sortedImage ⟨.keyOrdered, m.sortedImage⟩ =
        m.sortedImage.map canonicalEntry := rfl
    rw [canonical_map, canonical_map, hsorted, List.map_congr_left himage, List.map_id']
  | _ => rfl

theorem kind_canonical (v : Value) : v.canonical.kind = v.kind := by
  cases v <;> rfl

theorem rank_double_injective {x y : Double} (h : x.rank = y.rank) : x = y := by
  have hbits : x.bits.toNat = y.bits.toNat := by
    have hx := x.bits.toNat_lt
    have hy := y.bits.toNat_lt
    simp only [Double.rank, Double.isNegative, Double.magnitude, decide_eq_true_eq] at h
    split at h <;> split at h <;> omega
  obtain ⟨bits⟩ := x
  obtain ⟨bits'⟩ := y
  exact congrArg Double.mk (UInt64.toNat_inj.mp hbits)

theorem kind_eq_of_compare (h : compareCanonical v.canonical w.canonical = .eq) :
    v.kind = w.kind := by
  have hkind := kind_eq_of_compareCanonical h
  rwa [kind_canonical, kind_canonical] at hkind

/-- **Canonical forms that compare as equal are the same.** -/
theorem canonical_eq_of_compare (v w : Value)
    (h : compareCanonical v.canonical w.canonical = .eq) : v.canonical = w.canonical := by
  induction v using Value.induction generalizing w with
  | null =>
    cases w <;> cases kind_eq_of_compare h
    rfl
  | integer n =>
    cases w <;> cases kind_eq_of_compare h
    have hn : compare n.toInt _ = .eq := h
    exact congrArg Value.integer (Int64.toInt_inj.mp (Std.LawfulEqCmp.eq_of_compare hn))
  | double x =>
    cases w <;> cases kind_eq_of_compare h
    have hx : compare x.rank _ = .eq := h
    exact congrArg Value.double (rank_double_injective (Std.LawfulEqCmp.eq_of_compare hx))
  | string s =>
    cases w <;> cases kind_eq_of_compare h
    have hs : compare s _ = .eq := h
    exact congrArg Value.string (Std.LawfulEqCmp.eq_of_compare hs)
  | bytes b =>
    cases w <;> cases kind_eq_of_compare h
    have hb : compare b _ = .eq := h
    exact congrArg Value.bytes (Std.LawfulEqCmp.eq_of_compare hb)
  | list items ih =>
    cases w <;> cases kind_eq_of_compare h
    rename_i items'
    rw [canonical, canonical, canonicalItems_eq, canonicalItems_eq] at h ⊢
    rw [compareCanonical, compareItems_eq] at h
    refine congrArg Value.list (eq_of_compareLex_eq (fun x hx y hy hxy => ?_) h)
    obtain ⟨x, hx', rfl⟩ := List.mem_map.mp hx
    obtain ⟨y, -, rfl⟩ := List.mem_map.mp hy
    exact ih x hx' y hxy
  | map order entries ih =>
    cases w <;> cases kind_eq_of_compare h
    rename_i m
    rw [canonical_map, canonical_map] at h ⊢
    rw [compareCanonical, compareEntries_eq] at h
    have himage : Dict.sortedImage ⟨order, entries⟩ = m.sortedImage := by
      refine eq_of_compareLex_eq (fun e he f hf hef => ?_) h
      obtain ⟨e, he', rfl⟩ := List.mem_map.mp ((Dict.sortedImage_perm _).mem_iff.mp he)
      obtain ⟨f, -, rfl⟩ := List.mem_map.mp (m.sortedImage_perm.mem_iff.mp hf)
      obtain ⟨hkey, hvalue⟩ := Ordering.then_eq_eq.mp hef
      exact Prod.ext ((ih e he').1 f.1 hkey) ((ih e he').2 f.2 hvalue)
    rw [himage]
  | geoJson text =>
    cases w <;> cases kind_eq_of_compare h
    have ht : compare text _ = .eq := h
    exact congrArg Value.geoJson (Std.LawfulEqCmp.eq_of_compare ht)

/-! ### The order of values -/

instance : Std.TransCmp Value.compare where
  eq_swap {v w} := (comparesWell v.canonical).swap w.canonical
  isLE_trans {u v w} huv hvw := by
    have h : (compareCanonical u.canonical v.canonical).isLE := huv
    have h' : (compareCanonical v.canonical w.canonical).isLE := hvw
    have huw : (compareCanonical u.canonical w.canonical).isLE := Std.TransCmp.isLE_trans h h'
    exact huw

theorem compare_eq_iff : Value.compare v w = .eq ↔ v.canonical = w.canonical := by
  refine ⟨canonical_eq_of_compare v w, fun h => ?_⟩
  rw [Value.compare, h]
  exact Std.ReflCmp.compare_self

theorem beq_iff_compare_eq : (v == w) = true ↔ Value.compare v w = .eq :=
  beq_iff_eq (a := Value.compare v w)

/-- **Values are equal** exactly when their canonical forms are the same. -/
theorem beq_iff_canonical_eq : (v == w) = true ↔ v.canonical = w.canonical :=
  beq_iff_compare_eq.trans compare_eq_iff

theorem lt_trans {u : Value} (huv : u < v) (hvw : v < w) : u < w := by
  have h : Value.compare u v = .lt := huv
  exact Std.TransCmp.lt_trans h hvw

theorem le_trans {u : Value} (huv : u ≤ v) (hvw : v ≤ w) : u ≤ w := by
  have h : (Value.compare u v).isLE := Ordering.isLE_iff_ne_gt.mpr huv
  have h' : (Value.compare v w).isLE := Ordering.isLE_iff_ne_gt.mpr hvw
  have huw : (Value.compare u w).isLE := Std.TransCmp.isLE_trans h h'
  exact Ordering.isLE_iff_ne_gt.mp huw

theorem lt_of_compare_gt (h : Value.compare v w = .gt) : w < v :=
  Std.OrientedCmp.lt_of_gt h

theorem le_of_lt (h : v < w) : v ≤ w := by
  have hlt : Value.compare v w = .lt := h
  intro hgt
  rw [hlt] at hgt
  cases hgt

theorem le_total (v w : Value) : v ≤ w ∨ w ≤ v := by
  by_cases h : v ≤ w
  · exact Or.inl h
  · exact Or.inr (le_of_lt (lt_of_compare_gt (not_not.mp h)))

theorem lt_of_le_of_beq_eq_false (h : v ≤ w) (hne : (v == w) = false) : v < w := by
  cases hcompare : Value.compare v w with
  | lt => exact hcompare
  | eq =>
    rw [beq_iff_compare_eq.mpr hcompare] at hne
    cases hne
  | gt => exact absurd hcompare h

theorem beq_symm (v w : Value) : (v == w) = (w == v) := by
  rw [Bool.eq_iff_iff, beq_iff_canonical_eq, beq_iff_canonical_eq]
  exact eq_comm

theorem beq_eq_false_of_lt (h : v < w) : (v == w) = false := by
  rw [Bool.eq_false_iff]
  intro heq
  have hlt : Value.compare v w = .lt := h
  rw [beq_iff_compare_eq.mp heq] at hlt
  cases hlt

theorem beq_eq_false_of_gt (h : w < v) : (v == w) = false := by
  rw [beq_symm]
  exact beq_eq_false_of_lt h

/-- Values that have the same canonical form compare in the same way. -/
theorem compare_congr {v' w' : Value} (hv : v.canonical = v'.canonical)
    (hw : w.canonical = w'.canonical) : Value.compare v w = Value.compare v' w' := by
  rw [Value.compare, Value.compare, hv, hw]

theorem beq_congr {v' w' : Value} (hv : v.canonical = v'.canonical)
    (hw : w.canonical = w'.canonical) : (v == w) = (v' == w') :=
  congrArg (· == Ordering.eq) (compare_congr hv hw)

theorem lt_congr {v' w' : Value} (hv : v.canonical = v'.canonical)
    (hw : w.canonical = w'.canonical) : v < w ↔ v' < w' :=
  iff_of_eq (congrArg (· = Ordering.lt) (compare_congr hv hw))

theorem le_congr {v' w' : Value} (hv : v.canonical = v'.canonical)
    (hw : w.canonical = w'.canonical) : v ≤ w ↔ v' ≤ w' :=
  iff_of_eq (congrArg (· ≠ Ordering.gt) (compare_congr hv hw))

end Value

end RecordStore
