import Mathlib.Data.List.Nodup
import Mathlib.Data.List.Perm.Subperm
import RecordStore.Proofs.Value.Dict

/-!
# Maps by what they answer

A well-formed map is a finite function: an insertion changes the answer at the key that is
inserted and at no other (`RecordStore.Dict.WellFormed.get?_insert`), and two maps are equal when
they answer alike at every key (`RecordStore.Dict.WellFormed.beq_iff_get?`). Of two maps with as
many entries it is enough that one answers what is in the other
(`RecordStore.Dict.WellFormed.beq_iff_answers_entries`). After some pairs are inserted, it is the
last pair with a key that answers (`RecordStore.Dict.WellFormed.get?_insertMany`); and that is how
a map answers itself, in whatever order its entries are gone through
(`RecordStore.Dict.WellFormed.lastAt_of_perm`).
-/

namespace RecordStore.Dict

variable {m n : Dict Value} {key value other : Value}

/-! ### Insertions -/

/-- Keys that are equal to a third one are equal. -/
theorem key_eq_trans {k l : Value} (hk : (k == key) = true) : (k == l) = (key == l) :=
  Value.beq_congr (Value.beq_iff_canonical_eq.mp hk) rfl

/-- **What is in a map after an insertion**: the new entry, under the spelling of its key that
was there first, and the old entries with other keys. -/
theorem WellFormed.exists_mem_insert_iff (h : m.WellFormed) (key value : Value) :
    ∃ k, (k == key) = true ∧ ∀ f, f ∈ (m.insert key value).entries ↔
      f = (k, value) ∨ (f ∈ m.entries ∧ (f.1 == key) = false) := by
  rcases h.insert_cases key value with
    ⟨before, e, after, hentries, hkey, heq⟩ | ⟨before, after, hentries, habsent, -, heq⟩
  · refine ⟨e.1, hkey, fun f => ?_⟩
    have hothers := h.others hentries hkey
    rw [heq, hentries, List.mem_append, List.mem_cons, List.mem_append, List.mem_cons]
    constructor
    · rintro (hf | hf | hf)
      · exact Or.inr ⟨Or.inl hf, hothers f (List.mem_append_left _ hf)⟩
      · exact Or.inl hf
      · exact Or.inr ⟨Or.inr (Or.inr hf), hothers f (List.mem_append_right _ hf)⟩
    · rintro (hf | ⟨hf | rfl | hf, hne⟩)
      · exact Or.inr (Or.inl hf)
      · exact Or.inl hf
      · rw [hkey] at hne
        cases hne
      · exact Or.inr (Or.inr hf)
  · refine ⟨key, Value.beq_iff_canonical_eq.mpr rfl, fun f => ?_⟩
    rw [heq, List.mem_append, List.mem_cons]
    constructor
    · intro hf
      have hold : ∀ g, g ∈ before ∨ g ∈ after → g ∈ m.entries ∧ (g.1 == key) = false :=
        fun g hg => by
          have hmem : g ∈ m.entries := hentries ▸ List.mem_append.mpr hg
          exact ⟨hmem, habsent g hmem⟩
      rcases hf with hf | hf | hf
      · exact Or.inr (hold f (Or.inl hf))
      · exact Or.inl hf
      · exact Or.inr (hold f (Or.inr hf))
    · rintro (hf | ⟨hf, -⟩)
      · exact Or.inr (Or.inl hf)
      · rw [hentries, List.mem_append] at hf
        exact hf.imp_right Or.inr

/-- **An insertion changes the answer at its key** and at no other. -/
theorem WellFormed.get?_insert (h : m.WellFormed) (key value other : Value) :
    (m.insert key value).get? other = if key == other then some value else m.get? other := by
  obtain ⟨k, hk, hmem⟩ := h.exists_mem_insert_iff key value
  have hinsert := h.insert key value
  split
  · rename_i hkey
    refine hinsert.get?_eq_some_iff.mpr ⟨(k, value), (hmem _).mpr (Or.inl rfl), ?_, rfl⟩
    rw [key_eq_trans hk, hkey]
  · rename_i hkey
    refine Option.ext fun v => ?_
    rw [hinsert.get?_eq_some_iff, h.get?_eq_some_iff]
    refine exists_congr fun f => ?_
    rw [hmem f]
    constructor
    · rintro ⟨rfl | ⟨hf, -⟩, hfkey, hv⟩
      · rw [key_eq_trans hk] at hfkey
        exact absurd hfkey hkey
      · exact ⟨hf, hfkey, hv⟩
    · rintro ⟨hf, hfkey, hv⟩
      refine ⟨Or.inr ⟨hf, ?_⟩, hfkey, hv⟩
      rw [key_eq_trans hfkey, Value.beq_symm]
      exact eq_false_of_ne_true hkey

/-- A key is present when there is an answer. -/
theorem WellFormed.contains_eq (h : m.WellFormed) (key : Value) :
    m.contains key = (m.get? key).isSome := by
  rw [Bool.eq_iff_iff, h.contains_iff, Option.isSome_iff_exists]
  constructor
  · rintro ⟨e, he, hkey⟩
    exact ⟨e.2, h.get?_eq_some_iff.mpr ⟨e, he, hkey, rfl⟩⟩
  · rintro ⟨v, hv⟩
    obtain ⟨e, he, hkey, -⟩ := h.get?_eq_some_iff.mp hv
    exact ⟨e, he, hkey⟩

theorem WellFormed.contains_insert (h : m.WellFormed) (key value other : Value) :
    (m.insert key value).contains other = (key == other || m.contains other) := by
  rw [(h.insert key value).contains_eq, h.get?_insert, h.contains_eq]
  cases key == other <;> rfl

/-- Equal keys are answered alike. -/
theorem WellFormed.get?_congr (h : m.WellFormed) (hkey : (key == other) = true) :
    m.get? key = m.get? other := by
  refine Option.ext fun v => ?_
  rw [h.get?_eq_some_iff, h.get?_eq_some_iff]
  refine exists_congr fun e => and_congr_right fun _ => ?_
  rw [Value.beq_symm e.1, Value.beq_symm e.1, key_eq_trans hkey]

theorem WellFormed.contains_congr (h : m.WellFormed) (hkey : (key == other) = true) :
    m.contains key = m.contains other := by
  rw [h.contains_eq, h.contains_eq, h.get?_congr hkey]

/-! ### Equal maps -/

/-- What the image of a well-formed map holds under keys in their canonical form is what the map
answers. -/
theorem WellFormed.mem_image_iff (h : m.WellFormed) {e : Value × Value} :
    e ∈ m.image ↔ e.1.canonical = e.1 ∧ (m.get? e.1).map Value.canonical = some e.2 := by
  obtain ⟨k, c⟩ := e
  constructor
  · intro he
    have hcanonical : k.canonical = k := by
      obtain ⟨f, -, hf⟩ := List.mem_map.mp he
      obtain ⟨rfl, -⟩ := Prod.mk.inj hf
      exact Value.canonical_canonical f.1
    exact ⟨hcanonical, h.get?_image.mpr (hcanonical.symm ▸ he)⟩
  · rintro ⟨hcanonical, hget⟩
    have he := h.get?_image.mp hget
    rwa [hcanonical] at he

/-- No entry stands twice in the image of a well-formed map. -/
theorem WellFormed.nodup_entries (h : m.WellFormed) : m.image.Nodup :=
  List.Nodup.of_map _ h.nodup_image

/-- **Well-formed maps are equal** when they answer alike at every key. -/
theorem WellFormed.beq_iff_get? (hm : m.WellFormed) (hn : n.WellFormed) :
    (m == n) = true ↔
      ∀ key, (m.get? key).map Value.canonical = (n.get? key).map Value.canonical := by
  rw [hm.beq_iff_perm hn]
  constructor
  · intro hperm key
    refine Option.ext fun c => ?_
    rw [hm.get?_image, hn.get?_image]
    exact hperm.mem_iff
  · intro hget
    refine (List.perm_ext_iff_of_nodup hm.nodup_entries hn.nodup_entries).mpr fun e => ?_
    rw [hm.mem_image_iff, hn.mem_image_iff, hget]

/-- The image of an entry is in the image of a map that answers the entry, up to equality. -/
theorem WellFormed.canonicalEntry_mem_image_iff (h : n.WellFormed) {e : Value × Value} :
    Value.canonicalEntry e ∈ n.image ↔ ∃ v, n.get? e.1 = some v ∧ (v == e.2) = true := by
  change (e.1.canonical, e.2.canonical) ∈ n.image ↔ _
  rw [← h.get?_image, Option.map_eq_some_iff]
  exact exists_congr fun v => and_congr_right fun _ => Value.beq_iff_canonical_eq.symm

/-- **Equality of maps is equality of finite maps.** Two well-formed maps, of any order policies
and with their entries in any order, are equal exactly when they have as many entries and one of
them answers, at the key of every entry of the other, a value equal to that of the entry. Nothing
is asked of the values and keys themselves, which may be maps again. -/
theorem WellFormed.beq_iff_answers_entries (hm : m.WellFormed) (hn : n.WellFormed) :
    (m == n) = true ↔
      m.size = n.size ∧ ∀ e ∈ m.entries, ∃ v, n.get? e.1 = some v ∧ (v == e.2) = true := by
  have hsize : m.size = n.size ↔ m.image.length = n.image.length := by
    rw [image, image, List.length_map, List.length_map, size, size]
  have hentries : (∀ e ∈ m.entries, ∃ v, n.get? e.1 = some v ∧ (v == e.2) = true) ↔
      m.image ⊆ n.image := by
    refine Iff.trans ?_ List.forall_mem_map.symm
    exact forall₂_congr fun e _ => hn.canonicalEntry_mem_image_iff.symm
  rw [hm.beq_iff_perm hn, hsize, hentries]
  constructor
  · exact fun hperm => ⟨hperm.length_eq, hperm.subset⟩
  · rintro ⟨hlength, hsubset⟩
    -- no entry stands twice, so that as many entries of the other map are all of them
    have hsubperm := List.subperm_of_subset hm.nodup_entries hsubset
    exact hsubperm.perm_of_length_le (Nat.le_of_eq hlength.symm)

/-- A map without order and one that is ordered by key, under keys that are maps themselves and
are spelled differently; and a map with as many entries that has another key. -/
theorem WellFormed.beq_iff_answers_entries_nested :
    let filled : Value := .map ⟨.unordered, [(.integer 2, .null), (.integer 1, .null)]⟩
    let sorted : Value := .map ⟨.keyOrdered, [(.integer 1, .null), (.integer 2, .null)]⟩
    let m : Dict Value := ⟨.unordered, [(filled, .list [sorted]), (.string "a", .integer 1)]⟩
    let n : Dict Value := ⟨.keyValueOrdered, [(.string "a", .integer 1), (sorted, .list [filled])]⟩
    let other : Dict Value := ⟨.keyOrdered, [(.string "a", .integer 1), (.string "b", .null)]⟩
    m.WellFormed ∧ n.WellFormed ∧ other.WellFormed ∧ (m == n) = true ∧
      (∃ v, n.get? filled = some v ∧ (v == .list [sorted]) = true) ∧ (m == other) = false := by
  intro filled sorted m n other
  have hm : m.WellFormed := ⟨by decide, nofun⟩
  have hn : n.WellFormed := ⟨by decide, fun _ => by decide⟩
  have hother : other.WellFormed := ⟨by decide, fun _ => by decide⟩
  have hkeys : filled.canonical = sorted.canonical := by
    refine Value.beq_iff_canonical_eq.mp ?_
    have hfilled : (Dict.mk .unordered [(.integer 2, .null), (.integer 1, .null)]).WellFormed :=
      ⟨by decide, nofun⟩
    have hsorted : (Dict.mk .keyOrdered [(.integer 1, .null), (.integer 2, .null)]).WellFormed :=
      ⟨by decide, fun _ => by decide⟩
    exact (hfilled.beq_iff_perm hsorted).mpr (.swap _ _ [])
  have hequal : (m == n) = true := by
    refine (hm.beq_iff_perm hn).mpr ?_
    change [(filled.canonical, Value.list [sorted.canonical]), (.string "a", .integer 1)].Perm
      [(.string "a", .integer 1), (sorted.canonical, .list [filled.canonical])]
    rw [hkeys]
    exact .swap _ _ []
  obtain ⟨-, hanswers⟩ := (hm.beq_iff_answers_entries hn).mp hequal
  refine ⟨hm, hn, hother, hequal, hanswers _ List.mem_cons_self, ?_⟩
  rw [Bool.eq_false_iff, Ne, hm.beq_iff_answers_entries hother]
  rintro ⟨-, hfound⟩
  obtain ⟨v, hv, -⟩ := hfound _ List.mem_cons_self
  have hnone : (other.get? filled).isSome = false := by decide +kernel
  rw [hv] at hnone
  cases hnone

/-! ### Some pairs -/

/-- The value of the first of some pairs with a key. -/
def firstAt (pairs : List (Value × Value)) (key : Value) : Option Value :=
  (pairs.find? fun e => e.1 == key).map (·.2)

/-- The value of the last of some pairs with a key. -/
def lastAt (pairs : List (Value × Value)) (key : Value) : Option Value :=
  firstAt pairs.reverse key

theorem firstAt_cons (e : Value × Value) (pairs : List (Value × Value)) (key : Value) :
    firstAt (e :: pairs) key = if e.1 == key then some e.2 else firstAt pairs key := by
  rw [firstAt, List.find?_cons]
  cases e.1 == key <;> rfl

theorem lastAt_cons (e : Value × Value) (pairs : List (Value × Value)) (key : Value) :
    lastAt (e :: pairs) key = (lastAt pairs key).or (if e.1 == key then some e.2 else none) := by
  rw [lastAt, lastAt, firstAt, firstAt, List.reverse_cons, List.find?_append, Option.map_or]
  refine congrArg _ ?_
  rw [List.find?_cons]
  cases e.1 == key <;> rfl

/-- **The last pair with a key** answers after pairs are inserted. -/
theorem WellFormed.get?_insertMany (h : m.WellFormed) (pairs : List (Value × Value))
    (key : Value) : (m.insertMany pairs).get? key = (lastAt pairs key).or (m.get? key) := by
  induction pairs generalizing m with
  | nil => rfl
  | cons e pairs ih =>
    have hrest := ih (h.insert e.1 e.2)
    rw [h.get?_insert] at hrest
    refine hrest.trans ?_
    rw [lastAt_cons, Option.or_assoc]
    cases e.1 == key <;> rfl

/-- Keys that are inserted are present. -/
theorem WellFormed.contains_insertMany_of_mem (h : m.WellFormed) {pairs : List (Value × Value)}
    {e : Value × Value} (he : e ∈ pairs) : (m.insertMany pairs).contains e.1 = true := by
  rw [(h.insertMany pairs).contains_eq, h.get?_insertMany, Option.isSome_or, lastAt, firstAt,
    Option.isSome_map]
  refine Bool.or_eq_true_iff.mpr (Or.inl (List.find?_isSome.mpr ⟨e, ?_, ?_⟩))
  · exact List.mem_reverse.mpr he
  · exact Value.beq_iff_canonical_eq.mpr rfl

/-- **The entries of a map may be gone through in any order**: of distinct keys each has one entry
at most, so that the last entry with a key is the one that answers. -/
theorem WellFormed.lastAt_of_perm (h : m.WellFormed) {pairs : List (Value × Value)}
    (hperm : m.entries.Perm pairs) (key : Value) : lastAt pairs key = m.get? key := by
  refine Option.ext fun v => ?_
  rw [h.get?_eq_some_iff, lastAt, firstAt, Option.map_eq_some_iff]
  constructor
  · rintro ⟨e, hfind, hvalue⟩
    have hkey := List.find?_some hfind
    have hmem := List.mem_reverse.mp (List.mem_of_find?_eq_some hfind)
    exact ⟨e, hperm.mem_iff.mpr hmem, hkey, hvalue⟩
  · rintro ⟨e, he, hkey, hvalue⟩
    obtain ⟨f, hfind⟩ : ∃ f, pairs.reverse.find? (fun e => e.1 == key) = some f :=
      Option.isSome_iff_exists.mp
        (List.find?_isSome.mpr ⟨e, List.mem_reverse.mpr (hperm.mem_iff.mp he), hkey⟩)
    have hfound := List.find?_some hfind
    have hmem := List.mem_reverse.mp (List.mem_of_find?_eq_some hfind)
    have hsame : (e.1 == f.1) = true := by
      rw [key_eq_trans hkey, Value.beq_symm]
      exact hfound
    obtain rfl := h.unique he (hperm.mem_iff.mpr hmem) hsame
    exact ⟨e, hfind, hvalue⟩

end RecordStore.Dict
