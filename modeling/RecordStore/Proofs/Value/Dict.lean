import Mathlib.Data.List.Pairwise
import RecordStore.Proofs.Value.Order
import RecordStore.Value.Dict

/-!
# Maps as finite functions

A map is well-formed (`RecordStore.Dict.WellFormed`) when its keys are pairwise
different and, if it is ordered by key, ascend. On such a map it makes no difference
how a key is looked for: the search by halving and the scan from the start both find
the key where it stands, and otherwise a place where it can go
(`RecordStore.Dict.WellFormed.fits`). From there on no proof goes back to the two ways
of looking.

Every operation on a map keeps it well-formed, and what it does can be said on the
*image* of the map, its entries in their canonical forms
(`RecordStore.Dict.image`). The image of a well-formed map has no key twice, so that
maps with the same entries in any order are equal
(`RecordStore.Dict.WellFormed.beq_iff_perm`).
-/

namespace RecordStore

namespace Dict

variable {m n : Dict Value} {key value : Value}

/-! ### Well-formed maps -/

/-- The keys in storage order. -/
def keys (m : Dict Value) : List Value := m.entries.map (·.1)

/-- **A map is well-formed** when its keys are pairwise different and, if it is ordered
by key, strictly ascending. -/
structure WellFormed (m : Dict Value) : Prop where
  /-- No key stands twice. -/
  distinct : m.keys.Pairwise fun k l => (k == l) = false
  /-- A map ordered by key stores its entries in ascending order of the keys. -/
  ascending : m.order.isKeyOrdered = true → m.keys.Pairwise (· < ·)

/-! ### Looking for a key -/

/-- **A place fits a key** in a map: the key stands there, or it is absent and the
entries fall into those before the place and those behind it. -/
inductive Fits (m : Dict Value) (key : Value) : Place → Prop where
  /-- The key is present. -/
  | found {before after : List (Value × Value)} {e : Value × Value}
      (hentries : m.entries = before ++ e :: after) (hkey : (e.1 == key) = true) :
      Fits m key (.found before.length)
  /-- The key is absent. -/
  | absent {before after : List (Value × Value)} (hentries : m.entries = before ++ after)
      (habsent : ∀ e ∈ m.entries, (e.1 == key) = false)
      (hbetween : m.order.isKeyOrdered = true →
        (∀ e ∈ before, e.1 < key) ∧ ∀ e ∈ after, key < e.1) :
      Fits m key (.absent before.length)

theorem Fits.of_getElem {position : Nat} (h : position < m.entries.length)
    (hkey : (m.entries[position].1 == key) = true) : m.Fits key (.found position) := by
  have hlength : (m.entries.take position).length = position := by
    rw [List.length_take]
    omega
  have hsplit : m.entries =
      m.entries.take position ++ m.entries[position] :: m.entries.drop (position + 1) := by
    rw [← List.drop_eq_getElem_cons h, List.take_append_drop]
  exact hlength ▸ .found hsplit hkey

/-- Between smaller keys and greater ones there is place for an absent key. -/
theorem Fits.of_between {position : Nat} (h : position ≤ m.entries.length)
    (hlow : ∀ i (hi : i < m.entries.length), i < position → m.entries[i].1 < key)
    (hhigh : ∀ i (hi : i < m.entries.length), position ≤ i → key < m.entries[i].1) :
    m.Fits key (.absent position) := by
  have hlength : (m.entries.take position).length = position := by
    rw [List.length_take]
    omega
  have hbefore : ∀ e ∈ m.entries.take position, e.1 < key := by
    intro e he
    obtain ⟨i, hi, rfl⟩ := List.mem_iff_getElem.mp he
    rw [List.getElem_take]
    exact hlow i (by omega) (by omega)
  have hafter : ∀ e ∈ m.entries.drop position, key < e.1 := by
    intro e he
    obtain ⟨i, hi, rfl⟩ := List.mem_iff_getElem.mp he
    rw [List.getElem_drop]
    rw [List.length_drop] at hi
    exact hhigh (position + i) (by omega) (by omega)
  have hsplit : m.entries = m.entries.take position ++ m.entries.drop position :=
    (List.take_append_drop position m.entries).symm
  refine hlength ▸ .absent hsplit (fun e he => ?_) fun _ => ⟨hbefore, hafter⟩
  rw [hsplit] at he
  rcases List.mem_append.mp he with he | he
  · exact Value.beq_eq_false_of_lt (hbefore e he)
  · exact Value.beq_eq_false_of_gt (hafter e he)

/-- **The search by halving finds the place of a key** where keys ascend. What carries
the induction: the keys below `lo` come before the key, and those from `hi` on behind
it. -/
theorem search_fits (hascending : m.keys.Pairwise (· < ·)) {lo hi : Nat}
    (bounded : hi ≤ m.entries.length) (hle : lo ≤ hi)
    (hlow : ∀ i (h : i < m.entries.length), i < lo → m.entries[i].1 < key)
    (hhigh : ∀ i (h : i < m.entries.length), hi ≤ i → key < m.entries[i].1) :
    m.Fits key (search m.entries key lo hi bounded) := by
  have hlt := List.pairwise_iff_getElem.mp (List.pairwise_map.mp hascending)
  obtain ⟨order, entries⟩ := m
  clear hascending
  dsimp only at *
  fun_induction search entries key lo hi bounded with
  | case1 lo hi bounded h middle inside hcompare ih =>
    have hmiddle : middle = lo + (hi - lo) / 2 := rfl
    refine ih (by omega) (fun i hi' hi'' => ?_) hhigh
    rcases Nat.lt_or_eq_of_le (Nat.le_of_lt_succ hi'') with hlti | rfl
    · exact Value.lt_trans (hlt i middle hi' inside hlti) hcompare
    · exact hcompare
  | case2 lo hi bounded h middle inside hcompare ih =>
    have hmiddle : middle = lo + (hi - lo) / 2 := rfl
    have hkey : key < entries[middle].1 := Value.lt_of_compare_gt hcompare
    refine ih (by omega) hlow fun i hi' hi'' => ?_
    rcases Nat.lt_or_eq_of_le hi'' with hlti | rfl
    · exact Value.lt_trans hkey (hlt middle i inside hi' hlti)
    · exact hkey
  | case3 lo hi bounded h middle inside hcompare =>
    exact .of_getElem (m := ⟨order, entries⟩) inside (Value.beq_iff_compare_eq.mpr hcompare)
  | case4 lo hi bounded h =>
    obtain rfl : lo = hi := by omega
    exact .of_between (m := ⟨order, entries⟩) bounded hlow hhigh

/-- **The scan finds the place of a key**, in a map without order. -/
theorem scan_fits (hordered : m.order.isKeyOrdered = false) : m.Fits key (scan m.entries key) := by
  rw [scan]
  cases hfind : m.entries.findIdx? (·.1 == key) with
  | some position =>
    obtain ⟨h, hkey, -⟩ := List.findIdx?_eq_some_iff_getElem.mp hfind
    exact .of_getElem h hkey
  | none =>
    refine .absent (List.append_nil _).symm (List.findIdx?_eq_none_iff.mp hfind) fun h => ?_
    rw [hordered] at h
    cases h

/-- **Both ways of looking for a key** find its place in a well-formed map. -/
theorem WellFormed.fits (h : m.WellFormed) (key : Value) : m.Fits key (m.place key) := by
  rw [place]
  split
  · rename_i hordered
    refine search_fits (h.ascending hordered) _ (Nat.zero_le _) (fun i _ hi => ?_)
      fun i hi hlength => ?_
    · omega
    · omega
  · rename_i hordered
    exact scan_fits (eq_false_of_ne_true hordered)

/-! ### Looking up -/

theorem WellFormed.contains_iff (h : m.WellFormed) :
    m.contains key = true ↔ ∃ e ∈ m.entries, (e.1 == key) = true := by
  have hfits := h.fits key
  rw [contains]
  generalize m.place key = place at hfits
  cases hfits with
  | found hentries hkey =>
    refine iff_of_true rfl ⟨_, ?_, hkey⟩
    rw [hentries]
    exact List.mem_append_right _ List.mem_cons_self
  | absent hentries habsent hbetween =>
    refine iff_of_false Bool.false_ne_true ?_
    rintro ⟨e, he, hkey⟩
    rw [habsent e he] at hkey
    cases hkey

/-- **A key stands once** in a well-formed map. -/
theorem WellFormed.unique (h : m.WellFormed) {e f : Value × Value} (he : e ∈ m.entries)
    (hf : f ∈ m.entries) (hkey : (e.1 == f.1) = true) : e = f := by
  have hsymm : Std.Symm fun e f : Value × Value => (e.1 == f.1) = false :=
    ⟨fun _ _ hef => (Value.beq_symm _ _).trans hef⟩
  by_contra hne
  rw [(List.pairwise_map.mp h.distinct).forall he hf hne] at hkey
  cases hkey

theorem WellFormed.get?_eq_some_iff (h : m.WellFormed) :
    m.get? key = some value ↔ ∃ e ∈ m.entries, (e.1 == key) = true ∧ e.2 = value := by
  have hfits := h.fits key
  rw [get?]
  generalize m.place key = place at hfits
  cases hfits with
  | @found before after e hentries hkey =>
    have he : m.entries[before.length]? = some e := by
      rw [hentries, List.getElem?_append_right (Nat.le_refl _), Nat.sub_self, List.getElem?_cons_zero]
    have hmem : e ∈ m.entries := List.mem_of_getElem? he
    simp only [Place.position?, Option.bind_some, he, Option.map_some, Option.some_inj]
    constructor
    · rintro rfl
      exact ⟨e, hmem, hkey, rfl⟩
    · rintro ⟨f, hf, hfkey, rfl⟩
      have hef : (e.1 == f.1) = true := by
        rw [Value.beq_iff_canonical_eq] at hkey hfkey ⊢
        rw [hkey, hfkey]
      rw [h.unique hmem hf hef]
  | absent hentries habsent hbetween =>
    refine iff_of_false (fun hnone => nomatch hnone) ?_
    rintro ⟨e, he, hkey, -⟩
    rw [habsent e he] at hkey
    cases hkey

/-! ### Inserting -/

theorem modify_length_append {α : Type} (before after : List α) (a : α) (f : α → α) :
    (before ++ a :: after).modify before.length f = before ++ f a :: after := by
  induction before with
  | nil => rfl
  | cons b before ih => exact congrArg (b :: ·) ih

theorem insertIdx_length_append {α : Type} (before after : List α) (a : α) :
    (before ++ after).insertIdx before.length a = before ++ a :: after := by
  induction before with
  | nil => rfl
  | cons b before ih => exact congrArg (b :: ·) ih

/-- **What an insertion does** to a map: it replaces the value of the entry with the key,
or puts a new entry in between. -/
theorem WellFormed.insert_cases (h : m.WellFormed) (key value : Value) :
    (∃ before e after, m.entries = before ++ e :: after ∧ (e.1 == key) = true ∧
        m.insert key value = ⟨m.order, before ++ (e.1, value) :: after⟩) ∨
      ∃ before after, m.entries = before ++ after ∧ (∀ e ∈ m.entries, (e.1 == key) = false) ∧
        (m.order.isKeyOrdered = true → (∀ e ∈ before, e.1 < key) ∧ ∀ e ∈ after, key < e.1) ∧
        m.insert key value = ⟨m.order, before ++ (key, value) :: after⟩ := by
  have hfits := h.fits key
  rw [insert]
  generalize m.place key = place at hfits
  cases hfits with
  | @found before after e hentries hkey =>
    refine Or.inl ⟨before, e, after, hentries, hkey, ?_⟩
    simp only [hentries, modify_length_append]
  | @absent before after hentries habsent hbetween =>
    refine Or.inr ⟨before, after, hentries, habsent, hbetween, ?_⟩
    simp only [hentries, insertIdx_length_append]

/-- What is in a map after an insertion was there before, or has the value that is
inserted, under the key that is inserted or one that was there before. -/
theorem WellFormed.mem_insert (h : m.WellFormed) {f : Value × Value}
    (hf : f ∈ (m.insert key value).entries) :
    f ∈ m.entries ∨ (f.2 = value ∧ (f.1 = key ∨ ∃ e ∈ m.entries, e.1 = f.1)) := by
  rcases h.insert_cases key value with
    ⟨before, e, after, hentries, -, heq⟩ | ⟨before, after, hentries, -, -, heq⟩
  · rw [heq, List.mem_append, List.mem_cons] at hf
    rw [hentries, List.mem_append, List.mem_cons]
    rcases hf with hf | rfl | hf
    · exact Or.inl (Or.inl hf)
    · exact Or.inr ⟨rfl, Or.inr ⟨e, List.mem_append_right _ List.mem_cons_self, rfl⟩⟩
    · exact Or.inl (Or.inr (Or.inr hf))
  · rw [heq, List.mem_append, List.mem_cons] at hf
    rw [hentries, List.mem_append]
    rcases hf with hf | rfl | hf
    · exact Or.inl (Or.inl hf)
    · exact Or.inr ⟨rfl, Or.inl rfl⟩
    · exact Or.inl (Or.inr hf)

/-- **Inserting keeps a map well-formed.** -/
theorem WellFormed.insert (h : m.WellFormed) (key value : Value) :
    (m.insert key value).WellFormed := by
  rcases h.insert_cases key value with
    ⟨before, e, after, hentries, -, heq⟩ | ⟨before, after, hentries, habsent, hbetween, heq⟩
  · have hkeys : (m.insert key value).keys = m.keys := by
      rw [keys, keys, heq, hentries, List.map_append, List.map_append, List.map_cons, List.map_cons]
    refine ⟨hkeys ▸ h.distinct, fun hordered => hkeys ▸ h.ascending ?_⟩
    rwa [heq] at hordered
  · have hkeys : (m.insert key value).keys = before.map (·.1) ++ key :: after.map (·.1) := by
      rw [keys, heq, List.map_append, List.map_cons]
    have hold : m.keys = before.map (·.1) ++ after.map (·.1) := by
      rw [keys, hentries, List.map_append]
    refine ⟨?_, fun hordered => ?_⟩
    · rw [hkeys, List.perm_middle.pairwise_iff fun hkl => (Value.beq_symm _ _).trans hkl,
        List.pairwise_cons, ← hold]
      refine ⟨fun k hk => ?_, h.distinct⟩
      obtain ⟨e, he, rfl⟩ := List.mem_map.mp hk
      exact (Value.beq_symm _ _).trans (habsent e he)
    · rw [heq] at hordered
      obtain ⟨hbefore, hafter⟩ := hbetween hordered
      have hascending := h.ascending hordered
      rw [hold, List.pairwise_append] at hascending
      obtain ⟨hleft, hright, hcross⟩ := hascending
      rw [hkeys, List.pairwise_append, List.pairwise_cons]
      refine ⟨hleft, ⟨List.forall_mem_map.mpr hafter, hright⟩, fun k hk l hl => ?_⟩
      rcases List.mem_cons.mp hl with rfl | hl
      · obtain ⟨e, he, rfl⟩ := List.mem_map.mp hk
        exact hbefore e he
      · exact hcross k hk l hl

theorem WellFormed.empty (order : MapOrder) : (empty order).WellFormed :=
  ⟨.nil, fun _ => .nil⟩

/-- Inserting pairs one by one keeps a map well-formed. -/
theorem WellFormed.insertMany (h : m.WellFormed) (pairs : List (Value × Value)) :
    (m.insertMany pairs).WellFormed := by
  induction pairs generalizing m with
  | nil => exact h
  | cons e pairs ih => exact ih (h.insert e.1 e.2)

/-! ### Other changes -/

theorem WellFormed.clear (m : Dict Value) : m.clear.WellFormed :=
  ⟨.nil, fun _ => .nil⟩

/-- What is left of a well-formed map is well-formed. -/
theorem WellFormed.sublist (h : m.WellFormed) {entries : List (Value × Value)}
    (hsub : entries.Sublist m.entries) : WellFormed { m with entries } :=
  ⟨h.distinct.sublist (hsub.map _), fun hordered => (h.ascending hordered).sublist (hsub.map _)⟩

theorem erasePositions_sublist (m : Dict Value) (positions : List Nat) :
    (m.erasePositions positions).entries.Sublist m.entries := by
  have hsub := (List.filter_sublist (l := m.entries.zipIdx)
    (p := fun e => !positions.contains e.2)).map Prod.fst
  rwa [List.zipIdx_map_fst] at hsub

theorem WellFormed.erasePositions (h : m.WellFormed) (positions : List Nat) :
    (m.erasePositions positions).WellFormed :=
  h.sublist (m.erasePositions_sublist positions)

/-- Entries sorted by their keys. -/
theorem pairwise_mergeSort_keys (entries : List (Value × Value)) :
    (entries.mergeSort fun e f => decide (e.1 ≤ f.1)).Pairwise fun e f => e.1 ≤ f.1 := by
  refine (List.pairwise_mergeSort (fun e f g hef hfg => ?_) (fun e f => ?_) entries).imp
    of_decide_eq_true
  · exact decide_eq_true (Value.le_trans (of_decide_eq_true hef) (of_decide_eq_true hfg))
  · simpa using Value.le_total e.1 f.1

/-- Changing the order policy moves entries at most. -/
theorem setOrder_perm (m : Dict Value) (order : MapOrder) :
    (m.setOrder order).entries.Perm m.entries := by
  rw [setOrder]
  dsimp only
  split
  · exact List.mergeSort_perm _ _
  · exact .refl _

/-- **Changing the order policy keeps a map well-formed**: sorted keys that are pairwise
different ascend. -/
theorem WellFormed.setOrder (h : m.WellFormed) (order : MapOrder) :
    (m.setOrder order).WellFormed := by
  have hperm : (m.setOrder order).keys.Perm m.keys := (m.setOrder_perm order).map _
  have hdistinct : (m.setOrder order).keys.Pairwise fun k l => (k == l) = false :=
    (hperm.pairwise_iff fun hkl => (Value.beq_symm _ _).trans hkl).mpr h.distinct
  refine ⟨hdistinct, fun hordered => ?_⟩
  have hsorted : (m.setOrder order).keys.Pairwise (· ≤ ·) := by
    have hkey : order.isKeyOrdered = true := hordered
    refine List.pairwise_map.mpr ?_
    rw [Dict.setOrder]
    dsimp only
    rw [if_pos hkey]
    exact pairwise_mergeSort_keys m.entries
  exact (hsorted.and hdistinct).imp fun hkl => Value.lt_of_le_of_beq_eq_false hkl.1 hkl.2

/-! ### Images -/

theorem map_fst_image (m : Dict Value) : m.image.map (·.1) = m.keys.map Value.canonical := by
  rw [image, keys, List.map_map, List.map_map]
  rfl

/-- No key stands twice in the image of a well-formed map. -/
theorem WellFormed.nodup_image (h : m.WellFormed) : (m.image.map (·.1)).Nodup := by
  rw [map_fst_image]
  refine List.pairwise_map.mpr (h.distinct.imp fun {k l} hkl heq => ?_)
  rw [Value.beq_iff_canonical_eq.mpr heq] at hkl
  cases hkl

theorem WellFormed.contains_iff_image (h : m.WellFormed) :
    m.contains key = true ↔ key.canonical ∈ m.image.map (·.1) := by
  rw [h.contains_iff, image, List.map_map, List.mem_map]
  exact exists_congr fun e => and_congr_right fun _ => Value.beq_iff_canonical_eq

/-- A map answers what its image holds. -/
theorem WellFormed.get?_image (h : m.WellFormed) {c : Value} :
    (m.get? key).map Value.canonical = some c ↔ (key.canonical, c) ∈ m.image := by
  rw [Option.map_eq_some_iff, image, List.mem_map]
  constructor
  · rintro ⟨value, hget, rfl⟩
    obtain ⟨e, he, hkey, rfl⟩ := h.get?_eq_some_iff.mp hget
    exact ⟨e, he, Prod.ext (Value.beq_iff_canonical_eq.mp hkey) rfl⟩
  · rintro ⟨e, he, heq⟩
    obtain ⟨hkey, rfl⟩ := Prod.mk.inj heq
    exact ⟨e.2, h.get?_eq_some_iff.mpr ⟨e, he, Value.beq_iff_canonical_eq.mpr hkey, rfl⟩, rfl⟩

/-- The other entries of a well-formed map have other keys. -/
theorem WellFormed.others (h : m.WellFormed) {before after : List (Value × Value)}
    {e : Value × Value} (hentries : m.entries = before ++ e :: after)
    (hkey : (e.1 == key) = true) : ∀ f ∈ before ++ after, (f.1 == key) = false := by
  have hdistinct := List.pairwise_map.mp h.distinct
  rw [hentries, List.perm_middle.pairwise_iff fun hef => (Value.beq_symm _ _).trans hef,
    List.pairwise_cons] at hdistinct
  intro f hf
  rw [Value.beq_congr rfl (Value.beq_iff_canonical_eq.mp hkey).symm]
  exact (Value.beq_symm _ _).trans (hdistinct.1 f hf)

/-- **In the image an insertion** puts the new entry in place of the one with its key. -/
theorem WellFormed.image_insert (h : m.WellFormed) (key value : Value) :
    (m.insert key value).image.Perm
      (Value.canonicalEntry (key, value) :: m.image.filter fun e => !(e.1 == key)) := by
  have hcanonical : ∀ e : Value × Value,
      ((Value.canonicalEntry e).1 == key) = (e.1 == key) := fun e =>
    Value.beq_congr (Value.canonical_canonical e.1) rfl
  have hkeep : ∀ es : List (Value × Value), (∀ e ∈ es, (e.1 == key) = false) →
      (es.map Value.canonicalEntry).filter (fun e => !(e.1 == key)) =
        es.map Value.canonicalEntry := fun es hes => by
    refine List.filter_eq_self.mpr (List.forall_mem_map.mpr fun e he => ?_)
    rw [hcanonical, hes e he, Bool.not_false]
  rcases h.insert_cases key value with
    ⟨before, e, after, hentries, hkey, heq⟩ | ⟨before, after, hentries, habsent, -, heq⟩
  · have hothers := h.others hentries hkey
    have hdrop : (!((Value.canonicalEntry e).1 == key)) = false := by
      rw [hcanonical, hkey, Bool.not_true]
    have hnew : Value.canonicalEntry (e.1, value) = Value.canonicalEntry (key, value) :=
      Prod.ext (Value.beq_iff_canonical_eq.mp hkey) rfl
    rw [image, image, heq, hentries, List.map_append, List.map_append, List.map_cons,
      List.map_cons, List.filter_append, List.filter_cons_of_neg (by rw [hdrop]; exact Bool.false_ne_true),
      ← List.filter_append, ← List.map_append, hkeep _ hothers, hnew, List.map_append]
    exact List.perm_middle
  · rw [image, image, hkeep _ habsent, heq, hentries, List.map_append, List.map_cons,
      List.map_append]
    exact List.perm_middle

/-- Entries with new keys, all different, are added to those that are there. -/
theorem WellFormed.image_insertMany (h : m.WellFormed) (pairs : List (Value × Value))
    (hnodup : ((m.image ++ pairs.map Value.canonicalEntry).map (·.1)).Nodup) :
    (m.insertMany pairs).image.Perm (m.image ++ pairs.map Value.canonicalEntry) := by
  induction pairs generalizing m with
  | nil => exact .of_eq (List.append_nil _).symm
  | cons e pairs ih =>
    have hkeys : (e.1.canonical ::
        (m.image ++ pairs.map Value.canonicalEntry).map (·.1)).Nodup :=
      (List.perm_middle.map _).nodup_iff.mp hnodup
    have hnew : m.image.filter (fun f => !(f.1 == e.1)) = m.image := by
      refine List.filter_eq_self.mpr fun f hf => ?_
      rw [Bool.not_eq_true', ← Bool.not_eq_true, Value.beq_iff_canonical_eq]
      intro heq
      refine (List.nodup_cons.mp hkeys).1 ?_
      obtain ⟨g, hg, rfl⟩ := List.mem_map.mp hf
      rw [List.map_append, ← heq]
      refine List.mem_append_left _ (List.mem_map.mpr ⟨_, hf, ?_⟩)
      exact (Value.canonical_canonical g.1).symm
    have hinsert : ((m.insert e.1 e.2).image ++ pairs.map Value.canonicalEntry).Perm
        (Value.canonicalEntry e :: (m.image ++ pairs.map Value.canonicalEntry)) := by
      have hfirst := h.image_insert e.1 e.2
      rw [hnew] at hfirst
      exact hfirst.append_right _
    have hrest := ih (h.insert e.1 e.2) ((hinsert.map Prod.fst).nodup_iff.mpr hkeys)
    exact hrest.trans (hinsert.trans List.perm_middle.symm)

/-- **Entries with different keys** are the entries of the map that is filled with them. -/
theorem image_ofList (order : MapOrder) {pairs : List (Value × Value)}
    (hnodup : ((pairs.map Value.canonicalEntry).map (·.1)).Nodup) :
    (ofList order pairs).image.Perm (pairs.map Value.canonicalEntry) :=
  (WellFormed.empty order).image_insertMany pairs hnodup

/-! ### Equal maps -/

/-- Entries of canonical forms whose keys strictly ascend. -/
def Ascending (entries : List (Value × Value)) : Prop :=
  entries.Pairwise fun e f => Value.compareCanonical e.1 f.1 = .lt

/-- **Ascending entries** are determined by what they are. -/
theorem Ascending.eq_of_perm {es fs : List (Value × Value)} (hes : Ascending es)
    (hfs : Ascending fs) (h : es.Perm fs) : es = fs := by
  refine h.eq_of_pairwise (fun e f _ _ hef hfe => ?_) hes hfs
  have hgt := Std.OrientedCmp.gt_of_lt hfe
  rw [hef] at hgt
  cases hgt

/-- Sorting the image is imaging the map that was sorted. -/
theorem sortEntries_image (m : Dict Value) :
    Value.sortEntries m.image = (m.setOrder .keyOrdered).image := by
  refine (List.map_mergeSort fun e _ f _ => ?_).symm
  rw [Bool.eq_iff_iff, decide_eq_true_eq, Ordering.isLE_iff_ne_gt]
  rfl

/-- The canonical form of a well-formed map lists its entries in ascending order. -/
theorem WellFormed.ascending_sortedImage (h : m.WellFormed) : Ascending m.sortedImage := by
  have hascending : ∀ n : Dict Value, n.WellFormed → n.order.isKeyOrdered = true →
      Ascending n.image := fun n hn hordered =>
    List.pairwise_map.mpr (List.pairwise_map.mp (hn.ascending hordered))
  rw [sortedImage]
  split
  · rename_i hordered
    exact hascending m h hordered
  · rw [sortEntries_image]
    exact hascending _ (h.setOrder .keyOrdered) rfl

/-- Well-formed maps with the same entries have the same canonical form. -/
theorem WellFormed.sortedImage_eq (hm : m.WellFormed) (hn : n.WellFormed)
    (h : m.image.Perm n.image) : m.sortedImage = n.sortedImage :=
  hm.ascending_sortedImage.eq_of_perm hn.ascending_sortedImage
    (m.sortedImage_perm.trans (h.trans n.sortedImage_perm.symm))

/-- **Well-formed maps are equal** when they have the same entries, in any order. -/
theorem WellFormed.beq_iff_perm (hm : m.WellFormed) (hn : n.WellFormed) :
    (m == n) = true ↔ m.image.Perm n.image := by
  have hcompare : (Value.compare (.map m) (.map n) == .eq) = true ↔ m.sortedImage = n.sortedImage := by
    rw [beq_iff_eq, Value.compare_eq_iff, Value.canonical_map, Value.canonical_map]
    simp
  change (m.size == n.size && Value.compare (.map m) (.map n) == .eq) = true ↔ _
  rw [Bool.and_eq_true, hcompare, beq_iff_eq]
  constructor
  · rintro ⟨-, heq⟩
    exact m.sortedImage_perm.symm.trans (heq ▸ n.sortedImage_perm)
  · intro hperm
    refine ⟨?_, hm.sortedImage_eq hn hperm⟩
    have hlength := hperm.length_eq
    rwa [image, image, List.length_map, List.length_map] at hlength

end Dict

end RecordStore
