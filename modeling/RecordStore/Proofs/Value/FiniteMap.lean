import RecordStore.Proofs.Selection.Rank
import RecordStore.Proofs.Value.Lookup

/-!
# The laws of maps

Everything that looks a key up in a map relies on one invariant, that the keys are different and
that they ascend where the policy orders them (`RecordStore.Dict.WellFormed`): the search by
halving answers nonsense without it, and nothing checks it at run time. So no operation may break
it, whatever it is given. This file adds what was not said yet about erasing keys, about sizes and
about the order of the keys, and collects the whole in one place
(`RecordStore.Dict.finite_map_laws`).

The laws speak of what a map answers and of how many entries it has
(`RecordStore.Dict.ActsAsFiniteMap`), and not of where an entry stands. Only the order of the keys
is about positions: it has each of them once, from the least key to the greatest.
-/

namespace RecordStore.Dict

variable {m : Dict Value} {key value other : Value} {f : Value × Value}

/-! ### Erasing -/

/-- **What erasing a key does** to a map: it takes the entry with the key out, or finds none. -/
theorem WellFormed.erase_cases (h : m.WellFormed) (key : Value) :
    (∃ before e after, m.entries = before ++ e :: after ∧ (e.1 == key) = true ∧
        m.erase key = ⟨m.order, before ++ after⟩) ∨
      (∀ e ∈ m.entries, (e.1 == key) = false) ∧ m.erase key = m := by
  have hfits := h.fits key
  rw [erase]
  generalize m.place key = place at hfits
  cases hfits with
  | @found before after e hentries hkey =>
    refine Or.inl ⟨before, e, after, hentries, hkey, ?_⟩
    simp [hentries, List.eraseIdx_append_of_length_le]
  | absent hentries habsent hbetween => exact Or.inr ⟨habsent, rfl⟩

/-- Erasing keeps a map well-formed. -/
theorem WellFormed.erase (h : m.WellFormed) (key : Value) : (m.erase key).WellFormed := by
  rcases h.erase_cases key with ⟨before, e, after, hentries, -, heq⟩ | ⟨-, heq⟩
  · rw [heq]
    refine h.sublist ?_
    rw [hentries]
    exact (List.sublist_cons_self e after).append_left before
  · rw [heq]
    exact h

/-- **What is left when a key is erased** are the entries with other keys. -/
theorem WellFormed.mem_erase_iff (h : m.WellFormed) :
    f ∈ (m.erase key).entries ↔ f ∈ m.entries ∧ (f.1 == key) = false := by
  rcases h.erase_cases key with ⟨before, e, after, hentries, hkey, heq⟩ | ⟨habsent, heq⟩
  · have hothers := h.others hentries hkey
    rw [heq, hentries]
    constructor
    · intro hf
      refine ⟨?_, hothers f hf⟩
      exact ((List.sublist_cons_self e after).append_left before).subset hf
    · rintro ⟨hf, hne⟩
      rcases List.mem_append.mp hf with hf | hf
      · exact List.mem_append_left _ hf
      · rcases List.mem_cons.mp hf with rfl | hf
        · rw [hkey] at hne
          cases hne
        · exact List.mem_append_right _ hf
  · rw [heq]
    exact ⟨fun hf => ⟨hf, habsent f hf⟩, fun hf => hf.1⟩

/-- **An erased key is answered no more**, and the others are answered as before. -/
theorem WellFormed.get?_erase (h : m.WellFormed) (key other : Value) :
    (m.erase key).get? other = if key == other then none else m.get? other := by
  refine Option.ext fun v => ?_
  rw [(h.erase key).get?_eq_some_iff]
  split
  · rename_i hkey
    refine iff_of_false ?_ nofun
    rintro ⟨f, hf, hfkey, -⟩
    have hne := (h.mem_erase_iff.mp hf).2
    rw [Value.beq_symm, key_eq_trans hkey, Value.beq_symm, hfkey] at hne
    cases hne
  · rename_i hkey
    rw [h.get?_eq_some_iff]
    refine exists_congr fun f => ?_
    rw [h.mem_erase_iff]
    constructor
    · exact fun ⟨⟨hf, _⟩, hfkey, hv⟩ => ⟨hf, hfkey, hv⟩
    · rintro ⟨hf, hfkey, hv⟩
      refine ⟨⟨hf, ?_⟩, hfkey, hv⟩
      rw [key_eq_trans hfkey, Value.beq_symm]
      exact eq_false_of_ne_true hkey

/-! ### Sizes -/

/-- A key that stands among the entries is present. -/
theorem WellFormed.contains_of_entries (h : m.WellFormed) {before after : List (Value × Value)}
    {e : Value × Value} (hentries : m.entries = before ++ e :: after)
    (hkey : (e.1 == key) = true) : m.contains key = true :=
  h.contains_iff.mpr ⟨e, hentries ▸ List.mem_append_right _ List.mem_cons_self, hkey⟩

/-- A key that no entry has is absent. -/
theorem WellFormed.not_contains (h : m.WellFormed)
    (habsent : ∀ e ∈ m.entries, (e.1 == key) = false) : ¬m.contains key = true := by
  rw [h.contains_iff]
  rintro ⟨e, he, hkey⟩
  rw [habsent e he] at hkey
  cases hkey

/-- **An insertion adds an entry** exactly if its key is absent. -/
theorem WellFormed.size_insert (h : m.WellFormed) (key value : Value) :
    (m.insert key value).size = if m.contains key then m.size else m.size + 1 := by
  rcases h.insert_cases key value with
    ⟨before, e, after, hentries, hkey, heq⟩ | ⟨before, after, hentries, habsent, -, heq⟩
  · rw [if_pos (h.contains_of_entries hentries hkey), size, size, heq, hentries,
      List.length_append, List.length_append]
    rfl
  · rw [if_neg (h.not_contains habsent), size, size, heq, hentries, List.length_append,
      List.length_append]
    rfl

/-- **Erasing takes an entry away** exactly if the key is present. -/
theorem WellFormed.size_erase (h : m.WellFormed) (key : Value) :
    m.size = if m.contains key then (m.erase key).size + 1 else (m.erase key).size := by
  rcases h.erase_cases key with ⟨before, e, after, hentries, hkey, heq⟩ | ⟨habsent, heq⟩
  · rw [if_pos (h.contains_of_entries hentries hkey), size, size, heq, hentries,
      List.length_append, List.length_append]
    rfl
  · rw [if_neg (h.not_contains habsent), heq]

/-! ### The order policy and the order of the keys -/

/-- **Changing the order policy changes no answer.** -/
theorem WellFormed.get?_setOrder (h : m.WellFormed) (order : MapOrder) (key : Value) :
    (m.setOrder order).get? key = m.get? key := by
  refine Option.ext fun v => ?_
  rw [(h.setOrder order).get?_eq_some_iff, h.get?_eq_some_iff]
  exact exists_congr fun e => and_congr_left fun _ => (m.setOrder_perm order).mem_iff

/-- The order of the keys has every storage position once. -/
theorem keyOrder_perm (m : Dict Value) : m.keyOrder.Perm (List.range m.size) := by
  have hpositions := m.byKey_perm.map Prod.snd
  rwa [List.zipIdx_map_snd, ← List.range_eq_range'] at hpositions

/-- **Along the order of the keys the keys ascend.** -/
theorem WellFormed.pairwise_keyOrder (h : m.WellFormed) :
    m.keyOrder.Pairwise fun i j =>
      ∀ e f, m.entries[i]? = some e → m.entries[j]? = some f → e.1 < f.1 := by
  have hstored : ∀ a ∈ m.byKey, m.entries[a.2]? = some a.1 := fun a ha =>
    List.mk_mem_zipIdx_iff_getElem?.mp (m.byKey_perm.mem_iff.mp ha)
  refine List.pairwise_map.mpr ((List.pairwise_map.mp h.pairwise_byKey).imp_of_mem ?_)
  intro a b ha hb hlt e f he hf
  rw [hstored a ha] at he
  rw [hstored b hb] at hf
  obtain rfl := Option.some_inj.mp he
  obtain rfl := Option.some_inj.mp hf
  exact hlt

/-! ### The laws -/

/-- **A map acts as a finite function** under its operations. -/
structure ActsAsFiniteMap (m : Dict Value) : Prop where
  /-- An insertion changes the answer at its key, and at no other. -/
  get?_insert : ∀ key value other,
    (m.getThenInsert? key value).2.get? other = if key == other then some value else m.get? other
  /-- It answers the value that was stored under the key. -/
  insert_answers : ∀ key value old,
    (m.getThenInsert? key value).1 = some old ↔
      ∃ e ∈ m.entries, (e.1 == key) = true ∧ e.2 = old
  /-- It adds one entry, if the key was absent, and none otherwise. -/
  size_insert : ∀ key value,
    (m.getThenInsert? key value).2.size =
      if (m.getThenInsert? key value).1.isSome then m.size else m.size + 1
  /-- Erasing a key takes away the answer at the key, and at no other. -/
  get?_erase : ∀ key other,
    (m.getThenErase? key).2.get? other = if key == other then none else m.get? other
  /-- It answers the value that was stored under the key. -/
  erase_answers : ∀ key old,
    (m.getThenErase? key).1 = some old ↔ ∃ e ∈ m.entries, (e.1 == key) = true ∧ e.2 = old
  /-- It takes one entry away, if the key was present, and none otherwise. -/
  size_erase : ∀ key,
    m.size = if (m.getThenErase? key).1.isSome then (m.getThenErase? key).2.size + 1
      else (m.getThenErase? key).2.size
  /-- Changing the order policy changes no answer. -/
  get?_setOrder : ∀ order key, (m.setOrder order).get? key = m.get? key
  /-- The order of the keys has every storage position once. -/
  keyOrder_perm : m.keyOrder.Perm (List.range m.size)
  /-- Along it the keys ascend. -/
  keyOrder_ascends : m.keyOrder.Pairwise fun i j =>
    ∀ e f, m.entries[i]? = some e → m.entries[j]? = some f → e.1 < f.1

theorem WellFormed.actsAsFiniteMap (h : m.WellFormed) : m.ActsAsFiniteMap where
  get?_insert := h.get?_insert
  insert_answers _ _ _ := h.get?_eq_some_iff
  size_insert key value := by
    rw [getThenInsert?, h.size_insert, h.contains_eq]
  get?_erase := h.get?_erase
  erase_answers _ _ := h.get?_eq_some_iff
  size_erase key := by
    rw [getThenErase?, ← h.contains_eq]
    exact h.size_erase key
  get?_setOrder := h.get?_setOrder
  keyOrder_perm := m.keyOrder_perm
  keyOrder_ascends := h.pairwise_keyOrder

/-- **Maps are finite functions, and stay so.** A map without entries is well-formed, and so is one
that is filled with any pairs; whatever is inserted into a well-formed map or erased from it, by
keys or by positions, and whatever order policy it is given, it is well-formed afterwards. And a
well-formed map acts as a finite function. -/
theorem finite_map_laws :
    (∀ order, (empty order).WellFormed ∧ ∀ pairs, (ofList order pairs).WellFormed) ∧
      ∀ m : Dict Value, m.WellFormed →
        (∀ key value, (m.getThenInsert? key value).2.WellFormed) ∧
          (∀ key, (m.getThenErase? key).2.WellFormed) ∧
          m.clear.WellFormed ∧
          (∀ order, (m.setOrder order).WellFormed) ∧
          (∀ positions, (m.erasePositions positions).WellFormed) ∧
          m.ActsAsFiniteMap :=
  ⟨fun order => ⟨.empty order, (WellFormed.empty order).insertMany⟩,
    fun m h => ⟨h.insert, h.erase, .clear m, h.setOrder, h.erasePositions, h.actsAsFiniteMap⟩⟩

/-- A map without order under a key that is a map itself: another spelling of this key replaces
its value, and a new key goes in front of it when the keys are put in order. -/
theorem finite_map_laws_respelled :
    let filled : Value := .map ⟨.unordered, [(.integer 2, .null), (.integer 1, .null)]⟩
    let sorted : Value := .map ⟨.keyOrdered, [(.integer 1, .null), (.integer 2, .null)]⟩
    let m : Dict Value := ⟨.unordered, [(filled, .integer 7)]⟩
    let n := (m.getThenInsert? (.string "a") (.integer 8)).2
    m.WellFormed ∧ n.WellFormed ∧ (m.getThenInsert? sorted (.integer 9)).1 = some (.integer 7) ∧
      (m.getThenInsert? sorted (.integer 9)).2.get? filled = some (.integer 9) ∧
      (m.getThenErase? sorted).2.size + 1 = m.size ∧ n.keyOrder.Perm [0, 1] ∧
      (n.setOrder .keyOrdered).get? filled = n.get? filled := by
  intro filled sorted m n
  have hm : m.WellFormed := ⟨by decide, nofun⟩
  have hkeys : (filled == sorted) = true := by
    have hfilled : (Dict.mk .unordered [(.integer 2, .null), (.integer 1, .null)]).WellFormed :=
      ⟨by decide, nofun⟩
    have hsorted : (Dict.mk .keyOrdered [(.integer 1, .null), (.integer 2, .null)]).WellFormed :=
      ⟨by decide, fun _ => by decide⟩
    exact (hfilled.beq_iff_perm hsorted).mpr (.swap _ _ [])
  obtain ⟨-, hlaws⟩ := finite_map_laws
  obtain ⟨hinsert, -, -, -, -, hacts⟩ := hlaws m hm
  obtain ⟨-, -, -, -, -, hactsAfter⟩ := hlaws n (hinsert _ _)
  have hold : (m.getThenInsert? sorted (.integer 9)).1 = some (.integer 7) :=
    (hacts.insert_answers _ _ _).mpr ⟨_, List.mem_cons_self, hkeys, rfl⟩
  have hgone : (m.getThenErase? sorted).1 = some (.integer 7) :=
    (hacts.erase_answers _ _).mpr ⟨_, List.mem_cons_self, hkeys, rfl⟩
  have hnew : (m.getThenInsert? sorted (.integer 9)).2.get? filled = some (.integer 9) := by
    rw [hacts.get?_insert, if_pos ((Value.beq_symm _ _).trans hkeys)]
  have hsize := hacts.size_erase sorted
  rw [hgone] at hsize
  refine ⟨hm, hinsert _ _, hold, hnew, hsize.symm, ?_, hactsAfter.get?_setOrder _ _⟩
  exact hactsAfter.keyOrder_perm

end RecordStore.Dict
