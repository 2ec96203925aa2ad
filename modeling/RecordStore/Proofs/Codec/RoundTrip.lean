import RecordStore.Proofs.Codec.Value

/-!
# Which values are read as they are sent

Exactly those values come back that are untagged (`RecordStore.Codec.toValue_toJson_iff`).
A map that looks like a tagged form is lost, and everything that it occurs in is lost with
it.

That such a map is lost is plain at the tags of bytes and of geometries, where the type of
what is read tells. At the tag of maps a list of pairs is sent, and it is read as a map
again. What tells there is the *weight* of a value, which counts the values that occur in
it (`RecordStore.Value.weight`): reading never adds weight, and it takes weight away
wherever a map looks like a tagged form (`RecordStore.Codec.weighs`). Equal values have the
same weight, so that a value that comes back has lost nothing anywhere.
-/

namespace RecordStore

/-! ### The weight of a value -/

namespace Value

mutual

/-- **The weight of a value**: how many values occur in it. -/
def weight : Value → Nat
  | .null | .integer _ | .double _ | .string _ | .bytes _ | .geoJson _ => 1
  | .list items => 1 + itemsWeight items
  | .map ⟨_, entries⟩ => 1 + entriesWeight entries

/-- The weight of the items of a list. -/
def itemsWeight : List Value → Nat
  | [] => 0
  | v :: vs => weight v + itemsWeight vs

/-- The weight of the entries of a map. -/
def entriesWeight : List (Value × Value) → Nat
  | [] => 0
  | (k, v) :: entries => weight k + weight v + entriesWeight entries

end

/-- Items that keep their weights weigh the same. -/
theorem itemsWeight_map {items : List Value} {f : Value → Value}
    (h : ∀ v ∈ items, (f v).weight = v.weight) :
    itemsWeight (items.map f) = itemsWeight items := by
  induction items with
  | nil => rfl
  | cons v vs ih =>
    obtain ⟨hv, hvs⟩ := List.forall_mem_cons.mp h
    rw [List.map_cons, itemsWeight, itemsWeight, hv, ih hvs]

/-- Entries that keep their weights weigh the same. -/
theorem entriesWeight_map {entries : List (Value × Value)} {f : Value × Value → Value × Value}
    (h : ∀ e ∈ entries, (f e).1.weight = e.1.weight ∧ (f e).2.weight = e.2.weight) :
    entriesWeight (entries.map f) = entriesWeight entries := by
  induction entries with
  | nil => rfl
  | cons e es ih =>
    obtain ⟨⟨hkey, hvalue⟩, hes⟩ := List.forall_mem_cons.mp h
    rw [List.map_cons, entriesWeight, entriesWeight, hkey, hvalue, ih hes]

theorem entriesWeight_append (es fs : List (Value × Value)) :
    entriesWeight (es ++ fs) = entriesWeight es + entriesWeight fs := by
  induction es with
  | nil => exact (Nat.zero_add _).symm
  | cons e es ih =>
    rw [List.cons_append, entriesWeight, entriesWeight, ih]
    omega

theorem entriesWeight_perm {es fs : List (Value × Value)} (h : es.Perm fs) :
    entriesWeight es = entriesWeight fs := by
  induction h with
  | nil => rfl
  | cons e _ ih => rw [entriesWeight, entriesWeight, ih]
  | swap e f es =>
    rw [entriesWeight, entriesWeight, entriesWeight, entriesWeight]
    omega
  | trans _ _ hes hfs => exact hes.trans hfs

/-- What is no list and no map weighs one. -/
theorem weight_eq_one {v : Value} (hv : v.kind ≠ .list ∧ v.kind ≠ .map) : v.weight = 1 := by
  cases v with
  | list items => exact absurd rfl hv.1
  | map m => exact absurd rfl hv.2
  | _ => rfl

/-- Pairs weigh no more as the entries of a map than as lists. -/
theorem itemsWeight_pairs (entries : List (Value × Value)) :
    itemsWeight (entries.map fun e => .list [e.1, e.2]) =
      entries.length + entriesWeight entries := by
  induction entries with
  | nil => rfl
  | cons e es ih =>
    rw [List.map_cons, itemsWeight, ih, weight, itemsWeight, itemsWeight, itemsWeight,
      entriesWeight, List.length_cons]
    omega

/-- Entries whose keys are texts weigh what their values weigh, and one for each key. -/
theorem entriesWeight_of_strings {entries : List (Value × Value)} {names : List String}
    (h : entries.map (·.1) = names.map .string) :
    entriesWeight entries = names.length + itemsWeight (entries.map (·.2)) := by
  induction entries generalizing names with
  | nil =>
    rw [List.map_nil, eq_comm, List.map_eq_nil_iff] at h
    rw [h]
    rfl
  | cons e es ih =>
    cases names with
    | nil => cases h
    | cons name names =>
      obtain ⟨hkey, hrest⟩ := List.cons.inj h
      have hkey : e.1 = .string name := hkey
      rw [entriesWeight, ih hrest, hkey, weight, List.map_cons, itemsWeight, List.length_cons]
      omega

/-- **Equal values have the same weight.** -/
theorem weight_canonical (v : Value) : v.canonical.weight = v.weight := by
  induction v using Value.induction with
  | list items ih =>
    rw [canonical, canonicalItems_eq, weight, weight, itemsWeight_map ih]
  | map order entries ih =>
    rw [canonical_map, weight, weight, entriesWeight_perm (Dict.sortedImage_perm _)]
    exact congrArg (1 + ·) (entriesWeight_map ih)
  | _ => rfl

end Value

open Value in
/-- Inserting adds no more than the key and the value weigh. -/
theorem Dict.WellFormed.entriesWeight_insert_le {m : Dict Value} (h : m.WellFormed)
    (key value : Value) : entriesWeight (m.insert key value).entries ≤
      entriesWeight m.entries + (key.weight + value.weight) := by
  rcases h.insert_cases key value with
    ⟨before, e, after, hentries, -, heq⟩ | ⟨before, after, hentries, -, -, heq⟩
  · rw [heq, hentries, entriesWeight_append, entriesWeight_append, entriesWeight, entriesWeight]
    omega
  · rw [heq, hentries, entriesWeight_append, entriesWeight_append, entriesWeight]
    omega

open Value in
theorem Dict.WellFormed.entriesWeight_insertMany_le {m : Dict Value} (h : m.WellFormed)
    (pairs : List (Value × Value)) :
    entriesWeight (m.insertMany pairs).entries ≤ entriesWeight m.entries + entriesWeight pairs := by
  induction pairs generalizing m with
  | nil => exact Nat.le_refl _
  | cons e pairs ih =>
    have hinsert := h.entriesWeight_insert_le e.1 e.2
    have hrest := ih (h.insert e.1 e.2)
    rw [entriesWeight]
    exact Nat.le_trans hrest (by omega)

namespace Codec

variable {c : Codec}

/-! ### Tagged forms -/

theorem kind_of_taggedBytes {inner : Json} {v : Value} (h : taggedBytes inner = .ok v) :
    v.kind = .bytes := by
  unfold taggedBytes at h
  split at h
  · split at h
    · cases h
      rfl
    · cases h
  · cases h

theorem kind_of_taggedGeometry {inner : Json} {v : Value} (h : taggedGeometry inner = .ok v) :
    v.kind = .geoJson := by
  unfold taggedGeometry at h
  split at h
  · cases h
    rfl
  · cases h

/-- Only pairs are read at the tag of maps. -/
theorem exists_toPairs_of_toValue {inner : Json} {v : Value}
    (h : c.toValue (.object ⟨[("$map", inner)]⟩) = .ok v) :
    ∃ pairs entries, inner = .array pairs ∧ c.toPairs pairs = .ok entries ∧
      v = unorderedMap entries := by
  cases inner with
  | array pairs =>
    rw [toValue_map] at h
    obtain ⟨entries, hentries, rfl⟩ := map_eq_ok_iff.mp h
    exact ⟨pairs, entries, rfl, hentries, rfl⟩
  | _ =>
    rw [toValue, if_neg (by decide), if_neg (by decide), if_pos rfl] at h
    · cases h
    · exact nofun

/-! ### Reading takes weight away -/

/-- **Reading adds no weight** to a value, and keeps its weight only if it is untagged. -/
def Weighs (c : Codec) (v : Value) : Prop :=
  ∀ w, c.toValue (c.toJson v) = .ok w →
    w.weight ≤ v.weight ∧ (w.weight = v.weight → v.Untagged)

/-- Items that are read one by one are read together. -/
theorem weighs_items {items ws : List Value} (h : ∀ v ∈ items, c.Weighs v)
    (hws : c.toValues (items.map c.toJson) = .ok ws) :
    Value.itemsWeight ws ≤ Value.itemsWeight items ∧
      (Value.itemsWeight ws = Value.itemsWeight items → ∀ v ∈ items, v.Untagged) := by
  induction items generalizing ws with
  | nil =>
    rw [List.map_nil, toValues] at hws
    cases hws
    exact ⟨Nat.le_refl _, fun _ v hv => absurd hv List.not_mem_nil⟩
  | cons v vs ih =>
    rw [List.map_cons, toValues] at hws
    obtain ⟨w, hw, hrest⟩ := bind_eq_ok_iff.mp hws
    obtain ⟨us, hus, hcons⟩ := bind_eq_ok_iff.mp hrest
    cases hcons
    obtain ⟨hv, hvs⟩ := List.forall_mem_cons.mp h
    obtain ⟨hhead, hheadUntagged⟩ := hv w hw
    obtain ⟨htail, htailUntagged⟩ := ih hvs hus
    rw [Value.itemsWeight, Value.itemsWeight]
    refine ⟨by omega, fun heq => List.forall_mem_cons.mpr ⟨?_, ?_⟩⟩
    · exact hheadUntagged (by omega)
    · exact htailUntagged (by omega)

/-- A list that is sent is read item by item. -/
theorem Weighs.list {items : List Value} (h : ∀ v ∈ items, c.Weighs v) :
    c.Weighs (.list items) := by
  intro w hw
  rw [toJson, itemsToJson_eq, toValue] at hw
  obtain ⟨ws, hws, rfl⟩ := map_eq_ok_iff.mp hw
  obtain ⟨hle, huntagged⟩ := weighs_items h hws
  rw [Value.weight, Value.weight]
  refine ⟨by omega, fun heq => Value.untagged_list_iff.mpr (huntagged ?_)⟩
  omega

theorem length_of_toValues {items : List Json} {ws : List Value}
    (h : c.toValues items = .ok ws) : ws.length = items.length := by
  induction items generalizing ws with
  | nil =>
    rw [toValues] at h
    cases h
    rfl
  | cons item items ih =>
    rw [toValues] at h
    obtain ⟨w, -, hrest⟩ := bind_eq_ok_iff.mp h
    obtain ⟨us, hus, hcons⟩ := bind_eq_ok_iff.mp hrest
    cases hcons
    exact congrArg (· + 1) (ih hus)

/-- What is read as pairs may be read as a list of lists. -/
theorem toValues_of_toPairs {pairs : List Json} {entries : List (Value × Value)}
    (h : c.toPairs pairs = .ok entries) :
    c.toValues pairs = .ok (entries.map fun e => .list [e.1, e.2]) := by
  induction pairs generalizing entries with
  | nil =>
    rw [toPairs] at h
    cases h
    rw [toValues]
    rfl
  | cons pair pairs ih =>
    unfold toPairs at h
    split at h
    · rename_i heq
      cases heq
    · rename_i heq
      obtain ⟨rfl, rfl⟩ := List.cons.inj heq
      obtain ⟨k, hk, hrest⟩ := bind_eq_ok_iff.mp h
      obtain ⟨v, hv, hrest⟩ := bind_eq_ok_iff.mp hrest
      obtain ⟨es, hes, hcons⟩ := bind_eq_ok_iff.mp hrest
      cases hcons
      rw [toValues, ih hes, toValue, toValues, toValues, toValues, hk, hv]
      rfl
    · cases h

/-- What is read as fields may be read as a list. -/
theorem toValues_of_toEntries {fields : List (String × Json)} {entries : List (Value × Value)}
    (h : c.toEntries fields = .ok entries) :
    c.toValues (fields.map (·.2)) = .ok (entries.map (·.2)) ∧
      entries.map (·.1) = (fields.map (·.1)).map .string := by
  induction fields generalizing entries with
  | nil =>
    rw [toEntries] at h
    cases h
    rw [List.map_nil, toValues]
    exact ⟨rfl, rfl⟩
  | cons field fields ih =>
    rw [toEntries] at h
    obtain ⟨v, hv, hrest⟩ := bind_eq_ok_iff.mp h
    obtain ⟨es, hes, hcons⟩ := bind_eq_ok_iff.mp hrest
    cases hcons
    obtain ⟨hvalues, hnames⟩ := ih hes
    refine ⟨?_, ?_⟩
    · rw [List.map_cons, toValues, hv, hvalues]
      rfl
    · rw [List.map_cons, List.map_cons, List.map_cons, hnames]

/-- A map weighs no more than the entries that it is made of. -/
theorem weight_unorderedMap_le (entries : List (Value × Value)) :
    (unorderedMap entries).weight ≤ 1 + Value.entriesWeight entries := by
  have hle := (Dict.WellFormed.empty .unordered).entriesWeight_insertMany_le entries
  have hempty : Value.entriesWeight (Dict.empty .unordered).entries = 0 := rfl
  rw [hempty, Nat.zero_add] at hle
  exact Nat.add_le_add_left hle 1

/-- **A map that looks like a tagged form** loses weight. -/
theorem weight_lt_of_looksTagged {m : Dict Value} (hlooks : m.LooksTagged)
    (h : ∀ e ∈ m.entries, c.Weighs e.2) {w : Value}
    (hw : c.toValue (c.toJson (.map m)) = .ok w) : w.weight < Value.weight (.map m) := by
  obtain ⟨order, entries⟩ := m
  obtain ⟨tag, htag, value, rfl⟩ := hlooks
  have hweight : Value.weight (.map ⟨order, [(.string tag, value)]⟩) = 2 + value.weight := by
    rw [Value.weight, Value.entriesWeight, Value.entriesWeight, Value.weight]
    omega
  have hsent : c.toJson (.map ⟨order, [(.string tag, value)]⟩) =
      .object ⟨[(tag, c.toJson value)]⟩ := by
    rw [toJson, entriesToJson_eq]
    rfl
  rw [hsent] at hw
  rw [hweight]
  rw [tags, List.mem_cons, List.mem_cons, List.mem_singleton] at htag
  rcases htag with rfl | rfl | rfl
  · rw [toValue_bytes] at hw
    have hkind := kind_of_taggedBytes hw
    rw [Value.weight_eq_one (by rw [hkind]; decide)]
    omega
  · rw [toValue_geoJson] at hw
    have hkind := kind_of_taggedGeometry hw
    rw [Value.weight_eq_one (by rw [hkind]; decide)]
    omega
  · -- the pairs could be read as the list that they are
    obtain ⟨pairs, read, hpairs, hread, rfl⟩ := exists_toPairs_of_toValue hw
    have hlist : c.toValue (c.toJson value) = .ok (.list (read.map fun e => .list [e.1, e.2])) := by
      rw [hpairs, toValue, toValues_of_toPairs hread]
      rfl
    have hle : _ ≤ value.weight := (h _ List.mem_cons_self _ hlist).1
    have hmap := weight_unorderedMap_le read
    rw [Value.weight, Value.itemsWeight_pairs] at hle
    omega

/-- Fields that are read one by one are read together. -/
theorem weighs_fields {fields : List (String × Value)} {entries : List (Value × Value)}
    (h : ∀ e ∈ fields, c.Weighs e.2)
    (hread : c.toEntries (fields.map fun e => (e.1, c.toJson e.2)) = .ok entries) :
    Value.entriesWeight entries ≤
        Value.entriesWeight (fields.map fun e => (Value.string e.1, e.2)) ∧
      (Value.entriesWeight entries =
          Value.entriesWeight (fields.map fun e => (Value.string e.1, e.2)) →
        ∀ e ∈ fields, e.2.Untagged) := by
  obtain ⟨hvalues, hnames⟩ := toValues_of_toEntries hread
  rw [List.map_map] at hvalues
  have hitems : c.toValues ((fields.map (·.2)).map c.toJson) = .ok (entries.map (·.2)) := by
    rw [List.map_map]
    exact hvalues
  have hkeys : entries.map (·.1) = (fields.map (·.1)).map Value.string :=
    hnames.trans (congrArg (List.map Value.string) List.map_map)
  have hfields : (fields.map fun e => (Value.string e.1, e.2)).map (·.1) =
      (fields.map (·.1)).map Value.string := by
    rw [List.map_map, List.map_map]
    rfl
  have hread := Value.entriesWeight_of_strings hkeys
  have hsent := Value.entriesWeight_of_strings hfields
  rw [List.map_map] at hsent
  obtain ⟨hle, huntagged⟩ := weighs_items (List.forall_mem_map.mpr h) hitems
  rw [hread, hsent]
  refine ⟨Nat.add_le_add_left hle _, fun heq => ?_⟩
  exact List.forall_mem_map.mp (huntagged (Nat.add_left_cancel heq))

/-- Pairs that are read one by one are read together. -/
theorem weighs_pairs {entries read : List (Value × Value)}
    (h : ∀ e ∈ entries, c.Weighs e.1 ∧ c.Weighs e.2)
    (hread : c.toPairs (entries.map fun e => .array [c.toJson e.1, c.toJson e.2]) = .ok read) :
    Value.entriesWeight read ≤ Value.entriesWeight entries ∧
      (Value.entriesWeight read = Value.entriesWeight entries →
        ∀ e ∈ entries, e.1.Untagged ∧ e.2.Untagged) := by
  have hvalues := toValues_of_toPairs hread
  have hitems : c.toValues ((entries.map fun e => Value.list [e.1, e.2]).map c.toJson) =
      .ok (read.map fun e => .list [e.1, e.2]) := by
    rw [← hvalues, List.map_map]
    refine congrArg c.toValues (List.map_congr_left fun e _ => ?_)
    simp
  have hlists : ∀ v ∈ entries.map (fun e => Value.list [e.1, e.2]), c.Weighs v := by
    refine List.forall_mem_map.mpr fun e he => .list ?_
    simpa using h e he
  have hlength : read.length = entries.length := by
    have := length_of_toValues hitems
    rwa [List.length_map, List.length_map, List.length_map] at this
  obtain ⟨hle, huntagged⟩ := weighs_items hlists hitems
  rw [Value.itemsWeight_pairs, Value.itemsWeight_pairs, hlength] at hle huntagged
  refine ⟨Nat.le_of_add_le_add_left hle, fun heq e he => ?_⟩
  have hpair := List.forall_mem_map.mp (huntagged (congrArg _ heq)) e he
  simpa [Value.untagged_list_iff] using hpair

/-- A map that is sent is read field by field or pair by pair, if it is read as a map. -/
theorem Weighs.map {m : Dict Value} (hm : m.WellFormed)
    (h : ∀ e ∈ m.entries, c.Weighs e.1 ∧ c.Weighs e.2) : c.Weighs (.map m) := by
  intro w hw
  by_cases hlooks : m.LooksTagged
  · have hlt := weight_lt_of_looksTagged hlooks (fun e he => (h e he).2) hw
    exact ⟨Nat.le_of_lt hlt, fun heq => absurd heq (Nat.ne_of_lt hlt)⟩
  rw [Value.weight, Value.untagged_map_iff]
  rcases c.toValue_toJson_map hm hlooks with ⟨fields, hperm, hread⟩ | hread
  · rw [hread] at hw
    obtain ⟨entries, hentries, rfl⟩ := map_eq_ok_iff.mp hw
    have hmap := weight_unorderedMap_le entries
    obtain ⟨hle, huntagged⟩ := weighs_fields
      (fun e he => (h _ (hperm.mem_iff.mp (List.mem_map_of_mem he))).2) hentries
    rw [Value.entriesWeight_perm hperm] at hle huntagged
    refine ⟨by omega, fun heq => ⟨hlooks, fun e he => ?_⟩⟩
    obtain ⟨f, hf, rfl⟩ := List.mem_map.mp (hperm.mem_iff.mpr he)
    refine ⟨Value.untagged_of_kind (by simp [Value.kind]), huntagged ?_ f hf⟩
    omega
  · rw [hread] at hw
    obtain ⟨entries, hentries, rfl⟩ := map_eq_ok_iff.mp hw
    have hmap := weight_unorderedMap_le entries
    obtain ⟨hle, huntagged⟩ := weighs_pairs h hentries
    refine ⟨by omega, fun heq => ⟨hlooks, huntagged ?_⟩⟩
    omega

/-- What is neither sent nor read as a list or a map keeps its weight. -/
theorem Weighs.of_kind {v : Value} (hv : v.kind ≠ .list ∧ v.kind ≠ .map)
    (h : ∀ w, c.toValue (c.toJson v) = .ok w → w.kind ≠ .list ∧ w.kind ≠ .map) :
    c.Weighs v := by
  intro w hw
  rw [Value.weight_eq_one hv, Value.weight_eq_one (h w hw)]
  exact ⟨Nat.le_refl 1, fun _ => Value.untagged_of_kind hv⟩

/-- **Reading takes weight away** wherever a map looks like a tagged form, and nowhere adds
any. -/
theorem weighs (hc : ∀ bytes, c.serializer.decode bytes = none) {v : Value} (h : v.WellFormed) :
    c.Weighs v := by
  induction v using Value.induction with
  | null =>
    refine .of_kind (by simp [Value.kind]) fun w hw => ?_
    rw [toJson, toValue] at hw
    cases hw
    simp [Value.kind]
  | integer n =>
    refine .of_kind (by simp [Value.kind]) fun w hw => ?_
    rw [toJson, toValue, integerToValue, Word.int64?_eq_some_iff.mpr rfl] at hw
    cases hw
    simp [Value.kind]
  | double x =>
    refine .of_kind (by simp [Value.kind]) fun w hw => ?_
    rw [toJson, Json.ofDouble] at hw
    split at hw
    · rw [toValue] at hw
      cases hw
      simp [Value.kind]
    · rw [toValue] at hw
      cases hw
      simp [Value.kind]
  | string s =>
    refine .of_kind (by simp [Value.kind]) fun w hw => ?_
    rw [toJson, toValue] at hw
    cases hw
    simp [Value.kind]
  | bytes b =>
    refine .of_kind (by simp [Value.kind]) fun w hw => ?_
    rw [toJson, bytesToJson, hc, Option.getD_none, toValue_bytes] at hw
    rw [kind_of_taggedBytes hw]
    decide
  | list items ih => exact .list fun v hv => ih v hv (Value.wellFormed_list_iff.mp h v hv)
  | map order entries ih =>
    obtain ⟨hm, hentries⟩ := Value.wellFormed_map_iff.mp h
    refine .map hm fun e he => ⟨?_, ?_⟩
    · exact (ih e he).1 (hentries e he).1
    · exact (ih e he).2 (hentries e he).2
  | geoJson text =>
    refine .of_kind (by simp [Value.kind]) fun w hw => ?_
    rw [toJson, geometryToJson, toValue_geoJson] at hw
    rw [kind_of_taggedGeometry hw]
    decide

/-! ### What comes back -/

/-- **What comes back is untagged.** -/
theorem Returns.untagged (hc : ∀ bytes, c.serializer.decode bytes = none) {v : Value}
    (hv : v.WellFormed) (h : c.Returns v) : v.Untagged := by
  obtain ⟨w, hw, hcanonical⟩ := h
  refine (weighs hc hv w hw).2 ?_
  rw [← w.weight_canonical, hcanonical, v.weight_canonical]

/-- **The values that are read as they are sent** are those in which no map looks like a
tagged form. -/
theorem toValue_toJson_iff {v : Value} (h : v.Sendable) :
    (∃ w, (Codec.mk .none).toValue ((Codec.mk .none).toJson v) = .ok w ∧ (w == v) = true) ↔
      v.Untagged := by
  have hc : ∀ bytes, (Codec.mk .none).serializer.decode bytes = none := fun _ => rfl
  constructor
  · rintro ⟨w, hw, heq⟩
    exact Returns.untagged hc h.wellFormed ⟨w, hw, Value.beq_iff_canonical_eq.mp heq⟩
  · intro huntagged
    obtain ⟨w, hw, hcanonical⟩ := returns_of_untagged hc h huntagged
    exact ⟨w, hw, Value.beq_iff_canonical_eq.mpr hcanonical⟩

/-- A list of a map that is sent pair by pair, of a map with a tag among its keys, and of a
geometry. -/
theorem toValue_toJson_list_of_tagged :
    let pairs : Dict Value := ⟨.keyOrdered, [(.integer 1, .string "$map"), (.bytes [2], .null)]⟩
    let fields : Dict Value := ⟨.unordered, [(.string "$map", .list []), (.string "a", .null)]⟩
    let point := "\x7b\"coordinates\":[],\"type\":\"Point\"\x7d"
    let v : Value := .list [.map pairs, .map fields, .geoJson point]
    v.Sendable ∧
      ∃ w, (Codec.mk .none).toValue ((Codec.mk .none).toJson v) = .ok w ∧ (w == v) = true := by
  intro pairs fields point v
  have hpairs : Value.WellFormed (.map pairs) := by
    refine .map ⟨by decide, fun _ => by decide⟩ ?_ ?_
    · simp [pairs, Value.WellFormed.integer, Value.WellFormed.bytes]
    · simp [pairs, Value.WellFormed.string, Value.WellFormed.null]
  have hfields : Value.WellFormed (.map fields) := by
    refine .map ⟨by decide, nofun⟩ ?_ ?_
    · simp [fields, Value.WellFormed.string]
    · simp [fields, Value.WellFormed.null, Value.wellFormed_list_iff]
  have hpoint : GeoJson.Kept "\x7b\"coordinates\":[],\"type\":\"Point\"\x7d" :=
    .of_text (by decide +kernel)
  have hv : v.Sendable := by
    refine ⟨Value.wellFormed_list_iff.mpr ?_, fun x hx => ?_, fun text htext => ?_⟩
    · simp [hpairs, hfields, Value.WellFormed.geoJson]
    · simp [v, pairs, fields, Value.within_list_iff, Value.within_map_iff, Value.within_iff_eq,
        Value.kind] at hx
    · have heq : text = point := by
        simpa [v, pairs, fields, Value.within_list_iff, Value.within_map_iff,
          Value.within_iff_eq, Value.kind] using htext
      rw [heq]
      exact hpoint
  refine ⟨hv, (toValue_toJson_iff hv).mpr fun m hm => ?_⟩
  have hcases : m = pairs ∨ m = fields := by
    simpa [v, pairs, fields, Value.within_list_iff, Value.within_map_iff, Value.within_iff_eq,
      Value.kind] using hm
  -- both maps have two entries
  rintro ⟨tag, -, value, hentries⟩
  have hlength : m.entries.length = 2 := by
    rcases hcases with rfl | rfl <;> rfl
  rw [hentries] at hlength
  cases hlength

/-- The map of one text at the tag of bytes may be sent, but it does not come back. -/
theorem toValue_toJson_bytes_lookalike :
    let v : Value := .map ⟨.unordered, [(.string "$bytes", .string "AQID")]⟩
    v.Sendable ∧
      ¬∃ w, (Codec.mk .none).toValue ((Codec.mk .none).toJson v) = .ok w ∧ (w == v) = true := by
  intro v
  have hv : v.Sendable := by
    refine ⟨.map ⟨by decide, nofun⟩ ?_ ?_, fun x hx => ?_, fun text htext => ?_⟩
    · simp [Value.WellFormed.string]
    · simp [Value.WellFormed.string]
    · simp [v, Value.within_map_iff, Value.within_iff_eq, Value.kind] at hx
    · simp [v, Value.within_map_iff, Value.within_iff_eq, Value.kind] at htext
  refine ⟨hv, ?_⟩
  rintro ⟨w, hw, heq⟩
  have huntagged := Returns.untagged (fun _ => rfl) hv.wellFormed
    ⟨w, hw, Value.beq_iff_canonical_eq.mp heq⟩
  exact huntagged _ (.self _) ⟨"$bytes", by decide, .string "AQID", rfl⟩

end Codec

end RecordStore
