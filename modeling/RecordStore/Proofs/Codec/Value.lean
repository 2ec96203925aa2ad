import Mathlib.Data.List.Perm.Basic
import RecordStore.Codec.Value
import RecordStore.Proofs.Attempt
import RecordStore.Proofs.Collection.WellFormed
import RecordStore.Proofs.Named
import RecordStore.Proofs.Text.Base64

/-!
# Values are read as they are sent

A value that is sent as JSON and read again comes back, if no map in it looks like a tagged
form (`RecordStore.Codec.returns_of_untagged`). A map looks like one when it has a single
entry, under a text that is a tag (`RecordStore.Dict.LooksTagged`): such a map is sent as
an object with one field, and an object with that field means something else.

Maps are not read as they are stored. Their entries may come back in another order and
under another order policy, so that the induction is on equality and not on identity
(`RecordStore.Codec.Returns`): everything in a list or a map comes back with the same
canonical form, and therefore so does the list or the map.
-/

namespace RecordStore

/-! ### What may be sent -/

/-- **A value occurs in a value**: it is that value, or it occurs in an item, in a key or
in the value at a key. -/
inductive Value.Within : Value → Value → Prop where
  /-- Every value occurs in itself. -/
  | self (v : Value) : Within v v
  /-- What occurs in an item occurs in the list. -/
  | item {w v : Value} {items : List Value} (hv : v ∈ items) (h : Within w v) :
      Within w (.list items)
  /-- What occurs in a key occurs in the map. -/
  | key {w : Value} {m : Dict Value} {e : Value × Value} (he : e ∈ m.entries)
      (h : Within w e.1) : Within w (.map m)
  /-- What occurs in the value at a key occurs in the map. -/
  | value {w : Value} {m : Dict Value} {e : Value × Value} (he : e ∈ m.entries)
      (h : Within w e.2) : Within w (.map m)

namespace Value

variable {w v : Value}

theorem within_list_iff {items : List Value} :
    Within w (.list items) ↔ w = .list items ∨ ∃ v ∈ items, Within w v := by
  constructor
  · intro h
    cases h with
    | self => exact Or.inl rfl
    | item hv h => exact Or.inr ⟨_, hv, h⟩
  · rintro (rfl | ⟨v, hv, h⟩)
    · exact .self _
    · exact .item hv h

theorem within_map_iff {m : Dict Value} :
    Within w (.map m) ↔ w = .map m ∨ ∃ e ∈ m.entries, Within w e.1 ∨ Within w e.2 := by
  constructor
  · intro h
    cases h with
    | self => exact Or.inl rfl
    | key he h => exact Or.inr ⟨_, he, Or.inl h⟩
    | value he h => exact Or.inr ⟨_, he, Or.inr h⟩
  · rintro (rfl | ⟨e, he, h | h⟩)
    · exact .self _
    · exact .key he h
    · exact .value he h

/-- In what is no list and no map nothing else occurs. -/
theorem within_iff_eq (hv : v.kind ≠ .list ∧ v.kind ≠ .map) : Within w v ↔ w = v := by
  constructor
  · intro h
    cases h with
    | self => rfl
    | item => exact absurd rfl hv.1
    | key => exact absurd rfl hv.2
    | value => exact absurd rfl hv.2
  · rintro rfl
    exact .self _

end Value

/-- **A text is kept of a geometry**: some JSON was sent as a geometry, the text is what is
kept of it, and the text is read as the geometry again. -/
def GeoJson.Kept (text : String) : Prop :=
  ∃ sent geometry, ofJson sent = .ok geometry ∧ GeoJson.text sent = .ok text ∧
    Json.ofText? text = some geometry

/-- A text that is kept when it is sent itself. -/
theorem GeoJson.Kept.of_text {text : String}
    (h : (GeoJson.text (.string text)).toOption = some text) : Kept text := by
  have htext : GeoJson.text (.string text) = .ok text := by
    cases hkept : GeoJson.text (.string text) with
    | ok kept =>
      rw [hkept] at h
      exact congrArg Except.ok (Option.some.inj h)
    | error cause =>
      rw [hkept] at h
      cases h
  obtain ⟨geometry, hgeometry, -⟩ := bind_eq_ok_iff.mp htext
  refine ⟨.string text, geometry, hgeometry, htext, ?_⟩
  rw [ofJson] at hgeometry
  split at hgeometry
  · rename_i hread
    rw [hread, Except.ok.inj hgeometry]
  · cases hgeometry

/-- **A value may be sent.** -/
structure Value.Sendable (v : Value) : Prop where
  /-- Maps are well-formed. -/
  wellFormed : v.WellFormed
  /-- Doubles are numbers and not infinite. -/
  finite : ∀ x, Within (.double x) v → x.isFinite = true
  /-- Geometries are kept as they would be when they are sent. -/
  kept : ∀ text, Within (.geoJson text) v → GeoJson.Kept text

namespace Value.Sendable

variable {v : Value} {m : Dict Value} {e : Value × Value}

/-- An item of a list that may be sent may be sent. -/
theorem item {items : List Value} (h : Sendable (.list items)) (hv : v ∈ items) :
    v.Sendable where
  wellFormed := wellFormed_list_iff.mp h.wellFormed v hv
  finite x hx := h.finite x (.item hv hx)
  kept text htext := h.kept text (.item hv htext)

/-- A key of a map that may be sent may be sent. -/
theorem key (h : Sendable (.map m)) (he : e ∈ m.entries) : e.1.Sendable where
  wellFormed := ((wellFormed_map_iff.mp h.wellFormed).2 e he).1
  finite x hx := h.finite x (.key he hx)
  kept text htext := h.kept text (.key he htext)

/-- A value of a map that may be sent may be sent. -/
theorem value (h : Sendable (.map m)) (he : e ∈ m.entries) : e.2.Sendable where
  wellFormed := ((wellFormed_map_iff.mp h.wellFormed).2 e he).2
  finite x hx := h.finite x (.value he hx)
  kept text htext := h.kept text (.value he htext)

end Value.Sendable

namespace Codec

/-- The tags. -/
def tags : List String := ["$bytes", "$geojson", "$map"]

end Codec

/-- **A map looks like a tagged form**: it has a single entry, under a tag. -/
def Dict.LooksTagged (m : Dict Value) : Prop :=
  ∃ tag ∈ Codec.tags, ∃ value, m.entries = [(.string tag, value)]

/-- **A value is untagged**: no map in it looks like a tagged form. -/
def Value.Untagged (v : Value) : Prop := ∀ m, Within (.map m) v → ¬m.LooksTagged

namespace Value

theorem untagged_list_iff {items : List Value} :
    Untagged (.list items) ↔ ∀ v ∈ items, v.Untagged := by
  constructor
  · exact fun h v hv m hm => h m (.item hv hm)
  · intro h m hm
    rcases within_list_iff.mp hm with heq | ⟨v, hv, hm⟩
    · cases heq
    · exact h v hv m hm

theorem untagged_map_iff {m : Dict Value} :
    Untagged (.map m) ↔ ¬m.LooksTagged ∧ ∀ e ∈ m.entries, e.1.Untagged ∧ e.2.Untagged := by
  constructor
  · refine fun h => ⟨h m (.self _), fun e he => ⟨?_, ?_⟩⟩
    · exact fun n hn => h n (.key he hn)
    · exact fun n hn => h n (.value he hn)
  · rintro ⟨hlooks, hentries⟩ n hn
    rcases within_map_iff.mp hn with heq | ⟨e, he, hn | hn⟩
    · cases heq
      exact hlooks
    · exact (hentries e he).1 n hn
    · exact (hentries e he).2 n hn

/-- What is no list and no map is untagged. -/
theorem untagged_of_kind {v : Value} (hv : v.kind ≠ .list ∧ v.kind ≠ .map) : v.Untagged := by
  intro m hm
  rw [within_iff_eq hv] at hm
  exact absurd (congrArg kind hm).symm hv.2

end Value

namespace Codec

variable {c : Codec}

/-- **A value comes back**: what is read of what is sent has its canonical form. -/
def Returns (c : Codec) (v : Value) : Prop :=
  ∃ w, c.toValue (c.toJson v) = .ok w ∧ w.canonical = v.canonical

theorem Returns.of_toValue {v : Value} (h : c.toValue (c.toJson v) = .ok v) : c.Returns v :=
  ⟨v, h, rfl⟩

/-! ### Sequences -/

-- both directions go by the constructors of what they are given
attribute [simp] toJson itemsToJson entriesToJson toValue toValues toEntries toPairs

theorem itemsToJson_eq (c : Codec) (items : List Value) :
    c.itemsToJson items = items.map c.toJson := by
  induction items with
  | nil => simp
  | cons v vs ih => simp [ih]

theorem entriesToJson_eq (c : Codec) (entries : List (Value × Value)) :
    c.entriesToJson entries = entries.map fun e => (e.1, c.toJson e.1, c.toJson e.2) := by
  induction entries with
  | nil => simp
  | cons e es ih => simp [ih]

/-- Items that come back one by one come back together. -/
theorem toValues_returns {items : List Value} (h : ∀ v ∈ items, c.Returns v) :
    ∃ ws, c.toValues (items.map c.toJson) = .ok ws ∧
      ws.map Value.canonical = items.map Value.canonical := by
  induction items with
  | nil => exact ⟨[], by simp, rfl⟩
  | cons v vs ih =>
    obtain ⟨hv, hvs⟩ := List.forall_mem_cons.mp h
    obtain ⟨w, hw, hcanonical⟩ := hv
    obtain ⟨ws, hws, hrest⟩ := ih hvs
    refine ⟨w :: ws, ?_, ?_⟩
    · rw [List.map_cons, toValues, hw, hws]
      rfl
    · rw [List.map_cons, List.map_cons, hcanonical, hrest]

/-- Pairs that come back one by one come back together. -/
theorem toPairs_returns {entries : List (Value × Value)}
    (h : ∀ e ∈ entries, c.Returns e.1 ∧ c.Returns e.2) :
    ∃ ws, c.toPairs (entries.map fun e => .array [c.toJson e.1, c.toJson e.2]) = .ok ws ∧
      ws.map Value.canonicalEntry = entries.map Value.canonicalEntry := by
  induction entries with
  | nil => exact ⟨[], by simp, rfl⟩
  | cons e es ih =>
    obtain ⟨⟨⟨k, hk, hkey⟩, ⟨w, hw, hvalue⟩⟩, hes⟩ := List.forall_mem_cons.mp h
    obtain ⟨ws, hws, hrest⟩ := ih hes
    refine ⟨(k, w) :: ws, ?_, ?_⟩
    · rw [List.map_cons, toPairs, hk, hw, hws]
      rfl
    · rw [List.map_cons, List.map_cons, hrest, Value.canonicalEntry, hkey, hvalue]
      rfl

/-- Fields that come back one by one come back together, each under its name. -/
theorem toEntries_returns {fields : List (String × Value)} (h : ∀ e ∈ fields, c.Returns e.2) :
    ∃ ws, c.toEntries (fields.map fun e => (e.1, c.toJson e.2)) = .ok ws ∧
      ws.map Value.canonicalEntry =
        fields.map fun e => Value.canonicalEntry (.string e.1, e.2) := by
  induction fields with
  | nil => exact ⟨[], by simp, rfl⟩
  | cons e es ih =>
    obtain ⟨⟨w, hw, hvalue⟩, hes⟩ := List.forall_mem_cons.mp h
    obtain ⟨ws, hws, hrest⟩ := ih hes
    refine ⟨(.string e.1, w) :: ws, ?_, ?_⟩
    · rw [List.map_cons, toEntries, hw, hws]
      rfl
    · rw [List.map_cons, List.map_cons, hrest, Value.canonicalEntry, hvalue]
      rfl

/-! ### Maps -/

/-- **The entries of a well-formed map** make an equal map, in whatever order they come
back. -/
theorem canonical_unorderedMap {m : Dict Value} (hm : m.WellFormed)
    {entries : List (Value × Value)} (h : (entries.map Value.canonicalEntry).Perm m.image) :
    (unorderedMap entries).canonical = Value.canonical (.map m) := by
  have hnodup : ((entries.map Value.canonicalEntry).map (·.1)).Nodup :=
    (h.map _).nodup_iff.mpr hm.nodup_image
  have hfilled : (Dict.ofList .unordered entries).WellFormed :=
    (Dict.WellFormed.empty .unordered).insertMany entries
  rw [unorderedMap, Value.canonical_map, Value.canonical_map,
    hfilled.sortedImage_eq hm ((Dict.image_ofList .unordered hnodup).trans h)]

/-- At the tag of bytes there are bytes. -/
theorem toValue_bytes (c : Codec) (inner : Json) :
    c.toValue (.object ⟨[("$bytes", inner)]⟩) = taggedBytes inner := by
  rw [toValue.eq_def]
  dsimp only
  rw [if_pos rfl]

/-- At the tag of geometries there is a geometry. -/
theorem toValue_geoJson (c : Codec) (inner : Json) :
    c.toValue (.object ⟨[("$geojson", inner)]⟩) = taggedGeometry inner := by
  rw [toValue.eq_def]
  dsimp only
  rw [if_neg (by decide), if_pos rfl]

/-- At the tag of maps there are pairs. -/
theorem toValue_map (c : Codec) (pairs : List Json) :
    c.toValue (.object ⟨[("$map", .array pairs)]⟩) = (c.toPairs pairs).map unorderedMap := by
  rw [toValue, if_neg (by decide), if_neg (by decide), if_pos rfl]

/-- An object is read field by field, unless it is a tagged form. -/
theorem toValue_object (c : Codec) {fields : List (String × Json)}
    (h : ∀ name inner, fields = [(name, inner)] → name ∉ tags) :
    c.toValue (.object ⟨fields⟩) = (c.toEntries fields).map unorderedMap := by
  match fields with
  | [] =>
    rw [toValue]
    exact nofun
  | [(name, inner)] =>
    have hname := h name inner rfl
    rw [tags, List.mem_cons, List.mem_cons, List.mem_singleton, not_or, not_or] at hname
    rw [toValue.eq_def]
    dsimp only
    rw [if_neg hname.1, if_neg hname.2.1, if_neg hname.2.2, toEntries, toEntries]
    cases c.toValue inner <;> rfl
  | _ :: _ :: _ =>
    rw [toValue]
    exact nofun

/-- The keys of a map are texts, and make the names of fields; or they do not. -/
theorem fieldNames?_cases (c : Codec) (entries : List (Value × Value)) :
    (∃ fields : List (String × Value), entries = fields.map (fun e => (.string e.1, e.2)) ∧
        fieldNames? (c.entriesToJson entries) = some (fields.map fun e => (e.1, c.toJson e.2))) ∨
      fieldNames? (c.entriesToJson entries) = none := by
  induction entries with
  | nil => exact Or.inl ⟨[], rfl, by simp [fieldNames?]⟩
  | cons e es ih =>
    obtain ⟨key, value⟩ := e
    rw [entriesToJson, fieldNames?, List.mapM_cons]
    cases key with
    | string name =>
      rcases ih with ⟨fields, rfl, hfields⟩ | hnone
      · refine Or.inl ⟨(name, value) :: fields, rfl, ?_⟩
        rw [fieldNames?] at hfields
        rw [hfields]
        rfl
      · refine Or.inr ?_
        rw [fieldNames?] at hnone
        rw [hnone]
        rfl
    | _ => exact Or.inr rfl

/-- Fields sent in the order of their names are the fields of the same values in that
order. -/
theorem exists_sent (c : Codec) {fields : List (String × Value)}
    (hnames : (fields.map (·.1)).Nodup) :
    ∃ sent : List (String × Value), sent.Perm fields ∧
      Json.ofFields (fields.map fun e => (e.1, c.toJson e.2)) =
        .object ⟨sent.map fun e => (e.1, c.toJson e.2)⟩ := by
  have hsorted : (Named.ofList (fields.map fun e => (e.1, c.toJson e.2))).entries.Perm
      (fields.map fun e => (e.1, c.toJson e.2)) := by
    refine Named.ofList_perm ?_
    rw [List.map_map]
    exact hnames
  obtain ⟨sent, hsent, hperm⟩ :=
    (congrFun (congrFun (List.eq_map_comp_perm _) _) _).mpr hsorted
  refine ⟨sent, hperm, ?_⟩
  rw [Json.ofFields, Json.ofNamed, hsent]

/-- The texts that are the keys of a well-formed map are different names. -/
theorem nodup_names {order : MapOrder} {fields : List (String × Value)}
    (hm : Dict.WellFormed ⟨order, fields.map fun e => (.string e.1, e.2)⟩) :
    (fields.map (·.1)).Nodup := by
  have hdistinct := List.pairwise_map.mp (List.pairwise_map.mp hm.distinct)
  refine List.pairwise_map.mpr (hdistinct.imp fun {e f} hef heq => ?_)
  have hsame : (Value.string e.1 == Value.string f.1) = true := by
    rw [heq, Value.beq_iff_canonical_eq]
  rw [hsame] at hef
  cases hef

/-- **A map that does not look like a tagged form** is read field by field or pair by
pair. -/
theorem toValue_toJson_map (c : Codec) {m : Dict Value} (hm : m.WellFormed)
    (hlooks : ¬m.LooksTagged) :
    (∃ fields : List (String × Value),
        (fields.map fun e => (Value.string e.1, e.2)).Perm m.entries ∧
          c.toValue (c.toJson (.map m)) =
            (c.toEntries (fields.map fun e => (e.1, c.toJson e.2))).map unorderedMap) ∨
      c.toValue (c.toJson (.map m)) =
        (c.toPairs (m.entries.map fun e => .array [c.toJson e.1, c.toJson e.2])).map
          unorderedMap := by
  obtain ⟨order, entries⟩ := m
  rw [toJson, mapToJson]
  rcases c.fieldNames?_cases entries with ⟨fields, rfl, hfields⟩ | hnone
  · -- all keys are texts, and the map is sent as an object
    obtain ⟨sent, hperm, hobject⟩ := c.exists_sent (nodup_names hm)
    refine Or.inl ⟨sent, hperm.map _, ?_⟩
    rw [hfields]
    dsimp only
    rw [hobject]
    refine c.toValue_object fun name inner heq htag => ?_
    obtain ⟨e, rfl, hname⟩ := List.map_eq_singleton_iff.mp heq
    have hname : e.1 = name := congrArg Prod.fst hname
    refine hlooks ⟨e.1, hname ▸ htag, e.2, ?_⟩
    rw [List.perm_singleton.mp hperm.symm]
    rfl
  · -- the map is sent pair by pair
    refine Or.inr ?_
    rw [hnone, entriesToJson_eq]
    dsimp only
    rw [List.map_map, toValue_map]
    rfl

/-- **A map comes back** if its keys and its values do, and it does not look like a tagged
form. -/
theorem Returns.map {m : Dict Value} (hm : m.WellFormed) (hlooks : ¬m.LooksTagged)
    (h : ∀ e ∈ m.entries, c.Returns e.1 ∧ c.Returns e.2) : c.Returns (.map m) := by
  rcases c.toValue_toJson_map hm hlooks with ⟨fields, hperm, hread⟩ | hread
  · obtain ⟨ws, hws, hcanonical⟩ :=
      toEntries_returns fun (e : String × Value) (he : e ∈ fields) =>
        (h _ (hperm.mem_iff.mp (List.mem_map_of_mem he))).2
    rw [hws] at hread
    refine ⟨unorderedMap ws, hread, canonical_unorderedMap hm ?_⟩
    have himage := hperm.map Value.canonicalEntry
    rw [List.map_map] at himage
    rw [hcanonical]
    exact himage
  · obtain ⟨ws, hws, hcanonical⟩ := toPairs_returns h
    rw [hws] at hread
    exact ⟨unorderedMap ws, hread, canonical_unorderedMap hm (.of_eq hcanonical)⟩

/-! ### Values -/

/-- A geometry that is kept is kept again. -/
theorem Returns.geoJson {text : String} (h : GeoJson.Kept text) : c.Returns (.geoJson text) := by
  obtain ⟨sent, geometry, hsent, htext, hread⟩ := h
  have hcheck : GeoJson.check geometry = .ok () ∧ geometry.render = text := by
    rw [GeoJson.text, hsent] at htext
    obtain ⟨hcheck, hrender⟩ := check_bind_eq_ok_iff.mp htext
    exact ⟨hcheck, Except.ok.inj hrender⟩
  obtain ⟨hcheck, rfl⟩ := hcheck
  -- a text has no type, so that the geometry is not read as a text again
  have hagain : GeoJson.ofJson geometry = .ok geometry := by
    cases geometry with
    | string s => cases hcheck
    | _ => rfl
  have htext : GeoJson.text geometry = .ok geometry.render := by
    rw [GeoJson.text, hagain]
    exact check_bind_eq_ok_iff.mpr ⟨hcheck, rfl⟩
  refine .of_toValue ?_
  rw [toJson, geometryToJson, hread, Option.getD_some, toValue_geoJson, taggedGeometry, htext]

/-- Bytes come back, if the serializer does not take them for its own. -/
theorem toValue_toJson_bytes {bytes : List UInt8} (h : c.serializer.decode bytes = none) :
    c.toValue (c.toJson (.bytes bytes)) = .ok (.bytes bytes) := by
  rw [toJson, bytesToJson, h, Option.getD_none, toValue_bytes, taggedBytes,
    Base64.decode_encode]

theorem Returns.bytes {bytes : List UInt8} (h : c.serializer.decode bytes = none) :
    c.Returns (.bytes bytes) :=
  .of_toValue (toValue_toJson_bytes h)

theorem toValue_toJson_integer (n : Int64) :
    c.toValue (c.toJson (.integer n)) = .ok (.integer n) := by
  rw [toJson, toValue, integerToValue, Word.int64?_eq_some_iff.mpr rfl]

theorem Returns.integer (n : Int64) : c.Returns (.integer n) :=
  .of_toValue (toValue_toJson_integer n)

theorem Returns.double {x : Double} (h : x.isFinite = true) : c.Returns (.double x) := by
  refine .of_toValue ?_
  rw [toJson, Json.ofDouble, if_pos h, toValue]

/-- A list comes back if its items do. -/
theorem Returns.list {items : List Value} (h : ∀ v ∈ items, c.Returns v) :
    c.Returns (.list items) := by
  obtain ⟨ws, hws, hcanonical⟩ := toValues_returns h
  refine ⟨.list ws, ?_, ?_⟩
  · rw [toJson, itemsToJson_eq, toValue, hws]
    rfl
  · rw [Value.canonical, Value.canonical, Value.canonicalItems_eq, Value.canonicalItems_eq,
      hcanonical]

/-- **A value that may be sent comes back** if it is untagged. -/
theorem returns_of_untagged (hc : ∀ bytes, c.serializer.decode bytes = none) {v : Value}
    (h : v.Sendable) (huntagged : v.Untagged) : c.Returns v := by
  induction v using Value.induction with
  | null => exact .of_toValue (by simp)
  | integer n => exact .integer n
  | double x => exact .double (h.finite x (.self _))
  | string s => exact .of_toValue (by simp)
  | bytes b => exact .bytes (hc b)
  | list items ih =>
    exact .list fun v hv => ih v hv (h.item hv) (Value.untagged_list_iff.mp huntagged v hv)
  | map order entries ih =>
    obtain ⟨hlooks, hentries⟩ := Value.untagged_map_iff.mp huntagged
    refine .map (Value.wellFormed_map_iff.mp h.wellFormed).1 hlooks fun e he => ⟨?_, ?_⟩
    · exact (ih e he).1 (h.key he) (hentries e he).1
    · exact (ih e he).2 (h.value he) (hentries e he).2
  | geoJson text => exact .geoJson (h.kept text (.self _))

end Codec

end RecordStore
