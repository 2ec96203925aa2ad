import RecordStore.Proofs.Codec.Value
import RecordStore.Proofs.Text.Utf8

/-!
# JSON comes back as it was sent

The other direction of `RecordStore.Codec.returns_of_untagged`: JSON that is read as a
value and sent again is the same JSON, if it is natural
(`RecordStore.Codec.toJson_toValue`). JSON is *natural* (`RecordStore.Json.Natural`) when
a word holds each of its integers and none of its objects is a tagged form.

Nothing is lost on the way in, because an object becomes a map whose entries stand in
the order of the fields (`RecordStore.Dict.ofList_unordered`), and nothing on the way
out, because fields that ascend are left as they are (`RecordStore.Named.ofList_ascending`).
So the identity holds on the nose, and not up to some order of fields or entries. Truth
values are the one kind of JSON that is not a value. They come back when the serializer
knows its own bytes again (`RecordStore.Codec.Keeps`), at whatever depth they stand.
-/

namespace RecordStore

/-! ### Natural JSON -/

namespace Json

/-- **Induction over JSON**: an array or an object has a property if everything in it
has. -/
@[elab_as_elim]
theorem induction {motive : Json → Prop} (null : motive .null) (bool : ∀ b, motive (.bool b))
    (integer : ∀ n, motive (.integer n)) (float : ∀ x, motive (.float x))
    (string : ∀ s, motive (.string s))
    (array : ∀ items : List Json, (∀ j ∈ items, motive j) → motive (.array items))
    (object : ∀ fields : List (String × Json),
      (∀ e ∈ fields, motive e.2) → motive (.object ⟨fields⟩)) (j : Json) : motive j :=
  -- one motive for JSON, and one for each type that JSON is nested in
  @Json.rec motive (fun items => ∀ j ∈ items, motive j) (fun fields => motive (.object fields))
    (fun fields => ∀ e ∈ fields, motive e.2) (fun e => motive e.2)
    null bool integer float string array (fun _ h => h)
    (fun _ h => absurd h List.not_mem_nil)
    (fun _ _ hhead htail => List.forall_mem_cons.mpr ⟨hhead, htail⟩) object
    (fun _ h => absurd h List.not_mem_nil)
    (fun _ _ hhead htail => List.forall_mem_cons.mpr ⟨hhead, htail⟩)
    (fun _ _ h => h) j

/-- **JSON occurs in JSON**: it is that JSON, or it occurs in an item of an array or in a
field of an object. -/
inductive Within : Json → Json → Prop where
  /-- All JSON occurs in itself. -/
  | self (j : Json) : Within j j
  /-- What occurs in an item occurs in the array. -/
  | item {i j : Json} {items : List Json} (hj : j ∈ items) (h : Within i j) :
      Within i (.array items)
  /-- What occurs in a field occurs in the object. -/
  | field {i : Json} {fields : List (String × Json)} {e : String × Json} (he : e ∈ fields)
      (h : Within i e.2) : Within i (.object ⟨fields⟩)

theorem within_array_iff {i : Json} {items : List Json} :
    Within i (.array items) ↔ i = .array items ∨ ∃ j ∈ items, Within i j := by
  constructor
  · intro h
    cases h with
    | self => exact Or.inl rfl
    | item hj h => exact Or.inr ⟨_, hj, h⟩
  · rintro (rfl | ⟨j, hj, h⟩)
    · exact .self _
    · exact .item hj h

theorem within_object_iff {i : Json} {fields : List (String × Json)} :
    Within i (.object ⟨fields⟩) ↔ i = .object ⟨fields⟩ ∨ ∃ e ∈ fields, Within i e.2 := by
  constructor
  · intro h
    cases h with
    | self => exact Or.inl rfl
    | field he h => exact Or.inr ⟨_, he, h⟩
  · rintro (rfl | ⟨e, he, h⟩)
    · exact .self _
    · exact .field he h

/-- In what is no array and no object nothing else occurs. -/
theorem within_iff_eq {i j : Json} (harray : ∀ items, j ≠ .array items)
    (hobject : ∀ fields, j ≠ .object fields) : Within i j ↔ i = j := by
  constructor
  · intro h
    cases h with
    | self => rfl
    | item => exact absurd rfl (harray _)
    | field => exact absurd rfl (hobject _)
  · rintro rfl
    exact .self _

/-- **JSON is natural**: what it holds has a place in a value, and no object in it is a
tagged form. -/
structure Natural (j : Json) : Prop where
  /-- The names of an object ascend, as they do in every object that is read. -/
  ascending : ∀ fields, Within (.object ⟨fields⟩) j → fields.Pairwise fun e f => e.1 < f.1
  /-- Doubles are numbers and not infinite. -/
  finite : ∀ x, Within (.float x) j → x.isFinite = true
  /-- A word holds each of the integers. -/
  bounded : ∀ n, Within (.integer n) j → ∃ w : Int64, w.toInt = n
  /-- No object has a single field under a tag. -/
  untagged : ∀ tag ∈ Codec.tags, ∀ inner, ¬Within (.object ⟨[(tag, inner)]⟩) j

namespace Natural

/-- An item of natural JSON is natural. -/
theorem item {items : List Json} {j : Json} (h : Natural (.array items)) (hj : j ∈ items) :
    j.Natural where
  ascending fields hfields := h.ascending fields (.item hj hfields)
  finite x hx := h.finite x (.item hj hx)
  bounded n hn := h.bounded n (.item hj hn)
  untagged tag htag inner hinner := h.untagged tag htag inner (.item hj hinner)

/-- A field of natural JSON is natural. -/
theorem field {fields : List (String × Json)} {e : String × Json}
    (h : Natural (.object ⟨fields⟩)) (he : e ∈ fields) : e.2.Natural where
  ascending fields hfields := h.ascending fields (.field he hfields)
  finite x hx := h.finite x (.field he hx)
  bounded n hn := h.bounded n (.field he hn)
  untagged tag htag inner hinner := h.untagged tag htag inner (.field he hinner)

end Natural

end Json

/-! ### Fields and entries keep their order -/

/-- Fields that ascend are the fields of the object that is made of them. -/
theorem Named.ofList_ascending {α : Type} {fields : List (String × α)}
    (h : fields.Pairwise fun e f => e.1 < f.1) : (ofList fields).entries = fields := by
  have hnames : (fields.map (·.1)).Nodup := List.pairwise_map.mpr (h.imp String.ne_of_lt)
  refine (ofList_perm hnames).eq_of_pairwise (fun e f _ _ hef hfe => ?_) (ofList fields).ascending h
  exact absurd (String.lt_trans hef hfe) (String.lt_irrefl e.1)

namespace Dict

variable {m : Dict Value} {key : Value}

/-- A new key goes to the end of a map without order. -/
theorem insert_unordered (hordered : m.order.isKeyOrdered = false)
    (habsent : ∀ e ∈ m.entries, (e.1 == key) = false) (value : Value) :
    m.insert key value = ⟨m.order, m.entries ++ [(key, value)]⟩ := by
  have hplace : m.place key = .absent m.entries.length := by
    rw [place, hordered, if_neg Bool.false_ne_true, scan, List.findIdx?_eq_none_iff.mpr habsent]
  rw [insert, hplace]
  dsimp only
  rw [List.insertIdx_length_self]

/-- **A map without order** that is filled with entries of different keys stores them in
the order in which they came. -/
theorem ofList_unordered {entries : List (Value × Value)}
    (h : entries.Pairwise fun e f => (e.1 == f.1) = false) :
    ofList .unordered entries = ⟨.unordered, entries⟩ := by
  suffices hmany : ∀ stored : List (Value × Value),
      (∀ e ∈ stored, ∀ f ∈ entries, (e.1 == f.1) = false) →
        Dict.insertMany ⟨.unordered, stored⟩ entries = ⟨.unordered, stored ++ entries⟩ by
    exact hmany [] fun e he => absurd he List.not_mem_nil
  induction entries with
  | nil => exact fun stored _ => by rw [List.append_nil]; rfl
  | cons f fs ih =>
    intro stored hstored
    obtain ⟨hf, hfs⟩ := List.pairwise_cons.mp h
    have hinsert : Dict.insert ⟨.unordered, stored⟩ f.1 f.2 = ⟨.unordered, stored ++ [f]⟩ :=
      insert_unordered rfl (fun e he => hstored e he f List.mem_cons_self) f.2
    have hrest : Dict.insertMany ⟨.unordered, stored ++ [f]⟩ fs =
        ⟨.unordered, stored ++ [f] ++ fs⟩ := by
      refine ih hfs (stored ++ [f]) fun e he g hg => ?_
      rcases List.mem_append.mp he with he | he
      · exact hstored e he g (List.mem_cons_of_mem f hg)
      · rw [List.mem_singleton.mp he]
        exact hf g hg
    rw [insertMany, List.foldl_cons, hinsert]
    rw [insertMany] at hrest
    rw [hrest, List.append_assoc, List.singleton_append]

end Dict

namespace Codec

variable {c : Codec}

/-! ### What is restored -/

/-- **JSON is restored**: it is read as a value that is sent as the same JSON. -/
def Restores (c : Codec) (j : Json) : Prop := ∃ v, c.toValue j = .ok v ∧ c.toJson v = j

/-- **A truth value is kept**: the serializer has bytes for it, which it knows again. -/
def Keeps (c : Codec) (b : Bool) : Prop :=
  ∃ bytes, c.serializer.encode (.bool b) = .ok bytes ∧
    c.serializer.decode bytes = some (.bool b)

theorem Restores.bool {b : Bool} (h : c.Keeps b) : c.Restores (.bool b) := by
  obtain ⟨bytes, hencode, hdecode⟩ := h
  refine ⟨.bytes bytes, ?_, ?_⟩
  · rw [toValue, hencode]
    rfl
  · rw [toJson, bytesToJson, hdecode, Option.getD_some]

theorem Restores.integer {n : Int} (h : ∃ w : Int64, w.toInt = n) : c.Restores (.integer n) := by
  obtain ⟨w, rfl⟩ := h
  refine ⟨.integer w, ?_, ?_⟩
  · rw [toValue, integerToValue, Word.int64?_eq_some_iff.mpr rfl]
  · rw [toJson]

theorem Restores.float {x : Double} (h : x.isFinite = true) : c.Restores (.float x) := by
  refine ⟨.double x, ?_, ?_⟩
  · rw [toValue]
  · rw [toJson, Json.ofDouble, if_pos h]

/-- Items that are restored one by one are restored together. -/
theorem toValues_restores {items : List Json} (h : ∀ j ∈ items, c.Restores j) :
    ∃ values, c.toValues items = .ok values ∧ values.map c.toJson = items := by
  induction items with
  | nil => exact ⟨[], by simp, rfl⟩
  | cons j js ih =>
    obtain ⟨hj, hjs⟩ := List.forall_mem_cons.mp h
    obtain ⟨v, hv, hsent⟩ := hj
    obtain ⟨vs, hvs, hrest⟩ := ih hjs
    refine ⟨v :: vs, ?_, ?_⟩
    · rw [toValues, hv, hvs]
      rfl
    · rw [List.map_cons, hsent, hrest]

/-- An array is restored if its items are. -/
theorem Restores.array {items : List Json} (h : ∀ j ∈ items, c.Restores j) :
    c.Restores (.array items) := by
  obtain ⟨values, hvalues, hsent⟩ := toValues_restores h
  refine ⟨.list values, ?_, ?_⟩
  · rw [toValue, hvalues]
    rfl
  · rw [toJson, itemsToJson_eq, hsent]

/-- Fields that are restored one by one are restored together, each under its name. -/
theorem toEntries_restores {fields : List (String × Json)} (h : ∀ e ∈ fields, c.Restores e.2) :
    ∃ named : List (String × Value),
      c.toEntries fields = .ok (named.map fun e => (.string e.1, e.2)) ∧
        named.map (fun e => (e.1, c.toJson e.2)) = fields := by
  induction fields with
  | nil => exact ⟨[], by simp, rfl⟩
  | cons e es ih =>
    obtain ⟨⟨v, hv, hsent⟩, hes⟩ := List.forall_mem_cons.mp h
    obtain ⟨named, hnamed, hrest⟩ := ih hes
    refine ⟨(e.1, v) :: named, ?_, ?_⟩
    · rw [toEntries, hv, hnamed]
      rfl
    · rw [List.map_cons, hrest, hsent]

/-- Entries under texts have the texts as the names of fields. -/
theorem fieldNames?_strings (c : Codec) (named : List (String × Value)) :
    fieldNames? (c.entriesToJson (named.map fun e => (.string e.1, e.2))) =
      some (named.map fun e => (e.1, c.toJson e.2)) := by
  induction named with
  | nil => simp [fieldNames?]
  | cons e es ih =>
    rw [fieldNames?] at ih
    rw [List.map_cons, entriesToJson, fieldNames?, List.mapM_cons, ih]
    rfl

/-- **An object is restored** if its fields are, its names ascend, and it is no tagged
form. -/
theorem Restores.object {fields : List (String × Json)}
    (hascending : fields.Pairwise fun e f => e.1 < f.1)
    (huntagged : ∀ name inner, fields = [(name, inner)] → name ∉ tags)
    (h : ∀ e ∈ fields, c.Restores e.2) : c.Restores (.object ⟨fields⟩) := by
  obtain ⟨named, hread, hsent⟩ := toEntries_restores h
  have hnames : (fields.map (·.1)) = named.map (·.1) := by
    rw [← hsent, List.map_map]
    rfl
  have hdistinct : (named.map fun e => (Value.string e.1, e.2)).Pairwise
      fun e f => (e.1 == f.1) = false := by
    have hlt := List.pairwise_map.mpr hascending
    rw [hnames] at hlt
    refine List.pairwise_map.mpr ((List.pairwise_map.mp hlt).imp fun {e f} hef => ?_)
    rw [← Bool.not_eq_true, Value.beq_iff_canonical_eq]
    intro heq
    injection heq with heq
    exact String.ne_of_lt hef heq
  refine ⟨unorderedMap (named.map fun e => (.string e.1, e.2)), ?_, ?_⟩
  · rw [toValue_object c huntagged, hread]
    rfl
  · rw [unorderedMap, Dict.ofList_unordered hdistinct, toJson, mapToJson, fieldNames?_strings,
      hsent]
    dsimp only
    rw [Json.ofFields, Json.ofNamed, Named.ofList_ascending hascending]

/-- **Natural JSON is restored** by every codec that keeps the truth values in it. -/
theorem restores_of_natural {j : Json} (h : j.Natural)
    (hbool : ∀ b, Json.Within (.bool b) j → c.Keeps b) : c.Restores j := by
  induction j using Json.induction with
  | null => exact ⟨.null, by simp, by simp⟩
  | bool b => exact .bool (hbool b (.self _))
  | integer n => exact .integer (h.bounded n (.self _))
  | float x => exact .float (h.finite x (.self _))
  | string s => exact ⟨.string s, by simp, by simp⟩
  | array items ih =>
    exact .array fun j hj => ih j hj (h.item hj) fun b hb => hbool b (.item hj hb)
  | object fields ih =>
    refine .object (h.ascending fields (.self _)) ?_ fun e he => ?_
    · rintro name inner rfl htag
      exact h.untagged name htag inner (.self _)
    · exact ih e he (h.field he) fun b hb => hbool b (.field he hb)

end Codec

/-! ### Truth values in their frame -/

namespace Serializer

/-- The bytes behind the marker are taken out of the frame. -/
theorem unframe_append (bytes : List UInt8) : unframe (frameMarker ++ bytes) = some bytes := by
  rw [unframe, if_pos (List.isPrefixOf_iff_prefix.mpr (List.prefix_append _ _)),
    List.drop_left]

/-- **A framed text is read** as the JSON that it is. -/
theorem decode_framed (text : String) :
    framed.decode (frameMarker ++ text.toUTF8.toList) = Json.ofText? text := by
  have hbytes : (⟨text.toUTF8.toList.toArray⟩ : ByteArray) = text.toUTF8 := by
    rw [Text.toList_eq, Array.toArray_toList]
  have htext : String.fromUTF8? text.toUTF8 = some text := by
    rw [String.fromUTF8?]
    exact dif_pos text.isValidUTF8
  simp only [framed, unframe_append, Option.bind_eq_bind, Option.bind_some, hbytes, htext]

end Serializer

namespace Codec

/-- The serializer that writes JSON text keeps both truth values. -/
theorem keeps_framed (b : Bool) : (Codec.mk .framed).Keeps b := by
  refine ⟨_, rfl, ?_⟩
  rw [Serializer.decode_framed]
  cases b <;> rfl

/-! ### Natural JSON -/

/-- **Natural JSON comes back exactly**, with the serializer that writes JSON text; and
without a serializer if there is no truth value in it. -/
theorem toJson_toValue {j : Json} (h : j.Natural) :
    (∃ v, (Codec.mk .framed).toValue j = .ok v ∧ (Codec.mk .framed).toJson v = j) ∧
      ((∀ b, ¬Json.Within (.bool b) j) →
        ∃ v, (Codec.mk .none).toValue j = .ok v ∧ (Codec.mk .none).toJson v = j) := by
  constructor
  · exact restores_of_natural h fun b _ => keeps_framed b
  · intro hnone
    exact restores_of_natural h fun b hb => absurd hb (hnone b)

/-- Two fields under tags make no tagged form, and a truth value comes back from the depth
of an array. -/
theorem toJson_toValue_beside_tags :
    let plain : Json := .object ⟨[("$bytes", .string "AQID"), ("$map", .array [])]⟩
    let j : Json := .array [.bool true, .integer (-3), .float ⟨0x3ff8000000000000⟩, plain]
    plain.Natural ∧ j.Natural ∧
      (∃ v, (Codec.mk .framed).toValue j = .ok v ∧ (Codec.mk .framed).toJson v = j) ∧
      ∃ v, (Codec.mk .none).toValue plain = .ok v ∧ (Codec.mk .none).toJson v = plain := by
  intro plain j
  -- what occurs in an array or in an object, listed
  have hlist : ∀ i, Json.Within i j → i = j ∨ i = .bool true ∨ i = .integer (-3) ∨
      i = .float ⟨0x3ff8000000000000⟩ ∨ i = plain ∨ i = .string "AQID" ∨ i = .array [] := by
    intro i hi
    simpa [j, plain, Json.within_array_iff, Json.within_object_iff, Json.within_iff_eq] using hi
  have hj : j.Natural := by
    refine ⟨fun fields hfields => ?_, fun x hx => ?_, fun n hn => ?_, fun tag _ inner hinner => ?_⟩
    · have hfields : fields = [("$bytes", .string "AQID"), ("$map", .array [])] := by
        simpa [j, plain] using hlist _ hfields
      rw [hfields]
      decide
    · have hx : x = ⟨0x3ff8000000000000⟩ := by
        simpa [j, plain] using hlist _ hx
      rw [hx]
      decide
    · have hn : n = -3 := by
        simpa [j, plain] using hlist _ hn
      exact ⟨-3, hn ▸ rfl⟩
    · simpa [j, plain] using hlist _ hinner
  have hplain : plain.Natural := hj.item (by simp)
  refine ⟨hplain, hj, (toJson_toValue hj).1, (toJson_toValue hplain).2 fun b hb => ?_⟩
  simp [plain, Json.within_array_iff, Json.within_object_iff, Json.within_iff_eq] at hb

end Codec

end RecordStore
