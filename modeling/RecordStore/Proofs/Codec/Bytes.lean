import RecordStore.Proofs.Codec.Natural
import RecordStore.Proofs.Codec.RoundTrip
import RecordStore.Proofs.Json.Reader

/-!
# Bytes that begin with the frame marker

The serializer that writes JSON text takes all bytes for its own that are JSON text behind the
frame marker, whoever made them. Bytes of a caller that look like this are sent as the JSON
that they frame, and what is read of that JSON is another value. Only the texts of the two
truth values lead back, because these are what the serializer writes itself
(`RecordStore.Codec.toValue_toJson_bytes_iff`).

That nothing else leads back is a matter of length. An object with base64 at the tag of bytes
is read as bytes. But its text is longer than the bytes that it means, and with the marker in
front of it the text cannot be these bytes.
-/

namespace RecordStore

/-! ### Framed JSON -/

/-- **The serializer takes bytes for its own** exactly when they are JSON text behind the
marker. -/
theorem Serializer.decode_framed_eq_some_iff {bytes : List UInt8} {j : Json} :
    framed.decode bytes = some j ↔
      ∃ text : String, bytes = frameMarker ++ text.toUTF8.toList ∧ Json.ofText? text = some j := by
  constructor
  · intro h
    obtain ⟨body, hbody, h⟩ := Option.bind_eq_some_iff.mp h
    obtain ⟨text, htext, h⟩ := Option.bind_eq_some_iff.mp h
    refine ⟨text, ?_, h⟩
    rw [unframe, Option.ite_none_right_eq_some, List.isPrefixOf_iff_prefix] at hbody
    obtain ⟨⟨rest, rfl⟩, hdrop⟩ := hbody
    rw [List.drop_left] at hdrop
    obtain rfl := Option.some.inj hdrop
    rw [Text.toUTF8_toList_of_fromUTF8? htext]
  · rintro ⟨text, rfl, h⟩
    rw [decode_framed, h]

namespace Codec

variable {c : Codec}

/-- **Only a truth value and an object with a text at the tag of bytes** are read as bytes. -/
theorem eq_of_toValue_eq_bytes {j : Json} {bytes : List UInt8}
    (h : c.toValue j = .ok (.bytes bytes)) :
    (∃ b, j = .bool b ∧ c.serializer.encode (.bool b) = .ok bytes) ∨
      ∃ text, j = .object ⟨[("$bytes", .string text)]⟩ ∧ Base64.decode text = some bytes := by
  cases j with
  | null | float | string =>
    rw [toValue] at h
    cases h
  | bool b =>
    rw [toValue] at h
    obtain ⟨encoded, hencode, hencoded⟩ := map_eq_ok_iff.mp h
    obtain rfl := Value.bytes.inj hencoded
    exact Or.inl ⟨b, rfl, hencode⟩
  | integer n =>
    rw [toValue, integerToValue] at h
    split at h
    · cases h
    · cases h
  | array items =>
    rw [toValue] at h
    obtain ⟨vs, -, hlist⟩ := map_eq_ok_iff.mp h
    cases hlist
  | object fields =>
    obtain ⟨entries⟩ := fields
    by_cases htagged : ∃ name inner, entries = [(name, inner)] ∧ name ∈ tags
    · obtain ⟨name, inner, rfl, hname⟩ := htagged
      rw [tags, List.mem_cons, List.mem_cons, List.mem_singleton] at hname
      rcases hname with rfl | rfl | rfl
      · rw [toValue_bytes, taggedBytes.eq_def] at h
        split at h
        · rename_i text
          split at h
          · rename_i decoded hdecode
            obtain rfl := Value.bytes.inj (Except.ok.inj h)
            exact Or.inr ⟨text, rfl, hdecode⟩
          · cases h
        · cases h
      · rw [toValue_geoJson] at h
        cases kind_of_taggedGeometry h
      · obtain ⟨pairs, read, -, -, hmap⟩ := exists_toPairs_of_toValue h
        cases hmap
    · have huntagged : ∀ name inner, entries = [(name, inner)] → name ∉ tags :=
        fun name inner hentries hname => htagged ⟨name, inner, hentries, hname⟩
      rw [toValue_object c huntagged] at h
      obtain ⟨read, -, hmap⟩ := map_eq_ok_iff.mp h
      cases hmap

/-- **No framed text means the bytes that it is framed in**, but for the texts of the truth
values. -/
theorem eq_text_of_toValue_framed {text : String} {j : Json} (hread : Json.ofText? text = some j)
    (h : (Codec.mk .framed).toValue j =
      .ok (.bytes (Serializer.frameMarker ++ text.toUTF8.toList))) :
    text = "true" ∨ text = "false" := by
  rcases eq_of_toValue_eq_bytes h with ⟨b, rfl, hencode⟩ | ⟨encoded, rfl, hdecode⟩
  · have hrender : text = (Json.bool b).render :=
      Text.toUTF8_injective (List.append_cancel_left (Except.ok.inj hencode)).symm
    cases b with
    | true => exact Or.inl hrender
    | false => exact Or.inr hrender
  · -- the base64 in the text would be longer than the text
    have hinside := Json.length_le_of_ofText? hread List.mem_cons_self
    have hbytes := Base64.length_of_decodeChars hdecode
    have htext := Text.length_toList_le text
    have hmarker : Serializer.frameMarker.length = 10 := by decide +kernel
    rw [List.length_append, hmarker] at hbytes
    omega

/-- **Bytes come back**, with the serializer that writes JSON text, exactly if what follows the
frame marker in them is no JSON, or is the text of a truth value as the serializer writes it.
Bytes without the marker always come back. -/
theorem toValue_toJson_bytes_iff (bytes : List UInt8) :
    (Codec.mk .framed).toValue ((Codec.mk .framed).toJson (.bytes bytes)) = .ok (.bytes bytes) ↔
      ∀ (text : String) (j : Json), bytes = Serializer.frameMarker ++ text.toUTF8.toList →
        Json.ofText? text = some j → text = "true" ∨ text = "false" := by
  constructor
  · rintro h text j rfl hread
    rw [toJson, bytesToJson, Serializer.decode_framed, hread, Option.getD_some] at h
    exact eq_text_of_toValue_framed hread h
  · intro h
    cases hdecode : Serializer.framed.decode bytes with
    | none => exact toValue_toJson_bytes hdecode
    | some j =>
      obtain ⟨text, rfl, hread⟩ := Serializer.decode_framed_eq_some_iff.mp hdecode
      rw [toJson, bytesToJson, hdecode, Option.getD_some]
      rcases h text j rfl hread with rfl | rfl
      · obtain rfl : Json.bool true = j := Option.some.inj hread
        rw [toValue]
        rfl
      · obtain rfl : Json.bool false = j := Option.some.inj hread
        rw [toValue]
        rfl

/-- Bytes of a caller that are the marker and a digit are sent as the digit, which is an
integer. -/
theorem toValue_toJson_bytes_framed :
    let bytes := Serializer.frameMarker ++ "7".toUTF8.toList
    (Codec.mk .framed).toJson (.bytes bytes) = .integer 7 ∧
      (Codec.mk .framed).toValue (.integer 7) = .ok (.integer 7) ∧
      (Codec.mk .framed).toValue ((Codec.mk .framed).toJson (.bytes bytes)) ≠
        .ok (.bytes bytes) := by
  intro bytes
  have hread : Json.ofText? "7" = some (.integer 7) := rfl
  have hjson : (Codec.mk .framed).toJson (.bytes bytes) = .integer 7 := by
    rw [toJson, bytesToJson, Serializer.decode_framed, hread, Option.getD_some]
  have hvalue : (Codec.mk .framed).toValue (.integer 7) = .ok (.integer 7) := by
    rw [toValue]
    rfl
  refine ⟨hjson, hvalue, fun h => ?_⟩
  rw [hjson, hvalue] at h
  cases h

end Codec

end RecordStore
