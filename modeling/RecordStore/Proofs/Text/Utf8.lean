import Mathlib.Data.List.Basic

/-!
# Texts as bytes

The bytes of a text are those of its characters, one character after the other
(`RecordStore.Text.toUTF8_toList`). So the bytes tell the text, the bytes of a text that
go on behind those of another one are those of a continuation
(`RecordStore.Text.exists_of_toUTF8_append`), and a byte below 128 is always a character
by itself (`RecordStore.Text.exists_of_toUTF8_cons`): in the bytes of a longer character
there is none.
-/

namespace RecordStore.Text

/-! ### Byte arrays as lists -/

/-- What carries the loop: the bytes in front of the position have been collected. -/
theorem toList_loop_eq (b : ByteArray) (i : Nat) (acc : List UInt8) :
    ByteArray.toList.loop b i acc = acc.reverse ++ b.data.toList.drop i := by
  fun_induction ByteArray.toList.loop b i acc with
  | case1 i acc hi ih =>
    have hlength : i < b.data.toList.length := hi
    have hget : b.get! i = b.data.toList[i] := by
      obtain ⟨data⟩ := b
      exact getElem!_pos data i hi
    rw [ih, List.reverse_cons, List.append_assoc, hget, List.singleton_append,
      List.getElem_cons_drop]
  | case2 i acc hi =>
    have hlength : b.data.toList.length ≤ i := Nat.le_of_not_lt hi
    rw [List.drop_eq_nil_of_le hlength, List.append_nil]

theorem toList_eq (b : ByteArray) : b.toList = b.data.toList := by
  rw [ByteArray.toList, toList_loop_eq, List.reverse_nil, List.nil_append, List.drop_zero]

/-! ### Bytes of texts -/

/-- **The bytes of a text** are those of its characters. -/
theorem toUTF8_toList (s : String) :
    s.toUTF8.toList = s.toList.flatMap String.utf8EncodeChar := by
  obtain ⟨cs, rfl⟩ := s.exists_eq_ofList
  rw [toList_eq, String.toUTF8_eq_toByteArray, String.toByteArray_ofList, List.utf8Encode,
    String.toList_ofList, List.data_toByteArray]

theorem toUTF8_append (s t : String) :
    (s ++ t).toUTF8.toList = s.toUTF8.toList ++ t.toUTF8.toList := by
  rw [toUTF8_toList, toUTF8_toList, toUTF8_toList, String.toList_append, List.flatMap_append]

/-- There are at least as many bytes as characters. -/
theorem length_toList_le (s : String) : s.toList.length ≤ s.toUTF8.toList.length := by
  rw [toUTF8_toList]
  induction s.toList with
  | nil => exact Nat.le_refl _
  | cons c cs ih =>
    have hc : 0 < (String.utf8EncodeChar c).length :=
      List.length_pos_of_ne_nil String.utf8EncodeChar_ne_nil
    rw [List.flatMap_cons, List.length_append, List.length_cons]
    omega

/-- The bytes tell the text. -/
theorem toUTF8_injective {s t : String} (h : s.toUTF8.toList = t.toUTF8.toList) : s = t := by
  rw [toList_eq, toList_eq, Array.toList_inj] at h
  exact String.toByteArray_inj.mp (ByteArray.ext h)

/-- **Bytes behind those of a text** that make a text with them make a text. -/
theorem exists_of_toUTF8_append {s t : String} {rest : List UInt8}
    (h : t.toUTF8.toList = s.toUTF8.toList ++ rest) :
    ∃ r : String, t = s ++ r ∧ rest = r.toUTF8.toList := by
  have hprefix : s.toList <+: t.toList := by
    refine List.isPrefix_of_utf8Encode_append_eq_utf8Encode rest.toByteArray ?_
    rw [toUTF8_toList, toUTF8_toList] at h
    rw [List.utf8Encode, List.utf8Encode, h, List.toByteArray_append]
  obtain ⟨cs, hcs⟩ := hprefix
  have ht : t = s ++ String.ofList cs := by
    rw [← String.toList_inj, String.toList_append, String.toList_ofList, hcs]
  refine ⟨String.ofList cs, ht, ?_⟩
  rw [ht, toUTF8_append] at h
  exact (List.append_cancel_left h).symm

/-- What is read of bytes has these bytes. -/
theorem toUTF8_toList_of_fromUTF8? {bytes : List UInt8} {s : String}
    (h : String.fromUTF8? ⟨bytes.toArray⟩ = some s) : s.toUTF8.toList = bytes := by
  rw [String.fromUTF8?] at h
  split at h
  · obtain rfl := Option.some.inj h
    rw [toList_eq]
    rfl
  · cases h

/-! ### Characters of one byte -/

theorem utf8EncodeChar_ofUInt8 {b : UInt8} (hb : b.toNat < 128) :
    String.utf8EncodeChar (Char.ofUInt8 b) = [b] := by
  have hval : (Char.ofUInt8 b).val.toNat = b.toNat := UInt8.toNat_toUInt32 b
  rw [String.utf8EncodeChar, if_pos (by omega), hval, UInt8.ofNat_toNat]

/-- A character whose first byte is below 128 has no other byte, and is that byte. -/
theorem eq_of_utf8EncodeChar_cons {c : Char} {b : UInt8} {rest : List UInt8}
    (h : String.utf8EncodeChar c = b :: rest) (hb : b.toNat < 128) :
    c = Char.ofUInt8 b ∧ rest = [] := by
  have hfirst : ∀ n, n < 256 → 128 ≤ n → UInt8.ofNat n ≠ b := by
    rintro n hn hle rfl
    rw [UInt8.toNat_ofNat_of_lt' hn] at hb
    omega
  rw [String.utf8EncodeChar] at h
  split at h
  · rename_i hc
    obtain ⟨rfl, rfl⟩ := List.cons.inj h
    have hsize : c.val.toNat < UInt8.size := Nat.lt_of_le_of_lt hc (by decide)
    refine ⟨Char.ext (UInt32.toNat_inj.mp ?_), rfl⟩
    change c.val.toNat = (UInt8.ofNat c.val.toNat).toUInt32.toNat
    rw [UInt8.toNat_toUInt32, UInt8.toNat_ofNat_of_lt' hsize]
  · -- the first byte of a longer character has its highest bit set
    split at h
    · exact absurd (List.cons.inj h).1 (hfirst _ (by omega) (by omega))
    · split at h
      · exact absurd (List.cons.inj h).1 (hfirst _ (by omega) (by omega))
      · exact absurd (List.cons.inj h).1 (hfirst _ (by omega) (by omega))

theorem toUTF8_singleton {b : UInt8} (hb : b.toNat < 128) :
    (String.singleton (Char.ofUInt8 b)).toUTF8.toList = [b] := by
  rw [toUTF8_toList, String.toList_singleton, List.flatMap_cons, List.flatMap_nil,
    utf8EncodeChar_ofUInt8 hb, List.append_nil]

/-- **A text whose first byte is below 128** begins with that character. -/
theorem exists_of_toUTF8_cons {s : String} {b : UInt8} {rest : List UInt8}
    (h : s.toUTF8.toList = b :: rest) (hb : b.toNat < 128) :
    ∃ r : String, s = String.singleton (Char.ofUInt8 b) ++ r ∧ rest = r.toUTF8.toList := by
  have hsplit : ∃ c cs, s.toList = c :: cs := by
    cases hs : s.toList with
    | nil =>
      rw [toUTF8_toList, hs] at h
      cases h
    | cons c cs => exact ⟨c, cs, rfl⟩
  obtain ⟨c, cs, hs⟩ := hsplit
  rw [toUTF8_toList, hs, List.flatMap_cons] at h
  obtain ⟨first, more, hc⟩ := List.exists_cons_of_ne_nil (String.utf8EncodeChar_ne_nil (c := c))
  rw [hc, List.cons_append] at h
  obtain ⟨rfl, hrest⟩ := List.cons.inj h
  obtain ⟨rfl, rfl⟩ := eq_of_utf8EncodeChar_cons hc hb
  refine ⟨String.ofList cs, ?_, ?_⟩
  · rw [← String.toList_inj, String.toList_append, String.toList_singleton, String.toList_ofList,
      hs, List.singleton_append]
  · rw [toUTF8_toList, String.toList_ofList, ← hrest, List.nil_append]

end RecordStore.Text
