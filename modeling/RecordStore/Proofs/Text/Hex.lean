import RecordStore.Key

/-!
# Hexadecimal text is read as it is written

Reading the digits of bytes gives the bytes back (`RecordStore.Hex.decodeChars_encode`), and
reading the digits of a digest gives the digest back (`RecordStore.Digest.ofHex_toHex`). The
reader takes the two characters of a byte for a number that may have a plus sign, and asks
for the length of a text twice, in characters and in bytes. None of this gets in the way,
for what is written are digits, and a digit is a character of one byte.
-/

namespace RecordStore

namespace Hex

/-- A digit is read as the number that it stands for. -/
theorem digit?_digitChar : ∀ n < 16, digit? (digitChar n) = some n := by decide

/-- A plus sign is no digit. -/
theorem digitChar_ne_plus : ∀ n < 16, digitChar n ≠ '+' := by decide

/-- A digit is a character of one byte. -/
theorem utf8Size_digitChar : ∀ n < 16, (digitChar n).utf8Size = 1 := by decide

/-- The two digits of a byte are read as the byte. -/
theorem pair?_digits (b : UInt8) :
    pair? (digitChar (b.toNat / 16)) (digitChar (b.toNat % 16)) = some b := by
  have hb : b.toNat < 256 := b.toNat_lt_size
  have hhi : b.toNat / 16 < 16 := by omega
  have hlo : b.toNat % 16 < 16 := Nat.mod_lt _ (by decide)
  have hsum : 16 * (b.toNat / 16) + b.toNat % 16 = b.toNat := Nat.div_add_mod _ _
  rw [pair?, if_neg (digitChar_ne_plus _ hhi), digit?_digitChar _ hhi, digit?_digitChar _ hlo]
  simp only [Option.bind_eq_bind, Option.bind_some, Option.pure_def, hsum, UInt8.ofNat_toNat]

/-- **Reading inverts writing**, byte by byte. -/
theorem decodeChars_encode (bytes : List UInt8) :
    decodeChars (encode bytes).toList = some bytes := by
  rw [encode, String.toList_ofList]
  induction bytes with
  | nil => rfl
  | cons b bs ih =>
    rw [List.flatMap_cons, encodeByte, List.cons_append, List.cons_append, List.nil_append,
      decodeChars, pair?_digits, ih]
    rfl

/-- The bytes of what is written are two for each byte that is meant. -/
theorem utf8ByteSize_encode (bytes : List UInt8) :
    (encode bytes).utf8ByteSize = 2 * bytes.length := by
  rw [encode]
  induction bytes with
  | nil => rfl
  | cons b bs ih =>
    have hb : b.toNat < 256 := b.toNat_lt_size
    rw [List.flatMap_cons, String.ofList_append, String.utf8ByteSize_append, ih, encodeByte,
      List.length_cons]
    have hhi := utf8Size_digitChar (b.toNat / 16) (by omega)
    have hlo := utf8Size_digitChar (b.toNat % 16) (Nat.mod_lt _ (by decide))
    simp [hhi, hlo]
    omega

end Hex

/-- **A digest is read as it is written.** -/
theorem Digest.ofHex_toHex (d : Digest) : ofHex d.toHex = .ok d := by
  have hread : Hex.decodeChars d.toHex.toList = some d.bytes := Hex.decodeChars_encode d.bytes
  have hchars : d.toHex.toList.length = 40 := by
    rw [Hex.length_of_decodeChars hread, d.length_bytes]
  have hbytes : d.toHex.utf8ByteSize = 40 := by
    rw [toHex, Hex.utf8ByteSize_encode, d.length_bytes]
  rw [ofHex, dif_pos ⟨hchars, hbytes⟩]
  split
  · rename_i bytes hbytes
    rw [hread] at hbytes
    obtain rfl := Option.some.inj hbytes
    rfl
  · rename_i hnone
    rw [hread] at hnone
    cases hnone

end RecordStore
