import RecordStore.Text.Base64

/-!
# Base64 is read as it is written

Reading the base64 text of bytes gives the bytes back
(`RecordStore.Base64.decode_encode`). The induction goes by groups of three bytes. A group
is taken apart into four digits and put together again, and the two forms of the last
group are told apart by the padding, which is no digit
(`RecordStore.Base64.digitChar_ne_padding`).
-/

namespace RecordStore.Base64

/-- A digit is read as the number that it stands for. -/
theorem digit?_digitChar : ∀ n < 64, digit? (digitChar n) = some n := by decide

/-- The padding is no digit. -/
theorem digitChar_ne_padding : ∀ n < 64, digitChar n ≠ '=' := by decide

/-- The four digits of a number of twenty-four bits are read as its three bytes. -/
theorem decodeChars_group {n : Nat} (h : n < 16777216) (rest : List Char) :
    decodeChars (digitChar (n / 262144) :: digitChar (n / 4096 % 64) :: digitChar (n / 64 % 64) ::
        digitChar (n % 64) :: rest) =
      (decodeChars rest).map fun bytes =>
        UInt8.ofNat (n / 65536) :: UInt8.ofNat (n / 256 % 256) :: UInt8.ofNat (n % 256) ::
          bytes := by
  have hdigits : ((n / 262144 * 64 + n / 4096 % 64) * 64 + n / 64 % 64) * 64 + n % 64 = n := by
    omega
  have hlast : digitChar (n % 64) ≠ '=' := digitChar_ne_padding _ (Nat.mod_lt _ (by decide))
  have hfirst := digit?_digitChar (n / 262144) (by omega)
  rw [decodeChars]
  · rw [hfirst, digit?_digitChar (n / 4096 % 64) (Nat.mod_lt _ (by decide)),
      digit?_digitChar (n / 64 % 64) (Nat.mod_lt _ (by decide)),
      digit?_digitChar (n % 64) (Nat.mod_lt _ (by decide))]
    simp only [Option.bind_eq_bind, Option.bind_some, hdigits]
    cases decodeChars rest <;> rfl
  · exact fun _ hpad _ => hlast hpad
  · exact fun hpad _ => hlast hpad

/-- **Reading inverts writing**, group by group. -/
theorem decodeChars_encodeChars (bytes : List UInt8) :
    decodeChars (encodeChars bytes) = some bytes := by
  fun_induction encodeChars bytes with
  | case1 => rfl
  | case2 a n =>
    -- one byte, and four bits of zeros behind it
    have ha : a.toNat < 256 := a.toNat_lt_size
    have hn : n = a.toNat * 16 := rfl
    have hdigits : n / 64 * 64 + n % 64 = a.toNat * 16 := by omega
    rw [decodeChars, digit?_digitChar (n / 64) (by omega), digit?_digitChar (n % 64) (by omega)]
    simp [hdigits]
  | case3 a b n =>
    -- two bytes, and two bits of zeros behind them
    have ha : a.toNat < 256 := a.toNat_lt_size
    have hb : b.toNat < 256 := b.toNat_lt_size
    have hn : n = (a.toNat * 256 + b.toNat) * 4 := rfl
    have hdigits : (n / 4096 * 64 + n / 64 % 64) * 64 + n % 64 = n := by omega
    have hzeros : n % 4 = 0 := by omega
    have hfirst : n / 1024 = a.toNat := by omega
    have hsecond : n / 4 % 256 = b.toNat := by omega
    have hlast : digitChar (n % 64) ≠ '=' := digitChar_ne_padding _ (Nat.mod_lt _ (by decide))
    rw [decodeChars]
    · rw [digit?_digitChar (n / 4096) (by omega), digit?_digitChar (n / 64 % 64) (by omega),
        digit?_digitChar (n % 64) (by omega)]
      simp [hdigits, hzeros, hfirst, hsecond]
    · exact hlast
  | case4 a b c rest n ih =>
    have ha : a.toNat < 256 := a.toNat_lt_size
    have hb : b.toNat < 256 := b.toNat_lt_size
    have hc : c.toNat < 256 := c.toNat_lt_size
    have hn : n = (a.toNat * 256 + b.toNat) * 256 + c.toNat := rfl
    have hfirst : n / 65536 = a.toNat := by omega
    have hsecond : n / 256 % 256 = b.toNat := by omega
    have hthird : n % 256 = c.toNat := by omega
    rw [decodeChars_group (by omega), ih, hfirst, hsecond, hthird]
    simp

theorem decode_encode (bytes : List UInt8) : decode (encode bytes) = some bytes := by
  rw [decode, encode, String.toList_ofList, decodeChars_encodeChars]

/-- Bytes are read from at least as many characters. -/
theorem length_of_decodeChars {cs : List Char} {bytes : List UInt8}
    (h : decodeChars cs = some bytes) : bytes.length ≤ cs.length := by
  fun_induction decodeChars cs generalizing bytes with
  | case1 =>
    cases h
    exact Nat.le_refl _
  | case2 a b =>
    obtain ⟨m, -, h⟩ := Option.bind_eq_some_iff.mp h
    obtain ⟨n, -, h⟩ := Option.bind_eq_some_iff.mp h
    obtain ⟨-, h⟩ := Option.ite_none_right_eq_some.mp h
    obtain rfl := Option.some.inj h
    simp
  | case3 a b c =>
    obtain ⟨l, -, h⟩ := Option.bind_eq_some_iff.mp h
    obtain ⟨m, -, h⟩ := Option.bind_eq_some_iff.mp h
    obtain ⟨n, -, h⟩ := Option.bind_eq_some_iff.mp h
    obtain ⟨-, h⟩ := Option.ite_none_right_eq_some.mp h
    obtain rfl := Option.some.inj h
    simp
  | case4 a b c d rest htwo hone ih =>
    obtain ⟨k, -, h⟩ := Option.bind_eq_some_iff.mp h
    obtain ⟨l, -, h⟩ := Option.bind_eq_some_iff.mp h
    obtain ⟨m, -, h⟩ := Option.bind_eq_some_iff.mp h
    obtain ⟨n, -, h⟩ := Option.bind_eq_some_iff.mp h
    obtain ⟨more, hmore, h⟩ := Option.bind_eq_some_iff.mp h
    obtain rfl := Option.some.inj h
    have hlength := ih hmore
    simp only [List.length_cons]
    omega
  | case5 => cases h

end RecordStore.Base64
