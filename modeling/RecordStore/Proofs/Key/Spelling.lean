import Mathlib.Data.List.Basic
import RecordStore.Proofs.Text.Hex

/-!
# The texts of a digest

A digest is written with forty lower-case digits, and it is read from more texts than that: a
digit may be of either case. This file says exactly which texts are read, and as what
(`RecordStore.Digest.ofHex_eq_ok_iff`).

One thing is easily missed. The two characters of a byte are read as a number, and a number may
carry a plus sign. So a text is also read with plus signs in it, as long as each of them stands
first in its pair; it is then written with a zero in place of the sign. A text is read as a
text of forty digits should be, and refused if it has something else in it, exactly when it is
no such text (`RecordStore.Digest.readsAsDigits_iff`).
-/

namespace RecordStore

namespace Hex

variable {hi lo c : Char} {n : Nat} {b : UInt8} {cs rest : List Char} {bs : List UInt8}

/-! ### Digits -/

/-- **A hexadecimal digit**, of either case. -/
def IsDigit (c : Char) : Prop :=
  ('0' ≤ c ∧ c ≤ '9') ∨ ('a' ≤ c ∧ c ≤ 'f') ∨ ('A' ≤ c ∧ c ≤ 'F')

instance : DecidablePred IsDigit := fun _ => inferInstanceAs (Decidable (_ ∨ _))

theorem isSome_digit?_iff : (digit? c).isSome = true ↔ IsDigit c := by
  rw [digit?, IsDigit]
  split
  · simp [*]
  · split
    · simp [*]
    · split <;> simp [*]

theorem IsDigit.toNat_lt (h : IsDigit c) : c.toNat < 128 := by
  have hle : c ≤ 'f' := by
    rcases h with h | h | h
    · exact Char.le_trans h.2 (by decide)
    · exact h.2
    · exact Char.le_trans h.2 (by decide)
  exact Nat.lt_of_le_of_lt hle (by decide)

theorem digit?_ofNat : ∀ m < 128, ∀ n ∈ digit? (Char.ofNat m),
    n < 16 ∧ digitChar n = (Char.ofNat m).toLower := by decide

/-- **The number of a digit is written** as the digit in lower case. -/
theorem digitChar_of_digit? (h : digit? c = some n) : n < 16 ∧ digitChar n = c.toLower := by
  have hdigit : IsDigit c := isSome_digit?_iff.mp (Option.isSome_of_eq_some h)
  have hall := digit?_ofNat c.toNat hdigit.toNat_lt
  rw [Char.ofNat_toNat] at hall
  exact hall n h

/-- A plus sign is no digit. -/
theorem not_isDigit_plus : ¬IsDigit '+' := by decide

/-! ### Pairs -/

/-- How a character of a text that is read is written: a digit in lower case, and a plus sign,
which is in front of a single digit, as a zero. -/
def unsigned (c : Char) : Char := if c = '+' then '0' else c.toLower

theorem unsigned_of_isDigit (h : IsDigit c) : unsigned c = c.toLower := by
  refine if_neg ?_
  rintro rfl
  exact not_isDigit_plus h

/-- The byte of two half bytes has them as its digits. -/
theorem encodeByte_ofNat {h l : Nat} (hh : h < 16) (hl : l < 16) :
    encodeByte (UInt8.ofNat (16 * h + l)) = [digitChar h, digitChar l] := by
  have hlt : 16 * h + l < UInt8.size := by
    have hsize : UInt8.size = 256 := rfl
    omega
  have hdiv : (16 * h + l) / 16 = h := by omega
  have hmod : (16 * h + l) % 16 = l := by omega
  rw [encodeByte, UInt8.toNat_ofNat_of_lt' hlt, hdiv, hmod]

/-- **Two characters are a byte** when the second is a digit, and the first is a digit or a plus
sign. -/
theorem isSome_pair?_iff :
    (pair? hi lo).isSome = true ↔ (IsDigit hi ∨ hi = '+') ∧ IsDigit lo := by
  rw [pair?]
  split
  · rename_i hplus
    rw [Option.isSome_map, isSome_digit?_iff]
    simp [hplus]
  · rename_i hplus
    rw [← isSome_digit?_iff, ← isSome_digit?_iff]
    cases digit? hi <;> cases digit? lo <;> simp [hplus]

/-- The byte of two characters is written as they are, but for case and sign. -/
theorem encodeByte_of_pair? (h : pair? hi lo = some b) :
    encodeByte b = [unsigned hi, unsigned lo] := by
  have hdigits := isSome_pair?_iff.mp (Option.isSome_of_eq_some h)
  rw [unsigned_of_isDigit hdigits.2]
  rw [pair?] at h
  split at h
  · rename_i hplus
    obtain ⟨l, hl, rfl⟩ := Option.map_eq_some_iff.mp h
    obtain ⟨hlt, hlower⟩ := digitChar_of_digit? hl
    have hbyte := encodeByte_ofNat (h := 0) (by decide) hlt
    rw [Nat.mul_zero, Nat.zero_add, hlower] at hbyte
    rw [hbyte, unsigned, if_pos hplus]
    rfl
  · rename_i hplus
    obtain ⟨h', hh, hrest⟩ := Option.bind_eq_some_iff.mp h
    obtain ⟨l, hl, hbyte⟩ := Option.bind_eq_some_iff.mp hrest
    obtain rfl := Option.some.inj hbyte
    obtain ⟨hhigh, hupper⟩ := digitChar_of_digit? hh
    obtain ⟨hlow, hlower⟩ := digitChar_of_digit? hl
    rw [encodeByte_ofNat hhigh hlow, hupper, hlower, unsigned, if_neg hplus]

/-! ### Texts of pairs -/

/-- **Digits with signs**: every character is a digit, or it is a plus sign and stands first in
its pair. -/
def SignedDigits (cs : List Char) : Prop :=
  ∀ i c, cs[i]? = some c → IsDigit c ∨ (c = '+' ∧ i % 2 = 0)

theorem signedDigits_pair_iff :
    SignedDigits (hi :: lo :: rest) ↔
      ((IsDigit hi ∨ hi = '+') ∧ IsDigit lo) ∧ SignedDigits rest := by
  constructor
  · intro h
    refine ⟨⟨(h 0 hi rfl).imp_right And.left, (h 1 lo rfl).resolve_right nofun⟩, fun i c hc => ?_⟩
    have hshifted := h (i + 2) c hc
    rwa [Nat.add_mod_right] at hshifted
  · rintro ⟨⟨hhi, hlo⟩, hrest⟩ i c hc
    match i with
    | 0 =>
      obtain rfl : hi = c := Option.some.inj hc
      exact hhi.imp_right fun hplus => ⟨hplus, rfl⟩
    | 1 =>
      obtain rfl : lo = c := Option.some.inj hc
      exact Or.inl hlo
    | i + 2 =>
      rw [Nat.add_mod_right]
      exact hrest i c hc

/-- Digits without signs are read, too. -/
theorem SignedDigits.of_digits (h : ∀ c ∈ cs, IsDigit c) : SignedDigits cs :=
  fun _ c hc => Or.inl (h c (List.mem_of_getElem? hc))

/-- Without a plus sign there are only digits. -/
theorem SignedDigits.isDigit (h : SignedDigits cs) (hplus : '+' ∉ cs) : ∀ c ∈ cs, IsDigit c := by
  intro c hc
  obtain ⟨i, hi⟩ := List.getElem?_of_mem hc
  refine (h i c hi).resolve_right ?_
  rintro ⟨rfl, -⟩
  exact hplus hc

/-- **What is read** has signs at most where a pair begins, and is written as it is, but for
case and signs. -/
theorem signedDigits_of_decodeChars (h : decodeChars cs = some bs) :
    SignedDigits cs ∧ bs.flatMap encodeByte = cs.map unsigned := by
  induction cs using decodeChars.induct generalizing bs with
  | case1 =>
    obtain rfl : [] = bs := Option.some.inj h
    exact ⟨nofun, rfl⟩
  | case2 => cases h
  | case3 hi lo rest ih =>
    obtain ⟨b, hb, h⟩ := Option.bind_eq_some_iff.mp h
    obtain ⟨bs', hrest, h⟩ := Option.bind_eq_some_iff.mp h
    obtain rfl := Option.some.inj h
    obtain ⟨hsigned, hwritten⟩ := ih hrest
    have hpair := isSome_pair?_iff.mp (Option.isSome_of_eq_some hb)
    refine ⟨signedDigits_pair_iff.mpr ⟨hpair, hsigned⟩, ?_⟩
    rw [List.flatMap_cons, encodeByte_of_pair? hb, hwritten]
    rfl

/-- Pairs of digits with signs are read. -/
theorem SignedDigits.exists_decodeChars (h : SignedDigits cs) (heven : cs.length % 2 = 0) :
    ∃ bs, decodeChars cs = some bs := by
  induction cs using decodeChars.induct with
  | case1 => exact ⟨[], rfl⟩
  | case2 c => cases heven
  | case3 hi lo rest ih =>
    obtain ⟨hpair, hrest⟩ := signedDigits_pair_iff.mp h
    obtain ⟨b, hb⟩ := Option.isSome_iff_exists.mp (isSome_pair?_iff.mpr hpair)
    obtain ⟨bs, hbs⟩ := ih hrest ((Nat.add_mod_right rest.length 2).symm.trans heven)
    exact ⟨b :: bs, by rw [decodeChars, hb, hbs]; rfl⟩

/-- Digits and signs are characters of one byte. -/
theorem SignedDigits.utf8Size (h : SignedDigits cs) : ∀ c ∈ cs, c.utf8Size = 1 := by
  intro c hc
  obtain ⟨i, hi⟩ := List.getElem?_of_mem hc
  have hlt : c.toNat < 128 := by
    rcases h i c hi with hdigit | ⟨rfl, -⟩
    · exact hdigit.toNat_lt
    · decide
  exact if_pos (Nat.le_of_lt_succ hlt)

/-- A text of characters of one byte has as many bytes as characters. -/
theorem utf8ByteSize_ofList (h : ∀ c ∈ cs, c.utf8Size = 1) :
    (String.ofList cs).utf8ByteSize = cs.length := by
  induction cs with
  | nil => rfl
  | cons c cs ih =>
    obtain ⟨hc, hcs⟩ := List.forall_mem_cons.mp h
    rw [String.ofList_cons, String.utf8ByteSize_append, String.utf8ByteSize_singleton, hc, ih hcs,
      List.length_cons, Nat.add_comm]

end Hex

namespace Digest

variable {text : String} {d : Digest}

/-! ### Texts of digests -/

/-- A text of forty hexadecimal digits. -/
def FortyDigits (text : String) : Prop :=
  text.length = 40 ∧ ∀ c ∈ text.toList, Hex.IsDigit c

/-- A text of forty hexadecimal digits, where a plus sign may stand for the first digit of a
pair. -/
def FortySigned (text : String) : Prop := text.length = 40 ∧ Hex.SignedDigits text.toList

theorem toHex_injective {d' : Digest} (h : d.toHex = d'.toHex) : d = d' :=
  Except.ok.inj ((ofHex_toHex d).symm.trans ((congrArg ofHex h).trans (ofHex_toHex d')))

/-- What is read as a digest is read character by character. -/
theorem decodeChars_of_ofHex (h : ofHex text = .ok d) :
    text.length = 40 ∧ Hex.decodeChars text.toList = some d.bytes := by
  rw [ofHex] at h
  split at h
  · rename_i hsize
    split at h
    · rename_i bytes hread
      obtain rfl := Except.ok.inj h
      exact ⟨String.length_toList.symm.trans hsize.1, hread⟩
    · cases h
  · cases h

/-- Forty digits with signs are read. -/
theorem FortySigned.exists_ofHex (h : FortySigned text) : ∃ d, ofHex text = .ok d := by
  obtain ⟨hlength, hsigned⟩ := h
  have hchars : text.toList.length = 40 := String.length_toList.trans hlength
  have hbytes : text.utf8ByteSize = 40 := by
    rw [← text.ofList_toList, Hex.utf8ByteSize_ofList hsigned.utf8Size, hchars]
  obtain ⟨bs, hbs⟩ := hsigned.exists_decodeChars (by rw [hchars])
  rw [ofHex, dif_pos ⟨hchars, hbytes⟩]
  split
  · exact ⟨_, rfl⟩
  · rename_i hnone
    rw [hbs] at hnone
    cases hnone

/-- **What is read as a digest**, and as which: forty digits, where a plus sign may stand for
the first of a pair, as the digest that is written the same but for case and signs. -/
theorem ofHex_eq_ok_iff :
    ofHex text = .ok d ↔ FortySigned text ∧ d.toHex = text.map Hex.unsigned := by
  have hread : ∀ {d}, ofHex text = .ok d → FortySigned text ∧ d.toHex = text.map Hex.unsigned := by
    intro d h
    obtain ⟨hlength, hread⟩ := decodeChars_of_ofHex h
    obtain ⟨hsigned, hwritten⟩ := Hex.signedDigits_of_decodeChars hread
    refine ⟨⟨hlength, hsigned⟩, ?_⟩
    rw [toHex, Hex.encode, hwritten, ← String.toList_map, String.ofList_toList]
  constructor
  · exact hread
  · rintro ⟨hsigned, hwritten⟩
    obtain ⟨d', hd'⟩ := hsigned.exists_ofHex
    obtain rfl : d = d' := toHex_injective (hwritten.trans (hread hd').2.symm)
    exact hd'

/-- A text is read as a digest exactly if it has forty digits, with signs or without. -/
theorem exists_ofHex_iff : (∃ d, ofHex text = .ok d) ↔ FortySigned text :=
  ⟨fun ⟨_, h⟩ => (ofHex_eq_ok_iff.mp h).1, FortySigned.exists_ofHex⟩

/-- **A text is read as forty digits should be**: it is read exactly if it consists of them, and
what is read is written as the text in lower case. -/
structure ReadsAsDigits (text : String) : Prop where
  /-- Forty digits are read, and nothing else is. -/
  exists_iff : (∃ d, ofHex text = .ok d) ↔ FortyDigits text
  /-- What is read is written in lower case. -/
  toHex_eq : ∀ d, ofHex text = .ok d → d.toHex = text.toLower

theorem FortyDigits.fortySigned (h : FortyDigits text) : FortySigned text :=
  ⟨h.1, .of_digits h.2⟩

/-- Forty digits have no plus sign among them. -/
theorem FortyDigits.notMem (h : FortyDigits text) : '+' ∉ text.toList :=
  fun hplus => Hex.not_isDigit_plus (h.2 _ hplus)

/-- **Texts are read as forty digits should be**, each of them, except for those in which a plus
sign stands for the first digit of a pair. Those are read, too, as the digest that is written
with a zero for every sign; and each digest is read as it is written. -/
theorem readsAsDigits_iff (text : String) :
    (ReadsAsDigits text ↔ ¬(FortySigned text ∧ '+' ∈ text.toList)) ∧
      (∀ d, ofHex text = .ok d ↔ FortySigned text ∧ d.toHex = text.map Hex.unsigned) ∧
      ∀ d : Digest, ofHex d.toHex = .ok d := by
  refine ⟨⟨?_, fun hplus => ⟨?_, fun d hd => ?_⟩⟩, fun _ => ofHex_eq_ok_iff, ofHex_toHex⟩
  · rintro hreads ⟨hsigned, hplus⟩
    exact (hreads.exists_iff.mp hsigned.exists_ofHex).notMem hplus
  · rw [exists_ofHex_iff]
    refine ⟨fun hsigned => ⟨hsigned.1, ?_⟩, FortyDigits.fortySigned⟩
    exact hsigned.2.isDigit fun hmem => hplus ⟨hsigned, hmem⟩
  · obtain ⟨hsigned, hwritten⟩ := ofHex_eq_ok_iff.mp hd
    have hdigits := hsigned.2.isDigit fun hmem => hplus ⟨hsigned, hmem⟩
    have hlower : text.toList.map Hex.unsigned = text.toList.map Char.toLower :=
      List.map_congr_left fun c hc => Hex.unsigned_of_isDigit (hdigits c hc)
    have hmap : text.toLower = text.map Char.toLower := rfl
    rw [hwritten, hmap, ← String.toList_inj, String.toList_map, String.toList_map, hlower]

/-- Twenty pairs of a plus sign and the digit f are read as a digest, although half of the
characters are no digits. -/
theorem signs_are_read :
    let text := "+f+f+f+f+f+f+f+f+f+f+f+f+f+f+f+f+f+f+f+f"
    (∃ d, ofHex text = .ok d) ∧ ¬FortyDigits text ∧ ¬ReadsAsDigits text := by
  intro text
  have hchars : text.toList = (List.replicate 20 ['+', 'f']).flatten := by decide +kernel
  have hbytes : Hex.decodeChars text.toList = some (List.replicate 20 15) := by
    rw [hchars]
    decide
  have hlength : text.length = 40 := by rw [← String.length_toList, hchars]; rfl
  have hread : ∃ d, ofHex text = .ok d :=
    FortySigned.exists_ofHex ⟨hlength, (Hex.signedDigits_of_decodeChars hbytes).1⟩
  have hdigits : ¬FortyDigits text := fun h => h.notMem (by rw [hchars]; decide)
  exact ⟨hread, hdigits, fun h => hdigits (h.exists_iff.mp hread)⟩

end Digest

end RecordStore
