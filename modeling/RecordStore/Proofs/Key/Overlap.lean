import Mathlib.Algebra.Group.Nat.Defs
import RecordStore.Key
import RecordStore.Proofs.Attempt
import RecordStore.Proofs.Text.Utf8

/-!
# Which keys are hashed alike

The set and the user key are hashed one behind the other, with nothing but the byte for
the type of the user key in between, and nothing says how long the set is. Two pairs of a
set and a user key are therefore hashed alike not only when they are the same: the byte
that ends the set of one pair may stand inside the set of the other one, as a control
character there. `RecordStore.UserKey.Overlaps` says when this is so, and
`RecordStore.UserKey.hashInput_eq_iff_overlap` says that there is no other way. As long as
sets have none of the three control characters in them, every pair is hashed to itself.
-/

namespace RecordStore

/-- A number of so many bytes is told by its bytes. -/
theorem Ripemd160.littleEndian_injective {m n width : Nat} (hm : m < 256 ^ width)
    (hn : n < 256 ^ width) (h : littleEndian m width = littleEndian n width) : m = n := by
  induction width generalizing m n with
  | zero =>
    rw [Nat.pow_zero] at hm hn
    omega
  | succ width ih =>
    rw [littleEndian, littleEndian] at h
    obtain ⟨hfirst, hrest⟩ := List.cons.inj h
    rw [Nat.pow_succ] at hm hn
    have hlow : m % 256 = n % 256 := by
      have hbyte := congrArg UInt8.toNat hfirst
      rwa [UInt8.toNat_ofNat_of_lt' (Nat.mod_lt _ (by decide)),
        UInt8.toNat_ofNat_of_lt' (Nat.mod_lt _ (by decide))] at hbyte
    have hhigh : m / 256 = n / 256 := by
      refine ih ?_ ?_ hrest
      · omega
      · omega
    omega

namespace UserKey

variable {set set' : String} {u u' : UserKey}

/-! ### What a user key is hashed as -/

theorem typeByte_lt (u : UserKey) : u.typeByte.toNat < 128 := by
  cases u with
  | integer n => exact (by decide : (1 : UInt8).toNat < 128)
  | string s => exact (by decide : (3 : UInt8).toNat < 128)
  | bytes b => exact (by decide : (4 : UInt8).toNat < 128)

theorem bigEndian_injective {m n : Int64} (h : bigEndian m = bigEndian n) : m = n := by
  rw [bigEndian, bigEndian, List.reverse_inj] at h
  have hbits := Ripemd160.littleEndian_injective m.toUInt64.toNat_lt n.toUInt64.toNat_lt h
  obtain ⟨m⟩ := m
  obtain ⟨n⟩ := n
  exact congrArg Int64.ofUInt64 (UInt64.toNat_inj.mp hbits)

/-- The type and the bytes tell the user key. -/
theorem eq_of_content (htype : u.typeByte = u'.typeByte) (h : u.content = u'.content) :
    u = u' := by
  -- the types of two different constructors are different bytes
  cases u with
  | integer m =>
    cases u' with
    | integer n => exact congrArg integer (bigEndian_injective h)
    | string s => exact absurd htype (by decide : (1 : UInt8) ≠ 3)
    | bytes b => exact absurd htype (by decide : (1 : UInt8) ≠ 4)
  | string s =>
    cases u' with
    | integer n => exact absurd htype (by decide : (3 : UInt8) ≠ 1)
    | string t => exact congrArg string (Text.toUTF8_injective h)
    | bytes b => exact absurd htype (by decide : (3 : UInt8) ≠ 4)
  | bytes b =>
    cases u' with
    | integer n => exact absurd htype (by decide : (4 : UInt8) ≠ 1)
    | string s => exact absurd htype (by decide : (4 : UInt8) ≠ 3)
    | bytes c => exact congrArg bytes h

/-! ### Overlaps -/

/-- The type of a user key as a control character. -/
def typeChar (u : UserKey) : Char := Char.ofUInt8 u.typeByte

/-- **A pair overlaps another one** when the set of the other goes on behind the set of the
first with the type of its user key and some text, and the user key consists of that text
and what follows the set of the other. -/
def Overlaps (set : String) (u : UserKey) (set' : String) (u' : UserKey) : Prop :=
  ∃ rest : String, set' = set ++ (String.singleton u.typeChar ++ rest) ∧
    u.content = rest.toUTF8.toList ++ u'.typeByte :: u'.content

/-- Overlapping pairs are hashed alike. -/
theorem Overlaps.hashInput_eq (h : Overlaps set u set' u') :
    u.hashInput set = u'.hashInput set' := by
  obtain ⟨rest, rfl, hcontent⟩ := h
  rw [hashInput, hashInput, hcontent, Text.toUTF8_append, Text.toUTF8_append, typeChar,
    Text.toUTF8_singleton u.typeByte_lt, List.append_assoc, List.append_assoc]
  rfl

/-- If one set goes on behind the other, pairs that are hashed alike are the same or
overlap. -/
theorem eq_or_overlaps {more : List UInt8}
    (hset : set'.toUTF8.toList = set.toUTF8.toList ++ more)
    (h : u.typeByte :: u.content = more ++ u'.typeByte :: u'.content) :
    (set = set' ∧ u = u') ∨ Overlaps set u set' u' := by
  cases more with
  | nil =>
    rw [List.append_nil] at hset
    obtain ⟨htype, hcontent⟩ := List.cons.inj h
    exact Or.inl ⟨Text.toUTF8_injective hset.symm, eq_of_content htype hcontent⟩
  | cons b more =>
    obtain ⟨rfl, hcontent⟩ := List.cons.inj h
    obtain ⟨tail, rfl, htail⟩ := Text.exists_of_toUTF8_append hset
    obtain ⟨rest, rfl, rfl⟩ := Text.exists_of_toUTF8_cons htail.symm u.typeByte_lt
    exact Or.inr ⟨rest, rfl, hcontent⟩

/-- **Pairs are hashed alike** exactly when they are the same or one overlaps the other. -/
theorem hashInput_eq_iff :
    u.hashInput set = u'.hashInput set' ↔
      (set = set' ∧ u = u') ∨ Overlaps set u set' u' ∨ Overlaps set' u' set u := by
  constructor
  · intro h
    rcases List.append_eq_append_iff.mp h with ⟨more, hset, hrest⟩ | ⟨more, hset, hrest⟩
    · rcases eq_or_overlaps hset hrest with hsame | hoverlap
      · exact Or.inl hsame
      · exact Or.inr (Or.inl hoverlap)
    · rcases eq_or_overlaps hset hrest with ⟨rfl, rfl⟩ | hoverlap
      · exact Or.inl ⟨rfl, rfl⟩
      · exact Or.inr (Or.inr hoverlap)
  · rintro (⟨rfl, rfl⟩ | h | h)
    · rfl
    · exact h.hashInput_eq
    · exact h.hashInput_eq.symm

/-- **A set is plain** when none of its characters is a type of user keys. -/
def Plain (set : String) : Prop := ∀ c ∈ set.toList, c ≠ '\x01' ∧ c ≠ '\x03' ∧ c ≠ '\x04'

instance : DecidablePred Plain := fun set => List.decidableBAll _ set.toList

/-- Nothing overlaps a pair whose set is plain. -/
theorem not_overlaps_of_plain (h : Plain set') : ¬Overlaps set u set' u' := by
  rintro ⟨rest, rfl, -⟩
  have hmem : u.typeChar ∈ (set ++ (String.singleton u.typeChar ++ rest)).toList := by
    rw [String.toList_append, String.toList_append, String.toList_singleton]
    exact List.mem_append_right _ List.mem_cons_self
  obtain ⟨hone, hthree, hfour⟩ := h _ hmem
  cases u with
  | integer n => exact hone rfl
  | string s => exact hthree rfl
  | bytes b => exact hfour rfl

theorem eq_of_plain (hset : Plain set) (hset' : Plain set')
    (h : u.hashInput set = u'.hashInput set') : set = set' ∧ u = u' := by
  rcases hashInput_eq_iff.mp h with hsame | hoverlap | hoverlap
  · exact hsame
  · exact absurd hoverlap (not_overlaps_of_plain hset')
  · exact absurd hoverlap (not_overlaps_of_plain hset)

end UserKey

/-! ### Keys at one record -/

theorem Key.digest_of_ofUserKey {ns set : String} {u : UserKey} {key : Key}
    (h : Key.ofUserKey ns set u = .ok key) : key.digest = Digest.compute set u := by
  obtain ⟨_, -, hkey⟩ := bind_eq_ok_iff.mp h
  obtain rfl := Except.ok.inj hkey
  rfl

theorem Digest.compute_eq_iff {set set' : String} {u u' : UserKey}
    (hhash : Ripemd160.hash (u.hashInput set) = Ripemd160.hash (u'.hashInput set') →
      u.hashInput set = u'.hashInput set') :
    Digest.compute set u = Digest.compute set' u' ↔ u.hashInput set = u'.hashInput set' := by
  constructor
  · intro h
    exact hhash (congrArg Digest.bytes h)
  · intro h
    rw [Digest.compute, Digest.compute, Digest.mk.injEq, h]

/-- **The input of the hash tells the set and the user key up to overlaps**: two pairs are
hashed alike exactly when they are the same or one of them overlaps the other, and never
without being the same if the sets are plain. So keys in a namespace, as long as the hash
has no collision at the inputs for them, are at the same record only if their pairs are the
same or overlap. -/
theorem UserKey.hashInput_eq_iff_overlap (set set' : String) (u u' : UserKey) :
    (u.hashInput set = u'.hashInput set' ↔
      (set = set' ∧ u = u') ∨ Overlaps set u set' u' ∨ Overlaps set' u' set u) ∧
    (Plain set → Plain set' → u.hashInput set = u'.hashInput set' → set = set' ∧ u = u') ∧
    ∀ ns key key', Key.ofUserKey ns set u = .ok key → Key.ofUserKey ns set' u' = .ok key' →
      (Ripemd160.hash (u.hashInput set) = Ripemd160.hash (u'.hashInput set') →
        u.hashInput set = u'.hashInput set') →
      (key.digest = key'.digest ↔
        (set = set' ∧ u = u') ∨ Overlaps set u set' u' ∨ Overlaps set' u' set u) := by
  refine ⟨hashInput_eq_iff, eq_of_plain, ?_⟩
  intro ns key key' hkey hkey' hhash
  rw [Key.digest_of_ofUserKey hkey, Key.digest_of_ofUserKey hkey', Digest.compute_eq_iff hhash,
    hashInput_eq_iff]

/-- A character that moves over from a plain set to the user key makes another record. -/
theorem UserKey.digest_ne_moved :
    ∃ key key', Key.ofUserKey "test" "ab" (string "c") = .ok key ∧
      Key.ofUserKey "test" "a" (string "bc") = .ok key' ∧ key.digest ≠ key'.digest := by
  refine ⟨_, _, rfl, rfl, ?_⟩
  intro hdigest
  obtain ⟨hinput, hplain, hkeys⟩ :=
    hashInput_eq_iff_overlap "ab" "a" (string "c") (string "bc")
  have hcases := (hkeys "test" _ _ rfl rfl fun hhash => absurd hhash (by decide +kernel)).mp
    hdigest
  obtain ⟨hset, -⟩ := hplain (by decide) (by decide) (hinput.mpr hcases)
  exact absurd hset (by decide)

/-- Two different pairs, with sets of one and of two bytes, that are hashed alike: the type
of texts ends the set of the one and is the last character in the set of the other. -/
theorem UserKey.hashInput_collides :
    "a".utf8ByteSize ≤ maxSetBytes ∧ "a\x03".utf8ByteSize ≤ maxSetBytes ∧
      (string "\x03b").hashInput "a" = (string "b").hashInput "a\x03" ∧
      Digest.compute "a" (string "\x03b") = Digest.compute "a\x03" (string "b") ∧
      ¬("a" = "a\x03" ∧ string "\x03b" = string "b") := by
  have hinput : (string "\x03b").hashInput "a" = (string "b").hashInput "a\x03" :=
    Overlaps.hashInput_eq ⟨"", by decide, by simp only [content, Text.toUTF8_toList]; decide⟩
  refine ⟨by decide, by decide, hinput, ?_, by decide⟩
  rw [Digest.compute, Digest.compute, Digest.mk.injEq, hinput]

end RecordStore
