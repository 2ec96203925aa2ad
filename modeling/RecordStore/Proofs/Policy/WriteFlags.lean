import RecordStore.Policy
import RecordStore.Proofs.Attempt

/-!
# Policies as numbers

On the wire a collection policy is a code for the order and a word of write flags, which is read
through masks. This file says what the masks let through: the words of four bits
(`RecordStore.and_not_knownFlags_eq_zero_iff`), each of which is made up of the bits that the masks
find in it (`RecordStore.FourBits.eq_writeBits`). From there on no masks are needed. A policy has
write flags of its own, the sum of the bits for its settings, and to read write flags is to find
the policy that has them (`RecordStore.MapPolicy.withFlags_eq_ok_iff`,
`RecordStore.ListPolicy.withFlags_eq_ok_iff`).
-/

namespace RecordStore

/-! ### Write flags -/

/-- A word without any bit but the lowest four. -/
def FourBits (bits : Int64) : Prop := 0 ≤ bits.toInt ∧ bits.toInt ≤ 15

theorem fourBits_iff_toNat {bits : Int64} : FourBits bits ↔ bits.toBitVec.toNat < 16 := by
  have hsize := bits.toBitVec.isLt
  rw [FourBits, Int64.toInt, BitVec.toInt_eq_toNat_cond]
  split <;> omega

/-- There are sixteen of these words. -/
theorem FourBits.exists_eq {bits : Int64} (h : FourBits bits) :
    ∃ n < 16, bits = Int64.ofNat n := by
  refine ⟨bits.toBitVec.toNat, fourBits_iff_toNat.mp h, ?_⟩
  rw [← Int64.toBitVec_inj, Int64.toBitVec_ofNat', BitVec.ofNat_toNat, BitVec.setWidth_eq]

/-- **The mask leaves nothing of a word** exactly when the word has four bits. The sign is one of
the other bits, so negative words are left out, too. -/
theorem and_not_knownFlags_eq_zero_iff {bits : Int64} :
    bits &&& ~~~knownFlags = 0 ↔ FourBits bits := by
  constructor
  · intro h
    have hmask : bits.toBitVec &&& ~~~15#64 = 0#64 := congrArg Int64.toBitVec h
    have hall : 15#64 ||| ~~~15#64 = BitVec.allOnes 64 := by decide
    have hkept : bits.toBitVec = bits.toBitVec &&& 15#64 := by
      calc bits.toBitVec
        _ = bits.toBitVec &&& (15#64 ||| ~~~15#64) := by rw [hall, BitVec.and_allOnes]
        _ = bits.toBitVec &&& 15#64 := by
          rw [BitVec.and_or_distrib_left, hmask, BitVec.or_zero]
    rw [fourBits_iff_toNat, hkept, BitVec.toNat_and]
    exact Nat.lt_succ_of_le Nat.and_le_right
  · intro h
    obtain ⟨n, hn, rfl⟩ := h.exists_eq
    clear h
    revert n
    decide

/-- The two lowest bits are not both set. -/
def OneMode (bits : Int64) : Prop :=
  ¬(bits.toBitVec.getLsbD 0 = true ∧ bits.toBitVec.getLsbD 1 = true)

/-- The masks of the two lowest bits find these. -/
theorem FourBits.oneMode_iff {bits : Int64} (h : FourBits bits) :
    OneMode bits ↔ ¬(hasFlag bits 1 && hasFlag bits 2) = true := by
  obtain ⟨n, hn, rfl⟩ := h.exists_eq
  clear h
  rw [OneMode]
  revert n
  decide

/-- **The word with some of the four bits**, from the lowest one on. -/
def writeBits (first second third fourth : Bool) : Int64 :=
  (if first then 1 else 0) + (if second then 2 else 0) + (if third then 4 else 0) +
    if fourth then 8 else 0

theorem fourBits_writeBits (first second third fourth : Bool) :
    FourBits (writeBits first second third fourth) := by
  rw [FourBits]
  revert first second third fourth
  decide

/-- Each of the masks finds its bit. -/
@[simp] theorem hasFlag_writeBits (first second third fourth : Bool) :
    hasFlag (writeBits first second third fourth) 1 = first ∧
      hasFlag (writeBits first second third fourth) 2 = second ∧
      hasFlag (writeBits first second third fourth) 4 = third ∧
      hasFlag (writeBits first second third fourth) 8 = fourth := by
  revert first second third fourth
  decide

/-- A word of four bits is made up of the bits that the masks find. -/
theorem FourBits.eq_writeBits {bits : Int64} (h : FourBits bits) :
    bits = writeBits (hasFlag bits 1) (hasFlag bits 2) (hasFlag bits 4) (hasFlag bits 8) := by
  obtain ⟨n, hn, rfl⟩ := h.exists_eq
  clear h
  revert n
  decide

/-! ### The numbers of a policy -/

/-- The code of an order policy. -/
def MapOrder.code : MapOrder → Int64
  | unordered => 0
  | keyOrdered => 1
  | keyValueOrdered => 3

theorem MapOrder.ofCode_eq_ok_iff {code : Int64} {order : MapOrder} :
    ofCode code = .ok order ↔ code = order.code := by
  rw [ofCode]
  cases order <;> grind [MapOrder.code]

/-- The codes of order policies. -/
theorem MapOrder.exists_code_iff {code : Int64} :
    (∃ order : MapOrder, order.code = code) ↔ code = 0 ∨ code = 1 ∨ code = 3 := by
  constructor
  · rintro ⟨order, rfl⟩
    cases order
    · exact Or.inl rfl
    · exact Or.inr (Or.inl rfl)
    · exact Or.inr (Or.inr rfl)
  · rintro (rfl | rfl | rfl)
    · exact ⟨.unordered, rfl⟩
    · exact ⟨.keyOrdered, rfl⟩
    · exact ⟨.keyValueOrdered, rfl⟩

namespace MapPolicy

/-- **The write flags of a map policy.** -/
def writeFlags (p : MapPolicy) : Int64 :=
  writeBits (p.writeMode = .createOnly) (p.writeMode = .updateOnly) p.noFail p.keepRest

/-- The policy that the masks find in a word has this word for its write flags. -/
theorem writeFlags_eq {order : MapOrder} {bits : Int64} (hbits : FourBits bits)
    (hmodes : ¬(hasFlag bits 1 && hasFlag bits 2) = true) :
    writeFlags
      { order
        writeMode :=
          if hasFlag bits 1 then .createOnly else if hasFlag bits 2 then .updateOnly else .update
        noFail := hasFlag bits 4
        keepRest := hasFlag bits 8 } = bits := by
  refine Eq.trans ?_ hbits.eq_writeBits.symm
  rw [writeFlags]
  dsimp only
  revert hmodes
  -- with both bits the mode for absent keys would hide the other one
  rcases hasFlag bits 1 with _ | _ <;> rcases hasFlag bits 2 with _ | _ <;> simp

/-- **Write flags are read as what they stand for.** -/
theorem withFlags_eq_ok_iff {p q : MapPolicy} {bits : Int64} :
    p.withFlags bits = .ok q ↔ bits = q.writeFlags ∧ q.order = p.order := by
  rw [withFlags, ite_error_eq_ok_iff, ite_error_eq_ok_iff, Decidable.not_not,
    and_not_knownFlags_eq_zero_iff, createOnlyFlag, updateOnlyFlag, noFailFlag, partialFlag]
  constructor
  · rintro ⟨hbits, hmodes, hq⟩
    obtain rfl := Except.ok.inj hq
    exact ⟨(writeFlags_eq hbits hmodes).symm, rfl⟩
  · rintro ⟨rfl, horder⟩
    obtain ⟨order, mode, noFail, keepRest⟩ := q
    obtain rfl : order = p.order := horder
    refine ⟨fourBits_writeBits _ _ _ _, ?_⟩
    cases mode <;> simp [writeFlags]

/-- The write flags of map policies, with any order. -/
theorem exists_writeFlags_iff {order : MapOrder} {bits : Int64} :
    (∃ p : MapPolicy, p.order = order ∧ p.writeFlags = bits) ↔ FourBits bits ∧ OneMode bits := by
  constructor
  · rintro ⟨⟨order, mode, noFail, keepRest⟩, -, rfl⟩
    have hbits := fourBits_writeBits (mode = .createOnly) (mode = .updateOnly) noFail keepRest
    refine ⟨hbits, hbits.oneMode_iff.mpr ?_⟩
    cases mode <;> simp
  · rintro ⟨hbits, hmodes⟩
    exact ⟨_, rfl, writeFlags_eq hbits (hbits.oneMode_iff.mp hmodes)⟩

/-- The order and the write flags make up a map policy. -/
theorem eq_of_numbers {p q : MapPolicy} (horder : p.order = q.order)
    (hflags : p.writeFlags = q.writeFlags) : p = q := by
  have hp : p.withFlags p.writeFlags = .ok p := withFlags_eq_ok_iff.mpr ⟨rfl, rfl⟩
  have hq : p.withFlags p.writeFlags = .ok q := withFlags_eq_ok_iff.mpr ⟨hflags, horder.symm⟩
  rw [hp] at hq
  exact Except.ok.inj hq

end MapPolicy

namespace ListPolicy

/-- **The write flags of a list policy.** -/
def writeFlags (p : ListPolicy) : Int64 :=
  writeBits p.addUnique p.insertBounded p.noFail p.keepRest

/-- **Write flags are read as what they stand for.** -/
theorem withFlags_eq_ok_iff {p q : ListPolicy} {bits : Int64} :
    p.withFlags bits = .ok q ↔ bits = q.writeFlags := by
  rw [withFlags, ite_error_eq_ok_iff, Decidable.not_not, and_not_knownFlags_eq_zero_iff,
    addUniqueFlag, insertBoundedFlag, noFailFlag, partialFlag]
  constructor
  · rintro ⟨hbits, hq⟩
    obtain rfl := Except.ok.inj hq
    exact hbits.eq_writeBits
  · rintro rfl
    refine ⟨fourBits_writeBits _ _ _ _, ?_⟩
    simp [writeFlags]

/-- The write flags of list policies. -/
theorem exists_writeFlags_iff {bits : Int64} :
    (∃ p : ListPolicy, p.writeFlags = bits) ↔ FourBits bits := by
  constructor
  · rintro ⟨p, rfl⟩
    exact fourBits_writeBits _ _ _ _
  · intro hbits
    exact ⟨⟨_, _, _, _⟩, hbits.eq_writeBits.symm⟩

/-- The write flags make up a list policy. -/
theorem eq_of_writeFlags {p q : ListPolicy} (hflags : p.writeFlags = q.writeFlags) : p = q := by
  have hp : p.withFlags p.writeFlags = .ok p := withFlags_eq_ok_iff.mpr rfl
  rw [withFlags_eq_ok_iff.mpr hflags] at hp
  exact (Except.ok.inj hp).symm

end ListPolicy

end RecordStore
