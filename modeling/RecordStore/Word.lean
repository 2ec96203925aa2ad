/-!
# Words

Integers are kept in words of thirty-two or sixty-four bits, with a sign or
without one. This file asks which integers a word can hold: each of the three
questions answers the word that stands for a given integer, if there is one
(`RecordStore.Word.int64?_eq_some_iff` and the like).
-/

namespace RecordStore.Word

/-- The word with a sign that stands for an integer, if sixty-four bits hold it. -/
def int64? (n : Int) : Option Int64 :=
  if Int64.minValue.toInt ≤ n ∧ n ≤ Int64.maxValue.toInt then some (Int64.ofInt n) else none

/-- The word without a sign that stands for an integer, if sixty-four bits hold
it. -/
def uint64? (n : Int) : Option UInt64 :=
  if 0 ≤ n ∧ n < UInt64.size then some (UInt64.ofNat n.toNat) else none

/-- The word without a sign that stands for an integer, if thirty-two bits hold
it. -/
def uint32? (n : Int) : Option UInt32 :=
  if 0 ≤ n ∧ n < UInt32.size then some (UInt32.ofNat n.toNat) else none

theorem int64?_eq_some_iff {n : Int} {w : Int64} : int64? n = some w ↔ w.toInt = n := by
  constructor
  · intro h
    simp only [int64?, Int64.toInt_minValue, Int64.toInt_maxValue, Option.ite_none_right_eq_some,
      Option.some.injEq] at h
    obtain ⟨⟨hmin, hmax⟩, rfl⟩ := h
    exact Int64.toInt_ofInt_of_le hmin (by omega)
  · rintro rfl
    rw [int64?, if_pos ⟨Int64.minValue_le_toInt w, Int64.toInt_le w⟩, Int64.ofInt_toInt]

theorem uint64?_eq_some_iff {n : Int} {w : UInt64} : uint64? n = some w ↔ (w.toNat : Int) = n := by
  constructor
  · intro h
    simp only [uint64?, Option.ite_none_right_eq_some, Option.some.injEq] at h
    obtain ⟨⟨hmin, hmax⟩, rfl⟩ := h
    rw [UInt64.toNat_ofNat_of_lt' (by omega), Int.toNat_of_nonneg hmin]
  · rintro rfl
    rw [uint64?, if_pos ⟨Int.natCast_nonneg _, Int.ofNat_lt.mpr w.toNat_lt_size⟩,
      Int.toNat_natCast, UInt64.ofNat_toNat]

end RecordStore.Word
