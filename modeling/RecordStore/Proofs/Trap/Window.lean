import RecordStore.Proofs.Collection.Ranges
import RecordStore.Proofs.Counters
import RecordStore.Proofs.Selection.Window
import RecordStore.Word

/-!
# Windows that are worked out in words

The windows of positions are said in integers without a bound. A machine works them out in words
of sixty-four bits, and there something can go wrong: a sum may leave the words, and a word can be
brought between two others only if these are in order. Both are a *trap* here, where a computation
comes to `none`. This file shows that there are no traps on the way to a window, and that what is
worked out is the window (`RecordStore.Window.ofRange?_eq` and its like). The window lies in its
container then, with its ends in order (`RecordStore.Window.Within`).

## Why the sums stay in the words

A position is added to a number of elements only if it is negative, and a container has no more
elements than the greatest position; so the sum lies between the two, whichever position it is. All
other sums could leave the words, and stop at their ends instead.
-/

namespace RecordStore

/-! ### Arithmetic on words -/

namespace Word

variable {a b lo hi : Int64}

/-- **Adds words with a sign**; a sum that leaves the words is a trap. -/
def add? (a b : Int64) : Option Int64 := int64? (a.toInt + b.toInt)

/-- Adds words with a sign, and stops at the ends of the words. -/
def saturatingAdd (a b : Int64) : Int64 :=
  Int64.ofInt (max Int64.minValue.toInt (min (a.toInt + b.toInt) Int64.maxValue.toInt))

/-- **Brings a word between two others**; that these are not in order is a trap. -/
def clamp? (a lo hi : Int64) : Option Int64 :=
  if lo ≤ hi then some (if a < lo then lo else if hi < a then hi else a) else none

/-- The word with a sign that stands for a count, or the greatest one where there is none. -/
def ofCount (count : UInt64) : Int64 := (int64? count.toNat).getD Int64.maxValue

/-- The position that the bits of a word stand for. -/
def toPosition (a : Int64) : Nat := a.toUInt64.toNat

theorem toInt_saturatingAdd (a b : Int64) :
    (saturatingAdd a b).toInt = max (-2 ^ 63) (min (a.toInt + b.toInt) (2 ^ 63 - 1)) := by
  rw [saturatingAdd, Int64.toInt_minValue, Int64.toInt_maxValue]
  exact Int64.toInt_ofInt_of_le (by omega) (by omega)

theorem clamp?_eq_some (h : lo.toInt ≤ hi.toInt) :
    ∃ c, clamp? a lo hi = some c ∧ c.toInt = max lo.toInt (min a.toInt hi.toInt) := by
  refine ⟨_, if_pos (Int64.le_iff_toInt_le.mpr h), ?_⟩
  split
  · rename_i hlt
    rw [Int64.lt_iff_toInt_lt] at hlt
    omega
  · rename_i hlo
    rw [Int64.lt_iff_toInt_lt] at hlo
    split
    · rename_i hlt
      rw [Int64.lt_iff_toInt_lt] at hlt
      omega
    · rename_i hhi
      rw [Int64.lt_iff_toInt_lt] at hhi
      omega

theorem toInt_ofCount (count : UInt64) :
    (ofCount count).toInt = min (count.toNat : Int) maxPosition := by
  rw [ofCount]
  by_cases hfits : Fits count.toNat
  · obtain ⟨c, hc, heq⟩ := int64?_of_fits hfits
    rw [hc, Option.getD_some, heq]
    exact (Int.min_eq_left hfits.2).symm
  · rw [int64?_of_not_fits hfits]
    have hmin : Int64.minValue.toInt ≤ (count.toNat : Int) := by
      rw [Int64.toInt_minValue]
      omega
    exact (Int.min_eq_right (Int.le_of_lt (Int.not_le.mp fun hle => hfits ⟨hmin, hle⟩))).symm

/-- The bits of a word that is not negative are read rightly. -/
theorem toPosition_eq (h : 0 ≤ a.toInt) : toPosition a = a.toInt.toNat := by
  rw [toPosition, Int64.toNat_toUInt64_of_le (Int64.le_iff_toInt_le.mpr h), Int64.toNatClampNeg]

/-- A number of elements is read rightly, up to the greatest position. -/
theorem toInt_ofNat {n : Nat} (hn : (n : Int) ≤ maxPosition) : (Int64.ofNat n).toInt = n := by
  rw [maxPosition_eq] at hn
  exact Int64.toInt_ofNat_of_lt (by omega)

end Word

/-! ### Windows -/

namespace Window

variable {n base : Nat} {first bound : Int64} {count : Option UInt64}

open Word

/-- A position, where a negative one counts from the end. -/
def fromEnd? (n : Nat) (position : Int64) : Option Int64 :=
  if position < 0 then add? (Int64.ofNat n) position else some position

/-- The position itself, if it is one of the container. -/
def resolve? (n : Nat) (position : Int64) : Option (Option Nat) := do
  let p ← fromEnd? n position
  return if 0 ≤ p ∧ p < Int64.ofNat n then some (toPosition p) else none

/-- Where a range ends. -/
def boundOfWord (n : Nat) (start : Int64) : (count : Option UInt64) → Int64
  | some count => saturatingAdd start (ofCount count)
  | none => Int64.ofNat n

/-- The part of a range that lies in the container. -/
def clip? (n : Nat) (first bound : Int64) : Option Window := do
  let length := Int64.ofNat n
  let first ← clamp? first 0 length
  let bound ← clamp? bound first length
  return ⟨toPosition first, toPosition bound⟩

/-- **The window of a start and a count**, worked out in words. -/
def ofRange? (n : Nat) (start : Int64) (count : Option UInt64) : Option Window := do
  let start ← fromEnd? n start
  clip? n start (boundOfWord n start count)

/-- **The window of a rank and a count**, worked out in words. -/
def ofRelative? (n base : Nat) (rank : Int64) (count : Option UInt64) : Option Window :=
  let start := saturatingAdd (Int64.ofNat base) rank
  clip? n start (boundOfWord n start count)

/-- **The window of a forward range**, worked out in words without a sign; all of its sums stop
at the greatest word. -/
def forwardWord (n : Nat) (index : Int64) (count : Option UInt64) : Window :=
  let greatest := UInt64.size - 1
  let first := min ((uint64? index.toInt).elim greatest UInt64.toNat) n
  let bound :=
    match count with
    | some count => min (first + count.toNat) greatest
    | none => n
  ⟨first, min bound n⟩

/-! ### No traps -/

/-- **A window lies in a container**, with its ends in order. -/
structure Within (w : Window) (n : Nat) : Prop where
  ordered : w.first ≤ w.bound
  bounded : w.bound ≤ n

theorem within_clip (n : Nat) (first bound : Int) : (clip n first bound).Within n where
  ordered := by
    dsimp only [clip]
    omega
  bounded := by
    dsimp only [clip]
    omega

theorem within_forward (n : Nat) (index : Int64) (count : Option UInt64) :
    (forward n index count).Within n where
  ordered := (forward_le n index count).1
  bounded := (forward_le n index count).2

/-- **Counting from the end stays in the words**, as nothing but a negative position is added. -/
theorem fromEnd?_eq_some (hn : (n : Int) ≤ maxPosition) (position : Int64) :
    ∃ p, fromEnd? n position = some p ∧ p.toInt = fromEnd n position := by
  rw [fromEnd?, fromEnd]
  by_cases hneg : position < 0
  · have hneg' : position.toInt < 0 := Int64.lt_iff_toInt_lt.mp hneg
    have hfits : Fits ((Int64.ofNat n).toInt + position.toInt) := by
      have hmin := Int64.minValue_le_toInt position
      rw [toInt_ofNat hn]
      exact ⟨by omega, by rw [maxPosition] at hn; omega⟩
    obtain ⟨p, hp, heq⟩ := int64?_of_fits hfits
    rw [toInt_ofNat hn] at heq
    rw [if_pos hneg, if_pos hneg']
    exact ⟨p, hp, heq⟩
  · have hneg' : ¬position.toInt < 0 := fun h => hneg (Int64.lt_iff_toInt_lt.mpr h)
    rw [if_neg hneg, if_neg hneg']
    exact ⟨position, rfl, rfl⟩

theorem resolve?_eq (hn : (n : Int) ≤ maxPosition) (position : Int64) :
    resolve? n position = some (resolve n position) := by
  obtain ⟨p, hp, heq⟩ := fromEnd?_eq_some hn position
  have hin : (0 ≤ p ∧ p < Int64.ofNat n) ↔ 0 ≤ fromEnd n position ∧ fromEnd n position < n := by
    rw [Int64.le_iff_toInt_le, Int64.lt_iff_toInt_lt, toInt_ofNat hn, heq]
    rfl
  rw [resolve?, hp, resolve]
  by_cases h : 0 ≤ fromEnd n position ∧ fromEnd n position < n
  · simp only [Option.bind_eq_bind, Option.bind_some, if_pos h, if_pos (hin.mpr h)]
    rw [toPosition_eq (by rw [heq]; exact h.1), heq]
    rfl
  · simp only [Option.bind_eq_bind, Option.bind_some, if_neg h, if_neg (mt hin.mp h)]
    rfl

theorem toInt_boundOfWord (hn : (n : Int) ≤ maxPosition) (start : Int64) (count : Option UInt64) :
    (boundOfWord n start count).toInt = boundOf n start.toInt count := by
  cases count with
  | none => exact toInt_ofNat hn
  | some c =>
    have hmin := Int64.le_toInt start
    rw [boundOfWord, toInt_saturatingAdd, toInt_ofCount, boundOf, maxPosition_eq]
    omega

/-- **A range can be cut to a container**, which has no fewer than no elements. -/
theorem clip?_eq (hn : (n : Int) ≤ maxPosition) (first bound : Int64) :
    clip? n first bound = some (clip n first.toInt bound.toInt) := by
  have hlength : (0 : Int64).toInt ≤ (Int64.ofNat n).toInt := by
    rw [toInt_ofNat hn]
    exact Int.natCast_nonneg n
  obtain ⟨f, hf, hfirst⟩ := clamp?_eq_some (a := first) hlength
  rw [toInt_ofNat hn, Int64.toInt_zero] at hfirst
  have hordered : f.toInt ≤ (Int64.ofNat n).toInt := by
    rw [toInt_ofNat hn]
    omega
  obtain ⟨b, hb, hbound⟩ := clamp?_eq_some (a := bound) hordered
  rw [toInt_ofNat hn] at hbound
  simp only [clip?, hf, hb, Option.bind_eq_bind, Option.bind_some]
  rw [toPosition_eq (by omega), toPosition_eq (by omega), hbound, hfirst]
  rfl

theorem ofRange?_eq (hn : (n : Int) ≤ maxPosition) (start : Int64) (count : Option UInt64) :
    ofRange? n start count = some (ofRange n start count) := by
  obtain ⟨p, hp, heq⟩ := fromEnd?_eq_some hn start
  rw [ofRange?, hp, Option.bind_eq_bind, Option.bind_some, clip?_eq hn, toInt_boundOfWord hn, heq]
  rfl

theorem ofRelative?_eq (hn : (n : Int) ≤ maxPosition) (hbase : base ≤ n) (rank : Int64)
    (count : Option UInt64) :
    ofRelative? n base rank count = some (ofRelative n base rank count) := by
  have hstart : (saturatingAdd (Int64.ofNat base) rank).toInt =
      min (base + rank.toInt) maxPosition := by
    have hmin := Int64.le_toInt rank
    rw [toInt_saturatingAdd, toInt_ofNat (by omega), maxPosition_eq]
    omega
  rw [ofRelative?, clip?_eq hn, toInt_boundOfWord hn, hstart]
  rfl

theorem forwardWord_eq (hn : (n : Int) ≤ maxPosition) (index : Int64) (count : Option UInt64) :
    forwardWord n index count = forward n index count := by
  have hgreatest : UInt64.size - 1 = 2 ^ 64 - 1 := rfl
  rw [maxPosition_eq] at hn
  have hfirst : min ((uint64? index.toInt).elim (UInt64.size - 1) UInt64.toNat) n =
      if index.toInt < 0 then n else min index.toInt.toNat n := by
    split
    · rename_i hneg
      rw [uint64?, if_neg (by omega), Option.elim_none]
      omega
    · rename_i hneg
      obtain ⟨w, hw⟩ : ∃ w, uint64? index.toInt = some w :=
        ⟨_, if_pos ⟨by omega, by have := Int64.toInt_lt index; omega⟩⟩
      rw [hw, Option.elim_some, ← uint64?_eq_some_iff.mp hw, Int.toNat_natCast]
  simp only [forwardWord, forward, hfirst]
  cases count with
  | none => rw [Nat.min_self]
  | some c =>
    dsimp only
    congr 1
    omega

end Window

end RecordStore
