import Mathlib.Algebra.Group.Int.Defs
import Mathlib.Algebra.Group.Nat.Defs
import RecordStore.Selection.Window

/-!
# Windows are spans of integers

A start and a count say which positions are meant: those from the start on, and so many of
them. This file says it in integers without a bound (`RecordStore.Window.InSpan`) and
compares it with the windows, which are counted out in words of sixty-four bits and cut to
the container. On positions in the container the two agree, as long as the count is no
greater than the greatest position (`RecordStore.Window.contains_ofRange`,
`RecordStore.Window.contains_ofRelative`).
-/

namespace RecordStore

theorem maxPosition_eq : maxPosition = 2 ^ 63 - 1 := Int64.toInt_maxValue

namespace Window

variable {n position : Nat} {first bound start : Int} {count : Option UInt64}

/-- **The place that an integer means** among `n`: a negative one counts from the end. -/
def placeOf (n : Nat) (i : Int) : Int := if 0 ≤ i then i else n + i

theorem fromEnd_eq (n : Nat) (index : Int64) : fromEnd n index = placeOf n index.toInt := by
  rw [fromEnd, placeOf]
  split <;> split <;> omega

/-- **A position is in the span** of a start and a count; without a count the span has no
end. -/
def InSpan (start : Int) (count : Option UInt64) (position : Nat) : Prop :=
  start ≤ position ∧ ∀ c ∈ count, (position : Int) < start + c.toNat

/-- A count that is no greater than the greatest position. -/
def CountFits (count : Option UInt64) : Prop :=
  ∀ c ∈ count, (c.toNat : Int) ≤ maxPosition

/-- A position, counted from either end, is one of the container. -/
theorem resolve_eq_some_iff {index : Int64} :
    resolve n index = some position ↔
      position < n ∧ (position : Int) = placeOf n index.toInt := by
  rw [resolve, ← fromEnd_eq]
  split
  · rw [Option.some_inj]
    omega
  · simp
    omega

/-- Cutting a range to the container takes away nothing of the container. -/
theorem contains_clip (hposition : position < n) :
    (clip n first bound).contains position = true ↔
      first ≤ position ∧ (position : Int) < bound := by
  rw [contains, Bool.and_eq_true, decide_eq_true_iff, decide_eq_true_iff]
  dsimp only [clip]
  omega

/-- In a container, counting up to the greatest position is counting on. -/
theorem lt_boundOf_iff (hposition : position < n) (hn : (n : Int) ≤ maxPosition) :
    (position : Int) < boundOf n start count ↔
      ∀ c ∈ count, (position : Int) < start + min (c.toNat : Int) maxPosition := by
  cases count with
  | none => simp [boundOf, hposition]
  | some c =>
    simp [boundOf]
    omega

/-- **A window counts exactly**, but for counts beyond the greatest position. -/
theorem contains_clip_boundOf (hposition : position < n) (hn : (n : Int) ≤ maxPosition) :
    (clip n start (boundOf n start count)).contains position = true ↔
      start ≤ position ∧
        ∀ c ∈ count, (position : Int) < start + min (c.toNat : Int) maxPosition := by
  rw [contains_clip hposition, lt_boundOf_iff hposition hn]

theorem contains_ofRange {index : Int64} (hcount : CountFits count) (hposition : position < n)
    (hn : (n : Int) ≤ maxPosition) :
    (ofRange n index count).contains position = true ↔
      InSpan (placeOf n index.toInt) count position := by
  rw [ofRange, contains_clip_boundOf hposition hn, InSpan, ← fromEnd_eq]
  refine and_congr_right fun _ => forall₂_congr fun c hc => ?_
  rw [Int.min_eq_left (hcount c hc)]

/-- The part of a range in front of the container is counted, too. -/
example : ofRange 3 (-5) (some 3) = ⟨0, 1⟩ := by decide

/-- A relative start beyond the greatest position is beyond every container. -/
theorem contains_ofRelative {base : Nat} {rank : Int64} (hcount : CountFits count)
    (hposition : position < n) (hn : (n : Int) ≤ maxPosition) :
    (ofRelative n base rank count).contains position = true ↔
      InSpan (base + rank.toInt) count position := by
  have hstart : min (base + rank.toInt) maxPosition ≤ (position : Int) ↔
      base + rank.toInt ≤ (position : Int) := by
    omega
  rw [ofRelative, contains_clip_boundOf hposition hn, InSpan, hstart]
  refine and_congr_right fun hle => forall₂_congr fun c hc => ?_
  have hfits := hcount c hc
  omega

end Window

end RecordStore
