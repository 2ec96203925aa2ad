/-!
# Windows of positions

Positions in a container of `n` elements are `0, …, n - 1`; a negative position
counts from the end. This file turns a position, or a start and a count, into
the positions it stands for. Counting stops at the greatest integer of
sixty-four bits: a range that would reach beyond it ends there.
-/

namespace RecordStore

/-- The greatest position there is. -/
def maxPosition : Int := Int64.maxValue.toInt

/-- The positions from `first` on and before `bound`. -/
structure Window where
  /-- The first position. -/
  first : Nat
  /-- The first position behind the window. -/
  bound : Nat
deriving DecidableEq

namespace Window

/-- Whether a position is in the window. -/
def contains (w : Window) (position : Nat) : Bool :=
  w.first ≤ position && position < w.bound

/-- A position, where a negative one counts from the end of `n` elements. -/
def fromEnd (n : Nat) (position : Int64) : Int :=
  if position.toInt < 0 then n + position.toInt else position.toInt

/-- The position itself, if it is one of `n` elements. -/
def resolve (n : Nat) (position : Int64) : Option Nat :=
  let p := fromEnd n position
  if 0 ≤ p ∧ p < n then some p.toNat else none

/-- Where a range ends that starts somewhere and has a count; without a count it
runs to the end of the container. -/
def boundOf (n : Nat) (start : Int) : (count : Option UInt64) → Int
  | some count => min (start + min (count.toNat : Int) maxPosition) maxPosition
  | none => n

/-- The part of a range that lies in a container of `n` elements. -/
def clip (n : Nat) (first bound : Int) : Window :=
  let f := max 0 (min first n)
  ⟨f.toNat, (max f (min bound n)).toNat⟩

/-- **The window of a start and a count**, where a negative start counts from the
end. -/
def ofRange (n : Nat) (start : Int64) (count : Option UInt64) : Window :=
  clip n (fromEnd n start) (boundOf n (fromEnd n start) count)

/-- **The window of a rank and a count**, where the rank counts from `base`. -/
def ofRelative (n base : Nat) (rank : Int64) (count : Option UInt64) : Window :=
  let start := min (base + rank.toInt) maxPosition
  clip n start (boundOf n start count)

/-- **The window of a forward range**: the start is a position, and a negative
one stands behind every element. -/
def forward (n : Nat) (index : Int64) (count : Option UInt64) : Window :=
  let first := if index.toInt < 0 then n else min index.toInt.toNat n
  let bound :=
    match count with
    | some count => min (first + count.toNat) n
    | none => n
  ⟨first, bound⟩

end Window

end RecordStore
