/-!
# The shortest decimal that reads back

A finite double is the nearest representable number for a whole interval of
reals. Of all decimals in that interval the *shortest* one has the fewest
digits, and among those the one nearest to the double is wanted. This file finds
it in exact integer arithmetic. A double `m · 2 ^ q` is compared with the points
`c · 10 ^ k` of a decimal grid, the grid growing finer step by step; on each grid
only the two neighbours of the double can lie in the interval nearest to it, so
the first grid on which one of them does is the answer.

Where the two neighbours are equally near, two conventions are in use, and the
choice is a parameter (`RecordStore.Decimal.Tie`).
-/

namespace RecordStore.Decimal

/-- Which of two equally near decimals is taken. -/
inductive Tie where
  /-- The one whose last digit is even. -/
  | toEven
  /-- The one further from zero. -/
  | up
deriving DecidableEq

/-- The decimal `significand · 10 ^ exponent`. -/
structure Digits where
  /-- The digits, as one number. -/
  significand : Nat
  /-- The power of ten that the last digit counts. -/
  exponent : Int
deriving DecidableEq

/-- A decimal on the way to being compared: the numbers `v`, `low` and `high` in
units of `2 ^ e`, where `low` and `high` bound the interval around `v`. -/
structure Interval where
  /-- The lower end. -/
  low : Nat
  /-- The double itself. -/
  value : Nat
  /-- The upper end. -/
  high : Nat
  /-- The unit is this power of two. -/
  exponent : Int
  /-- Whether the two ends belong to the interval. -/
  closed : Bool

/-- **The reals that round to `m · 2 ^ q`.** Each end is half way to the next
double; below a power of two the doubles are twice as dense (`narrow`). The ends
round to the double itself exactly when `m` is even. -/
def Interval.around (m : Nat) (q : Int) (narrow : Bool) : Interval where
  low := if narrow then 4 * m - 1 else 4 * m - 2
  value := 4 * m
  high := 4 * m + 2
  exponent := q - 2
  closed := m % 2 = 0

/-- The neighbour of the value on the grid of multiples of `10 ^ k` that lies in
the interval and is nearest to the value, if one of the two lies there. -/
def Interval.nearestOnGrid? (i : Interval) (k : Int) (tie : Tie) : Option Nat :=
  -- a number `x` in units of the interval is a point `c` of the grid if `x * a = c * b`
  let a := Nat.pow 2 i.exponent.toNat * Nat.pow 10 (-k).toNat
  let b := Nat.pow 2 (-i.exponent).toNat * Nat.pow 10 k.toNat
  let c := i.value * a / b
  let inside (c : Nat) : Bool :=
    if i.closed then i.low * a ≤ c * b && c * b ≤ i.high * a
    else i.low * a < c * b && c * b < i.high * a
  let below := i.value * a - c * b
  let above := (c + 1) * b - i.value * a
  match inside c, inside (c + 1) with
  | false, false => none
  | true, false => some c
  | false, true => some (c + 1)
  | true, true =>
    if below < above then some c
    else if above < below then some (c + 1)
    else
      match tie with
      | .up => some (c + 1)
      | .toEven => some (if c % 2 = 0 then c else c + 1)

/-- Tries the grid of `10 ^ k` and then up to `fuel` finer ones. -/
def Interval.firstHit (i : Interval) (tie : Tie) : (fuel : Nat) → (k : Int) → Digits
  | 0, k => ⟨i.value, k⟩
  | fuel + 1, k =>
    match i.nearestOnGrid? k tie with
    | some c => ⟨c, k⟩
    | none => i.firstHit tie fuel (k - 1)

/-- An exponent whose power of ten is above `m · 2 ^ q`: the logarithm to base
ten is less than `0.30103` times the one to base two, or, for a negative one,
`0.301` times. -/
def gridAbove (m : Nat) (q : Int) : Int :=
  let log2 := q + (m.log2 : Int) + 1
  if 0 ≤ log2 then log2 * 30103 / 100000 + 1 else log2 * 301 / 1000 + 1

/-- **The shortest decimal** that reads back as `m · 2 ^ q`, for `m` positive.
Seventeen digits always suffice, and the grid that the search starts from has
its first digit at most two places above the number's. -/
def shortest (m : Nat) (q : Int) (narrow : Bool) (tie : Tie) : Digits :=
  (Interval.around m q narrow).firstHit tie 24 (gridAbove m q)

end RecordStore.Decimal
