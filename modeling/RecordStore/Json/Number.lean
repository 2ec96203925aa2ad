import RecordStore.Json.Basic

/-!
# Reading numbers

A number in a JSON text is digits, perhaps a point with more digits, and perhaps
an exponent. Without a point and an exponent it is an integer, as long as it fits
into sixty-four bits; `-0` and everything that does not fit are doubles.

A double is read in two steps. First the digits are gathered into a significand
of sixty-four bits; digits that no longer fit are dropped, and the decimal
exponent makes up for those in front of the point. Then the significand, as a
double, is multiplied or divided by the power of ten, once if the power is a
double and in strides of `10 ^ 308` if it is smaller than any. Each of these
operations rounds, so the result can be a unit away from the double that is
nearest to the text. A number too large for a double cannot be read.
-/

namespace RecordStore

/-- A number as it is written. -/
structure NumberText where
  /-- Whether there is a minus sign. -/
  negative : Bool
  /-- The digits in front of the point. -/
  whole : List Nat
  /-- The digits behind the point, if there is one. -/
  fraction : Option (List Nat)
  /-- The sign and the digits of the exponent, if there is one. -/
  exponent : Option (Bool × List Nat)
deriving DecidableEq

namespace NumberText

/-- The greatest significand. -/
def maxSignificand : Nat := UInt64.size - 1

/-- The greatest exponent that is told apart from the ones above it. -/
def maxExponent : Nat := 0x7fffffff

/-- Takes digits into a number while it stays within a bound; answers the digits
that are left over. -/
def gather (bound n : Nat) : List Nat → Nat × List Nat
  | [] => (n, [])
  | d :: ds => if n * 10 + d ≤ bound then gather bound (n * 10 + d) ds else (n, d :: ds)

/-- The power `10 ^ n` as a double. -/
def powerOfTen (n : Nat) : Float := Float.ofScientific 1 false n

/-- The greatest power of ten that is a double. -/
def maxPower : Nat := 308

/-- Multiplies by a power of ten; an infinite product is none. -/
def scaleUp (x : Float) (power : Nat) : Option Float :=
  if power ≤ maxPower then
    let y := x * powerOfTen power
    if y.isInf then none else some y
  else if x == 0.0 then some x
  else none

/-- Divides by a power of ten, in strides of the greatest one there is. -/
def scaleDown (x : Float) (power : Nat) : Float :=
  if power ≤ maxPower then x / powerOfTen power
  else if x == 0.0 then x
  else scaleDown (x / powerOfTen maxPower) (power - maxPower)
termination_by power
decreasing_by simp only [maxPower] at *; omega

/-- A significand times a power of ten. -/
def scale (significand : Nat) (exponent : Int) : Option Float :=
  let x := (UInt64.ofNat significand).toFloat
  if exponent < 0 then some (scaleDown x exponent.natAbs) else scaleUp x exponent.toNat

/-- The double with a sign. -/
def signed (negative : Bool) (x : Float) : Json :=
  let x := Double.ofFloat x
  .float (if negative then x.neg else x)

/-- **The double** that a number with a point, an exponent or too many digits
stands for. -/
def double? (t : NumberText) : Option Json := do
  let (n, dropped) := gather maxSignificand 0 t.whole
  let fraction := t.fraction.getD []
  let (n, left) := gather maxSignificand n fraction
  let point : Int := (dropped.length : Int) - (fraction.length - left.length : Nat)
  match t.exponent with
  | none => return signed t.negative (← scale n point)
  | some (down, digits) =>
    let (e, beyond) := gather maxExponent 0 digits
    if beyond.isEmpty then
      let exponent :=
        if down then max (point - e) (-maxExponent - 1) else min (point + e) maxExponent
      return signed t.negative (← scale n exponent)
    else if n ≠ 0 && !down then none
    else return signed t.negative 0.0

/-- **The value of a number.** -/
def value? (t : NumberText) : Option Json :=
  let (n, dropped) := gather maxSignificand 0 t.whole
  if t.fraction.isNone && t.exponent.isNone && dropped.isEmpty then
    if !t.negative then some (.integer n)
    else if 0 < n ∧ Int64.minValue.toInt ≤ -n then some (.integer (-n))
    else some (signed true (UInt64.ofNat n).toFloat)
  else t.double?

end NumberText

end RecordStore
