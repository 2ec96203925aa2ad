import RecordStore.Double
import RecordStore.Decimal.Shortest

/-!
# Writing doubles

A double is written with the fewest digits that read back, either positionally,
with a digit on each side of the point, or with an exponent behind the first
digit. Where one form gives way to the other, and how the exponent looks, is a
`RecordStore.Decimal.Layout`.
-/

namespace RecordStore.Decimal

/-- How a double is laid out. -/
structure Layout where
  /-- Which of two equally near shortest decimals is taken. -/
  tie : Tie
  /-- The least exponent of the first digit that is still written positionally. -/
  least : Int
  /-- The greatest one. -/
  greatest : Int
  /-- Whether a positive exponent carries a plus sign. -/
  plus : Bool

/-- The shortest digits of a finite double other than zero. -/
def digitsOf (x : Double) (tie : Tie) : Digits :=
  if x.exponentField = 0 then
    shortest x.fraction (-1074) false tie
  else
    -- below a power of two the doubles are denser, except at the smallest one
    shortest (Double.leadingBit + x.fraction) (x.exponentField - 1075)
      (x.fraction = 0 && x.exponentField > 1) tie

/-- Digits with the point after the first `point` of them, zeros filling the
places that no digit takes; there is a digit on each side of the point. -/
def positional (digits : List Char) (point : Int) : List Char :=
  if point ≤ 0 then
    '0' :: '.' :: (List.replicate (-point).toNat '0' ++ digits)
  else
    let n := point.toNat
    -- the point may stand behind the last digit
    let whole := digits.take n ++ List.replicate (n - digits.length) '0'
    let fraction := digits.drop n
    whole ++ '.' :: (if fraction.isEmpty then ['0'] else fraction)

/-- The first digit, a point and the other digits if there are any, and the
exponent of the first digit. -/
def scientific (digits : List Char) (exponent : Int) (plus : Bool) : List Char :=
  let mantissa :=
    match digits with
    | d :: rest@(_ :: _) => d :: '.' :: rest
    | ds => ds
  let sign := if exponent < 0 then ['-'] else if plus then ['+'] else []
  mantissa ++ 'e' :: (sign ++ (Nat.repr exponent.natAbs).toList)

/-- The text of a finite double. -/
def Layout.write (l : Layout) (x : Double) : String :=
  let body :=
    if x.magnitude = 0 then ['0', '.', '0']
    else
      let d := digitsOf x l.tie
      let digits := (Nat.repr d.significand).toList
      let exponent := d.exponent + digits.length - 1
      if l.least ≤ exponent ∧ exponent ≤ l.greatest then positional digits (exponent + 1)
      else scientific digits exponent l.plus
  String.ofList (if x.isNegative then '-' :: body else body)

end RecordStore.Decimal
