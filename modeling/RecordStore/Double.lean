/-!
# Double-precision numbers

A double is kept as its sixty-four bits, so that every pattern – the two zeros
and each of the many patterns that stand for no number – is a value of its own.
Two things are defined on patterns: the *total order*, which puts every pattern
in one line from the negative patterns without a number through the numbers to
the positive ones (`RecordStore.Double.rank`), and the arithmetic that counters
need. Arithmetic follows the rule that a pattern without a number passes
through: of the operands that are no number the first one is the result, made
quiet, and an operation that has no result of its own answers the negative
quiet pattern. The rule matters because the total order can tell the patterns
apart.
-/

namespace RecordStore

/-- A double-precision number, as the bits of its binary representation. -/
structure Double where
  /-- The bit pattern: sign, eleven bits of exponent, fifty-two of fraction. -/
  bits : UInt64
deriving DecidableEq, Inhabited

namespace Double

/-- The sign bit. -/
def isNegative (x : Double) : Bool := x.bits.toNat ≥ 0x8000000000000000

/-- The pattern without its sign bit; it grows with the absolute value. -/
def magnitude (x : Double) : Nat := x.bits.toNat % 0x8000000000000000

/-- The weight of the bit in front of the fraction field, which is also the lowest
bit of the exponent field. -/
def leadingBit : Nat := 0x10000000000000

/-- The biased exponent field. -/
def exponentField (x : Double) : Nat := x.magnitude / leadingBit

/-- The fraction field. -/
def fraction (x : Double) : Nat := x.magnitude % leadingBit

/-- Whether the pattern stands for no number. -/
def isNaN (x : Double) : Bool := x.magnitude > 0x7ff0000000000000

/-- Whether the pattern stands for a number and not for an infinity. -/
def isFinite (x : Double) : Bool := x.magnitude < 0x7ff0000000000000

/-- **The place in the total order.** Negative patterns come first, the larger
magnitude before the smaller, and `-0.0` is just below `0.0`. -/
def rank (x : Double) : Int :=
  if x.isNegative then -(x.magnitude : Int) - 1 else x.magnitude

/-- The positive quiet pattern without a number. -/
def nan : Double := ⟨0x7ff8000000000000⟩

/-- What an operation without a result answers: the negative quiet pattern. -/
def invalid : Double := ⟨0xfff8000000000000⟩

/-- The same pattern with its quiet bit set. -/
def quiet (x : Double) : Double := ⟨x.bits ||| 0x0008000000000000⟩

/-- Flips the sign bit, of any pattern. -/
def neg (x : Double) : Double := ⟨x.bits ^^^ 0x8000000000000000⟩

/-- The number as a machine double. -/
def toFloat (x : Double) : Float := Float.ofBits x.bits

/-- The pattern of a machine double that is a number. -/
def ofFloat (x : Float) : Double := ⟨x.toBits⟩

/-- The double nearest to an integer. -/
def ofInt64 (n : Int64) : Double := ofFloat n.toFloat

/-- Addition, rounded to nearest. A pattern without a number passes through, the
first operand before the second. -/
def add (x y : Double) : Double :=
  if x.isNaN then x.quiet
  else if y.isNaN then y.quiet
  else
    let sum := ofFloat (x.toFloat + y.toFloat)
    -- infinities of opposite signs have no sum
    if sum.isNaN then invalid else sum

end Double

end RecordStore
