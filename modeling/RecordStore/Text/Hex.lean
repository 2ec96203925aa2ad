/-!
# Bytes as hexadecimal text

Every byte is two lower-case digits, the high half first. Reading comes in two
strengths. `RecordStore.Hex.digit?` takes the digits of either case, one at a
time; `RecordStore.Hex.pair?` takes the two characters of one byte the way a
number reader would, so that a leading plus sign in front of a single digit is
part of the number and not an error.
-/

namespace RecordStore.Hex

/-- The lower-case digit of a half byte. -/
def digitChar (n : Nat) : Char :=
  if n < 10 then Char.ofNat ('0'.toNat + n) else Char.ofNat ('a'.toNat + (n - 10))

/-- The two digits of a byte, high half first. -/
def encodeByte (b : UInt8) : List Char :=
  [digitChar (b.toNat / 16), digitChar (b.toNat % 16)]

/-- The text of a byte string: two lower-case digits per byte. -/
def encode (bytes : List UInt8) : String :=
  String.ofList (bytes.flatMap encodeByte)

/-- The value of a hexadecimal digit of either case. -/
def digit? (c : Char) : Option Nat :=
  if '0' ≤ c ∧ c ≤ '9' then some (c.toNat - '0'.toNat)
  else if 'a' ≤ c ∧ c ≤ 'f' then some (c.toNat - 'a'.toNat + 10)
  else if 'A' ≤ c ∧ c ≤ 'F' then some (c.toNat - 'A'.toNat + 10)
  else none

/-- **One byte from two characters**, read as a number in base sixteen. A number
may carry a plus sign, so `+` followed by one digit stands for that digit. -/
def pair? (hi lo : Char) : Option UInt8 :=
  if hi = '+' then
    (digit? lo).map UInt8.ofNat
  else do
    let h ← digit? hi
    let l ← digit? lo
    return UInt8.ofNat (16 * h + l)

/-- Reads characters two by two; `none` if a pair is no number or one character
is left over. -/
def decodeChars : List Char → Option (List UInt8)
  | [] => some []
  | [_] => none
  | hi :: lo :: rest => do
    let b ← pair? hi lo
    let bs ← decodeChars rest
    return b :: bs

/-- Every byte that is read takes two characters. -/
theorem length_of_decodeChars {cs : List Char} {bs : List UInt8} (h : decodeChars cs = some bs) :
    cs.length = 2 * bs.length := by
  fun_induction decodeChars cs generalizing bs with
  | case1 => simp_all
  | case2 => simp at h
  | case3 hi lo rest ih =>
    simp only [Option.bind_eq_bind, Option.bind_eq_some_iff, Option.pure_def,
      Option.some.injEq] at h
    obtain ⟨_, _, bs', hbs', rfl⟩ := h
    simp only [List.length_cons, ih hbs']
    omega

/-- The bytes that a text of digit pairs stands for. -/
def decode (text : String) : Option (List UInt8) :=
  decodeChars text.toList

end RecordStore.Hex
