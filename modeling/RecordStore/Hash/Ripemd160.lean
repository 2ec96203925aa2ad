/-!
# RIPEMD-160

The hash function RIPEMD-160, on byte strings. A message is padded to whole
blocks of sixty-four bytes; each block is sent through two lines of eighty steps
that run over the same five words, and the two results are added crosswise into
the chaining words.
-/

namespace RecordStore.Ripemd160

/-- The five chaining words. -/
structure Chain where
  /-- First word. -/
  a : UInt32
  /-- Second word. -/
  b : UInt32
  /-- Third word. -/
  c : UInt32
  /-- Fourth word. -/
  d : UInt32
  /-- Fifth word. -/
  e : UInt32
deriving DecidableEq

/-- The words that a message starts from. -/
def Chain.start : Chain :=
  ⟨0x67452301, 0xefcdab89, 0x98badcfe, 0x10325476, 0xc3d2e1f0⟩

/-- The five mixing functions, in the order in which the left line uses them. -/
def mix (round : Nat) (x y z : UInt32) : UInt32 :=
  match round with
  | 0 => x ^^^ y ^^^ z
  | 1 => (x &&& y) ||| (~~~x &&& z)
  | 2 => (x ||| ~~~y) ^^^ z
  | 3 => (x &&& z) ||| (y &&& ~~~z)
  | _ => x ^^^ (y ||| ~~~z)

/-- Rotation to the left. -/
def rotateLeft (x : UInt32) (n : UInt32) : UInt32 :=
  (x <<< n) ||| (x >>> (32 - n))

/-- The constants of the left line, one a round. -/
def leftConstants : List UInt32 :=
  [0x00000000, 0x5a827999, 0x6ed9eba1, 0x8f1bbcdc, 0xa953fd4e]

/-- The constants of the right line, one a round. -/
def rightConstants : List UInt32 :=
  [0x50a28be6, 0x5c4dd124, 0x6d703ef3, 0x7a6d76e9, 0x00000000]

/-- Which word of the block each step of the left line reads, round by round. -/
def leftWords : List (List Nat) :=
  [[0, 1, 2, 3, 4, 5, 6, 7, 8, 9, 10, 11, 12, 13, 14, 15],
   [7, 4, 13, 1, 10, 6, 15, 3, 12, 0, 9, 5, 2, 14, 11, 8],
   [3, 10, 14, 4, 9, 15, 8, 1, 2, 7, 0, 6, 13, 11, 5, 12],
   [1, 9, 11, 10, 0, 8, 12, 4, 13, 3, 7, 15, 14, 5, 6, 2],
   [4, 0, 5, 9, 7, 12, 2, 10, 14, 1, 3, 8, 11, 6, 15, 13]]

/-- Which word of the block each step of the right line reads, round by round. -/
def rightWords : List (List Nat) :=
  [[5, 14, 7, 0, 9, 2, 11, 4, 13, 6, 15, 8, 1, 10, 3, 12],
   [6, 11, 3, 7, 0, 13, 5, 10, 14, 15, 8, 12, 4, 9, 1, 2],
   [15, 5, 1, 3, 7, 14, 6, 9, 11, 8, 12, 2, 10, 0, 4, 13],
   [8, 6, 4, 1, 3, 11, 15, 0, 5, 12, 2, 13, 9, 7, 10, 14],
   [12, 15, 10, 4, 1, 5, 8, 7, 6, 2, 13, 14, 0, 3, 9, 11]]

/-- By how much each step of the left line rotates, round by round. -/
def leftShifts : List (List UInt32) :=
  [[11, 14, 15, 12, 5, 8, 7, 9, 11, 13, 14, 15, 6, 7, 9, 8],
   [7, 6, 8, 13, 11, 9, 7, 15, 7, 12, 15, 9, 11, 7, 13, 12],
   [11, 13, 6, 7, 14, 9, 13, 15, 14, 8, 13, 6, 5, 12, 7, 5],
   [11, 12, 14, 15, 14, 15, 9, 8, 9, 14, 5, 6, 8, 6, 5, 12],
   [9, 15, 5, 11, 6, 8, 13, 12, 5, 12, 13, 14, 11, 8, 5, 6]]

/-- By how much each step of the right line rotates, round by round. -/
def rightShifts : List (List UInt32) :=
  [[8, 9, 9, 11, 13, 15, 15, 5, 7, 7, 8, 11, 14, 14, 12, 6],
   [9, 13, 15, 7, 12, 8, 9, 11, 7, 7, 12, 7, 6, 15, 13, 11],
   [9, 7, 15, 11, 8, 6, 6, 14, 12, 13, 5, 14, 13, 13, 7, 5],
   [15, 5, 8, 11, 14, 14, 6, 14, 6, 9, 12, 9, 12, 5, 15, 8],
   [8, 5, 12, 9, 12, 5, 14, 6, 8, 13, 6, 5, 15, 13, 11, 11]]

/-- What one step of a line needs to know: its mixing function, the word it
reads, its rotation and its constant. -/
structure Step where
  /-- The number of the mixing function. -/
  mixing : Nat
  /-- The position of the word in the block. -/
  word : Nat
  /-- The rotation. -/
  shift : UInt32
  /-- The constant. -/
  constant : UInt32

/-- The eighty steps of a line. -/
def line (mixings : List Nat) (words : List (List Nat)) (shifts : List (List UInt32))
    (constants : List UInt32) : List Step :=
  (mixings.zip (words.zip (shifts.zip constants))).flatMap fun (mixing, ws, ss, constant) =>
    (ws.zip ss).map fun (word, shift) => ⟨mixing, word, shift, constant⟩

/-- The left line uses the mixing functions in their order. -/
def leftLine : List Step :=
  line [0, 1, 2, 3, 4] leftWords leftShifts leftConstants

/-- The right line uses them backwards. -/
def rightLine : List Step :=
  line [4, 3, 2, 1, 0] rightWords rightShifts rightConstants

/-- One step on the words of a line. -/
def Chain.step (block : Array UInt32) (h : Chain) (s : Step) : Chain :=
  let t := rotateLeft (h.a + mix s.mixing h.b h.c h.d + block.getD s.word 0 + s.constant) s.shift
  ⟨h.e, t + h.e, h.b, rotateLeft h.c 10, h.d⟩

/-- **One block**: both lines run from the chaining words, and their results are
added to the words, each one place further. -/
def Chain.compress (h : Chain) (block : Array UInt32) : Chain :=
  let l := leftLine.foldl (Chain.step block) h
  let r := rightLine.foldl (Chain.step block) h
  ⟨h.b + l.c + r.d, h.c + l.d + r.e, h.d + l.e + r.a, h.e + l.a + r.b, h.a + l.b + r.c⟩

/-- The bytes of a number, the lowest first. -/
def littleEndian (n : Nat) : (width : Nat) → List UInt8
  | 0 => []
  | width + 1 => UInt8.ofNat (n % 256) :: littleEndian (n / 256) width

/-- The message, one set bit, zeros up to eight bytes before the end of a block,
and the length of the message in bits. -/
def pad (message : List UInt8) : List UInt8 :=
  let n := message.length
  message ++ 0x80 :: (List.replicate ((119 - n % 64) % 64) 0 ++ littleEndian (8 * n) 8)

/-- Bytes as words, the lowest byte first. -/
def words : List UInt8 → List UInt32
  | a :: b :: c :: d :: rest =>
    (a.toUInt32 ||| (b.toUInt32 <<< 8) ||| (c.toUInt32 <<< 16) ||| (d.toUInt32 <<< 24)) ::
      words rest
  | _ => []

/-- Runs over the blocks of sixteen words; `fuel` bounds their number. -/
def absorb : (fuel : Nat) → Chain → List UInt32 → Chain
  | 0, h, _ => h
  | fuel + 1, h, ws =>
    if ws.isEmpty then h else absorb fuel (h.compress (ws.take 16).toArray) (ws.drop 16)

/-- The chaining words behind a message. -/
def chain (message : List UInt8) : Chain :=
  let ws := words (pad message)
  absorb ws.length Chain.start ws

/-- The bytes of the chaining words. -/
def Chain.bytes (h : Chain) : List UInt8 :=
  [h.a, h.b, h.c, h.d, h.e].flatMap fun w => littleEndian w.toNat 4

/-- **The hash of a message**, twenty bytes. -/
def hash (message : List UInt8) : List UInt8 :=
  (chain message).bytes

theorem length_littleEndian (n width : Nat) : (littleEndian n width).length = width := by
  induction width generalizing n with
  | zero => rfl
  | succ width ih => simp [littleEndian, ih]

/-- A hash has twenty bytes, whatever the message. -/
theorem length_hash (message : List UInt8) : (hash message).length = 20 := by
  simp [hash, Chain.bytes, length_littleEndian]

end RecordStore.Ripemd160
