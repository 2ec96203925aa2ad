import RecordStore.Error.Basic
import RecordStore.Hash.Ripemd160
import RecordStore.Text.Hex

/-!
# Keys and digests

A record is addressed by a namespace, a set and a user key. The set and the user
key are hashed together into a `RecordStore.Digest` of twenty bytes, and the
digest is the record's identity from then on: a key may carry the digest alone.

What is hashed is the set, one byte for the type of the user key, and the user
key itself (`RecordStore.UserKey.hashInput`). The namespace is not hashed.
-/

namespace RecordStore

/-! ### User keys -/

/-- A primary key as the user supplies it. -/
inductive UserKey where
  /-- A whole number. -/
  | integer (n : Int64)
  /-- A text. -/
  | string (s : String)
  /-- A byte string. -/
  | bytes (b : List UInt8)
deriving DecidableEq

namespace UserKey

/-- The byte that tells the types of user keys apart in the hash. -/
def typeByte : UserKey → UInt8
  | .integer _ => 1
  | .string _ => 3
  | .bytes _ => 4

/-- The eight bytes of an integer, the highest first. -/
def bigEndian (n : Int64) : List UInt8 :=
  (Ripemd160.littleEndian n.toUInt64.toNat 8).reverse

/-- The bytes of a user key: a text in UTF-8, an integer in eight bytes. -/
def content : UserKey → List UInt8
  | .integer n => bigEndian n
  | .string s => s.toUTF8.toList
  | .bytes b => b

/-- **What is hashed** for a user key in a set. -/
def hashInput (set : String) (key : UserKey) : List UInt8 :=
  set.toUTF8.toList ++ key.typeByte :: key.content

/-- A value as a user key; only integers, texts and byte strings qualify. -/
def ofValue : Value → Except Error UserKey
  | .integer n => .ok (.integer n)
  | .string s => .ok (.string s)
  | .bytes b => .ok (.bytes b)
  | v => .error (.param (.userKeyKind v.kind))

/-- A user key as a value. -/
def toValue : UserKey → Value
  | .integer n => .integer n
  | .string s => .string s
  | .bytes b => .bytes b

end UserKey

/-! ### Digests -/

/-- The identity of a record: twenty bytes. -/
structure Digest where
  /-- The bytes. -/
  bytes : List UInt8
  /-- Their number is fixed. -/
  length_bytes : bytes.length = 20
deriving DecidableEq

namespace Digest

/-- The digest of a user key in a set. -/
def compute (set : String) (key : UserKey) : Digest :=
  ⟨Ripemd160.hash (key.hashInput set), Ripemd160.length_hash _⟩

/-- A digest as forty lower-case digits. -/
def toHex (d : Digest) : String :=
  Hex.encode d.bytes

/-- Reads a digest from forty ASCII characters, two for each byte. -/
def ofHex (text : String) : Except Error Digest :=
  -- with as many bytes as characters, all of them are ASCII
  if size : text.toList.length = 40 ∧ text.utf8ByteSize = 40 then
    match read : Hex.decodeChars text.toList with
    | some bytes => .ok ⟨bytes, by have := Hex.length_of_decodeChars read; omega⟩
    | none => .error (.param (.digestDigits text))
  else .error (.param .digestLength)

end Digest

/-! ### Keys -/

/-- The key of a record. -/
structure Key where
  /-- The namespace that holds the record. -/
  ns : String
  /-- The set within the namespace; it may be empty. -/
  set : String
  /-- The user key, if it is known. -/
  userKey : Option UserKey
  /-- The identity of the record. -/
  digest : Digest
deriving DecidableEq

namespace Key

/-- Checks the lengths of a namespace and a set name. -/
def checkLocation (ns set : String) : Except Error Unit :=
  if ns.isEmpty then .error (.param .namespaceEmpty)
  else if ns.utf8ByteSize > maxNamespaceBytes then .error (.param .namespaceTooLong)
  else if set.utf8ByteSize > maxSetBytes then .error (.param .setTooLong)
  else .ok ()

/-- The digest of a user key at a valid location. -/
def digestOf (ns set : String) (userKey : UserKey) : Except Error Digest := do
  checkLocation ns set
  return Digest.compute set userKey

/-- The key of a user key. -/
def ofUserKey (ns set : String) (userKey : UserKey) : Except Error Key := do
  checkLocation ns set
  return { ns, set, userKey := some userKey, digest := Digest.compute set userKey }

/-- The key of a digest that was computed before. -/
def ofDigest (ns set : String) (digest : Digest) : Except Error Key := do
  checkLocation ns set
  return { ns, set, userKey := none, digest }

/-- The same key without its user key. -/
def digestOnly (key : Key) : Key :=
  { key with userKey := none }

end Key

end RecordStore
