import RecordStore.Key
import RecordStore.Named
import RecordStore.Word

/-!
# Records

A record is a set of named bins together with its metadata: how often it was
written, when it was written last, and when it becomes void. Times are
milliseconds since the epoch, and a record is expired from its void time on.

The bins are a list of named values in ascending order of the names
(`RecordStore.Bins`). A bin never holds `RecordStore.Value.null`: writing it
removes the bin.
-/

namespace RecordStore

/-! ### Names of bins -/

/-- A bin name has between one and fourteen bytes. -/
def checkBinName (name : String) : Except Error Unit :=
  if name.isEmpty then .error (.param .binNameEmpty)
  else if name.utf8ByteSize > maxBinNameBytes then .error (.param (.binNameTooLong name))
  else .ok ()

/-! ### Bins -/

/-- The bins of a record. -/
abbrev Bins := Named Value

/-! ### Lifetimes -/

/-- How long a record lives after a write. -/
inductive Expiration where
  /-- This many seconds. -/
  | after (seconds : UInt32)
  /-- As the namespace says. -/
  | namespaceDefault
  /-- Forever. -/
  | never
  /-- As long as before the write. -/
  | unchanged
deriving DecidableEq, Inhabited

namespace Expiration

/-- Milliseconds in a second. -/
def millisPerSecond : Nat := 1000

/-- The moment some seconds later; time stops at its greatest value. -/
def voidAfter (now : UInt64) (seconds : UInt32) : UInt64 :=
  UInt64.ofNat (min (now.toNat + seconds.toNat * millisPerSecond) (UInt64.size - 1))

/-- **The void time that a write sets**, from the lifetime it asks for, the
default of the namespace in seconds, where zero means forever, and the void time
of the record if there is one. -/
def resolve (e : Expiration) (now : UInt64) (default : UInt32) (current : Option UInt64)
    (live : Bool) : Option UInt64 :=
  let byDefault := if default = 0 then none else some (voidAfter now default)
  match e with
  | after seconds => some (voidAfter now seconds)
  | never => none
  -- a new record has no time to keep
  | unchanged => if live then current else byDefault
  | namespaceDefault => byDefault

/-- Reads the integer form: seconds, or `0` for the default of the namespace,
`-1` for forever, `-2` for no change. -/
def ofInt64 (ttl : Int64) : Except Error Expiration :=
  if ttl = 0 then .ok namespaceDefault
  else if ttl = -1 then .ok never
  else if ttl = -2 then .ok unchanged
  else if 0 < ttl.toInt then
    match Word.uint32? ttl.toInt with
    | some seconds => .ok (after seconds)
    | none => .error (.param (.ttlTooLarge ttl))
  else .error (.param (.ttlInvalid ttl))

/-- The integer form. -/
def toInt64 : Expiration → Int64
  | after seconds => Int64.ofNat seconds.toNat
  | namespaceDefault => 0
  | never => -1
  | unchanged => -2

end Expiration

/-! ### Metadata -/

/-- What is known about a record besides its bins. -/
structure Metadata where
  /-- How often the record was written; zero before it is stored. -/
  generation : UInt64 := 0
  /-- When the record becomes void; never if there is no such time. -/
  voidTime : Option UInt64 := none
  /-- When the record was written last. -/
  lastUpdateTime : UInt64 := 0
deriving DecidableEq, Inhabited

namespace Metadata

/-- The remaining lifetime in whole seconds. -/
def ttl (m : Metadata) (now : UInt64) : Option Nat :=
  m.voidTime.map fun void => (void.toNat - now.toNat) / Expiration.millisPerSecond

/-- Whether the record is void. -/
def isExpired (m : Metadata) (now : UInt64) : Bool :=
  m.voidTime.any (· ≤ now)

end Metadata

/-! ### Records -/

/-- A record. -/
structure Record where
  /-- The key; it carries the user key only if a write asked for that. -/
  key : Key
  /-- The bins. -/
  bins : Bins
  /-- The metadata. -/
  metadata : Metadata

namespace Record

/-- The record that no write has touched yet. -/
def shell (key : Key) : Record := ⟨key, Named.empty, {}⟩

/-- How often the record was written. -/
def generation (r : Record) : UInt64 := r.metadata.generation

/-- The record with the marks of one more write. -/
def stamp (r : Record) (voidTime : Option UInt64) (now : UInt64) : Record :=
  { r with metadata := ⟨r.metadata.generation + 1, voidTime, now⟩ }

/-- The record with the named bins only; names without a bin are ignored. -/
def select (r : Record) (names : List String) : Record :=
  { r with bins := r.bins.filter fun e => names.contains e.1 }

end Record

end RecordStore
