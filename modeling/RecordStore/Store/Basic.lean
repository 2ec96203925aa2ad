import RecordStore.Engine.Operate

/-!
# Stores

A `RecordStore.Store` keeps the records of one namespace, each under its digest.
It has no clock: every verb is told the present time. A record that is expired at
that time does not exist for the verb; it stays in the store until a write on its
digest, a truncation or a sweep removes it.

A verb that writes is an attempt on the store. It may change the store even when
it fails: an expired record is dropped before the write is tried. No verb can tell
the difference between a record that is expired and one that is dropped, apart
from the two that count what they remove.
-/

namespace RecordStore

/-- The settings of a namespace. -/
structure StoreSettings where
  /-- The name of the namespace. -/
  ns : String := "test"
  /-- The default lifetime in seconds; zero means forever. -/
  defaultTtl : UInt32 := 0
  /-- How operations on a whole collection treat a missing bin. -/
  missingBin : MissingBinPolicy := .empty
deriving DecidableEq, Inhabited

/-- The records of one namespace. -/
structure Store where
  /-- The settings of the namespace. -/
  settings : StoreSettings
  /-- The records under their digests. -/
  records : List (Digest × Record)
  /-- No digest stands twice. -/
  distinct : (records.map (·.1)).Nodup

namespace Store

/-! ### The records -/

/-- The store without records. -/
def empty (settings : StoreSettings) : Store := ⟨settings, [], List.nodup_nil⟩

/-- The engine that runs the calls of the store. -/
def engine (s : Store) : Engine := ⟨s.settings.defaultTtl, s.settings.missingBin⟩

/-- The record under a digest, expired or not. -/
def find? (s : Store) (digest : Digest) : Option Record :=
  s.records.lookup digest

/-- The store with those of its records that pass a test. -/
def filter (s : Store) (keep : Digest × Record → Bool) : Store where
  settings := s.settings
  records := s.records.filter keep
  distinct := s.distinct.sublist (List.filter_sublist.map _)

/-- Drops the record under a digest. -/
def erase (s : Store) (digest : Digest) : Store :=
  s.filter (·.1 ≠ digest)

/-- A digest that was dropped is not there. -/
theorem notMem_erase (s : Store) (digest : Digest) :
    digest ∉ (s.erase digest).records.map (·.1) := by
  simp [erase, filter]

/-- Keeps a record under a digest, in place of what was there. -/
def insert (s : Store) (digest : Digest) (record : Record) : Store where
  settings := s.settings
  records := (digest, record) :: (s.erase digest).records
  distinct := List.nodup_cons.mpr ⟨s.notMem_erase digest, (s.erase digest).distinct⟩

/-- The record under a digest, unless it is expired. -/
def live? (s : Store) (digest : Digest) (now : UInt64) : Option Record :=
  (s.find? digest).filter fun record => !record.metadata.isExpired now

/-- The number of records that are not expired. -/
def size (s : Store) (now : UInt64) : Nat :=
  s.records.countP fun e => !e.2.metadata.isExpired now

/-- Whether every record is expired. -/
def isEmpty (s : Store) (now : UInt64) : Bool := s.size now = 0

/-- The key must name the namespace of the store. -/
def checkNamespace (s : Store) (key : Key) : Except Error Unit :=
  if key.ns = s.settings.ns then .ok () else .error (.namespaceNotFound key.ns)

/-! ### Reading -/

/-- The record of a key. -/
def get (s : Store) (key : Key) (now : UInt64) : Except Error Record := do
  s.checkNamespace key
  match s.live? key.digest now with
  | some record => return record
  | none => throw .recordNotFound

/-- The record of a key with the named bins only. -/
def select (s : Store) (key : Key) (bins : List String) (now : UInt64) : Except Error Record := do
  bins.forM checkBinName
  return (← s.get key now).select bins

/-- The metadata of the record of a key. -/
def metadata (s : Store) (key : Key) (now : UInt64) : Except Error Metadata := do
  return (← s.get key now).metadata

/-- The records of some keys, whole or with the named bins only; each key
succeeds or fails by itself. -/
def getMany (s : Store) (keys : List Key) (bins : Option (List String)) (now : UInt64) :
    List (Key × Except Error Record) :=
  keys.map fun key =>
    (key, match bins with
      | some bins => s.select key bins now
      | none => s.get key now)

/-- The metadata of the records of some keys. -/
def metadataMany (s : Store) (keys : List Key) (now : UInt64) :
    List (Key × Except Error Metadata) :=
  keys.map fun key => (key, s.metadata key now)

/-! ### Writing -/

/-- Drops the record under a digest if it is expired. -/
def reap (s : Store) (digest : Digest) (now : UInt64) : Store :=
  if (s.find? digest).any fun record => record.metadata.isExpired now then s.erase digest else s

/-- Keeps what a call leaves under a digest, if the call wrote. -/
def commit (s : Store) (digest : Digest) (outcome : Outcome) : Store :=
  if outcome.wrote then
    match outcome.record with
    | some record => s.insert digest record
    | none => s.erase digest
  else s

/-- **Runs a call on the record of a key**: drops the record if it is expired,
runs the call on what is there, and keeps what it leaves. -/
def run (s : Store) (key : Key) (call : Option Record → Except Error Outcome) (now : UInt64) :
    Attempt Store Outcome :=
  .needing s (s.checkNamespace key) fun _ =>
    let reaped := s.reap key.digest now
    -- a call that fails leaves the expired record dropped
    .needing reaped (call (reaped.find? key.digest)) fun outcome =>
      .done outcome (reaped.commit key.digest outcome)

/-- Writes every one of some bins; `null` removes a bin. -/
def put (s : Store) (key : Key) (bins : Bins) (policy : WritePolicy) (now : UInt64) :
    Attempt Store Unit :=
  (s.run key (s.engine.put · key bins policy now) now).forget

/-- Applies operations to the record of a key. -/
def operate (s : Store) (key : Key) (ops : List Operation) (policy : WritePolicy)
    (now : UInt64) : Attempt Store Outcome :=
  s.run key (s.engine.operate · key ops policy now) now

/-- Applies operations to the record of a key and answers one slot for each. -/
def operateOrdered (s : Store) (key : Key) (ops : List Operation) (policy : WritePolicy)
    (now : UInt64) : Attempt Store (List (Option OpResult)) :=
  (s.operate key ops policy now).map Outcome.ordered

/-- Applies a single operation that answers nothing. -/
def modify (s : Store) (key : Key) (op : Operation) (policy : WritePolicy) (now : UInt64) :
    Attempt Store Unit :=
  (s.operate key [op] policy now).forget

/-- The metadata of the record that a call leaves. -/
def metadataOf (outcome : Outcome) : Except Error Metadata :=
  match outcome.record with
  | some record => .ok record.metadata
  | none => .error .recordNotFound

/-- Sets the lifetime of the record of a key anew. -/
def touch (s : Store) (key : Key) (ttl : Expiration) (now : UInt64) : Attempt Store Metadata :=
  (s.operate key [.touch (some ttl)] {} now).mapResult metadataOf

/-- Deletes the record of a key. -/
def remove (s : Store) (key : Key) (policy : WritePolicy) (now : UInt64) : Attempt Store Unit :=
  s.modify key .delete policy now

/-- Drops the named bins; a record whose last bin goes is deleted. -/
def removeBins (s : Store) (key : Key) (bins : List String) (policy : WritePolicy)
    (now : UInt64) : Attempt Store Unit :=
  (s.operate key (bins.map (.write · .null)) policy now).forget

/-- Adds a text or bytes at the end of a bin. -/
def append (s : Store) (key : Key) (bin : String) (value : Value) (policy : WritePolicy)
    (now : UInt64) : Attempt Store Unit :=
  s.modify key (.append bin value) policy now

/-- Adds a text or bytes in front of a bin. -/
def prepend (s : Store) (key : Key) (bin : String) (value : Value) (policy : WritePolicy)
    (now : UInt64) : Attempt Store Unit :=
  s.modify key (.prepend bin value) policy now

/-- Adds to the number in a bin. -/
def increment (s : Store) (key : Key) (bin : String) (delta : Value) (policy : WritePolicy)
    (now : UInt64) : Attempt Store Unit :=
  s.modify key (.increment bin delta) policy now

/-! ### Removing many records -/

/-- Keeps the records that pass a test and counts the others. -/
def keepOnly (s : Store) (keep : Record → Bool) : Nat × Store :=
  let kept := s.filter fun e => keep e.2
  (s.records.length - kept.records.length, kept)

/-- Whether a record is of a set, or there is none to be of, and was last written
before a threshold, or there is none. -/
def matchesTruncation (set : Option String) (before : Option UInt64) (record : Record) : Bool :=
  set.all (record.key.set == ·) && before.all (record.metadata.lastUpdateTime < ·)

/-- **Removes records** of a set, or of all sets, that were last written before a
threshold, or at any time; answers their number. The threshold must not be after
the present. -/
def truncate (s : Store) (set : Option String) (before : Option UInt64) (now : UInt64) :
    Attempt Store Nat :=
  match before.filter (now < ·) with
  | some before => .fail (.param (.thresholdInFuture before)) s
  | none =>
    -- expired records that still lie around go and count like the others
    let (removed, kept) := s.keepOnly fun record => !matchesTruncation set before record
    .done removed kept

/-- Drops every expired record; answers their number. -/
def reapExpired (s : Store) (now : UInt64) : Nat × Store :=
  s.keepOnly fun record => !record.metadata.isExpired now

end Store

end RecordStore
