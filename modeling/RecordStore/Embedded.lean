import RecordStore.Codec.Operation
import RecordStore.Codec.Reply
import RecordStore.Codec.Settings

/-!
# The store inside another program

A program that embeds the store holds a `RecordStore.Handle`, a store together
with the codec that its callers speak. It sends requests as JSON text and gets
JSON text back: `status` zero with the result at `ok`, or the status of an error
with its message at `error`. A request may be absent, and so may be the handle;
both are errors that a reply reports.

The fields of a request are looked at one by one, in an order that belongs to
the verb, and the first one that is wrong is reported. Fields that the verb does
not know are ignored.
-/

namespace RecordStore

/-- A store and the codec of its callers. -/
structure Handle where
  /-- The store. -/
  store : Store
  /-- The codec. -/
  codec : Codec

namespace Handle

/-! ### Opening -/

/-- **Opens an empty store** as a configuration says, or with the default
settings if there is none. A configuration that cannot be read opens nothing. -/
def «open» (config : Option String) : Option Handle := do
  let (settings, serializer) ← config.elim (some ({}, none)) StoreSettings.ofText?
  let codec ← serializer.elim (some {}) fun name => (Codec.named name).toOption
  return ⟨Store.empty settings, codec⟩

/-! ### Requests -/

/-- The verbs of requests. -/
inductive Verb where
  /-- Write bins. -/
  | put
  /-- Read a record. -/
  | get
  /-- Read some bins. -/
  | select
  /-- Read metadata. -/
  | «exists»
  /-- Delete a record. -/
  | remove
  /-- Set the lifetime anew. -/
  | touch
  /-- Apply operations. -/
  | operate
  /-- Read many records. -/
  | getMany
  /-- Remove many records. -/
  | truncate
deriving DecidableEq

/-- A field that a request needs. -/
def needField (request : Json) (name : String) : Except Error Json :=
  match request.field? name with
  | some j => .ok j
  | none => .error (.param (.missingRequestField name))

/-- The key of a request. -/
def needKey (c : Codec) (request : Json) : Except Error Key := do
  c.parseKey (← needField request "key")

/-- The keys of a request. -/
def needKeys (c : Codec) (request : Json) : Except Error (List Key) := do
  let .array keys := ← needField request "keys" | throw (.param .keysNotArray)
  keys.mapM c.parseKey

/-- The lifetime of a request; the default of the namespace if none is sent. -/
def lifetimeOf (request : Json) : Except Error Expiration :=
  match request.field? "ttl" with
  | none | some .null => .ok .namespaceDefault
  | some j =>
    match j.toInt64? with
    | some ttl => Expiration.ofInt64 ttl
    | none => .error (.param (.fieldNotInteger "ttl"))

/-- The bin names of a request, if some are sent. -/
def binNamesOf (request : Json) : Except Error (Option (List String)) :=
  match request.field? "bins" with
  | none | some .null => .ok none
  | some j => (Codec.parseBinNames j).map some

/-- The threshold of a request, if one is sent. -/
def thresholdOf (request : Json) : Except Error (Option UInt64) :=
  match request.field? "before" with
  | none | some .null => .ok none
  | some j =>
    match j.toUInt64? with
    | some before => .ok (some before)
    | none => .error (.param .thresholdNotTime)

/-- The reply to a verb, and the store afterwards. -/
abbrev Answer := Attempt Store Json

/-- Writes bins. -/
def put (c : Codec) (s : Store) (request : Json) (now : UInt64) : Answer :=
  .needing s (do
    let key ← needKey c request
    let bins ← c.parseBins (← needField request "bins")
    let policy ← WritePolicy.ofRequest (request.field? "policy")
    return (key, bins, policy)) fun (key, bins, policy) =>
      (s.put key bins policy now).map fun _ => .null

/-- Reads a record. -/
def get (c : Codec) (s : Store) (request : Json) (now : UInt64) : Except Error Json := do
  let record ← s.get (← needKey c request) now
  return c.recordToJson record now

/-- Reads some bins; the names are looked at before the key. -/
def select (c : Codec) (s : Store) (request : Json) (now : UInt64) : Except Error Json := do
  let bins ← Codec.parseBinNames (← needField request "bins")
  let record ← s.select (← needKey c request) bins now
  return c.recordToJson record now

/-- Reads metadata. -/
def metadata (c : Codec) (s : Store) (request : Json) (now : UInt64) : Except Error Json := do
  let metadata ← s.metadata (← needKey c request) now
  return Codec.metadataToJson metadata now

/-- Deletes a record; the policy is looked at before the key. -/
def remove (c : Codec) (s : Store) (request : Json) (now : UInt64) : Answer :=
  .needing s (do
    let policy ← WritePolicy.ofRequest (request.field? "policy")
    return (← needKey c request, policy)) fun (key, policy) =>
      (s.remove key policy now).map fun _ => .null

/-- Sets the lifetime anew; it is looked at before the key. -/
def touch (c : Codec) (s : Store) (request : Json) (now : UInt64) : Answer :=
  .needing s (do
    let ttl ← lifetimeOf request
    return (← needKey c request, ttl)) fun (key, ttl) =>
      (s.touch key ttl now).map (Codec.metadataToJson · now)

/-- Applies operations. -/
def operate (c : Codec) (s : Store) (request : Json) (now : UInt64) : Answer :=
  .needing s (do
    let key ← needKey c request
    let ops ← c.parseOperations (← needField request "ops")
    let policy ← WritePolicy.ofRequest (request.field? "policy")
    return (key, ops, policy)) fun (key, ops, policy) =>
      -- a flag that is no truth value counts as absent
      let ordered := ((request.field? "ordered").bind Json.toBool?).getD false
      (s.operate key ops policy now).map (c.outcomeToJson · ordered)

/-- Reads many records. -/
def getMany (c : Codec) (s : Store) (request : Json) (now : UInt64) : Except Error Json := do
  let keys ← needKeys c request
  let bins ← binNamesOf request
  let entries := s.getMany keys bins now
  return .array (entries.map fun e => c.entryToJson e.1 (e.2.map (c.recordToJson · now)))

/-- Removes many records; a set that is no text stands for all sets. -/
def truncate (s : Store) (request : Json) (now : UInt64) : Answer :=
  .needing s (thresholdOf request) fun before =>
    (s.truncate ((request.field? "set").bind Json.toText?) before now).map
      fun (removed : Nat) => .integer removed

/-- **Runs a request** on a store. -/
def run (c : Codec) (s : Store) (verb : Verb) (request : Json) (now : UInt64) : Answer :=
  match verb with
  | .put => put c s request now
  | .get => ⟨get c s request now, s⟩
  | .select => ⟨select c s request now, s⟩
  | .exists => ⟨metadata c s request now, s⟩
  | .remove => remove c s request now
  | .touch => touch c s request now
  | .operate => operate c s request now
  | .getMany => ⟨getMany c s request now, s⟩
  | .truncate => truncate s request now

/-! ### Calls -/

/-- The text of a reply, with the status in front. -/
def reply : Except Error Json → String
  | .ok j => Json.renderStructure [("status", .integer Status.ok.code), ("ok", j)]
  | .error e =>
    Json.renderStructure [("status", .integer e.status.code), ("error", .string e.message)]

/-- The request in a text that may be absent. -/
def readRequest : Option String → Except Error Json
  | none => .error (.serialization .absent)
  | some text =>
    match Json.ofText? text with
    | some j => .ok j
    | none => .error (.serialization .unparsable)

/-- **Calls a verb** on a handle that may be absent. -/
def call (handle : Option Handle) (verb : Verb) (request : Option String) (now : UInt64) :
    String × Option Handle :=
  match handle with
  | none => (reply (.error (.serialization .noStore)), none)
  | some h =>
    match readRequest request with
    | .error e => (reply (.error e), some h)
    | .ok j =>
      let answer := run h.codec h.store verb j now
      (reply answer.result, some { h with store := answer.state })

/-- The digest of a key, which needs no store. -/
def keyDigest (request : Option String) : String :=
  reply do
    let key ← ({} : Codec).parseKey (← readRequest request)
    return .string key.digest.toHex

end Handle

/-- The version of the store. -/
def version : String := "0.1.0"

end RecordStore
