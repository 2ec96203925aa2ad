import RecordStore.Record
import RecordStore.Value.Dict

/-!
# Policies

A write carries a `RecordStore.WritePolicy`, which decides before any bin is
touched whether the write may happen: first by whether the record exists, then
by its generation. Writes into collections carry a `RecordStore.ListPolicy` or a
`RecordStore.MapPolicy`, which decide what becomes of values that are already
there and of positions and keys that are not.

Collection policies have a wire form, a map from names to integers whose write
flags are bits; it is read by `RecordStore.MapPolicy.ofValue` and
`RecordStore.ListPolicy.ofValue`.
-/

namespace RecordStore

/-! ### Writing records -/

/-- How a write treats a record that exists or is missing. -/
inductive RecordExistsAction where
  /-- Creates the record or updates its bins. -/
  | createOrUpdate
  /-- Fails if the record exists. -/
  | create
  /-- Fails if the record is missing. -/
  | update
  /-- Like `update`, and drops the bins that the write does not mention. -/
  | replace
  /-- Creates the record or replaces all of its bins. -/
  | createOrReplace
deriving DecidableEq, Inhabited

namespace RecordExistsAction

/-- Checks the action against whether the record exists. -/
def check : RecordExistsAction → (live : Bool) → Except Error Unit
  | create, true => .error .recordExists
  | update, false | replace, false => .error .recordNotFound
  | _, _ => .ok ()

/-- Whether the bins that exist are dropped before the write. -/
def replacesBins : RecordExistsAction → Bool
  | replace | createOrReplace => true
  | _ => false

end RecordExistsAction

/-- What a write expects of the generation of the record. -/
inductive GenerationPolicy where
  /-- Nothing. -/
  | ignore
  /-- This generation. -/
  | equal (generation : UInt64)
  /-- A greater generation. -/
  | greater (generation : UInt64)
deriving DecidableEq, Inhabited

/-- Checks the expectation; a missing record has generation zero. -/
def GenerationPolicy.check : GenerationPolicy → (current : UInt64) → Except Error Unit
  | ignore, _ => .ok ()
  | equal expected, current =>
    if current = expected then .ok () else .error (.generationMismatch expected current)
  | greater expected, current =>
    if expected < current then .ok () else .error (.generationMismatch expected current)

/-- Whether the user key is stored beside the digest. -/
inductive KeyPolicy where
  /-- Only the digest is stored. -/
  | digest
  /-- The user key is stored too. -/
  | send
deriving DecidableEq, Inhabited

/-- The policy of a write on a record. -/
structure WritePolicy where
  /-- How the write treats a record that exists or is missing. -/
  action : RecordExistsAction := .createOrUpdate
  /-- What the write expects of the generation. -/
  generation : GenerationPolicy := .ignore
  /-- How long the record lives after the write. -/
  ttl : Expiration := .namespaceDefault
  /-- Whether the user key is stored. -/
  key : KeyPolicy := .digest
deriving DecidableEq, Inhabited

/-! ### Writing collections -/

/-- Which keys a map write may address. -/
inductive MapWriteMode where
  /-- Any key. -/
  | update
  /-- Keys that are present. -/
  | updateOnly
  /-- Keys that are absent. -/
  | createOnly
deriving DecidableEq, Inhabited

/-- The policy of a write into a map. -/
structure MapPolicy where
  /-- The order policy of a map that the write creates. -/
  order : MapOrder := .unordered
  /-- Which keys the write may address. -/
  writeMode : MapWriteMode := .update
  /-- Whether a denied item is left out instead of failing the call. -/
  noFail : Bool := false
  /-- Whether the other items of a call are still written when one is left out. -/
  keepRest : Bool := false
deriving DecidableEq, Inhabited

/-- The policy of a write into a list. -/
structure ListPolicy where
  /-- Whether values that are present are denied. -/
  addUnique : Bool := false
  /-- Whether positions behind the end are denied instead of filled up. -/
  insertBounded : Bool := false
  /-- Whether a denied value is left out instead of failing the call. -/
  noFail : Bool := false
  /-- Whether the other values of a call are still written when one is left out. -/
  keepRest : Bool := false
deriving DecidableEq, Inhabited

/-! ### The wire form of collection policies -/

/-- Whether a bit is set in write flags. -/
def hasFlag (bits : Int64) (flag : Int64) : Bool := bits &&& flag ≠ 0

/-- The bit for absent keys only, in map write flags. -/
def createOnlyFlag : Int64 := 1
/-- The bit for present keys only, in map write flags. -/
def updateOnlyFlag : Int64 := 2
/-- The bit for unique values, in list write flags. -/
def addUniqueFlag : Int64 := 1
/-- The bit for bounded positions, in list write flags. -/
def insertBoundedFlag : Int64 := 2
/-- The bit for leaving denied items out. -/
def noFailFlag : Int64 := 4
/-- The bit for writing the other items. -/
def partialFlag : Int64 := 8

/-- All bits that write flags may have. -/
def knownFlags : Int64 := 15

/-- The entries of a policy, all under texts. The first key that is no text is
reported, before any entry is looked at. -/
def policyEntries (policy : String) (value : Value) : Except Error (List (String × Value)) :=
  match value with
  | .map m =>
    match m.entries.find? (·.1.toText?.isNone) with
    | some bad => .error (.param (.policyKeyKind policy bad.1.kind))
    | none => .ok (m.entries.filterMap fun e => e.1.toText?.map (·, e.2))
  | _ => .error (.param (.policyNotMap policy))

/-- The integer under a name of a policy. -/
def policyInteger (name : String) (value : Value) : Except Error Int64 :=
  match value with
  | .integer n => .ok n
  | _ => .error (.param (.policyEntryKind name))

/-- The order policy of a code. -/
def MapOrder.ofCode (code : Int64) : Except Error MapOrder :=
  if code = 0 then .ok .unordered
  else if code = 1 then .ok .keyOrdered
  else if code = 3 then .ok .keyValueOrdered
  else .error (.param (.mapOrderCode code))

namespace MapPolicy

/-- The policy with the write flags of some bits. -/
def withFlags (p : MapPolicy) (bits : Int64) : Except Error MapPolicy :=
  if bits &&& ~~~knownFlags ≠ 0 then .error (.param (.mapWriteFlags bits))
  else if hasFlag bits createOnlyFlag && hasFlag bits updateOnlyFlag then
    .error (.param .mapWriteModes)
  else .ok
    { p with
      writeMode :=
        if hasFlag bits createOnlyFlag then .createOnly
        else if hasFlag bits updateOnlyFlag then .updateOnly
        else .update
      noFail := hasFlag bits noFailFlag
      keepRest := hasFlag bits partialFlag }

/-- The policy with one entry of the wire form taken in. -/
def withEntry (p : MapPolicy) (name : String) (value : Value) : Except Error MapPolicy :=
  if name = "order" then do
    let order ← MapOrder.ofCode (← policyInteger name value)
    return { p with order }
  else if name = "write_flags" then do
    p.withFlags (← policyInteger name value)
  else .error (.param (.policyEntry "map_policy" name))

/-- Reads the wire form of a map policy. -/
def ofValue (value : Value) : Except Error MapPolicy := do
  let entries ← policyEntries "map_policy" value
  entries.foldlM (fun p e => p.withEntry e.1 e.2) {}

end MapPolicy

namespace ListPolicy

/-- The policy with the write flags of some bits. -/
def withFlags (p : ListPolicy) (bits : Int64) : Except Error ListPolicy :=
  if bits &&& ~~~knownFlags ≠ 0 then .error (.param (.listWriteFlags bits))
  else .ok
    { p with
      addUnique := hasFlag bits addUniqueFlag
      insertBounded := hasFlag bits insertBoundedFlag
      noFail := hasFlag bits noFailFlag
      keepRest := hasFlag bits partialFlag }

/-- The policy with one entry of the wire form taken in; lists have no order. -/
def withEntry (p : ListPolicy) (name : String) (value : Value) : Except Error ListPolicy :=
  if name = "order" then do
    let code ← policyInteger name value
    if code = 0 then return p else throw (.param .listOrder)
  else if name = "write_flags" then do
    p.withFlags (← policyInteger name value)
  else .error (.param (.policyEntry "list_policy" name))

/-- Reads the wire form of a list policy. -/
def ofValue (value : Value) : Except Error ListPolicy := do
  let entries ← policyEntries "list_policy" value
  entries.foldlM (fun p e => p.withEntry e.1 e.2) {}

end ListPolicy

end RecordStore
