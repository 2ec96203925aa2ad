import RecordStore.Json.Parts

/-!
# Requests to the service

Every verb of the service takes a structure with named fields. This file says
which fields each verb has and what they must be; the fields whose content is a
matter of the store – keys, bins, operations, policies – are any JSON here.
-/

namespace RecordStore

/-- The verbs on a record as a whole. -/
inductive KeyVerb where
  /-- Read the record. -/
  | get
  /-- Read the metadata. -/
  | «exists»
  /-- Delete the record. -/
  | remove
  /-- Answer the digest of the key. -/
  | digest
deriving DecidableEq

/-- The verbs on some bins of a record. -/
inductive BinsVerb where
  /-- Write bins. -/
  | put
  /-- Read bins. -/
  | select
  /-- Drop bins. -/
  | removeBin
deriving DecidableEq

/-- The verbs on one bin of a record. -/
inductive ModifyVerb where
  /-- Add at the end. -/
  | append
  /-- Add in front. -/
  | prepend
  /-- Add to the number. -/
  | increment
deriving DecidableEq

/-- The verbs on many records. -/
inductive BatchVerb where
  /-- Read the records. -/
  | getMany
  /-- Read the metadata. -/
  | existsMany
deriving DecidableEq

/-- The verbs of the service. -/
inductive ServiceVerb where
  /-- A verb on a record as a whole. -/
  | onKey (verb : KeyVerb)
  /-- A verb on some bins. -/
  | onBins (verb : BinsVerb)
  /-- A verb on one bin. -/
  | modify (verb : ModifyVerb)
  /-- Set the lifetime anew. -/
  | touch
  /-- Apply operations. -/
  | operate
  /-- A verb on many records. -/
  | batch (verb : BatchVerb)
  /-- Remove many records. -/
  | truncate
deriving DecidableEq

namespace ServiceVerb

/-- The verbs with their names. -/
def table : List (String × ServiceVerb) :=
  [("put", .onBins .put), ("get", .onKey .get), ("select", .onBins .select),
    ("exists", .onKey .exists), ("remove", .onKey .remove), ("remove_bin", .onBins .removeBin),
    ("touch", .touch), ("append", .modify .append), ("prepend", .modify .prepend),
    ("increment", .modify .increment), ("operate", .operate), ("get_many", .batch .getMany),
    ("exists_many", .batch .existsMany), ("truncate", .truncate), ("digest", .onKey .digest)]

/-- The verb of a name. -/
def ofName? (name : String) : Option ServiceVerb := table.lookup name

/-- The names of the fields that a verb has, in their order. -/
def fields : ServiceVerb → List String
  | onKey _ => ["key", "policy"]
  | onBins _ => ["key", "bins", "policy"]
  | modify _ => ["key", "bin", "val", "policy"]
  | touch => ["key", "ttl"]
  | operate => ["key", "ops", "policy", "ordered"]
  | batch _ => ["keys", "bins"]
  | truncate => ["ns", "set", "before"]

end ServiceVerb

/-- A request to the service. -/
inductive Request where
  /-- A verb on a record as a whole. -/
  | onKey (verb : KeyVerb) (key : Json) (policy : Option Json)
  /-- A verb on some bins. -/
  | onBins (verb : BinsVerb) (key bins : Json) (policy : Option Json)
  /-- A verb on one bin. -/
  | modify (verb : ModifyVerb) (key : Json) (bin : String) (val : Json) (policy : Option Json)
  /-- Set the lifetime anew. -/
  | touch (key : Json) (ttl : Option Int64)
  /-- Apply operations. -/
  | operate (key ops : Json) (policy : Option Json) (ordered : Bool)
  /-- A verb on many records. -/
  | batch (verb : BatchVerb) (keys : List Json) (bins : Option Json)
  /-- Remove many records. -/
  | truncate (ns : String) (set : Option String) (before : Option UInt64)

namespace Request

/-- The request of a verb, from the parts of its structure. -/
def ofParts? (verb : ServiceVerb) (parts : List (Option Json)) : Option Request :=
  match verb, parts with
  | .onKey verb, [key, policy] => do
    return .onKey verb (← key) (← Json.optional some policy)
  | .onBins verb, [key, bins, policy] => do
    return .onBins verb (← key) (← bins) (← Json.optional some policy)
  | .modify verb, [key, bin, val, policy] => do
    return .modify verb (← key) (← (← bin).toText?) (← val) (← Json.optional some policy)
  | .touch, [key, ttl] => do
    return .touch (← key) (← Json.optional Json.toInt64? ttl)
  | .operate, [key, ops, policy, ordered] => do
    let ordered ← ordered.elim (some false) Json.toBool?
    return .operate (← key) (← ops) (← Json.optional some policy) ordered
  | .batch verb, [keys, bins] => do
    return .batch verb (← (← keys).toList?) (← Json.optional some bins)
  | .truncate, [ns, set, before] => do
    return .truncate (← (← ns).toText?) (← Json.optional Json.toText? set)
      (← Json.optional Json.toUInt64? before)
  | _, _ => none

/-- The request of a verb in a JSON value. -/
def ofJson? (verb : ServiceVerb) (json : Json) : Option Request := do
  ofParts? verb (← json.parts? verb.fields)

/-- The request of a verb in the text of a body. -/
def ofText? (verb : ServiceVerb) (text : String) : Option Request := do
  ofParts? verb (← (← Json.Source.ofText? text).parts? verb.fields)

end Request

end RecordStore
