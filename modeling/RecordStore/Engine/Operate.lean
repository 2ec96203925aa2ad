import RecordStore.Engine.Plan

/-!
# Calls on one record

A call applies a list of operations to one record, or to a new one, as a whole:
either every operation succeeds and the call answers the record afterwards, or
it fails and the record before it stands. The call

* checks the operations (`RecordStore.Plan.check`);
* checks whether the policy lets the write happen, or, without a write, whether
  there is a record to read;
* applies the write-class operations in their order, and then the read-class
  ones in theirs, so that reads see what the call has written;
* marks the record with one more write.

A record whose last bin is gone is gone itself. The lifetime after a write is
the one of the policy, unless a touch brings its own.
-/

namespace RecordStore

/-! ### Settings and outcomes -/

/-- How operations on a whole collection treat a missing bin. -/
inductive MissingBinPolicy where
  /-- Without a result and without an error. -/
  | empty
  /-- As a bin of another type. -/
  | incompatible
deriving DecidableEq, Inhabited

/-- The settings that all calls share. -/
structure Engine where
  /-- The default lifetime in seconds; zero means forever. -/
  defaultTtl : UInt32 := 0
  /-- How operations on a whole collection treat a missing bin. -/
  missingBin : MissingBinPolicy := .empty
deriving DecidableEq, Inhabited

/-- What a call that succeeds leaves and answers. -/
structure Outcome where
  /-- The record afterwards; none if it is deleted, emptied or never was. -/
  record : Option Record
  /-- For each bin the answer of the last operation on it that has one. -/
  results : Named OpResult
  /-- The answer of each operation, in the order of the operations. -/
  ordered : List (Option OpResult)
  /-- Whether the call wrote, so that the record is to be kept. -/
  wrote : Bool

/-- The key that a new record is stored with. -/
def storedKey (key : Key) (policy : WritePolicy) : Key :=
  match policy.key with
  | .send => key
  | .digest => key.digestOnly

namespace Engine

/-- **The record that a policy would create**, before its first write. -/
def createRecord (engine : Engine) (key : Key) (policy : WritePolicy) (now : UInt64) :
    Except Error Record := do
  policy.action.check false
  policy.generation.check 0
  let shell := Record.shell (storedKey key policy)
  let voidTime := policy.ttl.resolve now engine.defaultTtl none false
  return { shell with metadata := { shell.metadata with voidTime } }

/-! ### Single operations -/

/-- A collection operation on a bin that does not exist and is not created. -/
def missing (engine : Engine) (bin : String) (expected : Kind) (whole : Bool) :
    Except Error (Option OpResult) :=
  if whole && engine.missingBin = .incompatible then
    .error (.binIncompatibleType bin expected none)
  else .ok none

/-- An attempt on a collection that begins empty and becomes the content of a bin
if it succeeds. -/
def fillBin {σ : Type} (bins : Bins) (bin : String) (content : σ → Value)
    (attempt : Attempt σ (Option OpResult)) : Attempt Bins (Option OpResult) :=
  .needing bins attempt.result fun result =>
    .done result (bins.insert bin (content attempt.state))

/-- A list operation on a bin. -/
def applyList (engine : Engine) (bins : Bins) (bin : String) (op : ListOp) :
    Attempt Bins (Option OpResult) :=
  match bins.get? bin with
  | some (.list items) => (op.apply items).within fun items => bins.insert bin (.list items)
  | some other => .fail (.binIncompatibleType bin .list other.kind) bins
  | none =>
    if op.createsBin then fillBin bins bin .list (op.apply [])
    else ⟨engine.missing bin .list op.isWhole, bins⟩

/-- A map operation on a bin. -/
def applyMap (engine : Engine) (bins : Bins) (bin : String) (op : MapOp) :
    Attempt Bins (Option OpResult) :=
  match bins.get? bin with
  | some (.map m) => (op.apply m).within fun m => bins.insert bin (.map m)
  | some other => .fail (.binIncompatibleType bin .map other.kind) bins
  | none =>
    match op.createsBin with
    | some policy => fillBin bins bin .map (op.apply (Dict.empty policy.order))
    | none => ⟨engine.missing bin .map op.isWhole, bins⟩

/-- **Applies one operation to the bins of a record.** -/
def apply (engine : Engine) (bins : Bins) (op : Operation) : Attempt Bins (Option OpResult) :=
  match op with
  | .write bin value => .done none (bins.write bin value)
  | .read bin => .done (some (bins.read bin)) bins
  | .increment bin delta => (bins.increment bin delta).map fun _ => none
  | .append bin value => (bins.concat bin value .back).map fun _ => none
  | .prepend bin value => (bins.concat bin value .front).map fun _ => none
  | .touch _ | .delete => .done none bins
  | .list bin op => engine.applyList bins bin op
  | .map bin op => engine.applyMap bins bin op

/-! ### The two phases -/

/-- The bins so far, and the answers so far, one slot for each operation. -/
structure Phase where
  /-- The bins. -/
  bins : Bins
  /-- The operations with their answers; those not applied yet have none. -/
  slots : List (Operation × Option OpResult)

/-- Applies the operations of one class in their order and keeps the others'
slots as they are. The bins are a copy; if an operation fails it is dropped. -/
def runClass (engine : Engine) (writes : Bool) (bins : Bins) :
    List (Operation × Option OpResult) → Except Error Phase
  | [] => return ⟨bins, []⟩
  | (op, slot) :: rest => do
    if op.isWrite = writes then
      let (result, bins) ← (engine.apply bins op).toExcept
      let phase ← engine.runClass writes bins rest
      return { phase with slots := (op, result) :: phase.slots }
    else
      let phase ← engine.runClass writes bins rest
      return { phase with slots := (op, slot) :: phase.slots }

/-- **Both phases**: all writes and then all reads. -/
def run (engine : Engine) (bins : Bins) (ops : List Operation) : Except Error Phase := do
  let written ← engine.runClass true bins (ops.map (·, none))
  engine.runClass false written.bins written.slots

/-- For each bin the answer of the last operation on it that has one. -/
def resultsByBin (slots : List (Operation × Option OpResult)) : Named OpResult :=
  Named.ofList (slots.filterMap fun slot => do return (← slot.1.bin?, ← slot.2))

/-! ### Whole calls -/

/-- Whether the policy lets a call happen on a record or on none. -/
def checkPolicy (plan : Plan) (existing : Option Record) (policy : WritePolicy) :
    Except Error Unit := do
  if plan.hasWrite then
    -- a touch or a delete needs a record, whatever the action says
    if plan.recordLevel.isSome && existing.isNone then throw .recordNotFound
    policy.action.check existing.isSome
    policy.generation.check (existing.elim 0 Record.generation)
  else if existing.isNone then throw .recordNotFound

/-- The record that the operations of a call start from. -/
def startingRecord (plan : Plan) (existing : Option Record) (key : Key) (policy : WritePolicy) :
    Record :=
  let record :=
    match existing with
    | some record =>
      -- a key that is sent replaces the one that the record was stored with
      if policy.key = .send ∧ key.userKey.isSome then { record with key } else record
    | none => Record.shell (storedKey key policy)
  if plan.hasWrite && plan.recordLevel.isNone && policy.action.replacesBins then
    { record with bins := Named.empty }
  else record

/-- The lifetime that a writing call sets. -/
def lifetime (plan : Plan) (policy : WritePolicy) : Expiration :=
  match plan.recordLevel with
  | some (.touch (some ttl)) => ttl
  | _ => policy.ttl

/-- The record that a call leaves. -/
def finalRecord (engine : Engine) (plan : Plan) (record : Record) (live : Bool)
    (policy : WritePolicy) (now : UInt64) : Option Record :=
  if !plan.hasWrite then some record
  else
    match plan.recordLevel with
    | some .delete => none
    | _ =>
      -- the lifetime is resolved against the record that was there, if it was live
      let voidTime :=
        (lifetime plan policy).resolve now engine.defaultTtl record.metadata.voidTime live
      if record.bins.isEmpty then none else some (record.stamp voidTime now)

/-- **A call on one record**, which exists or is missing. -/
def operate (engine : Engine) (existing : Option Record) (key : Key) (ops : List Operation)
    (policy : WritePolicy) (now : UInt64) : Except Error Outcome := do
  let plan ← Plan.check ops
  checkPolicy plan existing policy
  let start := startingRecord plan existing key policy
  -- from here on the bins are a copy
  let phase ← engine.run start.bins ops
  let record := { start with bins := phase.bins }
  return {
    record := engine.finalRecord plan record existing.isSome policy now
    results := resultsByBin phase.slots
    ordered := phase.slots.map (·.2)
    wrote := plan.hasWrite }

/-- Writes every one of some bins, in the order of their names. -/
def put (engine : Engine) (existing : Option Record) (key : Key) (bins : Bins)
    (policy : WritePolicy) (now : UInt64) : Except Error Outcome :=
  if bins.isEmpty then .error (.param .noBins)
  else
    engine.operate existing key (bins.entries.map fun e => .write e.1 e.2) policy now

end Engine

end RecordStore
