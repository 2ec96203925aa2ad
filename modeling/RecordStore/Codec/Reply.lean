import RecordStore.Codec.Record
import RecordStore.Engine.Operate

/-!
# Replies as JSON

What callers are told: the outcome of a call, either bin by bin or operation by
operation, and the entries of a batch, each of which succeeds or fails by itself.
-/

namespace RecordStore.Codec

/-- The answer of an operation, or `null` if it has none. -/
def slotToJson (c : Codec) : Option OpResult → Json
  | some result => c.resultToJson result
  | none => .null

/-- **The outcome of a call**: one answer for each operation, in their order, or
the last answer for each bin together with the generation of the record. -/
def outcomeToJson (c : Codec) (outcome : Outcome) (ordered : Bool) : Json :=
  if ordered then .array (outcome.ordered.map c.slotToJson)
  else
    .ofFields
      [("bins", .ofNamed (outcome.results.map c.resultToJson)),
        ("generation",
          match outcome.record with
          | some record => .integer record.generation.toNat
          | none => .null)]

/-- **An entry of a batch**, with its own status. -/
def entryToJson (c : Codec) (key : Key) : Except Error Json → Json
  | .ok found =>
    .ofFields [("key", c.keyToJson key), ("status", .integer Status.ok.code), ("ok", found)]
  | .error e =>
    .ofFields
      [("key", c.keyToJson key), ("status", .integer e.status.code), ("error", .string e.message)]

end RecordStore.Codec
