import RecordStore.Codec.Policy
import RecordStore.Json.Parts
import RecordStore.Store.Basic

/-!
# Settings of a store as JSON

The settings of a store are sent as one object, together with the name of a
serializer. Each of them may be left out.
-/

namespace RecordStore.StoreSettings

/-- The policy for missing bins that a tree names. -/
def missingBinOfSource? (source : Json.Source) : Option MissingBinPolicy := do
  MissingBinPolicy.table.lookup (← source.choice?)

/-- The settings and the name of a serializer, from the parts of an object. -/
def ofParts? : List (Option Json.Source) → Option (StoreSettings × Option String)
  | [ns, defaultTtl, missingBin, serializer] => do
    let ns ← ns.elim (some "test") fun source => do (← source.value?).toText?
    let defaultTtl ← defaultTtl.elim (some 0) fun source => do (← source.value?).toUInt32?
    let missingBin ← missingBin.elim (some .empty) missingBinOfSource?
    let serializer ← Json.optional Json.toText? (← serializer.mapM Json.Source.value?)
    return ({ ns, defaultTtl, missingBin }, serializer)
  | _ => none

/-- **Reads the settings** and the name of a serializer from text. -/
def ofText? (text : String) : Option (StoreSettings × Option String) := do
  let source ← Json.Source.ofText? text
  ofParts? (← source.strictParts? ["namespace", "defaultTtl", "missingBin", "serializer"])

/-- Settings as JSON. -/
def toJson (s : StoreSettings) : Json :=
  .ofFields
    [("namespace", .string s.ns), ("defaultTtl", .integer s.defaultTtl.toNat),
      ("missingBin", Json.ofChoice MissingBinPolicy.table s.missingBin)]

end RecordStore.StoreSettings
