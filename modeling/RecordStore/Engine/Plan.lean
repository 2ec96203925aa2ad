import RecordStore.Operation

/-!
# The plan of a call

Before a call on a record touches anything, its list of operations is checked as
a whole: it is not empty, every operation is valid by itself, no two
write-class operations address one bin, and a write on the record as a whole is
the only write. The check answers the two facts about the list that the rest of
the call depends on.
-/

namespace RecordStore

/-- What a list of operations amounts to. -/
structure Plan where
  /-- Whether some operation is write-class. -/
  hasWrite : Bool
  /-- The write on the record as a whole, if there is one. -/
  recordLevel : Option Operation

namespace Plan

/-- Looks for a bin that two writes address; the first repetition is reported. -/
def checkBins (written : List String) : List String → Except Error Unit
  | [] => .ok ()
  | bin :: rest =>
    if written.contains bin then .error (.param (.binWrittenTwice bin))
    else checkBins (bin :: written) rest

/-- **Checks a list of operations.** -/
def check (ops : List Operation) : Except Error Plan := do
  if ops.isEmpty then throw (.param .noOperations)
  ops.forM Operation.validate
  let writes := ops.filter Operation.isWrite
  checkBins [] (writes.filterMap Operation.bin?)
  let recordLevel := writes.reverse.find? Operation.isRecordLevel
  if recordLevel.isSome && writes.length > 1 then throw (.param .recordLevelNotAlone)
  return { hasWrite := !writes.isEmpty, recordLevel }

end Plan

end RecordStore
