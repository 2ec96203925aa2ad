import RecordStore.Value.Basic

/-!
# Bad parameters

Everything a caller can get wrong before a record is looked at, or in a position
that a list cannot honour. Each cause is a constructor with the data that its
message shows; `RecordStore.ParamError.message` has the wording of all of them.
-/

namespace RecordStore

/-- Longest namespace, in bytes. -/
def maxNamespaceBytes : Nat := 31

/-- Longest set name, in bytes. -/
def maxSetBytes : Nat := 63

/-- Longest bin name, in bytes. -/
def maxBinNameBytes : Nat := 14

/-- The most nulls that one insertion may fill a list up with. -/
def maxPadding : Nat := 65536

/-- What is wrong with a parameter. -/
inductive ParamError where
  /-- A user key of a type that cannot be hashed. -/
  | userKeyKind (actual : Kind)
  /-- A digest text that is not forty ASCII characters. -/
  | digestLength
  /-- A digest text with something in it that is no number of two digits. -/
  | digestDigits (text : String)
  /-- No namespace. -/
  | namespaceEmpty
  /-- A namespace of too many bytes. -/
  | namespaceTooLong
  /-- A set name of too many bytes. -/
  | setTooLong
  /-- No bin name. -/
  | binNameEmpty
  /-- A bin name of too many bytes. -/
  | binNameTooLong (name : String)
  /-- A lifetime of more seconds than a record can have. -/
  | ttlTooLarge (seconds : Int64)
  /-- A lifetime below the sentinels. -/
  | ttlInvalid (ttl : Int64)
  /-- A code that names no map order. -/
  | mapOrderCode (code : Int64)
  /-- Map write flags with an unknown bit. -/
  | mapWriteFlags (bits : Int64)
  /-- Map write flags that exclude each other. -/
  | mapWriteModes
  /-- List write flags with an unknown bit. -/
  | listWriteFlags (bits : Int64)
  /-- A list order other than none. -/
  | listOrder
  /-- An entry that a collection policy does not have. -/
  | policyEntry (policy name : String)
  /-- A collection policy that is no map. -/
  | policyNotMap (policy : String)
  /-- A collection policy with a key that is no text. -/
  | policyKeyKind (policy : String) (actual : Kind)
  /-- An entry of a collection policy that is no integer. -/
  | policyEntryKind (name : String)
  /-- A value that cannot be appended. -/
  | concatKind (actual : Kind)
  /-- A write without bins. -/
  | noBins
  /-- An empty list of operations. -/
  | noOperations
  /-- Two writes on one bin. -/
  | binWrittenTwice (bin : String)
  /-- A record-level write beside another write. -/
  | recordLevelNotAlone
  /-- A map write without items. -/
  | noItems
  /-- A return type that is none of the known ones. -/
  | returnTypeBits (bits : Int64)
  /-- A key selector on a list. -/
  | keysOfList
  /-- A key selector in a list operation. -/
  | listByKey
  /-- A return type that reports keys, in a list operation. -/
  | listReturnsKeys
  /-- A negative position in a list operation. -/
  | negativeListIndex (index : Int64)
  /-- A negative position met while the list is changed. -/
  | negativePosition
  /-- A position too far behind the end of a list. -/
  | paddingTooLong (index length : Nat)
  /-- A name that no operation has. -/
  | unknownOperation (name : String)
  /-- A field that an operation needs and does not have. -/
  | missingField (operation field : String)
  /-- A bin that is no text. -/
  | binKind (actual : Kind)
  /-- A field that is no integer. -/
  | fieldNotInteger (field : String)
  /-- A field that is no list. -/
  | fieldNotList (field : String) (actual : Kind)
  /-- A negative count. -/
  | negativeCount (count : Int64)
  /-- Items to put that are no map. -/
  | itemsKind (actual : Kind)
  /-- A lifetime that is no integer. -/
  | ttlKind (actual : Kind)
  /-- A truncation threshold after the present. -/
  | thresholdInFuture (before : UInt64)
  /-- A name that no serializer has. -/
  | unknownSerializer (name : String)
  /-- JSON that has no bin type, where no serializer is configured. -/
  | noSerializer (json : String)
  /-- An integer that does not fit into sixty-four bits with sign. -/
  | integerTooLarge (n : Int)
  /-- A tagged byte string that is no text. -/
  | bytesNotText
  /-- A tagged byte string that is no base64. -/
  | base64
  /-- A tagged map that is no array. -/
  | pairsNotArray
  /-- A tagged map with an element that is no pair. -/
  | pairShape
  /-- A key that is no object. -/
  | keyNotObject
  /-- A key without a namespace. -/
  | keyNamespace
  /-- A set name that is no text. -/
  | keySet (json : String)
  /-- A key with neither a user key nor a digest. -/
  | keyIdentity
  /-- A write policy that cannot be read. -/
  | policyShape
  /-- Bins that are no object. -/
  | binsNotObject
  /-- Bin names that are no array. -/
  | binNamesNotArray
  /-- A bin name that is no text. -/
  | binNameNotText (json : String)
  /-- An operation that is no object. -/
  | operationNotObject
  /-- An operation without a name. -/
  | operationNameless
  /-- A field that operations do not have. -/
  | unknownField (field : String)
  /-- Operations that are no array. -/
  | operationsNotArray
  /-- A request without a field that it needs. -/
  | missingRequestField (field : String)
  /-- Keys that are no array. -/
  | keysNotArray
  /-- No keys. -/
  | keysEmpty
  /-- A threshold that is no point in time. -/
  | thresholdNotTime
deriving DecidableEq

/-- The wording of each cause. -/
def ParamError.message : ParamError → String
  | userKeyKind actual => "user key must be integer, string or bytes, got " ++ actual.name
  | digestLength => "digest must be 40 hex characters"
  | digestDigits text => s!"invalid digest hex: {text}"
  | namespaceEmpty => "namespace must not be empty"
  | namespaceTooLong => s!"namespace exceeds {maxNamespaceBytes} bytes"
  | setTooLong => s!"set exceeds {maxSetBytes} bytes"
  | binNameEmpty => "bin name must not be empty"
  | binNameTooLong name => s!"bin name '{name}' exceeds {maxBinNameBytes} bytes"
  | ttlTooLarge seconds => s!"ttl {seconds} is too large"
  | ttlInvalid ttl => s!"invalid ttl: {ttl}"
  | mapOrderCode code => s!"invalid map order: {code}"
  | mapWriteFlags bits => s!"invalid map write flags: {bits}"
  | mapWriteModes => "map write flags cannot be both create-only and update-only"
  | listWriteFlags bits => s!"invalid list write flags: {bits}"
  | listOrder => "only unordered lists are supported"
  | policyEntry policy name => s!"invalid {policy} entry: {name}"
  | policyNotMap policy => s!"{policy} must be a map"
  | policyKeyKind policy actual => s!"{policy} keys must be strings, got " ++ actual.name
  | policyEntryKind name => s!"policy entry '{name}' must be an integer"
  | concatKind actual => "append/prepend value must be a string or bytes, got " ++ actual.name
  | noBins => "put requires at least one bin"
  | noOperations => "operate requires at least one operation"
  | binWrittenTwice bin => s!"more than one write operation on bin '{bin}'"
  | recordLevelNotAlone => "touch and delete may only be combined with read operations"
  | noItems => "map put_items requires at least one item"
  | returnTypeBits bits => s!"invalid return_type: {bits}"
  | keysOfList => "key addressing is only valid for maps"
  | listByKey => "lists cannot be addressed by key"
  | listReturnsKeys => "key return types are not valid for lists"
  | negativeListIndex index => s!"list index must not be negative: {index}"
  | negativePosition => "list index must not be negative"
  | paddingTooLong index length =>
    s!"index {index} would pad a list of length {length} with more than {maxPadding} nulls"
  | unknownOperation name => s!"unknown operation: {name}"
  | missingField operation field => s!"{operation} requires '{field}'"
  | binKind actual => "bin must be a string, got " ++ actual.name
  | fieldNotInteger field => s!"'{field}' must be an integer"
  | fieldNotList field actual => s!"'{field}' must be a list, got " ++ actual.name
  | negativeCount count => s!"count must not be negative: {count}"
  | itemsKind actual => "map_put_items val must be a map, got " ++ actual.name
  | ttlKind actual => "ttl must be an integer, got " ++ actual.name
  | thresholdInFuture before => s!"truncate threshold {before} is in the future"
  | unknownSerializer name => s!"unknown serializer: {name}"
  | noSerializer json => s!"no serializer configured for value {json}"
  | integerTooLarge n => s!"integer {n} exceeds 64-bit signed range"
  | bytesNotText => "$bytes must hold a base64 string"
  | base64 => "invalid base64"
  | pairsNotArray => "$map must hold an array of [key, value] pairs"
  | pairShape => "$map entries must be [key, value] pairs"
  | keyNotObject => "key must be an object"
  | keyNamespace => "key requires 'ns'"
  | keySet json => s!"invalid set: {json}"
  | keyIdentity => "key requires 'key' or 'digest'"
  | policyShape => "invalid policy"
  | binsNotObject => "bins must be an object"
  | binNamesNotArray => "bin names must be an array"
  | binNameNotText json => s!"invalid bin name: {json}"
  | operationNotObject => "operation must be an object"
  | operationNameless => "operation requires 'op'"
  | unknownField field => s!"unknown operation field: {field}"
  | operationsNotArray => "operations must be an array"
  | missingRequestField field => s!"request requires '{field}'"
  | keysNotArray => "'keys' must be an array"
  | keysEmpty => "'keys' must not be empty"
  | thresholdNotTime => "'before' must be a timestamp"

end RecordStore
