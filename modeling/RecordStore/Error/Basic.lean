import RecordStore.Error.Param
import RecordStore.Value.Shown

/-!
# Errors and status codes

An operation that fails says why with a `RecordStore.Error`. Every error belongs
to one `RecordStore.Status`, a number and a symbolic name that callers can act
on, and has a message for people. The message of an error is determined by its
cause and the data that the cause carries.
-/

namespace RecordStore

/-- The statuses that a call can end with. -/
inductive Status where
  /-- The call succeeded. -/
  | ok
  /-- The caller sent something that is no request. -/
  | client
  /-- A parameter is wrong. -/
  | param
  /-- There is no such record. -/
  | recordNotFound
  /-- The generation of the record is not the expected one. -/
  | recordGeneration
  /-- There is such a record already. -/
  | recordExists
  /-- The bin holds a value of another type. -/
  | binIncompatibleType
  /-- Reserved: a missing bin reads as absent. -/
  | binNotFound
  /-- There is no such namespace. -/
  | namespaceNotFound
  /-- A collection has no such element. -/
  | elementNotFound
  /-- A collection has such an element already. -/
  | elementExists
  /-- The operation cannot be applied to the value. -/
  | opNotApplicable
  /-- A geometry is not valid. -/
  | geoInvalid
deriving DecidableEq

namespace Status

/-- The number of a status. -/
def code : Status → Int
  | ok => 0
  | client => -1
  | param => -2
  | recordNotFound => 2
  | recordGeneration => 3
  | recordExists => 5
  | binIncompatibleType => 12
  | binNotFound => 17
  | namespaceNotFound => 20
  | elementNotFound => 23
  | elementExists => 24
  | opNotApplicable => 26
  | geoInvalid => 160

/-- The symbolic name of a status. -/
def name : Status → String
  | ok => "OK"
  | client => "ERR_CLIENT"
  | param => "ERR_PARAM"
  | recordNotFound => "ERR_RECORD_NOT_FOUND"
  | recordGeneration => "ERR_RECORD_GENERATION"
  | recordExists => "ERR_RECORD_EXISTS"
  | binIncompatibleType => "ERR_BIN_INCOMPATIBLE_TYPE"
  | binNotFound => "ERR_BIN_NOT_FOUND"
  | namespaceNotFound => "ERR_NAMESPACE_NOT_FOUND"
  | elementNotFound => "ERR_FAIL_NOT_FOUND"
  | elementExists => "ERR_FAIL_ELEMENT_EXISTS"
  | opNotApplicable => "ERR_OP_NOT_APPLICABLE"
  | geoInvalid => "ERR_GEO_INVALID_GEOJSON"

end Status

/-- At which end of a bin a value is added. -/
inductive End where
  /-- In front. -/
  | front
  /-- Behind. -/
  | back
deriving DecidableEq

/-- The verb for adding at an end. -/
def End.verb : End → String
  | .front => "prepend"
  | .back => "append"

/-- Why an operation cannot be applied to a value. -/
inductive Inapplicable where
  /-- The sum of two integers does not fit into sixty-four bits. -/
  | integerOverflow
  /-- Two values of types that cannot be added. -/
  | cannotAdd (delta current : Kind)
  /-- The addition to a bin failed. -/
  | inBin (bin : String) (cause : Inapplicable)
  /-- A value of a type that cannot be added at an end of the bin. -/
  | cannotConcat (place : End) (value : Kind) (bin : String) (current : Kind)
  /-- The amount to increment a bin by is no number. -/
  | incrementDelta (actual : Kind)
  /-- The amount to increment a map entry by is no number. -/
  | mapIncrementDelta (actual : Kind)
  /-- The amount to decrement by has no negative. -/
  | decrementOverflow
  /-- The amount to decrement by is no number. -/
  | cannotDecrement (actual : Kind)
  /-- A position behind the end of a list, where none may be. -/
  | pastEnd (index length : Nat)
deriving DecidableEq

/-- The wording of each cause. -/
def Inapplicable.message : Inapplicable → String
  | integerOverflow => "integer overflow"
  | cannotAdd delta current => "cannot add " ++ delta.name ++ " to " ++ current.name
  | inBin bin cause => s!"bin '{bin}': " ++ cause.message
  | cannotConcat place value bin current =>
    "cannot " ++ place.verb ++ " " ++ value.name ++ s!" to bin '{bin}' holding " ++ current.name
  | incrementDelta actual => "increment delta must be numeric, got " ++ actual.name
  | mapIncrementDelta actual => "map increment delta must be numeric, got " ++ actual.name
  | decrementOverflow => "decrement overflows"
  | cannotDecrement actual => "cannot decrement by " ++ actual.name
  | pastEnd index length => s!"index {index} is past the end of a list of length {length}"

/-- An element of a collection, as it is named in an error. -/
inductive ElementName where
  /-- An item of a list. -/
  | item (value : Value)
  /-- An entry of a map, by its key. -/
  | mapKey (key : Value)

/-- The wording of an element. -/
def ElementName.message : ElementName → String
  | item value => value.shown
  | mapKey key => "map key " ++ key.shown

/-- What keeps a request from being understood at all. -/
inductive RequestError where
  /-- The request is not JSON. What the reader of the text makes of it is no part of the
  wording. -/
  | unparsable
  /-- There is no request. -/
  | absent
  /-- There is no store to send the request to. -/
  | noStore
deriving DecidableEq

/-- The wording of each cause. -/
def RequestError.message : RequestError → String
  | unparsable => "parse error"
  | absent => "request is null or not UTF-8"
  | noStore => "null store pointer"

/-- What is wrong with a geometry. -/
inductive GeoJsonError where
  /-- The text is not JSON. -/
  | unparsable
  /-- There is no type. -/
  | missingType
  /-- The type is none of the known ones. -/
  | unsupportedType (kind : String)
  /-- The type is known and its body is missing. -/
  | missingBody (kind : String)
deriving DecidableEq

/-- Why a call failed. -/
inductive Error where
  /-- A parameter is wrong. -/
  | param (cause : ParamError)
  /-- A list has no element at the position. -/
  | indexOutOfRange (index : Int64) (length : Nat)
  /-- A bin holds something else than the operation needs; no actual type means
  that there is no such bin. -/
  | binIncompatibleType (bin : String) (expected : Kind) (actual : Option Kind)
  /-- There is no such record. -/
  | recordNotFound
  /-- There is no such namespace. -/
  | namespaceNotFound (name : String)
  /-- There is such a record already. -/
  | recordExists
  /-- The generation of the record is not the expected one. -/
  | generationMismatch (expected actual : UInt64)
  /-- The operation cannot be applied to the value. -/
  | notApplicable (cause : Inapplicable)
  /-- There is such an element already. -/
  | elementExists (element : ElementName)
  /-- There is no such element. -/
  | elementNotFound (element : ElementName)
  /-- The request could not be understood. -/
  | serialization (cause : RequestError)
  /-- A geometry is not valid. -/
  | invalidGeoJson (cause : GeoJsonError)

namespace Error

/-- The status that an error belongs to. -/
def status : Error → Status
  | param _ | indexOutOfRange .. => .param
  | binIncompatibleType .. => .binIncompatibleType
  | recordNotFound => .recordNotFound
  | namespaceNotFound _ => .namespaceNotFound
  | recordExists => .recordExists
  | generationMismatch .. => .recordGeneration
  | notApplicable _ => .opNotApplicable
  | elementExists _ => .elementExists
  | elementNotFound _ => .elementNotFound
  | serialization _ => .client
  | invalidGeoJson _ => .geoInvalid

/-- The message of an error. -/
def message : Error → String
  | param cause => "invalid parameter: " ++ cause.message
  | indexOutOfRange index length => s!"index {index} out of range for list of length {length}"
  | binIncompatibleType bin expected actual =>
    s!"bin '{bin}' holds " ++ actual.elim "nothing" Kind.name ++ ", operation requires " ++
      expected.name
  | recordNotFound => "record not found"
  | namespaceNotFound name => s!"namespace not found: {name}"
  | recordExists => "record already exists"
  | generationMismatch expected actual =>
    s!"generation mismatch: expected {expected}, got {actual}"
  | notApplicable cause => "operation not applicable: " ++ cause.message
  | elementExists element => "element already exists: " ++ element.message
  | elementNotFound element => "element not found: " ++ element.message
  | serialization cause => "serialization failed: " ++ cause.message
  | invalidGeoJson .unparsable => "invalid geojson"
  | invalidGeoJson .missingType => "invalid geojson: missing 'type'"
  | invalidGeoJson (.unsupportedType kind) => s!"invalid geojson: unsupported type '{kind}'"
  | invalidGeoJson (.missingBody kind) => s!"invalid geojson: {kind} without coordinates"

end Error

end RecordStore
