import RecordStore.Store.Basic
import RecordStore.Text.Trim

/-!
# Settings of the service

The service takes its settings from named texts, each of which has a default.
They are looked at in a fixed order, and the first one that cannot be read is
reported. The name of the serializer is not checked here.
-/

namespace RecordStore

/-- What is wrong with the settings. -/
inductive SettingsError where
  /-- The port is no port. -/
  | invalidPort
  /-- There is no namespace. -/
  | noNamespaces
  /-- The default lifetime is no number of seconds. -/
  | invalidDefaultTtl
  /-- The policy for missing bins is none of the known ones. -/
  | invalidMissingBinPolicy (name : String)
  /-- The pause between sweeps is no number of seconds. -/
  | invalidReapInterval
deriving DecidableEq

/-- The wording of each cause. -/
def SettingsError.message : SettingsError → String
  | invalidPort => "Invalid PORT value"
  | noNamespaces => "NAMESPACES must name at least one namespace"
  | invalidDefaultTtl => "Invalid DEFAULT_TTL value"
  | invalidMissingBinPolicy name =>
    s!"Invalid MISSING_BIN_POLICY value: {name} (expected 'empty' or 'incompatible')"
  | invalidReapInterval => "Invalid REAP_INTERVAL_SECS value"

/-- The settings of the service. -/
structure ServiceSettings where
  /-- The address that it listens at. -/
  host : String := "0.0.0.0"
  /-- The port that it listens at. -/
  port : Nat := 3000
  /-- The namespaces that it serves. -/
  namespaces : List String := ["test"]
  /-- The default lifetime in seconds; zero means forever. -/
  defaultTtl : UInt32 := 0
  /-- The name of the serializer. -/
  serializer : String := "json"
  /-- How operations on a whole collection treat a missing bin. -/
  missingBin : MissingBinPolicy := .empty
  /-- The seconds between two sweeps; zero means that there are none. -/
  reapInterval : Nat := 60
deriving DecidableEq, Inhabited

namespace ServiceSettings

/-- The number that digits make, up to a bound; a plus sign may stand in front,
and there must be a digit. -/
def readNumber? (bound : Nat) (text : String) : Option Nat :=
  let digits :=
    match text.toList with
    | '+' :: rest => rest
    | cs => cs
  if digits.isEmpty || !digits.all fun c => '0' ≤ c && c ≤ '9' then none
  else
    let n := digits.foldl (fun n c => n * 10 + (c.toNat - '0'.toNat)) 0
    if n ≤ bound then some n else none

/-- The names between commas, without blanks around them; empty ones do not
count. -/
def readNamespaces (text : String) : List String :=
  (((Text.split ',' text.toList).map Text.trim).filter (!·.isEmpty)).map String.ofList

/-- A number among the settings. -/
def number (setting : Option String) (default bound : Nat) (error : SettingsError) :
    Except SettingsError Nat :=
  match setting with
  | none => .ok default
  | some text =>
    match readNumber? bound text with
    | some n => .ok n
    | none => .error error

/-- **Reads the settings** from named texts. -/
def read (setting : String → Option String) : Except SettingsError ServiceSettings := do
  let host := (setting "HOST").getD "0.0.0.0"
  let port ← number (setting "PORT") 3000 (UInt16.size - 1) .invalidPort
  let namespaces := readNamespaces ((setting "NAMESPACES").getD "test")
  if namespaces.isEmpty then throw .noNamespaces
  let defaultTtl ← number (setting "DEFAULT_TTL") 0 (UInt32.size - 1) .invalidDefaultTtl
  let serializer := (setting "SERIALIZER").getD "json"
  let missingBin ←
    match setting "MISSING_BIN_POLICY" with
    | none | some "empty" => pure .empty
    | some "incompatible" => pure .incompatible
    | some name => throw (.invalidMissingBinPolicy name)
  let reapInterval ←
    number (setting "REAP_INTERVAL_SECS") 60 (UInt64.size - 1) .invalidReapInterval
  return {
    host, port, namespaces, defaultTtl := UInt32.ofNat defaultTtl, serializer, missingBin,
    reapInterval }

/-- The settings of the store of a namespace. -/
def storeSettings (settings : ServiceSettings) (ns : String) : StoreSettings where
  ns
  defaultTtl := settings.defaultTtl
  missingBin := settings.missingBin

end ServiceSettings

end RecordStore
