import RecordStore.Decimal.Layout
import RecordStore.Json.Basic

/-!
# Writing JSON

The compact text of a JSON value: no blanks, the fields of an object in ascending
order of their names, and in texts only those characters escaped that must be. A
structure that is written without being made a value first has its fields in an order
of its own.
-/

namespace RecordStore

/-- JSON writes a double positionally from `10 ^ -5` on and below `10 ^ 16`; of
two equally near shortest decimals the even one is written. -/
def jsonLayout : Decimal.Layout := ⟨.toEven, -5, 15, true⟩

namespace Json

/-- A digit of an escape. -/
def hexDigit (n : Nat) : Char := (Nat.toDigits 16 n).headD '0'

/-- A character as it stands in a text. -/
def escapeChar (c : Char) : List Char :=
  match c with
  | '"' => ['\\', '"']
  | '\\' => ['\\', '\\']
  | '\x08' => ['\\', 'b']
  | '\x0c' => ['\\', 'f']
  | '\n' => ['\\', 'n']
  | '\r' => ['\\', 'r']
  | '\t' => ['\\', 't']
  | c =>
    if c.toNat < 0x20 then
      ['\\', 'u', '0', '0', hexDigit (c.toNat / 16), hexDigit (c.toNat % 16)]
    else [c]

/-- A text between quotes. -/
def renderString (s : String) : String :=
  String.ofList ('"' :: (s.toList.flatMap escapeChar ++ ['"']))

mutual

/-- **The compact text** of a value. -/
def render : Json → String
  | .null => "null"
  | .bool b => if b then "true" else "false"
  | .integer n => toString n
  | .float x => jsonLayout.write x
  | .string s => renderString s
  | .array items => "[" ++ ",".intercalate (renderItems items) ++ "]"
  | .object ⟨fields⟩ => "\x7b" ++ ",".intercalate (renderFields fields) ++ "\x7d"

/-- The texts of some values. -/
def renderItems : List Json → List String
  | [] => []
  | j :: js => render j :: renderItems js

/-- The texts of some fields. -/
def renderFields : List (String × Json) → List String
  | [] => []
  | (name, j) :: fields => (renderString name ++ ":" ++ render j) :: renderFields fields

end

/-- The compact text of a structure, with its fields in the order of the structure. -/
def renderStructure (fields : List (String × Json)) : String :=
  "\x7b" ++ ",".intercalate (renderFields fields) ++ "\x7d"

end Json

end RecordStore
