import RecordStore.Decimal.Layout
import RecordStore.Text.Quoted
import RecordStore.Value.Basic

/-!
# Values as messages show them

A message that names a value shows its type and its content: `Integer(1)`,
`String("a")`, `List([Null, Double(2.0)])`. A map is shown with its order policy
and its entries in storage order.
-/

namespace RecordStore

/-- Messages write a double positionally from a ten-thousandth on and below
`10 ^ 16`; of two equally near shortest decimals the greater one is shown. -/
def messageLayout : Decimal.Layout := ⟨.up, -4, 15, false⟩

/-- A double as messages show it. -/
def Double.shown (x : Double) : String :=
  if x.isFinite then messageLayout.write x
  else if x.isNaN then "NaN"
  else if x.isNegative then "-inf"
  else "inf"

/-- An order policy as messages show it. -/
def MapOrder.shown : MapOrder → String
  | .unordered => "Unordered"
  | .keyOrdered => "KeyOrdered"
  | .keyValueOrdered => "KeyValueOrdered"

/-- Texts in brackets, separated by commas. -/
def bracketed (items : List String) : String :=
  "[" ++ ", ".intercalate items ++ "]"

namespace Value

mutual

/-- A value as messages show it. -/
def shown : Value → String
  | .null => "Null"
  | .integer n => "Integer(" ++ toString n.toInt ++ ")"
  | .double x => "Double(" ++ x.shown ++ ")"
  | .string s => "String(" ++ Text.quoted s ++ ")"
  | .bytes b => "Bytes(" ++ bracketed (b.map fun byte => toString byte.toNat) ++ ")"
  | .list items => "List(" ++ bracketed (shownItems items) ++ ")"
  | .map ⟨order, entries⟩ =>
    "Map(CdtMap \x7b order: " ++ order.shown ++ ", entries: " ++
      bracketed (shownEntries entries) ++ " \x7d)"
  | .geoJson text => "GeoJson(" ++ Text.quoted text ++ ")"

/-- The items of a list, each as messages show it. -/
def shownItems : List Value → List String
  | [] => []
  | x :: xs => shown x :: shownItems xs

/-- The entries of a map, each as messages show it. -/
def shownEntries : List (Value × Value) → List String
  | [] => []
  | (k, v) :: es => ("(" ++ shown k ++ ", " ++ shown v ++ ")") :: shownEntries es

end

end Value

end RecordStore
