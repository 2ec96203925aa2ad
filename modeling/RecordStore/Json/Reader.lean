import RecordStore.Json.Number

/-!
# Reading JSON

A text is read in two steps. The first one is about form alone: it answers a
`RecordStore.Json.Source`, the text as a tree, in which the fields of an object
stand as they were written, repetitions and all, and numbers and texts are not
yet understood. The second step (`RecordStore.Json.Source.toJson?`) understands
them, and only there the limits of meaning apply: a number must not be too large,
an escaped surrogate must be half of a pair, and arrays and objects must not be
nested deeper than a limit. Of fields with the same name the last one counts.

The two steps are apart because a request may have fields that nobody asks for.
Those need to have the form of JSON, but need not mean anything.
-/

namespace RecordStore.Json

/-! ### The tree of a text -/

/-- A JSON text as a tree. -/
inductive Source where
  /-- The word `null`. -/
  | null
  /-- One of the words for truth values. -/
  | bool (b : Bool)
  /-- A number. -/
  | number (text : NumberText)
  /-- A text; none if a surrogate in it has no partner. -/
  | string (s : Option String)
  /-- An array. -/
  | array (items : List Source)
  /-- An object, its fields as they were written. -/
  | object (fields : List (Option String × Source))
deriving Inhabited

/-! ### Blanks, words and numbers -/

/-- Blanks between the parts of a text. -/
def isBlank (c : Char) : Bool := c = ' ' || c = '\n' || c = '\t' || c = '\r'

/-- Skips blanks. -/
def skipBlanks (cs : List Char) : List Char := cs.dropWhile isBlank

/-- Skips a word. -/
def skipWord : (word cs : List Char) → Option (List Char)
  | [], cs => some cs
  | w :: ws, c :: cs => if w = c then skipWord ws cs else none
  | _ :: _, [] => none

/-- The value of a decimal digit. -/
def digit? (c : Char) : Option Nat :=
  if '0' ≤ c ∧ c ≤ '9' then some (c.toNat - '0'.toNat) else none

/-- The digits that a text begins with, and what follows them. -/
def takeDigits : List Char → List Nat × List Char
  | [] => ([], [])
  | c :: cs =>
    match digit? c with
    | some d => let (ds, rest) := takeDigits cs; (d :: ds, rest)
    | none => ([], c :: cs)

/-- The fraction that a text begins with, if it begins with a point; a point
needs a digit behind it. -/
def takeFraction : List Char → Option (Option (List Nat) × List Char)
  | '.' :: cs =>
    match takeDigits cs with
    | ([], _) => none
    | (ds, rest) => some (some ds, rest)
  | cs => some (none, cs)

/-- The sign and the digits of an exponent; there must be a digit. -/
def takeExponentDigits (down : Bool) (cs : List Char) :
    Option (Option (Bool × List Nat) × List Char) :=
  match takeDigits cs with
  | ([], _) => none
  | (ds, rest) => some (some (down, ds), rest)

/-- The exponent that a text begins with, if it begins with its letter. -/
def takeExponent : List Char → Option (Option (Bool × List Nat) × List Char)
  | c :: cs =>
    if c = 'e' ∨ c = 'E' then
      match cs with
      | '+' :: rest => takeExponentDigits false rest
      | '-' :: rest => takeExponentDigits true rest
      | rest => takeExponentDigits false rest
    else some (none, c :: cs)
  | [] => some (none, [])

/-- The number behind a sign. A leading zero stands alone. -/
def takeNumber (negative : Bool) (cs : List Char) : Option (NumberText × List Char) := do
  let (whole, rest) := takeDigits cs
  -- there must be a digit, and a zero must not stand in front of another one
  match whole with
  | [] | 0 :: _ :: _ => none
  | _ =>
    let (fraction, rest) ← takeFraction rest
    let (exponent, rest) ← takeExponent rest
    return (⟨negative, whole, fraction, exponent⟩, rest)

/-! ### Texts -/

/-- A piece of a text: a character, or an escaped unit of sixteen bits. -/
inductive Piece where
  /-- A character. -/
  | char (c : Char)
  /-- A unit of sixteen bits. -/
  | unit (n : Nat)
deriving DecidableEq

/-- The value of a hexadecimal digit of either case. -/
def hexValue? (c : Char) : Option Nat :=
  if '0' ≤ c ∧ c ≤ '9' then some (c.toNat - '0'.toNat)
  else if 'a' ≤ c ∧ c ≤ 'f' then some (c.toNat - 'a'.toNat + 10)
  else if 'A' ≤ c ∧ c ≤ 'F' then some (c.toNat - 'A'.toNat + 10)
  else none

/-- The character that a short escape stands for. -/
def shortEscape? : Char → Option Char
  | '"' => some '"'
  | '\\' => some '\\'
  | '/' => some '/'
  | 'b' => some '\x08'
  | 'f' => some '\x0c'
  | 'n' => some '\n'
  | 'r' => some '\r'
  | 't' => some '\t'
  | _ => none

/-- The pieces up to the closing quote, and what follows it. -/
def takePieces : List Char → Option (List Piece × List Char)
  | [] => none
  | '"' :: cs => some ([], cs)
  | '\\' :: 'u' :: a :: b :: c :: d :: cs => do
    let n := (((← hexValue? a) * 16 + (← hexValue? b)) * 16 + (← hexValue? c)) * 16 +
      (← hexValue? d)
    let (pieces, rest) ← takePieces cs
    return (.unit n :: pieces, rest)
  | '\\' :: c :: cs => do
    let e ← shortEscape? c
    let (pieces, rest) ← takePieces cs
    return (.char e :: pieces, rest)
  | c :: cs => do
    -- control characters must be escaped, and what else a backslash begins is no escape
    if c.toNat < 0x20 ∨ c = '\\' then none
    let (pieces, rest) ← takePieces cs
    return (.char c :: pieces, rest)

/-- The text that pieces make. A unit is a character unless it is a surrogate; a
leading surrogate makes a character with the trailing one right behind it. -/
def joinPieces : List Piece → Option (List Char)
  | [] => some []
  | .char c :: rest => (joinPieces rest).map (c :: ·)
  | .unit high :: .unit low :: rest =>
    if 0xd800 ≤ high ∧ high < 0xdc00 then
      if 0xdc00 ≤ low ∧ low < 0xe000 then
        (joinPieces rest).map
          (Char.ofNat (0x10000 + (high - 0xd800) * 0x400 + (low - 0xdc00)) :: ·)
      else none
    else if 0xdc00 ≤ high ∧ high < 0xe000 then none
    else (joinPieces (.unit low :: rest)).map (Char.ofNat high :: ·)
  | .unit n :: rest =>
    if 0xd800 ≤ n ∧ n < 0xe000 then none else (joinPieces rest).map (Char.ofNat n :: ·)

/-- The text up to the closing quote, and what follows it. -/
def takeString (cs : List Char) : Option (Option String × List Char) := do
  let (pieces, rest) ← takePieces cs
  return ((joinPieces pieces).map String.ofList, rest)

/-! ### Values -/

mutual

/-- The value that a text begins with, and what follows it. Every step that
consumes no character is followed by one that does, so twice the length of the
text is enough `fuel`. -/
def takeValue : (fuel : Nat) → List Char → Option (Source × List Char)
  | 0, _ => none
  | fuel + 1, cs =>
    match skipBlanks cs with
    | '[' :: cs =>
      match skipBlanks cs with
      | ']' :: cs => some (.array [], cs)
      | cs => do
        let (items, rest) ← takeItems fuel cs
        return (.array items, rest)
    | '\x7b' :: cs =>
      -- a comma in front of the end is not allowed, so the empty object is apart
      match skipBlanks cs with
      | '\x7d' :: cs => some (.object [], cs)
      | cs => do
        let (fields, rest) ← takeFields fuel cs
        return (.object fields, rest)
    | '"' :: cs => do
      let (s, rest) ← takeString cs
      return (.string s, rest)
    | '-' :: cs => do
      let (n, rest) ← takeNumber true cs
      return (.number n, rest)
    | 'n' :: cs => do return (.null, ← skipWord ['u', 'l', 'l'] cs)
    | 't' :: cs => do return (.bool true, ← skipWord ['r', 'u', 'e'] cs)
    | 'f' :: cs => do return (.bool false, ← skipWord ['a', 'l', 's', 'e'] cs)
    | cs => do
      let (n, rest) ← takeNumber false cs
      return (.number n, rest)

/-- The items of an array up to its end. -/
def takeItems : (fuel : Nat) → List Char → Option (List Source × List Char)
  | 0, _ => none
  | fuel + 1, cs => do
    let (item, rest) ← takeValue fuel cs
    match skipBlanks rest with
    | ',' :: rest =>
      let (items, rest) ← takeItems fuel rest
      return (item :: items, rest)
    | ']' :: rest => return ([item], rest)
    | _ => none

/-- The fields of an object up to its end. -/
def takeFields : (fuel : Nat) → List Char → Option (List (Option String × Source) × List Char)
  | 0, _ => none
  | fuel + 1, cs => do
    match skipBlanks cs with
    | '"' :: cs =>
      let (name, rest) ← takeString cs
      match skipBlanks rest with
      | ':' :: rest =>
        let (value, rest) ← takeValue fuel rest
        match skipBlanks rest with
        | ',' :: rest =>
          let (fields, rest) ← takeFields fuel rest
          return ((name, value) :: fields, rest)
        | '\x7d' :: rest => return ([(name, value)], rest)
        | _ => none
      | _ => none
    | _ => none

end

/-- **The tree of a text**: one value, and nothing but blanks around it. -/
def Source.ofText? (text : String) : Option Source := do
  let cs := text.toList
  let (source, rest) ← takeValue (2 * cs.length + 2) cs
  if (skipBlanks rest).isEmpty then some source else none

/-! ### The meaning of a tree -/

/-- How deep arrays and objects may be nested. -/
def maxDepth : Nat := 127

mutual

/-- **The value that a tree stands for**, where `depth` levels of nesting are
allowed. -/
def Source.toJson? (depth : Nat) : Source → Option Json
  | .null => some .null
  | .bool b => some (.bool b)
  | .number text => text.value?
  | .string s => s.map .string
  | .array items => if depth = 0 then none else (itemsToJson? (depth - 1) items).map .array
  | .object fields => if depth = 0 then none else (fieldsToJson? (depth - 1) fields).map ofFields

/-- The values that the items of an array stand for. -/
def itemsToJson? (depth : Nat) : List Source → Option (List Json)
  | [] => some []
  | item :: items => do
    let j ← item.toJson? depth
    let js ← itemsToJson? depth items
    return j :: js

/-- The names and values that the fields of an object stand for. -/
def fieldsToJson? (depth : Nat) : List (Option String × Source) → Option (List (String × Json))
  | [] => some []
  | (name, field) :: fields => do
    let name ← name
    let j ← field.toJson? depth
    let js ← fieldsToJson? depth fields
    return (name, j) :: js

end

/-- The value that a tree stands for, nested within the limit. -/
def Source.value? (source : Source) : Option Json := source.toJson? maxDepth

/-- **Reads a text.** -/
def ofText? (text : String) : Option Json := do
  (← Source.ofText? text).value?

end RecordStore.Json
