/-!
# Media types

A media type is a type and a subtype with a slash between them, and perhaps
parameters, each behind a semicolon. Blanks may only stand in front of a
parameter, and behind a value between quotes.

Parameters are read by a machine that takes one character at a time
(`RecordStore.MediaType.Progress.step`) and refuses the first character that does
not fit. Two cases are easily missed: a value may be missing at the very end of
the text, but not in front of a semicolon; and a value between quotes has at least
one character, so that a quote directly behind the opening one belongs to it.
-/

namespace RecordStore.MediaType

/-! ### Characters -/

/-- The characters that names in a media type are made of. -/
def isToken (c : Char) : Bool :=
  c.isAlphanum || "!#$%&'*+-.^_`|~".toList.contains c

/-- The characters that may stand between quotes: the blank and the visible ones of
ASCII. -/
def isQuotable (c : Char) : Bool := ' ' ≤ c && c ≤ '~'

/-! ### Parameters -/

/-- How far a list of parameters is read. -/
inductive Progress where
  /-- Behind a semicolon, and perhaps some blanks. -/
  | ready
  /-- In a name. -/
  | name
  /-- Behind the equals sign. -/
  | equals
  /-- In a value without quotes. -/
  | value
  /-- Behind the quote that opens a value. -/
  | opened
  /-- In a value between quotes. -/
  | quoted
  /-- Behind the quote that closes a value, and perhaps some blanks. -/
  | closed
deriving DecidableEq

namespace Progress

/-- **One character further**; none if the character does not fit. -/
def step : Progress → Char → Option Progress
  -- blanks stand in front of a name or behind a quoted value, and nowhere else
  | ready, c => if c = ' ' then some ready else if isToken c then some name else none
  | name, c => if c = '=' then some equals else if isToken c then some name else none
  | equals, c => if c = '"' then some opened else if isToken c then some value else none
  | value, c => if c = ';' then some ready else if isToken c then some value else none
  -- a quote right behind the opening one is content
  | opened, c => if isQuotable c then some quoted else none
  | quoted, c => if c = '"' then some closed else if isQuotable c then some quoted else none
  | closed, c => if c = ';' then some ready else if c = ' ' then some closed else none

/-- Whether the text may end here. -/
def mayEnd : Progress → Bool
  | ready | equals | value | closed => true
  | name | opened | quoted => false

end Progress

/-- Whether a text is a list of parameters, each behind a semicolon. -/
def isParameters : List Char → Bool
  | [] => true
  | ';' :: cs => (cs.foldlM Progress.step .ready).any Progress.mayEnd
  | _ => false

/-! ### JSON -/

/-- Whether a subtype stands for JSON: by what stands in front of its last plus
sign, or by what stands behind. A plus sign that begins the subtype does not
count. -/
def isJsonSubtype (name : List Char) : Bool :=
  let lower := name.map Char.toLower
  let suffix := (lower.reverse.takeWhile (· ≠ '+')).reverse
  let hasPlus := suffix.length + 1 < lower.length
  let main := if hasPlus then lower.take (lower.length - suffix.length - 1) else lower
  main = "json".toList || (hasPlus && suffix = "json".toList)

/-- **Whether a media type is that of JSON.** -/
def isJson (text : String) : Bool :=
  match text.toList.span isToken with
  | (kind, '/' :: rest) =>
    let (name, parameters) := rest.span isToken
    kind.map Char.toLower = "application".toList && isJsonSubtype name && isParameters parameters
  | _ => false

end RecordStore.MediaType
