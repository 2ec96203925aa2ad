import RecordStore.Text.Glyph

/-!
# Quoted text in messages

A message shows a text between double quotes. Quotes, backslashes and the
common controls have short escapes; every other character without a glyph of its
own is shown by its code point.
-/

namespace RecordStore.Text

/-- A character as it stands between the quotes. -/
def quoteChar (c : Char) : List Char :=
  match c with
  | '\x00' => ['\\', '0']
  | '\t' => ['\\', 't']
  | '\n' => ['\\', 'n']
  | '\r' => ['\\', 'r']
  | '"' => ['\\', '"']
  | '\\' => ['\\', '\\']
  | c =>
    if isGlyphless c then
      ['\\', 'u', '\x7b'] ++ Nat.toDigits 16 c.toNat ++ ['\x7d']
    else [c]

/-- A text between double quotes, with everything escaped that would not be seen
as itself. -/
def quoted (s : String) : String :=
  String.ofList ('"' :: (s.toList.flatMap quoteChar ++ ['"']))

end RecordStore.Text
