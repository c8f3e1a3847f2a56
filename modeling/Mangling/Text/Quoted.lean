import Mangling.Text.Numeral
import Mangling.Text.Printable

/-! Quoted texts and bytes, in which everything that is not printable is escaped. -/

namespace Mangling

/-- The mark that quotes a text by default. -/
def singleQuote : Char := '\x27'

/-- The mark that quotes a text holding single quotes but no double ones. -/
def doubleQuote : Char := '\x22'

/-- The mark in front of an escape. -/
def backslash : Char := '\x5c'

/-- A text is put between single quotes, unless only double quotes spare it an escape. -/
def quoteMark (text : Text) : Char :=
  -- Where both marks occur, the single ones are escaped.
  if text.contains singleQuote && !text.contains doubleQuote then doubleQuote else singleQuote

/-- A character that cannot be shown is escaped by name or by the shortest form that holds its
code point. -/
def escapeChar (char : Char) : Text :=
  -- Three controls have names, and everything else has a number of two, four or eight digits.
  if char == '\n' then [backslash, 'n']
  else if char == '\r' then [backslash, 'r']
  else if char == '\t' then [backslash, 't']
  else if char.toNat < 0x100 then backslash :: 'x' :: hexadecimal 2 char.toNat
  else if char.toNat < 0x10000 then backslash :: 'u' :: hexadecimal 4 char.toNat
  else backslash :: 'U' :: hexadecimal 8 char.toNat

/-- The quote mark in use and the backslash are escaped by a backslash, what may be shown stays,
and the rest is escaped by its code point. -/
def quoteChar (shown : Char → Bool) (mark char : Char) : Text :=
  -- The other quote mark needs no escape.
  if char == mark || char == backslash then [backslash, char]
  else if shown char then [char]
  else escapeChar char

/-- A text between its quote marks, where a class of characters is shown as it is. -/
def quoteShowing (shown : Char → Bool) (text : Text) : Text :=
  -- The mark is chosen once for the whole text.
  let mark := quoteMark text
  mark :: (text.flatMap (quoteChar shown mark) ++ [mark])

/-- A quoted text shows printable characters of every script. -/
def quoted (text : Text) : Text :=
  quoteShowing isPrintable text

/-- The bytes of a text in UTF-8, each taken for the character of its value. -/
def utf8Chars (text : Text) : Text :=
  -- A byte is below 256, where every number is the code point of a character.
  (text.flatMap String.utf8EncodeChar).map fun byte => Char.ofNat byte.toNat

/-- Quoted bytes are marked by a letter and show printable ASCII only. -/
def quotedBytes (text : Text) : Text :=
  'b' :: quoteShowing isPrintableAscii (utf8Chars text)

end Mangling
