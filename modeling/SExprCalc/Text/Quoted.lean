import SExprCalc.Text.Printable

/-!
# Quoted text

Messages and traces show a piece of text between quotes, in such a way that it can be told where
the text ends and which characters it holds. Apostrophes enclose the text, or double quotes if it
holds an apostrophe and no double quote. The enclosing quote and the backslash are escaped by a
backslash, line feed, carriage return and tab have letters of their own, and any other unprintable
character is written by its code point in hexadecimal, in the shortest of three widths.
-/

namespace SExprCalc.Text

/-- The apostrophe. -/
def apostrophe : Char := '\x27'

/-- The double quote. -/
def doubleQuote : Char := '\x22'

/-- The backslash. -/
def backslash : Char := '\x5c'

/-- The quote that encloses a text. -/
def quoteFor (text : List Char) : Char :=
  if text.contains apostrophe && !text.contains doubleQuote then doubleQuote else apostrophe

/-- A number in lower-case hexadecimal, padded with zeros. -/
def hex (width n : Nat) : List Char := (Nat.toDigits 16 n).leftpad width '0'

/-- A code point as an escape: two, four or eight hexadecimal digits. -/
def escapeCode (n : Nat) : List Char :=
  if n < 0x100 then backslash :: 'x' :: hex 2 n
  else if n < 0x10000 then backslash :: 'u' :: hex 4 n
  else backslash :: 'U' :: hex 8 n

/-- A character as it stands between two quotes. -/
def escapeChar (quote c : Char) : List Char :=
  if c = quote || c = backslash then [backslash, c]
  else if c = '\n' then [backslash, 'n']
  else if c = '\r' then [backslash, 'r']
  else if c = '\t' then [backslash, 't']
  else if isPrintable c then [c]
  else escapeCode c.toNat

/-- The text between quotes, escaped. -/
def quoted (text : List Char) : List Char :=
  let quote := quoteFor text
  quote :: text.flatMap (escapeChar quote) ++ [quote]

end SExprCalc.Text
