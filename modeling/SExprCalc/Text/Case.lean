/-!
# Letter case of setting names

The names that a setting may have are plain ASCII words, compared without regard to case. So the
only characters whose case form matters are those whose form is itself made of ASCII letters: the
ASCII letters, and the few others below. Every other character is left as it is, which is enough
to keep its word apart from every ASCII word.
-/

namespace SExprCalc.Text

/-- The lower-case form of a character, where that form is ASCII. -/
def lowerChar (c : Char) : Char :=
  if c.toNat = 0x212A then 'k' else c.toLower

/-- The characters beyond ASCII whose upper-case form is ASCII: the dotless i, the long s, the
sharp s and the ligatures. -/
def upperForms : List (Nat × List Char) := [
  (0x00DF, ['S', 'S']), (0x0131, ['I']), (0x017F, ['S']), (0xFB00, ['F', 'F']),
  (0xFB01, ['F', 'I']), (0xFB02, ['F', 'L']), (0xFB03, ['F', 'F', 'I']),
  (0xFB04, ['F', 'F', 'L']), (0xFB05, ['S', 'T']), (0xFB06, ['S', 'T'])]

/-- The upper-case form of a character, where that form is ASCII. -/
def upperChar (c : Char) : List Char :=
  (upperForms.lookup c.toNat).getD [c.toUpper]

/-- The text in lower case, as far as ASCII words can tell. -/
def lower (text : List Char) : List Char := text.map lowerChar

/-- The text in upper case, as far as ASCII words can tell. -/
def upper (text : List Char) : List Char := text.flatMap upperChar

end SExprCalc.Text
