import SExprCalc.Fault
import SExprCalc.Number.Literal

/-!
# Cursors

A cursor is a text and a position in it, from which tokens are read. Looking ahead never moves the
position, and a reader that fails leaves the cursor where it was.

Positions are integers, and not every one of them lies in the text:

* `0, …, n` are the places of a text of `n` characters, `n` being its end;
* beyond `n` there is nothing to read, as at the end;
* a negative position counts from the end, so `-1` is the place before the last character. Reading
  on from there passes through the end of the text to position `0` and so through the text once
  more, as if a copy of the text stood in front of it;
* below `-n` there is no character, and looking at one is a fault; a position that does not even
  fit into a signed 64-bit word (`leastPosition`) has a fault of its own.

`upcoming` is the view through which reading is understood: the characters that lie ahead. For a
position within the text they are simply the rest of it (`upcoming_of_nonneg`).
-/

namespace SExprCalc

/-- A text and a position in it. -/
structure Cursor where
  /-- the whole text -/
  source : List Char
  /-- the position, counted in characters -/
  pos : Int := 0
  deriving DecidableEq, Repr

namespace Cursor

/-- A cursor at the start of a text. -/
def ofString (s : String) : Cursor := { source := s.toList }

/-- The number of characters of the text. -/
def size (c : Cursor) : Nat := c.source.length

/-- The number of characters of the text before a position: a negative one counts from the end,
and the ends of the text bound it. -/
def index (c : Cursor) (i : Int) : Nat :=
  if i < 0 then (c.size + i).toNat else i.toNat

/-- The text between two positions. -/
def slice (c : Cursor) (first last : Int) : List Char :=
  (c.source.drop (c.index first)).take (c.index last - c.index first)

/-- The unread text. -/
def rest (c : Cursor) : List Char := c.source.drop (c.index c.pos)

/-- The unread text, for messages. -/
def restText (c : Cursor) : String := String.ofList c.rest

/-- The number of characters that reading can still move over. -/
def remaining (c : Cursor) : Nat := (c.size - c.pos).toNat

/-- Whether nothing is left to read. -/
def atEnd (c : Cursor) : Bool := c.size ≤ c.pos

/-! ### Looking ahead -/

/-- The characters that lie ahead of a position, in the order in which reading meets them. -/
def upcoming (c : Cursor) (i : Int) : List Char :=
  if i < 0 then c.source.drop (c.index i) ++ c.source else c.source.drop i.toNat

/-- The least position that any text could have: that of a signed 64-bit word. -/
def leastPosition : Int := -0x8000000000000000

/-- The characters that lie ahead of a position, which must not be before the text. -/
def ahead (c : Cursor) (i : Int) : Except Fault (List Char) :=
  if 0 ≤ i || -c.size ≤ i then .ok (c.upcoming i)
  else if i < leastPosition then .error .unaddressable
  else .error .outOfText

/-- The character at some distance from the position; none at the end of the text or beyond, and a
fault before its start. -/
def peekAt (c : Cursor) (offset : Int) : Except Fault (Option Char) :=
  (c.ahead (c.pos + offset)).map List.head?

/-- The character that lies ahead; none at the end of the text or beyond. -/
def peek (c : Cursor) : Except Fault (Option Char) := (c.ahead c.pos).map List.head?

/-- Whether the unread text starts with a given text. Beyond the end not even the empty text
does. -/
def startsWith (c : Cursor) (text : String) : Bool :=
  text.toList.isPrefixOf c.rest && c.pos ≤ c.size

/-- The length of the identifier with which a text starts: an ASCII letter, then ASCII letters and
digits. -/
def identifierLength : List Char → Nat
  | [] => 0
  | c :: more => if c.isAlpha then 1 + (more.takeWhile Char.isAlphanum).length else 0

/-- The position after the identifier that starts here; the present one if there is none. -/
def identifierEnd (c : Cursor) : Except Fault Int := do
  let text ← c.ahead c.pos
  .ok (c.pos + identifierLength text)

/-! ### Moving -/

/-- Moves by a number of characters, but not beyond the end. -/
def advance (c : Cursor) (n : Int) : Cursor := { c with pos := min (c.pos + n) c.size }

/-- Moves past the spaces that lie ahead. No other character counts as white space. -/
def skipSpaces (c : Cursor) : Except Fault Cursor := do
  let text ← c.ahead c.pos
  .ok { c with pos := c.pos + (text.takeWhile (· == ' ')).length }

/-- Moves past a token, which has to be exactly the one character that lies ahead, or empty at the
end of the text. -/
def expect (c : Cursor) (token : String) : Except Fault Cursor := do
  let next ← c.peek
  if next.toList = token.toList then .ok { c with pos := c.pos + 1 }
  else .error (.expectedToken token c.restText)

/-- Reads the identifier that starts here. -/
def readIdentifier (c : Cursor) : Except Fault (String × Cursor) := do
  let stop ← c.identifierEnd
  if stop = c.pos then .error (.expectedIdentifier c.restText)
  else .ok (String.ofList (c.slice c.pos stop), { c with pos := stop })

/-- Reads the number that starts here: an optional minus sign and as many digits as follow. -/
def readNumber (c : Cursor) : Except Fault (Binary64 × Cursor) := do
  let text ← c.ahead c.pos
  let (negative, more) := Literal.split text
  let digits := more.takeWhile Char.isDigit
  if digits = [] then .error (.expectedDigits c.restText)
  else
    let stop := c.pos + (if negative then 1 else 0) + digits.length
    let literal := c.slice c.pos stop
    match Literal.value? literal with
    | some x => .ok (x, { c with pos := stop })
    | none => .error (.literalOutOfRange (String.ofList literal))

/-- A cursor as text: its position and the unread text in quotes. -/
def inspect (c : Cursor) : String :=
  "Cursor(pos=" ++ toString c.pos ++ ", rest=" ++ String.ofList (Text.quoted c.rest) ++ ")"

/-! ### Positions within the text -/

/-- A position that is not negative sees the rest of the text. -/
theorem upcoming_of_nonneg (c : Cursor) {i : Int} (h : 0 ≤ i) :
    c.upcoming i = c.source.drop i.toNat := by
  simp [upcoming, Int.not_lt.2 h]

/-- A position that is not negative has that many characters before it. -/
theorem index_of_nonneg (c : Cursor) {i : Int} (h : 0 ≤ i) : c.index i = i.toNat := by
  simp [index, Int.not_lt.2 h]

/-- At a position that is not negative, what lies ahead is the unread text. -/
theorem upcoming_eq_rest (c : Cursor) (h : 0 ≤ c.pos) : c.upcoming c.pos = c.rest := by
  rw [upcoming_of_nonneg c h, rest, index_of_nonneg c h]

/-- Looking at a position that is not negative never fails. -/
theorem ahead_of_nonneg (c : Cursor) (h : 0 ≤ c.pos) : c.ahead c.pos = .ok c.rest := by
  simp [ahead, h, upcoming_eq_rest c h]

/-- At a position that is not negative the next character is that of the unread text. -/
theorem peek_of_nonneg (c : Cursor) (h : 0 ≤ c.pos) : c.peek = .ok c.rest.head? := by
  simp [peek, ahead_of_nonneg c h, Except.map]

end Cursor

/-! ### Single characters -/

/-- Whether a text is one character of a class. -/
def isSingle (p : Char → Bool) (s : String) : Bool :=
  match s.toList with
  | [c] => p c
  | _ => false

end SExprCalc
