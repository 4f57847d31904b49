import ShopLens.Text.Blank

/-!
# ShopLens.Rule.Lines

The lines of a rule text are alternatives. `joinLines` makes one line of them: blank lines vanish,
the others are trimmed, and between two of them stands `||`, or only a space where the second goes
on with the first. Line feed, carriage return and both together end a line.
-/

namespace ShopLens.Rule

open ShopLens.Text

/-! ## lines -/

/-- The text with every end of line written as a line feed. -/
def unifyBreaks : List Char → List Char
  | [] => []
  | '\r' :: '\n' :: r => '\n' :: unifyBreaks r
  | c :: r => (if c = '\r' then '\n' else c) :: unifyBreaks r

/-- The pieces of a text between its line feeds. -/
def pieces : List Char → List (List Char)
  | [] => [[]]
  | c :: r =>
    if c = '\n' then [] :: pieces r
    else
      match pieces r with
      | [] => [[c]]
      | p :: ps => (c :: p) :: ps

/-- The lines of a text that are not blank, trimmed. -/
def contentLines (cs : List Char) : List (List Char) :=
  ((pieces (unifyBreaks cs)).map trim).filter (· ≠ [])

/-! ## one line -/

/-- A line that starts with one of these goes on with the line before it. -/
def continuationMarks : List (List Char) :=
  [['&', '&'], ['|', '|'], [')'], [']'], [','], ['\x7d'], ['.']]

/-- A line that ends with one of these goes on in the next line. -/
def openingMarks : List Char := ['(', '\x7b', '[', ',', '&', '|']

/-- Whether a line goes on with the line before it. -/
def continues (line : List Char) : Bool := continuationMarks.any (·.isPrefixOf line)

/-- Whether a line goes on in the next line. -/
def opensNext (line : List Char) : Bool := line.getLast?.any openingMarks.contains

/-- What stands between two lines when they are joined. -/
def seam (line next : List Char) : List Char :=
  if continues next || opensNext line then [' '] else [' ', '|', '|', ' ']

/-- The lines as one. -/
def joinWithSeams : List (List Char) → List Char
  | [] => []
  | [l] => l
  | l :: m :: ls => l ++ seam l m ++ joinWithSeams (m :: ls)

/-- The text as one line. -/
def joinLines (cs : List Char) : List Char := joinWithSeams (contentLines cs)

end ShopLens.Rule
