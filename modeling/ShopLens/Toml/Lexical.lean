import ShopLens.Color

/-!
# ShopLens.Toml.Lexical

The smallest parts of a TOML text: blanks, comments, ends of lines, quoted texts and keys. A reader
takes such a part off the front of a text; it fails where the text breaks the rules of TOML.
-/

namespace ShopLens.Toml

/-- A reader: what it reads off the front of a text, and the characters left. -/
abbrev Reader (α : Type) : Type := List Char → Option (α × List Char)

/-! ## blanks and comments -/

/-- Whether a character stands for a blank. -/
def isSpace (c : Char) : Bool := c == ' ' || c == '\t'

/-- Whether a character must not stand in comments and on lines of text. -/
def isForbidden (c : Char) : Bool := (c.toNat < 32 && c != '\t') || c.toNat == 127

/-- Drops the blanks at the front. -/
def dropSpaces (cs : List Char) : List Char := cs.dropWhile isSpace

/-- Drops one end of line. -/
def dropBreak? : List Char → Option (List Char)
  | '\n' :: r => some r
  | '\r' :: '\n' :: r => some r
  | _ => none

/-- Drops the characters of a comment up to the end of its line. -/
def dropComment? : List Char → Option (List Char)
  | [] => some []
  | '\n' :: r => some ('\n' :: r)
  | '\r' :: '\n' :: r => some ('\r' :: '\n' :: r)
  | c :: r => if isForbidden c then none else dropComment? r

/-- Drops what may stand behind a statement: blanks, a comment and the end of the line or text. -/
def endLine? (cs : List Char) : Option (List Char) :=
  match dropSpaces cs with
  | [] => some []
  | '#' :: r =>
    match dropComment? r with
    | none => none
    | some [] => some []
    | some r => dropBreak? r
  | r => dropBreak? r

/-- Drops blanks, comments and ends of lines. -/
def dropLoose? (cs : List Char) : Option (List Char) :=
  match dropSpaces cs with
  | '#' :: r =>
    match dropComment? r with
    | none => none
    | some r => if _ : r.length < cs.length then dropLoose? r else none
  | r =>
    match dropBreak? r with
    | none => some r
    | some s => if _ : s.length < cs.length then dropLoose? s else none
termination_by cs.length

/-! ## quoted texts -/

/-- The number that hexadecimal digits write. -/
def hexNumber? (cs : List Char) : Option Nat :=
  cs.foldlM (fun n c => (Color.hexValue? c).map (16 * n + ·)) 0

/-- Reads the character whose code the next `width` hexadecimal digits write. -/
def codePoint (width : Nat) : Reader Char := fun cs =>
  if (cs.take width).length = width then
    match hexNumber? (cs.take width) with
    | some n => if n.isValidChar then some (Char.ofNat n, cs.drop width) else none
    | none => none
  else none

/-- Reads an escape, of which the backslash has been read. -/
def escape : Reader Char
  | 'b' :: r => some ('\x08', r)
  | 'e' :: r => some ('\x1b', r)
  | 't' :: r => some ('\t', r)
  | 'n' :: r => some ('\n', r)
  | 'f' :: r => some ('\x0c', r)
  | 'r' :: r => some ('\r', r)
  | '"' :: r => some ('"', r)
  | '\\' :: r => some ('\\', r)
  | 'x' :: r => codePoint 2 r
  | 'u' :: r => codePoint 4 r
  | 'U' :: r => codePoint 8 r
  | _ => none

/-- Puts a character before what a reader has read. -/
def before (c : Char) : List Char × List Char → List Char × List Char
  | (text, rest) => (c :: text, rest)

/-- Reads a text between double quotes, of which the first has been read. -/
def basicText (cs : List Char) : Option (List Char × List Char) :=
  match cs with
  | [] => none
  | '"' :: r => some ([], r)
  | '\\' :: r =>
    match escape r with
    | none => none
    | some (c, s) => if _ : s.length ≤ r.length then (basicText s).map (before c) else none
  | c :: r => if isForbidden c then none else (basicText r).map (before c)
termination_by cs.length
decreasing_by all_goals grind

/-- Reads a text between single quotes, of which the first has been read. -/
def literalText : Reader (List Char)
  | [] => none
  | '\'' :: r => some ([], r)
  | c :: r => if isForbidden c then none else (literalText r).map (before c)

/-- Drops blanks and ends of lines. -/
def dropGap : List Char → List Char
  | '\r' :: '\n' :: r => dropGap r
  | c :: r => if isSpace c || c == '\n' then dropGap r else c :: r
  | [] => []

/-- Drops the gap behind a backslash at the end of a line. -/
def dropContinuation? (cs : List Char) : Option (List Char) :=
  (dropBreak? (dropSpaces cs)).map dropGap

/-- The end of a text between three equal quotes: up to two more of them belong to the text. -/
def longEnd (quote : Char) (cs : List Char) : List Char × List Char :=
  let extra := ((cs.take 2).takeWhile (· == quote)).length
  (List.replicate extra quote, cs.drop extra)

/-- Reads a text between three double quotes, of which the first three have been read. -/
def longBasicText (cs : List Char) : Option (List Char × List Char) :=
  match cs with
  | [] => none
  | '"' :: '"' :: '"' :: r => some (longEnd '"' r)
  | '\\' :: r =>
    match dropContinuation? r with
    | some s => if _ : s.length ≤ r.length then longBasicText s else none
    | none =>
      match escape r with
      | none => none
      | some (c, s) => if _ : s.length ≤ r.length then (longBasicText s).map (before c) else none
  | '\r' :: '\n' :: r => (longBasicText ('\n' :: r)).map (before '\r')
  | c :: r => if isForbidden c && c != '\n' then none else (longBasicText r).map (before c)
termination_by cs.length
decreasing_by all_goals grind

/-- Reads a text between three single quotes, of which the first three have been read. -/
def longLiteralText (cs : List Char) : Option (List Char × List Char) :=
  match cs with
  | [] => none
  | '\'' :: '\'' :: '\'' :: r => some (longEnd '\'' r)
  | '\r' :: '\n' :: r => (longLiteralText ('\n' :: r)).map (before '\r')
  | c :: r => if isForbidden c && c != '\n' then none else (longLiteralText r).map (before c)
termination_by cs.length
decreasing_by all_goals grind

/-- Drops the end of line right behind the opening quotes of a long text. -/
def dropFirstBreak (cs : List Char) : List Char := (dropBreak? cs).getD cs

/-- Reads a quoted text of any style. -/
def quotedText : Reader String := fun cs =>
  let chars :=
    match cs with
    | '"' :: '"' :: '"' :: r => longBasicText (dropFirstBreak r)
    | '"' :: r => basicText r
    | '\'' :: '\'' :: '\'' :: r => longLiteralText (dropFirstBreak r)
    | '\'' :: r => literalText r
    | _ => none
  chars.map fun (text, rest) => (String.ofList text, rest)

/-! ## keys -/

/-- Whether a character may stand in a key without quotes. -/
def isBareKey (c : Char) : Bool := c.isAlphanum || c == '-' || c == '_'

/-- Reads one part of a key. -/
def keyPart : Reader String
  | '"' :: r => (basicText r).map fun (text, rest) => (String.ofList text, rest)
  | '\'' :: r => (literalText r).map fun (text, rest) => (String.ofList text, rest)
  | cs =>
    if (cs.takeWhile isBareKey).isEmpty then none
    else some (String.ofList (cs.takeWhile isBareKey), cs.dropWhile isBareKey)

/-- Reads the parts of a key, with dots between them. -/
def keyParts (cs : List Char) : Option (List String × List Char) :=
  match keyPart cs with
  | none => none
  | some (part, r) =>
    match dropSpaces r with
    | '.' :: s =>
      if _ : (dropSpaces s).length < cs.length then
        (keyParts (dropSpaces s)).map fun (parts, rest) => (part :: parts, rest)
      else none
    | r => some ([part], r)
termination_by cs.length

/-- How many parts a key may have, and how deep lists and inline tables may nest. -/
def maxDepth : Nat := 80

/-- Reads a key: at most `maxDepth` parts with dots between them. -/
def key : Reader (List String) := fun cs =>
  (keyParts cs).filter fun (parts, _) => parts.length ≤ maxDepth

end ShopLens.Toml
