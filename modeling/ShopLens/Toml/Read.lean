import ShopLens.Toml.Scalar
import ShopLens.Toml.Tables

/-!
# ShopLens.Toml.Read

TOML texts as documents. Values nest at most `maxDepth` deep. A statement ends with its line, but the
items of a list and the pairs of an inline table may stand on many lines, with comments.
-/

namespace ShopLens.Toml

/-! ## values -/

section Nested

variable (inner : Reader Document)

/-- Reads the items of a list up to its closing bracket. After the last item there may be a comma. -/
def items (cs : List Char) : Option (List Document × List Char) :=
  match dropLoose? cs with
  | none => none
  | some (']' :: r) => some ([], r)
  | some r =>
    match inner r with
    | none => none
    | some (d, r) =>
      match dropLoose? r with
      | some (']' :: r) => some ([d], r)
      | some (',' :: r) =>
        if _ : r.length < cs.length then (items r).map fun (ds, rest) => (d :: ds, rest) else none
      | _ => none
termination_by cs.length

/-- Reads a key and its value. Around the equals sign may stand what `skip` drops. -/
def pair (skip : List Char → Option (List Char)) : Reader (List String × Document) := fun cs =>
  match key cs with
  | none => none
  | some (k, r) =>
    match skip r with
    | some ('=' :: r) => ((skip r).bind inner).map fun (d, rest) => ((k, d), rest)
    | _ => none

/-- Reads the pairs of an inline table up to its closing brace. After the last pair there may be a
comma. -/
def pairs (es : Entries) (cs : List Char) : Option (Entries × List Char) :=
  match dropLoose? cs with
  | none => none
  | some ('\x7d' :: r) => some (es, r)
  | some r =>
    match pair inner dropLoose? r with
    | none => none
    | some ((k, d), r) =>
      match assign k d .header es, dropLoose? r with
      | some es, some ('\x7d' :: r) => some (es, r)
      | some es, some (',' :: r) => if _ : r.length < cs.length then pairs es r else none
      | _, _ => none
termination_by cs.length

/-- Reads an inline table, of which the opening brace has been read. -/
def inlineTable : Reader Document := fun cs =>
  (pairs inner [] cs).map fun (es, rest) => (.table (documents es), rest)

end Nested

/-- Reads a value in which lists and inline tables nest at most `levels` deep. -/
def value (levels : Nat) : Reader Document := fun cs =>
  match cs with
  | '"' :: _ => (quotedText cs).map fun (s, rest) => (.text s, rest)
  | '\'' :: _ => (quotedText cs).map fun (s, rest) => (.text s, rest)
  | '[' :: r =>
    match levels with
    | 0 => none
    | levels + 1 => (items (value levels) r).map fun (ds, rest) => (.list ds, rest)
  | '\x7b' :: r =>
    match levels with
    | 0 => none
    | levels + 1 => inlineTable (value levels) r
  | _ => scalar cs

/-! ## texts -/

/-- A text as far as it has been read. -/
structure Progress where
  entries : Entries := []
  header : List String := []

/-- Reads the key of a header, of which the opening bracket has been read. -/
def headerKey : Reader (List String) := fun cs =>
  match key (dropSpaces cs) with
  | none => none
  | some (k, r) =>
    match dropSpaces r with
    | ']' :: r => some (k, r)
    | _ => none

/-- Reads one statement up to the end of its line. -/
def statement (p : Progress) : Reader Progress := fun cs =>
  match dropSpaces cs with
  | [] => some (p, [])
  | '#' :: r => (endLine? ('#' :: r)).map (p, ·)
  | '\n' :: r => some (p, r)
  | '\r' :: r => (endLine? ('\r' :: r)).map (p, ·)
  | '[' :: '[' :: r =>
    match headerKey r with
    | some (k, ']' :: r) =>
      match openListed k p.entries, endLine? r with
      | some entries, some rest => some (⟨entries, k⟩, rest)
      | _, _ => none
    | _ => none
  | '[' :: r =>
    match headerKey r with
    | some (k, r) =>
      match openTable k p.entries, endLine? r with
      | some entries, some rest => some (⟨entries, k⟩, rest)
      | _, _ => none
    | none => none
  | r =>
    match pair (value maxDepth) (some ∘ dropSpaces) r with
    | some ((k, d), r) =>
      match assignUnder p.header k d p.entries, endLine? r with
      | some entries, some rest => some ({ p with entries }, rest)
      | _, _ => none
    | none => none

/-- Reads statements up to the end of the text. -/
def statements (p : Progress) (cs : List Char) : Option Progress :=
  if cs.isEmpty then some p
  else
    match statement p cs with
    | none => none
    | some (p, rest) => if _ : rest.length < cs.length then statements p rest else none
termination_by cs.length

/-- Drops a byte order mark at the front. -/
def dropMark : List Char → List Char
  | '\ufeff' :: cs => cs
  | cs => cs

/-- The document that a TOML text writes. -/
def read (text : String) : Option Document :=
  (statements {} (dropMark text.toList)).map fun p => .table (documents p.entries)

end ShopLens.Toml
