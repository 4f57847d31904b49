/-!
# ShopLens.Rule.Comments

Comments in rule texts: from `//` to the end of the line, and from `/*` to `*/` or to the end of the
text. Text literals hold no comments; a quote ends or starts a literal unless the character right
before it is a backslash.
-/

namespace ShopLens.Rule

/-- The part of a rule text in which a character stands. -/
inductive Region where
  | code
  | literal
  | lineComment
  | blockComment
deriving DecidableEq, Repr

/-- The region behind a character of code or of a literal; `escaped` says whether a backslash stands
before it. -/
def Region.after (region : Region) (escaped : Bool) (c : Char) : Region :=
  if c = '"' ∧ ¬escaped then
    match region with
    | code => literal
    | _ => code
  else region

/-- Removes the comments from the rest of a text that goes on in `region`; `escaped` says whether a
backslash stands before the rest. The end of a line stays. -/
def stripFrom : (region : Region) → (escaped : Bool) → List Char → List Char
  | _, _, [] => []
  | .lineComment, _, c :: r =>
    if c = '\n' then c :: stripFrom .code false r else stripFrom .lineComment false r
  | .blockComment, _, '*' :: '/' :: r => stripFrom .code false r
  | .blockComment, _, _ :: r => stripFrom .blockComment false r
  | .code, _, '/' :: '/' :: r => stripFrom .lineComment false r
  | .code, _, '/' :: '*' :: r => stripFrom .blockComment false r
  | region, escaped, c :: r => c :: stripFrom (region.after escaped c) (c == '\\') r

/-- Removes the comments from a text. -/
def stripComments (cs : List Char) : List Char := stripFrom .code false cs

end ShopLens.Rule
