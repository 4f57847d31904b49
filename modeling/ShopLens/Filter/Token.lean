/-!
# ShopLens.Filter.Token

The tokens of the filter language.
-/

namespace ShopLens.Filter

/-- The comparison operators. -/
inductive Comparison where
  | eq
  | ne
  | ge
  | le
  | gt
  | lt
deriving DecidableEq, Repr

/-- Punctuation and operators. -/
inductive Symbol where
  | lparen
  | rparen
  | comma
  | dot
  | not
  | and
  | or
  | cmp (op : Comparison)
deriving DecidableEq, Repr

/-- A token. -/
inductive Token where
  | sym (s : Symbol)
  | int (n : Int)
  | float (x : Float)
  | str (s : String)
  | ident (name : String)
deriving DecidableEq

/-- A token and the offset in bytes at which it starts. -/
structure Placed where
  token : Token
  /-- The offset of its first byte. -/
  pos : Nat
deriving DecidableEq

/-- The name of a comparison operator in messages. -/
def Comparison.label : Comparison → String
  | eq => "Eq"
  | ne => "Ne"
  | ge => "Ge"
  | le => "Le"
  | gt => "Gt"
  | lt => "Lt"

/-- The name of a symbol in messages. -/
def Symbol.label : Symbol → String
  | lparen => "LParen"
  | rparen => "RParen"
  | comma => "Comma"
  | dot => "Dot"
  | not => "Not"
  | and => "And"
  | or => "Or"
  | cmp op => "Cmp(" ++ op.label ++ ")"

end ShopLens.Filter
