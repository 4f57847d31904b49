import ShopLens.Affix
import ShopLens.Filter.Token

/-!
# ShopLens.Filter.Expr

The expressions of the filter language, and the names of its functions and methods.
-/

namespace ShopLens.Filter

/-- The ways to look for a value in another one. -/
inductive Search where
  /-- Anywhere in a text, or as an element of a list. -/
  | anywhere
  | atStart
  | atEnd
deriving DecidableEq, Repr

/-- An expression over the fields of an item. -/
inductive Expr where
  | literal (value : Value)
  | field (name : String)
  /-- The number of affixes of a kind that the item may still get. -/
  | openCount (kind : AffixKind)
  | count (target : Expr)
  | search (how : Search) (target needle : Expr)
  | not (operand : Expr)
  | and (left right : Expr)
  | or (left right : Expr)
  | compare (op : Comparison) (left right : Expr)

/-- The constant that a name stands for. -/
def keyword? (name : String) : Option Value :=
  if name = "true" then some (.bool true)
  else if name = "false" then some (.bool false)
  else if name = "null" then some .null
  else none

/-- The function with a name. Functions count open affixes and take no argument. -/
def function? (name : String) : Option AffixKind :=
  if name = "OpenPrefixCount" then some .prefixMod
  else if name = "OpenSuffixCount" then some .suffixMod
  else none

/-- What may be asked of a value. -/
inductive Method where
  | count
  | search (how : Search)
deriving DecidableEq, Repr

namespace Method

/-- The method with a name. -/
def ofName? (name : String) : Option Method :=
  if name = "Contains" then some (search .anywhere)
  else if name = "StartsWith" then some (search .atStart)
  else if name = "EndsWith" then some (search .atEnd)
  else if name = "Count" then some count
  else none

/-- The name of a method. -/
def name : Method → String
  | search .anywhere => "Contains"
  | search .atStart => "StartsWith"
  | search .atEnd => "EndsWith"
  | count => "Count"

/-- The number of arguments that a method takes. -/
def arity : Method → Nat
  | count => 0
  | search _ => 1

/-- The expression that asks a method of a target, if the number of arguments is right. -/
def call? : Method → Expr → List Expr → Option Expr
  | count, target, [] => some (.count target)
  | search how, target, [needle] => some (.search how target needle)
  | _, _, _ => none

end Method

end ShopLens.Filter
