import ShopLens.Decimal.Shortest
import ShopLens.Text.Quoted

/-!
# ShopLens.Value

The dynamic values of the filter language: what the fields of an item hold and what expressions
produce. Sameness is structural: the type counts (`1` and `1.0` differ), lists are compared element
by element, and floats as numbers, so that a NaN is not the same as itself and the two zeros are.
-/

namespace ShopLens

/-- A value of the filter language. -/
inductive Value where
  | null
  | bool (b : Bool)
  | int (n : Int)
  | float (x : Float)
  | str (s : String)
  | list (items : List Value)
deriving Inhabited

namespace Value

/-- The types of values. -/
inductive Kind where
  | null
  | bool
  | int
  | float
  | str
  | list
deriving DecidableEq, Repr

/-- The name of a type in messages. -/
def Kind.name : Kind → String
  | null => "null"
  | bool => "bool"
  | int => "int"
  | float => "float"
  | str => "string"
  | list => "list"

/-- The type of a value. -/
def kind : Value → Kind
  | null => .null
  | bool _ => .bool
  | int _ => .int
  | float _ => .float
  | str _ => .str
  | list _ => .list

/-! ## sameness -/

mutual

/-- Structural sameness. -/
def same : Value → Value → Bool
  | null, null => true
  | bool a, bool b => a == b
  | int m, int n => m == n
  | float x, float y => x == y
  | str s, str t => s == t
  | list us, list vs => sameAll us vs
  | _, _ => false

/-- Structural sameness of lists, element by element. -/
def sameAll : List Value → List Value → Bool
  | [], [] => true
  | u :: us, v :: vs => same u v && sameAll us vs
  | _, _ => false

end

/-! ## views -/

/-- Whether there is no value. -/
def isNull : Value → Bool
  | null => true
  | _ => false

/-- The truth value, if the value is one. -/
def asBool? : Value → Option Bool
  | bool b => some b
  | _ => none

/-- The integer, if the value is one; a float is never cut to an integer. -/
def asInt? : Value → Option Int
  | int n => some n
  | _ => none

/-- The number, if the value is one; an integer is rounded to the nearest float. -/
def asFloat? : Value → Option Float
  | int n => some (Float.ofInt n)
  | float x => some x
  | _ => none

/-- The text, if the value is one. -/
def asStr? : Value → Option String
  | str s => some s
  | _ => none

/-- The elements, if the value is a list. -/
def asList? : Value → Option (List Value)
  | list items => some items
  | _ => none

/-! ## text -/

mutual

/-- The text of a value: words for the constants, numbers in decimal, texts quoted and lists in
brackets. -/
def text : Value → String
  | null => "null"
  | bool b => if b then "true" else "false"
  | int n => toString n
  | float x => Decimal.text x
  | str s => Text.quoted s
  | list items => "[" ++ textAll items ++ "]"

/-- The texts of the elements, with commas between them. -/
def textAll : List Value → String
  | [] => ""
  | [v] => text v
  | v :: vs => text v ++ ", " ++ textAll vs

end

end Value

end ShopLens
