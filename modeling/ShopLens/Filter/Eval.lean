import ShopLens.Filter.Error
import ShopLens.Filter.Lexer
import ShopLens.Filter.Parser
import ShopLens.Text.Search

/-!
# ShopLens.Filter.Eval

The value of an expression for a listed item, and rule texts as predicates.

* Where a truth value is needed, null counts as false and every other type is a fault. The right
  side of `&&` and `||` is looked at only if the left side does not decide.
* A comparison with null is false, whatever the operator. Numbers are compared as numbers, texts by
  code points; truth values and lists are the same or not and have no order.
* A method asked of null gives null.
-/

namespace ShopLens.Filter

/-! ## comparisons -/

namespace Comparison

/-- Whether an operator holds between two things that are ordered like this. -/
def holds : Comparison → Ordering → Bool
  | eq, o => o == .eq
  | ne, o => o != .eq
  | ge, o => o != .lt
  | le, o => o != .gt
  | gt, o => o == .gt
  | lt, o => o == .lt

/-- Whether an operator holds between two floats; none does if one of them is a NaN. -/
def holdsOfFloats (op : Comparison) (x y : Float) : Bool :=
  if x < y then op.holds .lt
  else if y < x then op.holds .gt
  else if x == y then op.holds .eq
  else false

/-- Whether an operator holds between two things of which only sameness is known. -/
def holdsOfSameness (op : Comparison) (kind : Value.Kind) (same : Bool) : Except EvalFault Bool :=
  match op with
  | eq => .ok same
  | ne => .ok !same
  | _ => .error (.unordered kind)

/-- Whether an operator holds between two values. -/
def apply (op : Comparison) (left right : Value) : Except EvalFault Bool :=
  match left, right with
  | .null, _ => .ok false
  | _, .null => .ok false
  | .int m, .int n => .ok (op.holds (compare m n))
  | .int m, .float y => .ok (op.holdsOfFloats (Float.ofInt m) y)
  | .float x, .int n => .ok (op.holdsOfFloats x (Float.ofInt n))
  | .float x, .float y => .ok (op.holdsOfFloats x y)
  | .str s, .str t => .ok (op.holds (compare s t))
  | .bool a, .bool b => op.holdsOfSameness .bool (a == b)
  | .list us, .list vs => op.holdsOfSameness .list (Value.sameAll us vs)
  | _, _ => .error (.incomparable left.kind right.kind)

end Comparison

/-! ## methods -/

/-- The number of elements of a list. -/
def countOf : Value → Except EvalFault Value
  | .null => .ok .null
  | .list items => .ok (.int items.length)
  | target => .error (.undefinedMethod Method.count.name target.kind)

/-- Whether a value holds another one. -/
def searchIn (how : Search) (target needle : Value) : Except EvalFault Value :=
  match how, target, needle with
  | _, .null, _ => .ok .null
  | .anywhere, .list items, needle => .ok (.bool (items.any (·.same needle)))
  | .anywhere, .str s, .str t => .ok (.bool (Text.within t s))
  | .atStart, .str s, .str t => .ok (.bool (Text.opens t s))
  | .atEnd, .str s, .str t => .ok (.bool (Text.closes t s))
  | how, target, _ => .error (.undefinedMethod (Method.search how).name target.kind)

/-! ## expressions -/

/-- The truth of a value. -/
def truth : Value → Except EvalFault Bool
  | .bool b => .ok b
  | .null => .ok false
  | v => .error (.expectedBool v.kind)

/-- The value of an expression for a listed item. -/
def Expr.eval (limits : AffixLimits) (l : Listing) : Expr → Except EvalFault Value
  | literal v => .ok v
  | field name => .ok (l.field name)
  | openCount kind => .ok (.int (limits.openCount l kind))
  | count target => do countOf (← target.eval limits l)
  | search how target needle => do
    let t ← target.eval limits l
    let n ← needle.eval limits l
    searchIn how t n
  | not e => do
    let b ← truth (← e.eval limits l)
    return .bool !b
  | and left right => do
    let b ← truth (← left.eval limits l)
    if b then return .bool (← truth (← right.eval limits l)) else return .bool false
  | or left right => do
    let b ← truth (← left.eval limits l)
    if b then return .bool true else return .bool (← truth (← right.eval limits l))
  | compare op left right => do
    let u ← left.eval limits l
    let v ← right.eval limits l
    return .bool (← op.apply u v)

/-- Whether an expression holds for a listed item. -/
def Expr.test (limits : AffixLimits) (l : Listing) (e : Expr) : Except EvalFault Bool := do
  match ← e.eval limits l with
  | .bool b => return b
  | .null => return false
  | v => throw (.notBool v.kind)

/-! ## texts -/

/-- The expression that a text writes. -/
def parse (text : String) : Except FilterError Expr :=
  match tokens text.toList with
  | .error e => .error e
  | .ok ts => parseTokens (byteLength text.toList) ts

/-- A condition on listed items, under given limits of affixes. -/
abbrev Predicate : Type := AffixLimits → Listing → Except FilterError Bool

/-- The condition that an expression states. -/
def Expr.predicate (e : Expr) : Predicate := fun limits l =>
  (e.test limits l).mapError .evaluation

/-- Whatever turns texts into conditions. -/
abbrev Compiler : Type := String → Except FilterError Predicate

/-- The condition that a text states in the filter language. -/
def compile : Compiler := fun text => (parse text).map Expr.predicate

end ShopLens.Filter
