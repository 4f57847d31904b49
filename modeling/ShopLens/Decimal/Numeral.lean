/-!
# ShopLens.Decimal.Numeral

Reading numbers from decimal text.

* `integer?` reads a signed integer of 64 bits; a text out of range is no integer.
* `float?` reads a binary64 number: the nearest one, ties to the even significand. Besides digits
  with a point and an exponent it knows `inf`, `infinity` and `nan` in any letter case.
-/

namespace ShopLens.Decimal

/-! ## digits -/

/-- The value of an ASCII digit. -/
def digitValue (c : Char) : Nat := c.toNat - '0'.toNat

/-- The number that ASCII digits write, the most significant first. -/
def ofDigits (ds : List Char) : Nat := ds.foldl (fun n c => 10 * n + digitValue c) 0

/-- The number that a nonempty text of ASCII digits writes. -/
def natural? (ds : List Char) : Option Nat :=
  if ds ≠ [] ∧ ds.all Char.isDigit then some (ofDigits ds) else none

/-! ## integers -/

/-- The least 64-bit integer. -/
def minInt : Int := -0x8000000000000000

/-- The greatest 64-bit integer. -/
def maxInt : Int := 0x7fffffffffffffff

/-- The integer itself if it has 64 bits. -/
def within64? (n : Int) : Option Int := if minInt ≤ n ∧ n ≤ maxInt then some n else none

/-- Reads a 64-bit integer with an optional sign. -/
def integer? (cs : List Char) : Option Int :=
  match cs with
  | '-' :: ds => (natural? ds).bind fun n => within64? (-(n : Int))
  | '+' :: ds => (natural? ds).bind fun n => within64? n
  | ds => (natural? ds).bind fun n => within64? n

/-! ## floats -/

/-- Positive infinity. -/
def infinity : Float := 1.0 / 0.0

/-- The binary64 number nearest to the number that `ds` writes, times ten to the power `scale`.
Beyond the range of the exponents the answer is known without the power. -/
def scaled (ds : List Char) (scale : Int) : Float :=
  let significant := ds.dropWhile (· == '0')
  let magnitude := (significant.length : Int) + scale
  if significant.isEmpty || magnitude < -330 then 0.0
  else if 310 < magnitude then infinity
  else if 0 ≤ scale then Float.ofScientific (ofDigits significant) false scale.toNat
  else Float.ofScientific (ofDigits significant) true (-scale).toNat

/-- Reads an exponent part: nothing, or `e` with an optional sign and digits. -/
def exponent? (cs : List Char) : Option Int :=
  match cs with
  | [] => some 0
  | mark :: r =>
    if mark == 'e' || mark == 'E' then
      match r with
      | '-' :: ds => (natural? ds).map fun n => -(n : Int)
      | '+' :: ds => (natural? ds).map fun n => (n : Int)
      | ds => (natural? ds).map fun n => (n : Int)
    else none

/-- Reads digits with an optional point, at least one digit in all, and an optional exponent. -/
def unsigned? (cs : List Char) : Option Float :=
  let whole := cs.takeWhile Char.isDigit
  let afterWhole := cs.dropWhile Char.isDigit
  let places := match afterWhole with
    | '.' :: r => r.takeWhile Char.isDigit
    | _ => []
  let rest := match afterWhole with
    | '.' :: r => r.dropWhile Char.isDigit
    | r => r
  if (whole ++ places).isEmpty then none
  else (exponent? rest).map fun e => scaled (whole ++ places) (e - places.length)

/-- Reads a number without sign, or one of the words for infinity and not-a-number. -/
def magnitude? (cs : List Char) : Option Float :=
  let word := String.ofList (cs.map Char.toLower)
  if word == "inf" || word == "infinity" then some infinity
  else if word == "nan" then some (0.0 / 0.0)
  else unsigned? cs

/-- Reads a binary64 number with an optional sign. -/
def float? (cs : List Char) : Option Float :=
  match cs with
  | '-' :: r => (magnitude? r).map fun x => -x
  | '+' :: r => magnitude? r
  | r => magnitude? r

end ShopLens.Decimal
