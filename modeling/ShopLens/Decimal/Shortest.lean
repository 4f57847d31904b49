/-!
# ShopLens.Decimal.Shortest

The text of a binary64 number: the fewest decimal digits that read back as the number, the nearest of
those, always in positional notation.

A positive finite number is `m * 2 ^ q`. The reals that round to it form an interval whose ends lie
half-way to its neighbours; the ends belong to it iff `m` is even. The fewest digits are those on
the coarsest grid of multiples of a power of ten that meets the interval, and if a grid meets it, one
of the two grid points around the number does. All of it is exact arithmetic on natural numbers.
-/

namespace ShopLens.Decimal

/-! ## the interval of a number -/

/-- A number with the ends of the interval of reals that round to it, as numerators over one
denominator. -/
structure Rounding where
  /-- The number. -/
  value : Nat
  /-- The lower end. -/
  low : Nat
  /-- The upper end. -/
  high : Nat
  /-- The common denominator. -/
  den : Nat
  /-- Whether the ends round to the number as well. -/
  closed : Bool

/-- The interval of the positive finite number with the binary64 representation `bits`. -/
def Rounding.ofBits (bits : Nat) : Rounding :=
  let fraction := bits % Nat.pow 2 52
  let exponent := bits / Nat.pow 2 52 % Nat.pow 2 11
  let m := if exponent = 0 then fraction else fraction + Nat.pow 2 52
  -- The number is m * 2 ^ q; subnormal numbers share the exponent of the least normal ones.
  let q : Int := (max exponent 1 : Nat) - 1075
  -- Below a power of two the neighbour is half as far away.
  let below := if fraction = 0 ∧ 1 < exponent then 1 else 2
  let unit := Nat.pow 2 q.toNat
  { value := 4 * m * unit
    low := (4 * m - below) * unit
    high := (4 * m + 2) * unit
    den := 4 * Nat.pow 2 (-q).toNat
    closed := m % 2 = 0 }

/-! ## the coarsest grid -/

/-- The multiple of ten to the power `e` that lies in the interval and is nearest to the number, as
the factor of that power. Of two equally near ones it is the upper. -/
def Rounding.multiple? (i : Rounding) (e : Int) : Option Nat :=
  let step := i.den * Nat.pow 10 e.toNat
  let fine := Nat.pow 10 (-e).toNat
  let value := i.value * fine
  let inside (c : Nat) : Bool :=
    let x := c * step
    if i.closed then i.low * fine ≤ x && x ≤ i.high * fine
    else i.low * fine < x && x < i.high * fine
  let down := value / step
  let up := down + 1
  match inside down, inside up with
  | true, true => some (if value - down * step < up * step - value then down else up)
  | true, false => some down
  | false, true => some up
  | false, false => none

/-- The first grid with a hit, from ten to the power `e` downwards: the factor and the exponent. -/
def Rounding.coarsest (i : Rounding) : Nat → Int → Nat × Int
  | 0, e => (0, e)
  | k + 1, e =>
    match i.multiple? e with
    | some c => (c, e)
    | none => i.coarsest k (e - 1)

/-- The shortest decimal that reads back: a natural number and the power of ten it is taken times.
The search starts above every finite number and ends at a grid that holds all of them. -/
def Rounding.shortest (i : Rounding) : Nat × Int := i.coarsest 1400 309

/-! ## text -/

/-- The positional text of `c * 10 ^ e`. -/
def positional (c : Nat) (e : Int) : List Char :=
  let digits := Nat.toDigits 10 c
  if 0 ≤ e then digits ++ List.replicate e.toNat '0'
  else
    let places := (-e).toNat
    let padded := List.replicate (places + 1 - digits.length) '0' ++ digits
    let split := padded.length - places
    padded.take split ++ '.' :: padded.drop split

/-- The text of a binary64 number. -/
def text (x : Float) : String :=
  let bits := x.toBits.toNat
  let sign := if bits / Nat.pow 2 63 % 2 = 1 then "-" else ""
  let size := bits % Nat.pow 2 63
  if x.isNaN then "NaN"
  else if x.isInf then sign ++ "inf"
  else if size = 0 then sign ++ "0"
  else
    let (c, e) := (Rounding.ofBits size).shortest
    sign ++ String.ofList (positional c e)

end ShopLens.Decimal
