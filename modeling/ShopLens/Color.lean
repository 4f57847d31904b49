import ShopLens.Text.Blank
import ShopLens.Text.Quoted

/-!
# ShopLens.Color

Colors with an alpha channel and their hexadecimal text `#RRGGBBAA`.

* `Color.hex` writes a color, capital digits, alpha last.
* `Color.parse` reads `RRGGBB` or `RRGGBBAA` after white space, a `#` and a `0x` or `0X`, each of
  them optional; without alpha digits the color is opaque.
-/

namespace ShopLens

/-- A color with an alpha channel. -/
structure Color where
  red : UInt8
  green : UInt8
  blue : UInt8
  /-- How opaque the color is; 255 hides what lies below. -/
  alpha : UInt8
deriving DecidableEq, Repr

/-- A text that is no color. -/
structure ColorError where
  text : String
deriving DecidableEq, Repr

/-- The wording of a color error. -/
def ColorError.message (e : ColorError) : String := "invalid hex color: " ++ Text.quoted e.text

namespace Color

/-- Opaque red. -/
def opaqueRed : Color := ⟨255, 0, 0, 255⟩

/-- Opaque lime. -/
def lime : Color := ⟨0, 255, 0, 255⟩

/-- The same color with another alpha channel. -/
def withAlpha (c : Color) (alpha : UInt8) : Color := { c with alpha }

/-- The channels from red to alpha. -/
def toList (c : Color) : List UInt8 := [c.red, c.green, c.blue, c.alpha]

/-! ## writing -/

/-- The capital hexadecimal digit of a number below 16. -/
def hexDigit (n : Nat) : Char := Char.ofNat (if n < 10 then 48 + n else 55 + n)

/-- The two hexadecimal digits of a byte. -/
def hexByte (b : UInt8) : List Char := [hexDigit (b.toNat / 16), hexDigit (b.toNat % 16)]

/-- The characters of the text of a color. -/
def hexChars (c : Color) : List Char := '#' :: c.toList.flatMap hexByte

/-- The text of a color, `#RRGGBBAA`. -/
def hex (c : Color) : String := String.ofList c.hexChars

/-! ## reading -/

/-- The value of a hexadecimal digit, of either case. -/
def hexValue? (c : Char) : Option Nat :=
  if '0' ≤ c ∧ c ≤ '9' then some (c.toNat - 48)
  else if 'a' ≤ c ∧ c ≤ 'f' then some (c.toNat - 87)
  else if 'A' ≤ c ∧ c ≤ 'F' then some (c.toNat - 55)
  else none

/-- The byte that two characters write: two hexadecimal digits, or a plus sign and one digit. -/
def channel? (high low : Char) : Option UInt8 :=
  if high = '+' then (hexValue? low).map UInt8.ofNat
  else
    match hexValue? high, hexValue? low with
    | some h, some l => some (UInt8.ofNat (16 * h + l))
    | _, _ => none

/-- The color of 6 or 8 characters, two to a channel. -/
def channels? : List Char → Option Color
  | [r, r', g, g', b, b'] =>
    match channel? r r', channel? g g', channel? b b' with
    | some red, some green, some blue => some ⟨red, green, blue, 255⟩
    | _, _, _ => none
  | [r, r', g, g', b, b', a, a'] =>
    match channel? r r', channel? g g', channel? b b', channel? a a' with
    | some red, some green, some blue, some alpha => some ⟨red, green, blue, alpha⟩
    | _, _, _, _ => none
  | _ => none

/-- Drops one leading `#`. -/
def dropHash : List Char → List Char
  | '#' :: cs => cs
  | cs => cs

/-- Drops one leading `0x` or `0X`. -/
def dropRadix : List Char → List Char
  | '0' :: 'x' :: cs => cs
  | '0' :: 'X' :: cs => cs
  | cs => cs

/-- The color that the characters write. -/
def ofChars? (cs : List Char) : Option Color := channels? (dropRadix (dropHash (Text.trim cs)))

/-- Reads a color. -/
def parse (s : String) : Except ColorError Color :=
  match ofChars? s.toList with
  | some c => .ok c
  | none => .error ⟨s⟩

end Color

end ShopLens
