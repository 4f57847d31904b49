import ShopLens.Text.Printable

/-!
# ShopLens.Text.Quoted

A text between double quotes, with everything that could mislead a reader escaped: quotes and
backslashes, line breaks, tabs and the null character by their short escapes; unprintable and
combining characters by their code point in hexadecimal, `\u{301}`.
-/

namespace ShopLens.Text

/-- The digits of `n` in base 16, small letters. -/
def hexDigits (n : Nat) : List Char := Nat.toDigits 16 n

/-- A character by its code point. -/
def codePoint (c : Char) : List Char := ['\\', 'u', '{'] ++ hexDigits c.toNat ++ ['}']

/-- A character as it stands between quotes. -/
def quotedChar (c : Char) : List Char :=
  match c with
  | '"' => ['\\', '"']
  | '\\' => ['\\', '\\']
  | '\n' => ['\\', 'n']
  | '\r' => ['\\', 'r']
  | '\t' => ['\\', 't']
  | '\x00' => ['\\', '0']
  | c => if isCombining c || !isPrintable c then codePoint c else [c]

/-- The text between double quotes. -/
def quote (cs : List Char) : List Char := '"' :: cs.flatMap quotedChar ++ ['"']

/-- The string between double quotes. -/
def quoted (s : String) : String := String.ofList (quote s.toList)

end ShopLens.Text
