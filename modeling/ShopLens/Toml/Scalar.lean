import ShopLens.Decimal.Numeral
import ShopLens.Document
import ShopLens.Toml.Lexical

/-!
# ShopLens.Toml.Scalar

Numbers, truth values, dates and times in TOML, each from the characters that make it up.
-/

namespace ShopLens.Toml

/-! ## digits -/

/-- The digits of a number without the underscores between them; nothing if an underscore stands
elsewhere or there is no digit. -/
def digits? (isDigit : Char → Bool) : List Char → Option (List Char)
  | [] => none
  | [c] => if isDigit c then some [c] else none
  | c :: '_' :: r => if isDigit c then (digits? isDigit r).map (c :: ·) else none
  | c :: r => if isDigit c then (digits? isDigit r).map (c :: ·) else none

/-- The digits of a decimal number, which starts with a zero only if it is one. -/
def decimalDigits? (cs : List Char) : Option (List Char) :=
  match digits? Char.isDigit cs with
  | some ('0' :: _ :: _) => none
  | ds => ds

/-- Splits off a sign: whether it is negative, and the rest. -/
def splitSign : List Char → Bool × List Char
  | '-' :: r => (true, r)
  | '+' :: r => (false, r)
  | r => (false, r)

/-! ## integers -/

/-- The number that digits write in some base. -/
def inBase (base : Nat) (ds : List Char) : Nat :=
  ds.foldl (fun n c => base * n + (Color.hexValue? c).getD 0) 0

/-- Reads an integer in base 16, 8 or 2, which has no sign. -/
def radixInteger? : List Char → Option Nat
  | '0' :: 'x' :: r => (digits? (fun c => (Color.hexValue? c).isSome) r).map (inBase 16)
  | '0' :: 'o' :: r => (digits? (fun c => '0' ≤ c && c ≤ '7') r).map (inBase 8)
  | '0' :: 'b' :: r => (digits? (fun c => c == '0' || c == '1') r).map (inBase 2)
  | _ => none

/-- Reads a decimal integer. -/
def decimalInteger? (cs : List Char) : Option Int :=
  let (negative, r) := splitSign cs
  (decimalDigits? r).map fun ds =>
    if negative then -(Decimal.ofDigits ds : Int) else (Decimal.ofDigits ds : Int)

/-- The integer, if it has 128 bits with or without sign. -/
def withinBits? (n : Int) : Option Document :=
  if -Int.pow 2 127 ≤ n ∧ n < Int.pow 2 128 then some (.int n) else none

/-! ## floats -/

/-- The part of a number behind its point, with the point; nothing if it is not of digits. -/
def fraction? : List Char → Option (List Char)
  | [] => some []
  | '.' :: r => (digits? Char.isDigit r).map ('.' :: ·)
  | _ => none

/-- The exponent of a number, with its mark. -/
def exponentPart? : List Char → Option (List Char)
  | [] => some []
  | mark :: r =>
    if mark == 'e' || mark == 'E' then
      let (negative, ds) := splitSign r
      (digits? Char.isDigit ds).map fun ds => if negative then ['e', '-'] ++ ds else 'e' :: ds
    else none

/-- Reads a decimal number with a point or an exponent. Numbers beyond all floats are refused. -/
def decimalFloat? (cs : List Char) : Option Float :=
  let (negative, r) := splitSign cs
  let isMark (c : Char) : Bool := c == 'e' || c == 'E'
  let mantissa := r.takeWhile (!isMark ·)
  let whole := mantissa.takeWhile (· != '.')
  match decimalDigits? whole, fraction? (mantissa.drop whole.length),
      exponentPart? (r.drop mantissa.length) with
  | some ds, some places, some exponent =>
    match Decimal.float? (ds ++ places ++ exponent) with
    | some x => if x.isInf then none else some (if negative then -x else x)
    | none => none
  | _, _, _ => none

/-- Reads one of the words for infinity and not-a-number. -/
def specialFloat? (cs : List Char) : Option Float :=
  let (negative, word) := splitSign cs
  let x? :=
    if word = ['i', 'n', 'f'] then some Decimal.infinity
    else if word = ['n', 'a', 'n'] then some (0.0 / 0.0)
    else none
  x?.map fun x => if negative then -x else x

/-! ## dates and times -/

/-- The number that exactly `width` digits write. -/
def fixed? (width : Nat) (cs : List Char) : Option Nat :=
  if cs.length = width then Decimal.natural? cs else none

/-- The number of days of a month. -/
def daysIn (year month : Nat) : Nat :=
  if month = 2 then
    if year % 4 = 0 ∧ (year % 100 ≠ 0 ∨ year % 400 = 0) then 29 else 28
  else if month = 4 ∨ month = 6 ∨ month = 9 ∨ month = 11 then 30
  else 31

/-- Whether the characters are a date. -/
def isDate (cs : List Char) : Bool :=
  match cs with
  | [a, b, c, d, '-', e, f, '-', g, h] =>
    match fixed? 4 [a, b, c, d], fixed? 2 [e, f], fixed? 2 [g, h] with
    | some year, some month, some day =>
      1 ≤ month && month ≤ 12 && 1 ≤ day && day ≤ daysIn year month
    | _, _, _ => false
  | _ => false

/-- Whether the characters are an hour and a minute. -/
def isHourMinute (cs : List Char) : Bool :=
  match cs with
  | [a, b, ':', c, d] =>
    match fixed? 2 [a, b], fixed? 2 [c, d] with
    | some hour, some minute => hour ≤ 23 && minute ≤ 59
    | _, _ => false
  | _ => false

/-- Whether the characters are the seconds of a time, with or without a fraction. -/
def isSeconds (cs : List Char) : Bool :=
  (fixed? 2 (cs.take 2)).any (· ≤ 60)
    && match cs.drop 2 with
      | [] => true
      | '.' :: ds => !ds.isEmpty && ds.all Char.isDigit
      | _ => false

/-- Whether the characters are a time, with or without seconds. -/
def isTime (cs : List Char) : Bool :=
  isHourMinute (cs.take 5)
    && match cs.drop 5 with
      | [] => true
      | ':' :: r => isSeconds r
      | _ => false

/-- Whether the characters are the distance of a time to that of the meridian. -/
def isOffset (cs : List Char) : Bool :=
  match cs with
  | [] => true
  | [c] => c == 'Z' || c == 'z'
  | c :: r => (c == '+' || c == '-') && isHourMinute r

/-- Whether a character starts the distance to the time of the meridian. -/
def startsOffset (c : Char) : Bool := c == 'Z' || c == 'z' || c == '+' || c == '-'

/-- Whether the characters are a date, a time or both. -/
def isMoment (cs : List Char) : Bool :=
  isDate cs || isTime cs
    || (isDate (cs.take 10)
      && match cs.drop 10 with
        | c :: r =>
          (c == 'T' || c == 't' || c == ' ')
            && isTime (r.takeWhile (!startsOffset ·)) && isOffset (r.dropWhile (!startsOffset ·))
        | [] => false)

/-! ## all of them -/

/-- The value that some characters write. -/
def scalar? (cs : List Char) : Option Document :=
  if cs = ['t', 'r', 'u', 'e'] then some (.bool true)
  else if cs = ['f', 'a', 'l', 's', 'e'] then some (.bool false)
  else if isMoment cs then some (.date (String.ofList cs))
  else
    match radixInteger? cs, decimalInteger? cs, decimalFloat? cs, specialFloat? cs with
    | some n, _, _, _ => withinBits? n
    | _, some n, _, _ => withinBits? n
    | _, _, some x, _ => some (.float x)
    | _, _, _, some x => some (.float x)
    | _, _, _, _ => none

/-- Whether a character ends a value without quotes. -/
def endsScalar (c : Char) : Bool := " \t\n\r,]\x7d#=\"'[\x7b".contains c

/-- Reads a value without quotes. A space between a date and a time belongs to it. -/
def scalar : Reader Document := fun cs =>
  let word := cs.takeWhile (!endsScalar ·)
  let rest := cs.drop word.length
  let (word, rest) :=
    match rest with
    | ' ' :: r =>
      let time := r.takeWhile (!endsScalar ·)
      if isDate word && (time.head?.any Char.isDigit) then
        (word ++ ' ' :: time, r.drop time.length)
      else (word, rest)
    | _ => (word, rest)
  (scalar? word).map (·, rest)

end ShopLens.Toml
