import ShopLens.Decimal.Numeral
import ShopLens.Filter.Error
import ShopLens.Text.Blank
import ShopLens.Text.Letters

/-!
# ShopLens.Filter.Lexer

From the characters of an expression to its tokens.

`readToken` reads one token off the front of a text that starts with no blank. What it returns
carries the proof that the characters read and the characters left make up the text, and that at
least one was read; so `tokensFrom`, which skips blanks and reads tokens in turn, ends with the text
and knows the offset of each token in bytes.
-/

namespace ShopLens.Filter

open ShopLens.Text

/-! ## one token -/

/-- A token read off the front of `cs`. -/
structure Lexed (cs : List Char) where
  token : Token
  lexeme : List Char
  rest : List Char
  append_rest : lexeme ++ rest = cs
  lexeme_ne_nil : lexeme ≠ []

theorem Lexed.length_rest_lt {cs : List Char} (t : Lexed cs) : t.rest.length < cs.length := by
  have h := congrArg List.length t.append_rest
  have := List.length_pos_iff.mpr t.lexeme_ne_nil
  simp only [List.length_append] at h
  omega

/-- A token of one character. -/
def Lexed.one {c : Char} {r : List Char} (t : Token) : Lexed (c :: r) :=
  ⟨t, [c], r, rfl, by simp⟩

/-- A token of two characters. -/
def Lexed.two {c d : Char} {r : List Char} (t : Token) : Lexed (c :: d :: r) :=
  ⟨t, [c, d], r, rfl, by simp⟩

/-- The symbols that are one character and start no other symbol. -/
def single? (c : Char) : Option Symbol :=
  if c = '(' then some .lparen
  else if c = ')' then some .rparen
  else if c = ',' then some .comma
  else if c = '.' then some .dot
  else none

/-- The symbol `long` if an equals sign follows, else the symbol `short`. -/
def readMaybeEqual {c : Char} (long short : Symbol) : (r : List Char) → Lexed (c :: r)
  | '=' :: _ => .two (.sym long)
  | _ => .one (.sym short)

/-- A symbol that is the same character twice. -/
def readPair {c : Char} (s : Symbol) : (r : List Char) → Except SyntaxFault (Lexed (c :: r))
  | [] => .error (.expectedPair c)
  | d :: _ => if d = c then .ok (.two (.sym s)) else .error (.expectedPair c)

/-- The character that an escape stands for: a line feed, a tab, or the character itself. -/
def unescape (c : Char) : Char :=
  if c = 'n' then '\n' else if c = 't' then '\t' else c

/-- The body of a text literal, up to its closing quote. -/
structure TextBody (cs : List Char) where
  meant : List Char
  /-- The characters read, the closing quote included. -/
  raw : List Char
  rest : List Char
  append_rest : raw ++ rest = cs

/-- The body with one more character in front, read as `c` and meant as `d`. -/
def TextBody.cons {cs : List Char} (c d : Char) (b : TextBody cs) : TextBody (c :: cs) :=
  ⟨d :: b.meant, c :: b.raw, b.rest, by simp [b.append_rest]⟩

/-- The body with an escape in front. -/
def TextBody.consEscape {cs : List Char} (e : Char) (b : TextBody cs) :
    TextBody ('\\' :: e :: cs) :=
  ⟨unescape e :: b.meant, '\\' :: e :: b.raw, b.rest, by simp [b.append_rest]⟩

/-- Reads the body of a text literal; nothing if it does not end. -/
def textBody? : (cs : List Char) → Option (TextBody cs)
  | [] => none
  | '"' :: r => some ⟨[], ['"'], r, rfl⟩
  | ['\\'] => none
  | '\\' :: e :: r => (textBody? r).map (·.consEscape e)
  | c :: r => (textBody? r).map (·.cons c c)

/-- A text literal whose opening quote is `c`. -/
def readText (c : Char) (r : List Char) : Except SyntaxFault (Lexed (c :: r)) :=
  match textBody? r with
  | some b => .ok ⟨.str (String.ofList b.meant), c :: b.raw, b.rest, by simp [b.append_rest], by simp⟩
  | none => .error .unterminatedText

/-- A number. A dot without digits behind it belongs to the next token. -/
def readNumber (c : Char) (r : List Char) : Except SyntaxFault (Lexed (c :: r)) :=
  let whole := r.takeWhile Char.isDigit
  match h : r.dropWhile Char.isDigit with
  | '.' :: d :: after =>
    if d.isDigit then
      let places := d :: after.takeWhile Char.isDigit
      .ok ⟨.float (Decimal.scaled (c :: whole ++ places) (-places.length)),
        c :: whole ++ '.' :: places, after.dropWhile Char.isDigit,
        by simp [places, whole, List.takeWhile_append_dropWhile, ← h], by simp⟩
    else integer c r
  | _ => integer c r
where
  integer (c : Char) (r : List Char) : Except SyntaxFault (Lexed (c :: r)) :=
    let digits := c :: r.takeWhile Char.isDigit
    match Decimal.within64? (Decimal.ofDigits digits) with
    | some n => .ok ⟨.int n, digits, r.dropWhile Char.isDigit,
        by simp [digits, List.takeWhile_append_dropWhile], by simp [digits]⟩
    | none => .error (.integerRange (String.ofList digits))

/-- Whether a name may start with a character. -/
def isNameStart (c : Char) : Bool := isAlphabetic c || c == '_'

/-- Whether a name may go on with a character. -/
def isNamePart (c : Char) : Bool := isAlphanumeric c || c == '_'

/-- A name. -/
def readName (c : Char) (r : List Char) : Lexed (c :: r) :=
  ⟨.ident (String.ofList (c :: r.takeWhile isNamePart)), c :: r.takeWhile isNamePart,
    r.dropWhile isNamePart, by simp [List.takeWhile_append_dropWhile], by simp⟩

/-- Reads the token that starts with `c`. -/
def readToken (c : Char) (r : List Char) : Except SyntaxFault (Lexed (c :: r)) :=
  match single? c with
  | some s => .ok (.one (.sym s))
  | none =>
    if c = '!' then .ok (readMaybeEqual (.cmp .ne) .not r)
    else if c = '>' then .ok (readMaybeEqual (.cmp .ge) (.cmp .gt) r)
    else if c = '<' then .ok (readMaybeEqual (.cmp .le) (.cmp .lt) r)
    else if c = '&' then readPair .and r
    else if c = '|' then readPair .or r
    else if c = '=' then readPair (.cmp .eq) r
    else if c = '"' then readText c r
    else if c.isDigit then readNumber c r
    else if isNameStart c then .ok (readName c r)
    else .error (.unexpectedChar c)

/-! ## all tokens -/

/-- The length of a text in UTF-8. -/
def byteLength : List Char → Nat
  | [] => 0
  | c :: cs => c.utf8Size + byteLength cs

/-- The tokens of a text whose first character has the offset `pos`. -/
def tokensFrom (pos : Nat) (cs : List Char) : Except FilterError (List Placed) :=
  match cs with
  | [] => .ok []
  | c :: r =>
    if isBlank c then tokensFrom (pos + c.utf8Size) r
    else
      match readToken c r with
      | .error fault => .error (.malformed pos fault)
      | .ok t =>
        match tokensFrom (pos + byteLength t.lexeme) t.rest with
        | .error e => .error e
        | .ok ts => .ok (⟨t.token, pos⟩ :: ts)
termination_by cs.length
decreasing_by
  · simp
  · exact t.length_rest_lt

/-- The tokens of a text. -/
def tokens (cs : List Char) : Except FilterError (List Placed) := tokensFrom 0 cs

@[simp] theorem byteLength_nil : byteLength [] = 0 := rfl

@[simp] theorem byteLength_cons (c : Char) (cs : List Char) :
    byteLength (c :: cs) = c.utf8Size + byteLength cs := rfl

@[simp] theorem byteLength_append (cs ds : List Char) :
    byteLength (cs ++ ds) = byteLength cs + byteLength ds := by
  induction cs with
  | nil => simp
  | cons c cs ih => simp [ih, Nat.add_assoc]

theorem utf8ByteSize_ofList (cs : List Char) : (String.ofList cs).utf8ByteSize = byteLength cs := by
  induction cs with
  | nil => rfl
  | cons c cs ih =>
      rw [String.ofList_cons, String.utf8ByteSize_append, String.utf8ByteSize_singleton, ih,
        byteLength_cons]

theorem byteLength_toList (s : String) : byteLength s.toList = s.utf8ByteSize := by
  rw [← utf8ByteSize_ofList, String.ofList_toList]

end ShopLens.Filter
