/-!
# ShopLens.Toml.Write

Values in TOML. A text is written in the first of these styles that shows it as it is: between double
quotes, between single quotes, between three double quotes, between three single quotes; if none does,
with escapes between double quotes, three of them if the text has line ends.
-/

namespace ShopLens.Toml

/-! ## texts -/

/-- Whether a character is shown only by an escape. -/
def needsEscape (c : Char) : Bool :=
  (c.toNat < 32 && c != '\t' && c != '\n') || c.toNat == 127

/-- The length of the longest run of a character in a text. -/
def longestRun (c : Char) (cs : List Char) : Nat :=
  (cs.foldl (fun (run, longest) d => if d = c then (run + 1, max longest (run + 1)) else (0, longest))
    (0, 0)).2

/-- A number with four hexadecimal digits. -/
def hex4 (n : Nat) : List Char :=
  let digits := (Nat.toDigits 16 n).map Char.toUpper
  List.replicate (4 - digits.length) '0' ++ digits

/-- An escaped character. -/
def escaped (c : Char) : List Char :=
  if c = '\x08' then ['\\', 'b']
  else if c = '\t' then ['\\', 't']
  else if c = '\n' then ['\\', 'n']
  else if c = '\x0c' then ['\\', 'f']
  else if c = '\r' then ['\\', 'r']
  else if c = '"' then ['\\', '"']
  else if c = '\\' then ['\\', '\\']
  else ['\\', 'u'] ++ hex4 c.toNat

/-- The body of a text between double quotes. -/
def basicBody (cs : List Char) : List Char :=
  cs.flatMap fun c =>
    if needsEscape c || c == '\t' || c == '\n' || c == '"' || c == '\\' then escaped c else [c]

/-- The body of a text between three double quotes, of which `quotes` in a row have just been written:
line ends stay, and of more than two quotes in a row every third is escaped. -/
def longBasicBody (quotes : Nat) : List Char → List Char
  | [] => []
  | c :: cs =>
    if c = '"' then
      if quotes = 2 then escaped c ++ longBasicBody 0 cs else c :: longBasicBody (quotes + 1) cs
    else if needsEscape c || c == '\t' || c == '\\' then escaped c ++ longBasicBody 0 cs
    else c :: longBasicBody 0 cs

/-- A text between delimiters; after a long one the line ends if the text has line ends. -/
def between (delimiter : String) (hasLines : Bool) (body : List Char) : String :=
  delimiter ++ (if hasLines then "\n" else "") ++ String.ofList body ++ delimiter

/-- A text in TOML. -/
def ofText (s : String) : String :=
  let cs := s.toList
  let hasLines := cs.contains '\n'
  let hasEscapes := cs.any needsEscape
  let hasBackslash := cs.contains '\\'
  let doubles := longestRun '"' cs
  let singles := longestRun '\'' cs
  if !hasEscapes && !hasBackslash && doubles == 0 && !hasLines then
    between "\"" false (basicBody cs)
  else if !hasEscapes && singles == 0 && !hasLines then between "'" false cs
  else if !hasEscapes && !hasBackslash && doubles ≤ 2 then
    between "\"\"\"" hasLines (longBasicBody 0 cs)
  else if !hasEscapes && singles ≤ 2 then between "'''" hasLines cs
  else if hasLines then between "\"\"\"" true (longBasicBody 0 cs)
  else between "\"" false (basicBody cs)

/-! ## other values -/

/-- A truth value in TOML. -/
def ofBool (b : Bool) : String := if b then "true" else "false"

/-- A number in TOML. -/
def ofNat (n : Nat) : String := toString n

/-- A list in TOML, each item on a line of its own. -/
def ofItems (items : List String) : String :=
  "[\n" ++ String.join (items.map fun item => "    " ++ item ++ ",\n") ++ "]"

/-- A line that gives a name to a value in TOML. -/
def entry (name value : String) : String := name ++ " = " ++ value ++ "\n"

end ShopLens.Toml
