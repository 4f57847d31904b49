import ShopLens.Command.Report
import ShopLens.Session.Basic

/-!
# ShopLens.Command.Evaluate

The command that tries a rule on an item made up on the command line.
-/

namespace ShopLens

open ShopLens.Rule (prepare)

/-- A rule and an item to try it on. -/
structure Trial where
  expression : String
  /-- Properties of the item, each a name and a value with an equals sign between them. -/
  fields : List String := []
  path : String := "Metadata/Items/Rings/Ring1"
  rarity : String := "Rare"
  prefixes : Int := 0
  suffixes : Int := 0
  tab : Int := 0
deriving DecidableEq, Repr

/-! ## the item -/

/-- The text between quotes, if there are two. -/
def betweenQuotes? (cs : List Char) : Option (List Char) :=
  match cs with
  | '"' :: r => if r.getLast? = some '"' then some r.dropLast else none
  | _ => none

/-- The value that a text looks like: a truth value, an integer or a float, else the text itself. A
value in quotes is a text. -/
def Value.ofText (s : String) : Value :=
  match betweenQuotes? s.toList with
  | some cs => .str (String.ofList cs)
  | none =>
    if s = "true" then .bool true
    else if s = "false" then .bool false
    else
      match Decimal.integer? s.toList, Decimal.float? s.toList with
      | some n, _ => .int n
      | none, some x => .float x
      | none, none => .str s

/-- The name and the value of a property. -/
def parseField (pair : String) : Except String (String × Value) :=
  let cs := pair.toList
  match cs.dropWhile (· ≠ '=') with
  | [] => .error s!"expected NAME=VALUE, got `{pair}`"
  | _ :: value =>
    let name := String.ofList (Text.trim (cs.takeWhile (· ≠ '=')))
    .ok (name, Value.ofText (String.ofList (Text.trim value)))

/-- The part of a path behind its last slash. -/
def lastPart (path : String) : String :=
  String.ofList (path.toList.reverse.takeWhile (· ≠ '/')).reverse

/-- The item of a trial with its own properties given. -/
def Trial.item (t : Trial) (own : List (String × Value)) : Item :=
  let fields := Fields.ofList (("Rarity", .str t.rarity) :: own)
  let counts := Fields.ofList
    [("Rarity", .str t.rarity), ("PrefixesCount", .int t.prefixes),
      ("SuffixesCount", .int t.suffixes)]
  let name := (fields.firstStr? ["Name", "BaseName"]).getD (lastPart t.path)
  { Item.plain 1 t.path name with fields, mods := .ok ⟨counts, []⟩ }

/-! ## the command -/

/-- A number that may be missing, in words. -/
def optionText : Option Nat → String
  | none => "None"
  | some n => s!"Some({n})"

/-- Tries a rule. -/
def Trial.report (t : Trial) : Report :=
  match t.fields.mapM parseField with
  | .error message => .failure "" message
  | .ok own =>
    let prepared := prepare t.expression
    let head :=
      ["expression: " ++ prepared.expression,
        "min open prefixes: " ++ optionText prepared.thresholds.prefixes,
        "min open suffixes: " ++ optionText prepared.thresholds.suffixes]
    let rule : RuleSource := ⟨{ name := "eval", location := "", enabled := true },
      .loaded t.expression⟩
    match (Session.new {}).loadSources [rule] with
    | (error :: _, _) => .failure (unlines head) error.message
    | ([], session) =>
      let l := Listing.shown (t.item own) .shopItem ⟨0, 0, 50, 50⟩ t.tab .zero
      let holds := session.isMatch l
      .answer
        (unlines (head ++
          ["open prefixes: " ++ toString (session.limits.openCount l .prefixMod),
            "open suffixes: " ++ toString (session.limits.openCount l .suffixMod),
            "matched: " ++ (if holds then "true" else "false")]))
        holds

end ShopLens
