import ShopLens.Command.Evaluate

/-!
# ShopLens.Command.Arguments

What the arguments of the command line ask for.
-/

namespace ShopLens

/-- What the command line asks for. -/
inductive Request where
  | check (folder : String) (custom : Option String) (verbose : Bool)
  | eval (trial : Trial)
  | settings
deriving DecidableEq, Repr

/-! ## arguments one by one -/

/-- An argument by its form. -/
inductive Argument where
  | flag (name : String)
  | option (name value : String)
  | plain (text : String)
deriving DecidableEq, Repr

/-- The long name of an option. -/
def longName (name : String) : String :=
  if name = "-v" then "--verbose" else if name = "-f" then "--field" else name

/-- The arguments by their form. An option that is not a flag takes the text behind its equals sign or
the next argument; two dashes end the options. -/
def classify (flags : List String) : List String → Except String (List Argument)
  | [] => .ok []
  | text :: rest =>
    let name := longName text
    let option := text.toList.takeWhile (· ≠ '=')
    if text = "--" then .ok (rest.map .plain)
    else if !text.startsWith "-" then (classify flags rest).map (.plain text :: ·)
    else if flags.contains name then (classify flags rest).map (.flag name :: ·)
    else if option.length < text.length then
      (classify flags rest).map
        (.option (longName (String.ofList option))
          (String.ofList (text.toList.drop (option.length + 1))) :: ·)
    else
      match rest with
      | value :: rest => (classify flags rest).map (.option name value :: ·)
      | [] => .error s!"a value is required for '{text}'"

/-! ## commands -/

/-- Takes an argument of the command that checks a rule folder. -/
def checkArgument (r : Option String × Option String × Bool) :
    Argument → Except String (Option String × Option String × Bool)
  | .plain text => if r.1.isNone then .ok (some text, r.2) else .error s!"unexpected argument '{text}'"
  | .flag _ => .ok (r.1, r.2.1, true)
  | .option name value =>
    if name = "--custom" then .ok (r.1, some value, r.2.2)
    else .error s!"unexpected argument '{name}'"

/-- An integer within bounds. -/
def boundedInteger (name value : String) (least greatest : Int) : Except String Int :=
  match Decimal.integer? value.toList with
  | some n => if least ≤ n ∧ n ≤ greatest then .ok n else .error s!"invalid value for '{name}'"
  | none => .error s!"invalid value for '{name}'"

/-- Takes an argument of the command that tries a rule. -/
def evalArgument (r : Option String × Trial) : Argument → Except String (Option String × Trial)
  | .plain text => if r.1.isNone then .ok (some text, r.2) else .error s!"unexpected argument '{text}'"
  | .flag name => .error s!"unexpected argument '{name}'"
  | .option name value =>
    let (text, t) := r
    if name = "--field" then .ok (text, { t with fields := t.fields ++ [value] })
    else if name = "--path" then .ok (text, { t with path := value })
    else if name = "--rarity" then .ok (text, { t with rarity := value })
    else if name = "--prefixes" then
      (boundedInteger name value Decimal.minInt Decimal.maxInt).map fun n =>
        (text, { t with prefixes := n })
    else if name = "--suffixes" then
      (boundedInteger name value Decimal.minInt Decimal.maxInt).map fun n =>
        (text, { t with suffixes := n })
    else if name = "--tab" then
      (boundedInteger name value (-0x80000000) 0x7fffffff).map fun n => (text, { t with tab := n })
    else .error s!"unexpected argument '{name}'"

/-- What the arguments ask for, or what is wrong with them. -/
def Request.parse : List String → Except String Request
  | "check" :: args => do
    let r ← (← classify ["--verbose"] args).foldlM checkArgument (none, none, false)
    match r with
    | (some folder, custom, verbose) => return .check folder custom verbose
    | (none, _) => throw "a folder is required"
  | "eval" :: args => do
    let r ← (← classify [] args).foldlM evalArgument (none, { expression := "" })
    match r with
    | (some expression, trial) => return .eval { trial with expression }
    | (none, _) => throw "an expression is required"
  | ["settings"] => return .settings
  | _ => throw "one of the commands check, eval and settings is required"

end ShopLens
