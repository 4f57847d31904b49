import ShopLens.Command.Report
import ShopLens.Session.Basic

/-!
# ShopLens.Command.Check

The command that checks a rule folder: every rule file is compiled, whether or not a player uses it.
-/

namespace ShopLens

open ShopLens.Rule (prepare)

/-- The note on a number of open affixes that a rule asks for. -/
def thresholdNote (what : String) : Option Nat → String
  | none => ""
  | some n => s!" (open {what} >= {n})"

/-- The lines about a rule, and whether it is sound. -/
def checkSource (verbose : Bool) (s : RuleSource) : List String × Bool :=
  let name := s.entry.name
  match s.text with
  | .notLoaded => ([], true)
  | .unreadable message => ([s!"  FAIL {name}: {message}"], false)
  | .loaded text =>
    let prepared := prepare text
    let expression := if verbose then ["       " ++ prepared.expression] else []
    match ((Session.new {}).loadSources [s]).1 with
    | error :: _ => (s!"  FAIL {name}: {error.message}" :: expression, false)
    | [] =>
      let prefixes := thresholdNote "prefixes" prepared.thresholds.prefixes
      let suffixes := thresholdNote "suffixes" prepared.thresholds.suffixes
      (s!"  ok   {name}{prefixes}{suffixes}" :: expression, true)

/-- Loads all rules of a folder as if the player used them. -/
def RuleFolder.loadAll (f : RuleFolder) (fs : FileSystem) : Except RuleError LoadedRules :=
  match f.load fs [] with
  | .error e => .error e
  | .ok found => f.load fs (found.entries.map fun r => { r with enabled := true })

/-- Checks a rule folder; `verbose` shows the expression of every rule. -/
def checkFolder (fs : FileSystem) (f : RuleFolder) (verbose : Bool) : Report :=
  match f.loadAll fs with
  | .error e => .failure "" e.message
  | .ok loaded =>
    let results := loaded.sources.map (checkSource verbose)
    let count := loaded.sources.length
    let folder := loaded.folder
    .answer
      (unlines (s!"{count} rule file(s) in {folder}"
        :: loaded.errors.map (fun e => "  warning: " ++ e.message)
        ++ results.flatMap Prod.fst))
      (results.all Prod.snd)

end ShopLens
